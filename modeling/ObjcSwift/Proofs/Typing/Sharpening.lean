import ObjcSwift.Pass.Nullability
import ObjcSwift.Proofs.Graph.Lookups
import ObjcSwift.Typing.Snapshot

/-!
# Nullability and catalogues

An implicitly unwrapped type leaves open whether a value may be missing. Taking nullability over
from another declaration closes such places and opens none, so the number of open places, the
**slack** of a signature, goes down whenever anything changes.

A graph in which signatures have become sharper (`Graph.Sharpens`) has a catalogue with the same
entries in the same order, but with less slack in every type whose methods have changed. Aliases are
what makes this more than a sum over methods: an alias is a copy of an entry as it stands when the
alias is declared, so slack is compared all along the way, entry by entry
(`Catalog.declare_sharpens`). As entries have different names, the difference shows in a lookup
(`Catalog.exists_type?_ne`).
-/

namespace ObjcSwift

/-! ### Slack -/

/-- How many places of a type are open: one if it is implicitly unwrapped. -/
def SwiftType.slack (t : SwiftType) : Nat :=
  if t.isImplicitlyUnwrapped then 1 else 0

/-- How many places of a signature are open. -/
def Signature.slack (s : Signature) : Nat :=
  (s.parameters.map (·.type.slack)).sum + s.result.slack

theorem SwiftType.takeNullability_eq_or_slack_lt (t other : SwiftType) :
    t.takeNullability other = t ∨ (t.takeNullability other).slack < t.slack := by
  unfold takeNullability
  split_ifs with h
  · simp only [Bool.and_eq_true, Bool.not_eq_true'] at h
    right
    simp [slack, h.1.1, h.1.2]
  · exact Or.inl rfl

theorem takeParameters_eq_or_slack_lt (ps qs : List Parameter) :
    takeParameters ps qs = ps ∨
      ((takeParameters ps qs).map (·.type.slack)).sum < (ps.map (·.type.slack)).sum := by
  induction ps generalizing qs with
  | nil => exact Or.inl (by simp [takeParameters])
  | cons p ps ih =>
    cases qs with
    | nil => exact Or.inl rfl
    | cons q qs =>
      simp only [takeParameters, List.map_cons, List.sum_cons]
      rcases p.type.takeNullability_eq_or_slack_lt q.type with hp | hp <;>
        rcases ih qs with hps | hps
      · rw [hp, hps]
        exact Or.inl rfl
      · rw [hp]
        exact Or.inr (by omega)
      · rw [hps]
        exact Or.inr (by omega)
      · exact Or.inr (by omega)

/-- **Taking nullability over changes nothing or leaves less open.** -/
theorem Signature.takeNullability_eq_or_slack_lt (s other : Signature) :
    s.takeNullability other = s ∨ (s.takeNullability other).slack < s.slack := by
  unfold takeNullability slack
  rcases takeParameters_eq_or_slack_lt s.parameters other.parameters with hp | hp <;>
    rcases s.result.takeNullability_eq_or_slack_lt other.result with hr | hr
  · rw [hp, hr]
    exact Or.inl rfl
  · rw [hp]
    exact Or.inr (by simp only; omega)
  · rw [hr]
    exact Or.inr (by simp only; omega)
  · exact Or.inr (by simp only; omega)

/-! ### Sharper graphs -/

/-- A declaration is the same, or a method that leaves less open. -/
def Decl.Sharpens (d d' : Decl) : Prop :=
  d' = d ∨ ∃ m m' : MethodDecl, d = .method m ∧ d' = .method m' ∧
    m'.signature.slack < m.signature.slack

namespace Graph

/-- Every declaration of a graph is the same, or a method that leaves less open. -/
def Sharpens (g g' : Graph) : Prop :=
  List.Forall₂ (Option.Rel fun n n' : GraphNode => n.decl.Sharpens n'.decl) g.slots g'.slots

/-- A number stands for a method that leaves less open. -/
def SharpensAt (g g' : Graph) (id : DeclId) : Prop :=
  ∃ m m' : MethodDecl, g.get? id = some (.method m) ∧ g'.get? id = some (.method m') ∧
    m'.signature.slack < m.signature.slack

variable {g g' : Graph} {id : DeclId}

theorem Sharpens.refl (g : Graph) : g.Sharpens g := by
  refine List.forall₂_same.mpr fun slot _ => ?_
  cases slot with
  | none => exact .none
  | some n => exact .some (Or.inl rfl)

theorem forall₂_getElem? {α β : Type} {R : α → β → Prop} {as : List α} {bs : List β}
    (h : List.Forall₂ R as bs) (i : Nat) : Option.Rel R as[i]? bs[i]? := by
  induction h generalizing i with
  | nil => exact .none
  | cons hab _ ih =>
    cases i with
    | zero => exact .some hab
    | succ i => exact ih i

theorem forall₂_set {α β : Type} {R : α → β → Prop} {as : List α} {bs : List β} {a : α} {b : β}
    (h : List.Forall₂ R as bs) {i : Nat} (ha : as[i]? = some a) (hab : R a b) :
    List.Forall₂ R as (bs.set i b) := by
  induction h generalizing i with
  | nil => exact .nil
  | cons hcd hrest ih =>
    cases i with
    | zero =>
      obtain rfl := Option.some.inj ha
      exact .cons hab hrest
    | succ i => exact .cons hcd (ih ha)

/-- What is looked up in a sharper graph is the same, or a method that leaves less open. -/
theorem Sharpens.get?_eq_or (h : g.Sharpens g') (id : DeclId) :
    g'.get? id = g.get? id ∨ g.SharpensAt g' id := by
  have hslot := forall₂_getElem? h id.toNat
  unfold SharpensAt get? node?
  generalize g.slots[id.toNat]? = slot at hslot ⊢
  generalize g'.slots[id.toNat]? = slot' at hslot ⊢
  cases hslot with
  | none => exact Or.inl rfl
  | some hnode =>
    cases hnode with
    | none => exact Or.inl rfl
    | some hdecl =>
      rcases hdecl with hsame | ⟨m, m', hm, hm', hlt⟩
      · exact Or.inl (congrArg some hsame)
      · exact Or.inr ⟨m, m', congrArg some hm, congrArg some hm', hlt⟩

end Graph

/-! ### Entries of a sharper graph -/

/-- How many places of a member are open, as far as methods go. -/
def Member.slack : Member → Nat
  | method signature => signature.slack
  | _ => 0

namespace KnownType

/-- How many places of the methods of a type are open. -/
def slack (t : KnownType) : Nat :=
  (t.members.map Member.slack).sum

/-- A type has other members, which leave no more open. -/
def Sharpens (t t' : KnownType) : Prop :=
  t' = { t with members := t'.members } ∧ t'.slack ≤ t.slack

variable {t t' u u' : KnownType}

theorem Sharpens.refl (t : KnownType) : t.Sharpens t :=
  ⟨rfl, Nat.le_refl _⟩

theorem Sharpens.name_eq (h : t.Sharpens t') : t'.name = t.name := by
  rw [h.1]

theorem slack_absorb (t u : KnownType) : (t.absorb u).slack = t.slack + u.slack := by
  simp [slack, absorb]

theorem Sharpens.absorb (ht : t.Sharpens t') (hu : u.Sharpens u') :
    (t.absorb u).Sharpens (t'.absorb u') := by
  refine ⟨?_, ?_⟩
  · rw [ht.1, hu.1]
    rfl
  · rw [slack_absorb, slack_absorb]
    exact Nat.add_le_add ht.2 hu.2

theorem Sharpens.rename (h : t.Sharpens t') (name : String) :
    Sharpens { t with name } { t' with name } := by
  refine ⟨?_, h.2⟩
  rw [h.1]

end KnownType

namespace Graph

/-- How many places of a method are open. -/
def slackAt (g : Graph) (id : DeclId) : Nat :=
  (((g.get? id).bind Decl.method?).map (·.signature.slack)).getD 0

variable {g g' : Graph} {id : DeclId}

theorem SharpensAt.slackAt_lt (h : g.SharpensAt g' id) : g'.slackAt id < g.slackAt id := by
  obtain ⟨m, m', hm, hm', hlt⟩ := h
  unfold slackAt
  rw [hm, hm']
  exact hlt

theorem Sharpens.slackAt_le (h : g.Sharpens g') (id : DeclId) : g'.slackAt id ≤ g.slackAt id := by
  rcases h.get?_eq_or id with hsame | hat
  · exact Nat.le_of_eq (by rw [slackAt, slackAt, hsame])
  · exact Nat.le_of_lt hat.slackAt_lt

/-- Several methods of a sharper graph leave no more open, and less if one of them does. -/
theorem Sharpens.sum_slackAt (h : g.Sharpens g') (ids : List DeclId) :
    (ids.map g'.slackAt).sum ≤ (ids.map g.slackAt).sum ∧
      ((∃ id ∈ ids, g.SharpensAt g' id) →
        (ids.map g'.slackAt).sum < (ids.map g.slackAt).sum) := by
  induction ids with
  | nil =>
    refine ⟨Nat.le_refl _, ?_⟩
    rintro ⟨id, hid, -⟩
    exact absurd hid (by simp)
  | cons id ids ih =>
    have hle := h.slackAt_le id
    rw [List.map_cons, List.map_cons, List.sum_cons, List.sum_cons]
    refine ⟨by omega, ?_⟩
    rintro ⟨id', hid', hat⟩
    rcases List.mem_cons.mp hid' with rfl | hid'
    · have hlt := hat.slackAt_lt
      omega
    · have hlt := ih.2 ⟨id', hid', hat⟩
      omega

/-- What is not a method is the same in a sharper graph. -/
theorem Sharpens.view_eq {α : Type} (h : g.Sharpens g') {view : Decl → Option α}
    (hview : ∀ m, view (.method m) = none) (id : DeclId) :
    (g'.get? id).bind view = (g.get? id).bind view := by
  rcases h.get?_eq_or id with hsame | ⟨m, m', hm, hm', -⟩
  · rw [hsame]
  · rw [hm, hm', Option.bind_some, Option.bind_some, hview, hview]

end Graph

namespace TypeDecl

variable {g g' : Graph}

/-- The slack of an entry is that of the methods of the type. -/
theorem slack_known (g : Graph) (d : TypeDecl) :
    (d.known g).slack = (d.methods.map g.slackAt).sum := by
  have hnone : ∀ (f : DeclId → Option Member) (ids : List DeclId),
      (∀ id m, f id = some m → m.slack = 0) → ((ids.filterMap f).map Member.slack).sum = 0 := by
    intro f ids hf
    rw [List.sum_eq_zero_iff_forall_eq_nat]
    intro k hk
    obtain ⟨m, hm, rfl⟩ := List.mem_map.mp hk
    obtain ⟨id, -, hid⟩ := List.mem_filterMap.mp hm
    exact hf id m hid
  have hmethods : ∀ ids : List DeclId, ((ids.filterMap fun id => do
      let m ← (g.get? id).bind Decl.method?
      return Member.method m.signature).map Member.slack).sum = (ids.map g.slackAt).sum := by
    intro ids
    induction ids with
    | nil => rfl
    | cons id ids ih =>
      rw [List.map_cons, List.sum_cons, ← ih, List.filterMap_cons, Graph.slackAt]
      cases (g.get? id).bind Decl.method? with
      | none => simp
      | some m => simp [Member.slack]
  unfold KnownType.slack known knownMembers
  simp only [List.map_append, List.sum_append]
  -- Instance variables and properties leave nothing open.
  rw [hmethods, hnone _ _ ?_, hnone _ _ ?_, Nat.zero_add, Nat.add_zero]
  · intro id m hm
    cases hv : (g.get? id).bind Decl.ivar? with
    | none => simp [hv] at hm
    | some v =>
      obtain rfl : Member.field v.name v.storage.type = m := by simpa [hv] using hm
      rfl
  · intro id m hm
    cases hp : (g.get? id).bind Decl.property? with
    | none => simp [hp] at hm
    | some p =>
      obtain rfl : Member.property p.name p.storage.type p.isStatic = m := by simpa [hp] using hm
      rfl

/-- **An entry of a sharper graph leaves no more open**, and less if one of its methods does. -/
theorem known_sharpens (h : g.Sharpens g') (d : TypeDecl) : (d.known g).Sharpens (d.known g') ∧
    ((∃ id ∈ d.methods, g.SharpensAt g' id) → (d.known g').slack < (d.known g).slack) := by
  rw [KnownType.Sharpens, slack_known, slack_known]
  obtain ⟨hle, hlt⟩ := h.sum_slackAt d.methods
  refine ⟨⟨?_, hle⟩, hlt⟩
  unfold known
  simp only [h.view_eq (fun _ => rfl : ∀ m, Decl.conformance? (.method m) = none)]

end TypeDecl

/-! ### Catalogues of sharper graphs -/

namespace Catalog

variable {g g' : Graph} {c c' : Catalog} {t t' : KnownType} {ts ts' : List KnownType}

/-- How many places of the methods of all types are open. -/
def slack (c : Catalog) : Nat :=
  (c.types.map KnownType.slack).sum

/-- The types of a catalogue have other members, which leave no more open; all else is the same. -/
structure Sharpens (c c' : Catalog) : Prop where
  /-- Types become types with other members, one by one. -/
  types : List.Forall₂ KnownType.Sharpens c.types c'.types
  /-- Globals are the same. -/
  globals : c'.globals = c.globals

theorem sum_slack_le (h : List.Forall₂ KnownType.Sharpens ts ts') :
    (ts'.map KnownType.slack).sum ≤ (ts.map KnownType.slack).sum := by
  induction h with
  | nil => exact Nat.le_refl _
  | cons ht _ ih =>
    rw [List.map_cons, List.sum_cons, List.map_cons, List.sum_cons]
    exact Nat.add_le_add ht.2 ih

theorem sum_slack_insertType (t : KnownType) (ts : List KnownType) :
    ((insertType t ts).map KnownType.slack).sum = (ts.map KnownType.slack).sum + t.slack := by
  induction ts with
  | nil => simp [insertType]
  | cons u us ih =>
    unfold insertType
    split
    · simp only [List.map_cons, List.sum_cons, KnownType.slack_absorb]
      omega
    · simp only [List.map_cons, List.sum_cons, ih]
      omega

theorem slack_addType (c : Catalog) (t : KnownType) : (c.addType t).slack = c.slack + t.slack :=
  sum_slack_insertType t c.types

theorem forall₂_insertType (hts : List.Forall₂ KnownType.Sharpens ts ts')
    (ht : t.Sharpens t') :
    List.Forall₂ KnownType.Sharpens (insertType t ts) (insertType t' ts') := by
  induction hts with
  | nil => exact .cons ht .nil
  | cons hu hus ih =>
    unfold insertType
    rw [hu.name_eq, ht.name_eq]
    split
    · exact .cons (hu.absorb ht) hus
    · exact .cons hu ih

theorem Sharpens.addType (hc : c.Sharpens c') (ht : t.Sharpens t') :
    (c.addType t).Sharpens (c'.addType t') :=
  ⟨forall₂_insertType hc.types ht, hc.globals⟩

/-- A name refers to entries that correspond. -/
theorem rel_find? (hts : List.Forall₂ KnownType.Sharpens ts ts') (name : String) :
    Option.Rel KnownType.Sharpens (ts.find? (·.name == name)) (ts'.find? (·.name == name)) := by
  induction hts with
  | nil => exact .none
  | cons hu _ ih =>
    rw [List.find?_cons, List.find?_cons, hu.name_eq]
    split
    · exact .some hu
    · exact ih

theorem Sharpens.layeredOn (hc : c.Sharpens c') (below : Catalog) :
    (c.layeredOn below).Sharpens (c'.layeredOn below) := by
  refine ⟨?_, ?_⟩
  · exact List.rel_append hc.types (List.forall₂_same.mpr fun t _ => .refl t)
  · rw [Catalog.layeredOn, Catalog.layeredOn, hc.globals]

theorem Sharpens.start_eq (hc : c.Sharpens c') (name : String) (kind : KnownKind) :
    c'.start name kind = c.start name kind := by
  have hrel := rel_find? hc.types name
  unfold start type?
  generalize c.types.find? (·.name == name) = found at hrel ⊢
  generalize c'.types.find? (·.name == name) = found' at hrel ⊢
  cases hrel <;> rfl

/-- **One more declaration keeps a catalogue sharper**, strictly so if it was before, or if a method
of the declared type leaves less open. -/
theorem declare_sharpens (h : g.Sharpens g') (hc : c.Sharpens c') {d d' : Decl}
    (hd : d.Sharpens d') : (c.declare g d).Sharpens (c'.declare g' d') ∧
      ((c'.slack < c.slack ∨ ∃ t, d = .type t ∧ ∃ id ∈ t.methods, g.SharpensAt g' id) →
        (c'.declare g' d').slack < (c.declare g d).slack) := by
  have hle : c'.slack ≤ c.slack := sum_slack_le hc.types
  -- What declares no type leaves the slack as it is.
  have hkeep : (∀ t, d ≠ .type t) →
      (c'.slack < c.slack ∨ ∃ t, d = .type t ∧ ∃ id ∈ t.methods, g.SharpensAt g' id) →
        c'.slack < c.slack := by
    rintro hd (hlt | ⟨t, rfl, -⟩)
    · exact hlt
    · exact absurd rfl (hd t)
  rcases hd with rfl | ⟨m, m', rfl, rfl, -⟩
  · cases d' with
    | type d =>
      obtain ⟨hknown, hlt⟩ := d.known_sharpens h
      have hentry := (KnownType.Sharpens.refl (c.start d.name d.knownKind)).absorb hknown
      simp only [declare, hc.start_eq]
      refine ⟨hc.addType hentry, fun hstrict => ?_⟩
      rw [slack_addType, slack_addType, KnownType.slack_absorb, KnownType.slack_absorb]
      have hknown_le := hknown.2
      rcases hstrict with hlt' | ⟨t, ht, hid⟩
      · omega
      · obtain rfl : d = t := by simpa using ht
        have hknown_lt := hlt hid
        omega
    | globalFunction d =>
      refine ⟨⟨hc.types, ?_⟩, hkeep (by simp)⟩
      simp only [declare, addGlobal, hc.globals]
    | globalVariable d =>
      refine ⟨⟨hc.types, ?_⟩, hkeep (by simp)⟩
      simp only [declare, addGlobal, hc.globals]
    | typeAlias d =>
      have hrel : Option.Rel KnownType.Sharpens (d.aliased.name?.bind (c.layeredOn builtin).type?)
          (d.aliased.name?.bind (c'.layeredOn builtin).type?) := by
        cases d.aliased.name? with
        | none => exact .none
        | some name => exact rel_find? (hc.layeredOn builtin).types name
      simp only [declare]
      generalize d.aliased.name?.bind (c.layeredOn builtin).type? = found at hrel ⊢
      generalize d.aliased.name?.bind (c'.layeredOn builtin).type? = found' at hrel ⊢
      cases hrel with
      | none => exact ⟨hc, hkeep (by simp)⟩
      | some ht =>
        refine ⟨hc.addType (ht.rename d.name), fun hstrict => ?_⟩
        have hlt := hkeep (by simp) hstrict
        have hle' := (ht.rename d.name).2
        rw [slack_addType, slack_addType]
        omega
    | _ => exact ⟨hc, hkeep (by simp)⟩
  · exact ⟨hc, hkeep (by simp)⟩

/-- Several declarations keep a catalogue sharper. -/
theorem foldl_declare_sharpens (h : g.Sharpens g') {ds ds' : List Decl}
    (hds : List.Forall₂ Decl.Sharpens ds ds') (hc : c.Sharpens c') :
    (ds.foldl (declare g) c).Sharpens (ds'.foldl (declare g') c') ∧
      ((c'.slack < c.slack ∨ ∃ t, .type t ∈ ds ∧ ∃ id ∈ t.methods, g.SharpensAt g' id) →
        (ds'.foldl (declare g') c').slack < (ds.foldl (declare g) c).slack) := by
  induction hds generalizing c c' with
  | nil => exact ⟨hc, fun hstrict => by simpa using hstrict⟩
  | cons hd _ ih =>
    obtain ⟨hc₁, hlt₁⟩ := declare_sharpens h hc hd
    obtain ⟨hc₂, hlt₂⟩ := ih hc₁
    refine ⟨hc₂, fun hstrict => hlt₂ ?_⟩
    rcases hstrict with hlt | ⟨t, ht, hid⟩
    · exact Or.inl (hlt₁ (Or.inl hlt))
    · rcases List.mem_cons.mp ht with rfl | ht
      · exact Or.inl (hlt₁ (Or.inr ⟨t, rfl, hid⟩))
      · exact Or.inr ⟨t, ht, hid⟩

/-- A catalogue is made from the declarations, slot by slot. -/
theorem declared_eq (g : Graph) :
    declared g = (g.slots.filterMap fun slot => slot.map (·.decl)).foldl (declare g) {} := by
  have hlive : ∀ (slots : List (Option GraphNode)) (k : Nat),
      (slots.zipIdx k).filterMap (fun entry => entry.1.map fun n => n.decl) =
        slots.filterMap fun slot => slot.map (·.decl) := by
    intro slots
    induction slots with
    | nil => exact fun _ => rfl
    | cons slot slots ih =>
      intro k
      cases slot <;> simp [ih]
  rw [declared, Graph.live, ← hlive g.slots 0, List.foldl_filterMap, List.foldl_filterMap]
  congr 1
  funext c entry
  obtain ⟨slot, i⟩ := entry
  cases slot <;> rfl

/-- **The catalogue of a sharper graph leaves less open** if a method of some type does. -/
theorem declared_sharpens (h : g.Sharpens g') : (declared g).Sharpens (declared g') ∧
    ((∃ id t, g.get? id = some (.type t) ∧ ∃ m ∈ t.methods, g.SharpensAt g' m) →
      (declared g').slack < (declared g).slack) := by
  have hdecls : ∀ {slots slots' : List (Option GraphNode)},
      List.Forall₂ (Option.Rel fun n n' : GraphNode => n.decl.Sharpens n'.decl) slots slots' →
        List.Forall₂ Decl.Sharpens (slots.filterMap fun slot => slot.map (·.decl))
          (slots'.filterMap fun slot => slot.map (·.decl)) := by
    intro slots slots' hslots
    induction hslots with
    | nil => exact .nil
    | cons hslot _ ih =>
      cases hslot with
      | none => exact ih
      | some hn => exact .cons hn ih
  obtain ⟨hc, hlt⟩ := foldl_declare_sharpens h (hdecls h) (⟨.nil, rfl⟩ : Sharpens {} {})
  rw [declared_eq, declared_eq]
  refine ⟨hc, fun hstrict => hlt (Or.inr ?_)⟩
  obtain ⟨id, t, ht, hm⟩ := hstrict
  obtain ⟨n, hn, hd⟩ := Option.map_eq_some_iff.mp ht
  refine ⟨t, List.mem_filterMap.mpr ⟨some n, ?_, ?_⟩, hm⟩
  · exact Graph.mem_slots_of_node? hn
  · rw [Option.map_some, hd]

/-! ### Telling catalogues apart -/

/-- One more type adds no name, or its own if it is new. -/
theorem map_name_insertType (t : KnownType) (ts : List KnownType) :
    (insertType t ts).map (·.name) = ts.map (·.name) ∨
      t.name ∉ ts.map (·.name) ∧ (insertType t ts).map (·.name) = ts.map (·.name) ++ [t.name] := by
  induction ts with
  | nil => exact Or.inr ⟨by simp, rfl⟩
  | cons u us ih =>
    unfold insertType
    split
    · exact Or.inl rfl
    · rename_i hne
      have hne' : t.name ≠ u.name := fun he => hne (by simp [he])
      rcases ih with hsame | ⟨hnew, happend⟩
      · exact Or.inl (by simp [hsame])
      · exact Or.inr ⟨by simpa [hne'] using hnew, by simp [happend]⟩

theorem nodup_insertType (h : (ts.map (·.name)).Nodup) (t : KnownType) :
    ((insertType t ts).map (·.name)).Nodup := by
  rcases map_name_insertType t ts with hsame | ⟨hnew, happend⟩
  · rwa [hsame]
  · rw [happend]
    exact List.nodup_append.mpr ⟨h, by simp, by
      rintro name hname name' hname' rfl
      rw [List.mem_singleton] at hname'
      exact hnew (hname' ▸ hname)⟩

/-- The types that a graph declares have different names. -/
theorem nodup_declared (g : Graph) : ((declared g).types.map (·.name)).Nodup := by
  have hstep : ∀ (c : Catalog) (d : Decl), (c.types.map (·.name)).Nodup →
      ((c.declare g d).types.map (·.name)).Nodup := by
    intro c d hc
    cases d with
    | type d => exact nodup_insertType hc _
    | typeAlias d =>
      simp only [declare]
      split
      · exact nodup_insertType hc _
      · exact hc
    | _ => exact hc
  have hall : ∀ (ds : List Decl) (c : Catalog), (c.types.map (·.name)).Nodup →
      ((ds.foldl (declare g) c).types.map (·.name)).Nodup := by
    intro ds
    induction ds with
    | nil => exact fun c hc => hc
    | cons d ds ih => exact fun c hc => ih (c.declare g d) (hstep c d hc)
  rw [declared_eq]
  exact hall _ {} List.nodup_nil

/-- Types of different names are told by what the names refer to. -/
theorem eq_of_find?_eq (below : List KnownType) (hts : List.Forall₂ KnownType.Sharpens ts ts')
    (hnodup : (ts.map (·.name)).Nodup) (h : ∀ name : String,
      (ts' ++ below).find? (·.name == name) = (ts ++ below).find? (·.name == name)) : ts' = ts := by
  induction hts with
  | nil => rfl
  | @cons t t' ts ts' ht hts ih =>
    rw [List.map_cons, List.nodup_cons] at hnodup
    obtain rfl : t' = t := by
      have hfirst := h t.name
      simp only [List.cons_append, List.find?_cons, ht.name_eq, beq_self_eq_true] at hfirst
      exact Option.some.inj hfirst
    rw [ih hnodup.2 fun name => ?_]
    by_cases hname : name = t'.name
    · -- The name is not among the others, so it refers to what is below on both sides.
      subst hname
      have hnone : ts.find? (·.name == t'.name) = none := by
        rw [List.find?_eq_none]
        intro u hu
        rw [beq_iff_eq]
        intro he
        exact hnodup.1 (List.mem_map.mpr ⟨u, hu, he⟩)
      have hnone' : ts'.find? (·.name == t'.name) = none := by
        have hrel := rel_find? hts t'.name
        rw [hnone] at hrel
        cases hother : ts'.find? (·.name == t'.name) with
        | none => rfl
        | some u =>
          rw [hother] at hrel
          cases hrel
      rw [List.find?_append, List.find?_append, hnone, hnone']
    · have hother := h name
      have hne : (t'.name == name) = false := by simpa using fun he => hname he.symm
      simpa only [List.cons_append, List.find?_cons, hne] using hother

/-- **The catalogue of a sharper graph answers differently** for the name of some type. -/
theorem exists_type?_ne (h : g.Sharpens g')
    (hstrict : ∃ id t, g.get? id = some (.type t) ∧ ∃ m ∈ t.methods, g.SharpensAt g' m) :
    ∃ name, (ofGraph g').type? name ≠ (ofGraph g).type? name := by
  obtain ⟨hc, hlt⟩ := declared_sharpens h
  by_contra hsame
  have htypes : (declared g').types = (declared g).types := by
    refine eq_of_find?_eq builtin.types hc.types (nodup_declared g) fun name => ?_
    by_contra hne
    exact hsame ⟨name, hne⟩
  have hslack := hlt hstrict
  unfold slack at hslack
  rw [htypes] at hslack
  exact absurd hslack (Nat.lt_irrefl _)

end Catalog

end ObjcSwift
