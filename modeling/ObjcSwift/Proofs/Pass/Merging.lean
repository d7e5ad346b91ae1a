import ObjcSwift.Proofs.Pass.Unifying

/-!
# Merging two declarations of a type

The pass takes the members of one declaration of a type, the source, and gives them to another one,
the target. Whether a member **donates** (`TypeMerge.Donates`) is the same question for all four
kinds: it stands in the source, and source and target have one key. What differs is by what the pass
recognises a like in the target. This always amounts to equal member keys, so the four kinds need no
more than the two ways of giving a member away: it is moved, or removed in favour of its like
(`TypeMerge.Donates.outcome_relocate`), and if there is a body to be saved, the like takes it first
(`TypeMerge.Donates.outcome_setDecl_relocate`).

That the pass gets through the lists of the source at all is `TypeMerge.Draining`. Both invariants
are carried through the same loops here; when the lists are drained nothing stands in the source any
more, and it can go (`TypeMerge.succeeds_mergeType_unifies`).
-/

namespace ObjcSwift.TypeMerge

open ObjcSwift.Graph ObjcSwift.Graph.Edit

variable {g g₀ g' : Graph} {id kept target source : DeclId} {list : ChildList} {key : MergeKey}
  {decl d d' : Decl} {left : ChildList → List DeclId} {rest : List DeclId}

/-! ### One member -/

/-- What is found among the members of a type stands there, and is as asked for. -/
theorem finds_findMember {lists : TypeDecl → List DeclId} {p : Decl → Bool} (list : ChildList)
    (hlists : ∀ d, lists d = (Decl.type d).listOf list) (hc : g.outline.Consistent none)
    (ht : g.kind? target = some (some .types)) :
    Finds (findMember g target lists p) fun found => ∀ kept ∈ found, ∃ d,
      g.node? kept = some ⟨some target, d⟩ ∧ d.ownList? = some list ∧ p d = true := by
  refine (finds_typed Decl.view_type ht).bind ?_
  rintro d ⟨n, hn, hd⟩
  refine finds_pure fun kept hkept => ?_
  have hmem := List.mem_of_find?_eq_some hkept
  rw [hlists, ← hd, ← listOf_of_node? hn] at hmem
  obtain ⟨⟨parent, decl⟩, hnode, hparent, hlist⟩ :=
    exists_node?_of_place? (hc.mem_listOf_iff.mp hmem)
  obtain rfl : parent = some target := hparent
  refine ⟨decl, hnode, hlist, ?_⟩
  have hp := List.find?_some hkept
  rwa [get?, hnode] at hp

/-- A member of the source that is to be merged into the target. -/
structure Donates (g : Graph) (target source id : DeclId) (list : ChildList) (key : MergeKey)
    (decl : Decl) : Prop where
  /-- Owners and lists agree. -/
  consistent : g.outline.Consistent none
  /-- The member stands in the source. -/
  node?_eq : g.node? id = some ⟨some source, decl⟩
  /-- It is of the kind of a list. -/
  ownList?_eq : decl.ownList? = some list
  /-- The list is one of a type. -/
  home_eq : list.home = some .types
  /-- The source is not the target. -/
  ne : source ≠ target
  /-- The source has a key. -/
  source_key : g.mergeKey? source = some key
  /-- The target has the same. -/
  target_key : g.mergeKey? target = some key

namespace Donates

variable (h : Donates g target source id list key decl)
include h

theorem list_ne : list ≠ .types := by
  rintro rfl
  exact absurd h.home_eq (by decide)

/-- No member is a type, so it has no key of its own. -/
theorem mergeKey?_eq_none : g.mergeKey? id = none := by
  refine Option.eq_none_iff_forall_ne_some.mpr fun key hkey => h.list_ne ?_
  have hkind := kind?_of_mergeKey? hkey
  rw [kind?_of_node? h.node?_eq, h.ownList?_eq] at hkind
  simpa using hkind

theorem takesPart : g.TakesPart id ∧ g.TakesPart source := by
  refine ⟨.inr (.inr ?_), .inr (.inl (by simp [h.source_key]))⟩
  rw [groupOf?, parent?, h.node?_eq, Option.bind_some, Option.bind_some, h.source_key]
  simp

theorem ne_of_node? (hkept : g.node? kept = some ⟨some target, d⟩) : kept ≠ id := by
  rintro rfl
  obtain ⟨hsame, -⟩ := GraphNode.mk.inj (Option.some.inj (h.node?_eq.symm.trans hkept))
  exact h.ne (Option.some.inj hsame)

/-- The two types have one key, so members of them are filed under the same keys if their own keys
agree. -/
theorem filed?_eq (hkept : g.node? kept = some ⟨some target, d⟩)
    (hkey : d.memberKey? = decl.memberKey?) : g.filed? kept = g.filed? id := by
  have hmember : g.memberKey? kept = g.memberKey? id := by
    rw [memberKey?, memberKey?, get?, get?, hkept, h.node?_eq]
    exact hkey
  have hgroup : g.groupOf? kept = g.groupOf? id := by
    rw [groupOf?, groupOf?, parent?, parent?, hkept, h.node?_eq]
    exact h.target_key.trans h.source_key.symm
  rw [filed?, filed?, hgroup, hmember]

/-- **Moving or removing the member loses nothing**, if it is removed for another one that is filed
under the same keys and has a body if this one has one. -/
theorem outcome_relocate {found : Option DeclId} (hfound : ∀ kept ∈ found, kept ≠ id ∧
      g.filed? kept = g.filed? id ∧ (g.methodCode? id ≠ none → g.methodCode? kept ≠ none)) :
    (relocate id target found.isSome).Outcome g (fun _ g' => Unifies g g') fun _ _ => True := by
  unfold relocate
  cases found with
  | none =>
    rw [Option.isSome_none, if_neg (by simp)]
    have hq : g.kind? target = some list.home := by
      rw [h.home_eq, kind?_of_mergeKey? h.target_key]
    have hmove : (moveTo id target).Succeeds g fun _ g' => Edited (fun _ => True) g g' ∧
        g.Enters id (some ⟨some target, decl.childless⟩) [target, source] g' :=
      succeeds_moveTo_enters h.consistent h.node?_eq h.ownList?_eq hq
    exact hmove.outcome.mono (fun _ g' h' =>
      .of_move h'.1 h'.2 h.node?_eq h.ownList?_eq h.list_ne h.source_key h.target_key)
      fun _ _ hx => hx
  | some kept =>
    obtain ⟨hne, hfiled, hbody⟩ := hfound kept rfl
    have hleaf := listOf_member h.ownList?_eq h.home_eq
    have hempty : ∀ j, g.parent? j ≠ some id :=
      (forall_listOf_eq_nil_iff h.consistent).mp fun l => by rw [listOf_of_node? h.node?_eq, hleaf]
    have hdrop : (remove id).Succeeds g fun _ g' => Edited (· = id) g g' ∧
        g.Enters id none [source] g' :=
      succeeds_remove_enters h.consistent h.node?_eq hleaf
    rw [Option.isSome_some, if_pos rfl, outcome_discard]
    refine hdrop.outcome.mono (fun _ g' h' => ?_) fun _ _ hx => hx
    refine .of_drop (h'.1.mono fun _ _ => trivial) h'.2 h.node?_eq h.ownList?_eq h.takesPart.1
      h.takesPart.2 hempty (fun key hkey => ?_) fun x hx => ⟨kept, hne, hfiled.trans hx, hbody⟩
    -- A member is no type, so no key goes with it.
    exact absurd (h.mergeKey?_eq_none.symm.trans hkey) (by simp)

/-- Rewriting the like of the member loses nothing if it keeps its keys and takes the body when it
has none. The member is still to be given away. -/
theorem succeeds_setDecl (hkept : g.node? kept = some ⟨some target, d⟩)
    (hlist : d.ownList? = some list) (halike : d.Alike d')
    (hkey : d.memberKey? = decl.memberKey?) (hkey' : d'.memberKey? = d.memberKey?)
    (hcode : d'.code? = d.code?.or decl.code?) :
    (setDecl kept d').Succeeds g fun _ g₁ => Unifies g g₁ ∧
      Donates g₁ target source id list key decl ∧ g₁.filed? = g.filed? ∧
      ∀ j, g₁.methodCode? j = if j = kept then d'.code? else g.methodCode? j := by
  -- Members are no types, before and after.
  have hnone : ∀ {e : Decl}, e.ownList? = some list →
      e.mergeKey? = none ∧ e.isExtension? = none := by
    intro e he
    cases e with
    | type _ => exact absurd (Option.some.inj he).symm h.list_ne
    | _ => exact ⟨rfl, rfl⟩
  obtain ⟨hmerge, hextension⟩ := hnone hlist
  obtain ⟨hmerge', hextension'⟩ := hnone (halike.2.trans hlist)
  have hset : (setDecl kept d').Succeeds g fun _ g' => Edited (fun _ => True) g g' ∧
      g.Enters kept (some ⟨some target, d'.childless⟩) [] g' :=
    succeeds_setDecl_enters h.consistent hkept halike
  refine hset.mono fun _ g₁ h₁ => ?_
  obtain ⟨he, henters⟩ := h₁
  obtain ⟨hkeys, -, -, hfileds, hcodes⟩ :=
    henters.rewrite hkept (hmerge'.trans hmerge.symm) (hextension'.trans hextension.symm) hkey'
  refine ⟨?_, { h with
    consistent := he.consistent
    node?_eq := (henters.node?_eq id (h.ne_of_node? hkept).symm (by simp)).trans h.node?_eq
    source_key := by rw [hkeys, h.source_key]
    target_key := by rw [hkeys, h.target_key] }, hfileds, hcodes⟩
  refine .of_rewrite he henters hkept hlist (.inr (.inr ?_)) (hmerge'.trans hmerge.symm)
    (hextension'.trans hextension.symm) hkey' (fun code hc => ?_) fun hc => ?_
  · rw [groupOf?, parent?, hkept, Option.bind_some, Option.bind_some, h.target_key]
    simp
  · rw [hcode, Option.or_eq_some_iff] at hc
    rcases hc with hc | ⟨-, hc⟩
    · exact ⟨kept, rfl, by rw [methodCode?, get?, hkept]; exact hc⟩
    · refine ⟨id, (h.filed?_eq hkept hkey).symm, ?_⟩
      rw [methodCode?, get?, h.node?_eq]
      exact hc
  · rw [hcode, ne_eq, Option.or_eq_none_iff]
    exact fun hnone => hc hnone.1

/-- **Giving the member to its like in the target loses nothing**, if that one keeps its keys and
takes the body when it has none. -/
theorem outcome_setDecl_relocate (hkept : g.node? kept = some ⟨some target, d⟩)
    (hlist : d.ownList? = some list) (halike : d.Alike d')
    (hkey : d.memberKey? = decl.memberKey?) (hkey' : d'.memberKey? = d.memberKey?)
    (hcode : d'.code? = d.code?.or decl.code?) :
    (do setDecl kept d'; relocate id target true : Edit Unit).Outcome g
      (fun _ g' => Unifies g g') fun _ _ => True := by
  have hne := h.ne_of_node? hkept
  rw [outcome_bind]
  refine (h.succeeds_setDecl hkept hlist halike hkey hkey' hcode).outcome.mono
    (fun _ g₁ h₁ => ?_) fun _ _ hx => hx
  obtain ⟨hu, hdonates, hfiled, hcodes⟩ := h₁
  have hfound : ∀ k ∈ some kept, k ≠ id ∧ g₁.filed? k = g₁.filed? id ∧
      (g₁.methodCode? id ≠ none → g₁.methodCode? k ≠ none) := by
    rintro k hk
    obtain rfl := Option.some.inj hk
    refine ⟨hne, by rw [hfiled, h.filed?_eq hkept hkey], fun hbody => ?_⟩
    rw [methodCode?, get?, hdonates.node?_eq] at hbody
    rw [hcodes, if_pos rfl, hcode, ne_eq, Option.or_eq_none_iff]
    exact fun hnone => hbody hnone.2
  exact (hdonates.outcome_relocate hfound).mono (fun _ g₂ h₂ => hu.trans h₂) fun _ _ hx => hx

end Donates

/-! ### The members of a type -/

/-- A member without a body can be merged with what has its key. -/
theorem Donates.outcome_relocate_like {found : Option DeclId}
    (h : Donates g target source id list key decl) (hcode : decl.code? = none)
    (hfound : ∀ kept ∈ found, ∃ d,
      g.node? kept = some ⟨some target, d⟩ ∧ d.memberKey? = decl.memberKey?) :
    (relocate id target found.isSome).Outcome g (fun _ g' => Unifies g g') fun _ _ => True := by
  refine h.outcome_relocate fun kept hkept => ?_
  obtain ⟨d, hnode, hkey⟩ := hfound kept hkept
  refine ⟨h.ne_of_node? hnode, h.filed?_eq hnode hkey, fun hbody => absurd ?_ hbody⟩
  rw [methodCode?, get?, h.node?_eq]
  exact hcode

theorem outcome_mergeConformance_unifies
    (h : Donates g target source id .conformances key decl) :
    (mergeConformance target id).Outcome g (fun _ g' => Unifies g g') fun _ _ => True := by
  obtain ⟨c, rfl⟩ := Decl.view_conformance.exists_make decl h.ownList?_eq
  rw [mergeConformance, outcome_bind]
  refine (outcome_look_of_node? Decl.view_conformance h.node?_eq).mpr ?_
  obtain ⟨found, hok, hfound⟩ := finds_findMember (p := fun d =>
    d.conformance?.any (·.name == c.name)) .conformances (fun _ => rfl) h.consistent
    (kind?_of_mergeKey? h.target_key)
  rw [outcome_bind, outcome_look_ok hok]
  refine h.outcome_relocate_like rfl fun kept hkept => ?_
  obtain ⟨d, hnode, hlist, hp⟩ := hfound kept hkept
  obtain ⟨k, rfl⟩ := Decl.view_conformance.exists_make d hlist
  have hname : k.name = c.name := by simpa [Decl.conformance?] using hp
  exact ⟨_, hnode, by rw [Decl.memberKey?, Decl.memberKey?, hname]⟩

theorem outcome_mergeIvar_unifies (h : Donates g target source id .ivars key decl) :
    (mergeIvar target id).Outcome g (fun _ g' => Unifies g g') fun _ _ => True := by
  obtain ⟨v, rfl⟩ := Decl.view_ivar.exists_make decl h.ownList?_eq
  rw [mergeIvar, outcome_bind]
  refine (outcome_look_of_node? Decl.view_ivar h.node?_eq).mpr ?_
  obtain ⟨found, hok, hfound⟩ := finds_findMember (p := fun d => d.ivar?.any (·.name == v.name))
    .ivars (fun _ => rfl) h.consistent (kind?_of_mergeKey? h.target_key)
  rw [outcome_bind, outcome_look_ok hok]
  refine h.outcome_relocate_like rfl fun kept hkept => ?_
  obtain ⟨d, hnode, hlist, hp⟩ := hfound kept hkept
  obtain ⟨k, rfl⟩ := Decl.view_ivar.exists_make d hlist
  have hname : k.name = v.name := by simpa [Decl.ivar?] using hp
  exact ⟨_, hnode, by rw [Decl.memberKey?, Decl.memberKey?, hname]⟩

theorem outcome_mergeProperty_unifies (h : Donates g target source id .properties key decl) :
    (mergeProperty target id).Outcome g (fun _ g' => Unifies g g') fun _ _ => True := by
  obtain ⟨p, rfl⟩ := Decl.view_property.exists_make decl h.ownList?_eq
  rw [mergeProperty, outcome_bind]
  refine (outcome_look_of_node? Decl.view_property h.node?_eq).mpr ?_
  obtain ⟨found, hok, hfound⟩ := finds_findMember (p := fun d =>
    d.property?.any fun q => q.name == p.name && q.isStatic == p.isStatic) .properties
    (fun _ => rfl) h.consistent (kind?_of_mergeKey? h.target_key)
  rw [outcome_bind, outcome_look_ok hok]
  cases found with
  | none => exact h.outcome_relocate_like rfl (by simp)
  | some kept =>
    obtain ⟨d, hnode, hlist, hp⟩ := hfound kept rfl
    obtain ⟨k, rfl⟩ := Decl.view_property.exists_make d hlist
    have hsame : k.name = p.name ∧ k.isStatic = p.isStatic := by
      simpa [Decl.property?] using hp
    simp only [outcome_bind]
    refine (outcome_look_of_node? Decl.view_property hnode).mpr ?_
    refine outcome_bind.mp (h.outcome_setDecl_relocate hnode rfl ⟨fun l => by cases l <;> rfl, rfl⟩
      ?_ rfl rfl)
    rw [Decl.memberKey?, Decl.memberKey?, hsame.1, hsame.2]

theorem outcome_mergeMethod_unifies (h : Donates g target source id .methods key decl) :
    (mergeMethod target id).Outcome g (fun _ g' => Unifies g g') fun _ _ => True := by
  obtain ⟨m, rfl⟩ := Decl.view_method.exists_make decl h.ownList?_eq
  rw [mergeMethod, outcome_bind]
  refine (outcome_look_of_node? Decl.view_method h.node?_eq).mpr ?_
  obtain ⟨found, hok, hfound⟩ := finds_findMember (p := fun d =>
    d.method?.any (·.signature.sameMethod m.signature)) .methods (fun _ => rfl) h.consistent
    (kind?_of_mergeKey? h.target_key)
  rw [outcome_bind, outcome_look_ok hok]
  cases found with
  | none => exact h.outcome_relocate (by simp)
  | some kept =>
    obtain ⟨d, hnode, hlist, hp⟩ := hfound kept rfl
    obtain ⟨k, rfl⟩ := Decl.view_method.exists_make d hlist
    have hsame : k.signature.isStatic = m.signature.isStatic ∧
        k.signature.name = m.signature.name ∧ k.signature.labels = m.signature.labels := by
      simpa [Decl.method?, Signature.sameMethod, Signature.sameSelector] using hp
    obtain ⟨hstatic, hname, hlabels⟩ := hsame
    simp only [outcome_bind]
    refine (outcome_look_of_node? Decl.view_method hnode).mpr ?_
    refine outcome_bind.mp (h.outcome_setDecl_relocate hnode rfl ⟨fun l => by cases l <;> rfl, rfl⟩
      ?_ ?_ rfl)
    · rw [Decl.memberKey?, Decl.memberKey?, hstatic, hname, hlabels]
    · rw [Decl.memberKey?, Decl.memberKey?, joinMethods, Signature.labels_takeNullability]
      rfl

/-! ### Two types -/

/-- Taking the superclass of another declaration changes no key. -/
theorem mergeKey?_joinKinds (t other : TypeDecl) (header : Header) :
    ({ t with kind := joinKinds t.kind other, header } : TypeDecl).mergeKey? = t.mergeKey? ∧
      ({ t with kind := joinKinds t.kind other, header } : TypeDecl).isExtension =
        t.isExtension := by
  obtain ⟨name, kind, _⟩ := t
  cases kind with
  | classDecl superclass => cases superclass <;> exact ⟨rfl, rfl⟩
  | _ => exact ⟨rfl, rfl⟩

/-- What is said about a type itself has no part in its keys. -/
theorem outcome_mergeTop_unifies {other : TypeDecl} (hc : g.outline.Consistent none)
    (ht : g.mergeKey? target = some key) :
    (mergeTop target other).Outcome g (fun _ g' => Unifies g g') fun _ _ => True := by
  rw [mergeTop, outcome_bind]
  obtain ⟨p, t, hnode, -⟩ := exists_node?_type hc (kind?_of_mergeKey? ht)
  refine (outcome_look_of_node? Decl.view_type hnode).mpr ?_
  have hset : (setDecl target (.type { t with
      kind := joinKinds t.kind other, header := joinHeaders t.header other.header })).Succeeds g
      fun _ g' => Edited (fun _ => True) g g' ∧ g.Enters target (some ⟨some p, _⟩) [] g' :=
    succeeds_setDecl_enters hc hnode ⟨fun l => by cases l <;> rfl, rfl⟩
  refine hset.outcome.mono (fun _ g' h => ?_) fun _ _ hx => hx
  obtain ⟨hkey, hextension⟩ :=
    mergeKey?_joinKinds t other (joinHeaders t.header other.header)
  exact .of_rewrite h.1 h.2 hnode rfl (.inr (.inl (by simp [ht]))) hkey
    (congrArg some hextension) rfl (fun code hcode => absurd hcode (by simp [Decl.code?]))
    fun hcode => absurd rfl hcode

/-- As long as only members are gone, types have their keys. -/
theorem Draining.mergeKey?_eq (h : Draining g₀ source left g) (hu : Unifies g₀ g) :
    g.mergeKey? = g₀.mergeKey? := by
  funext t
  cases ht : g₀.mergeKey? t with
  | none =>
    rw [Option.eq_none_iff_forall_ne_some]
    intro key hkey
    exact absurd (ht.symm.trans (hu.mergeKey?_back hkey)) (by simp)
  | some key => rw [(hu.type_eq t (h.kind?_type (kind?_of_mergeKey? ht))).1, ht]

/-- What is first in a list of the source is to be merged into the target. -/
theorem Draining.donates (h : Draining g₀ source left g) (hu : Unifies g₀ g)
    (hl : left list = id :: rest) (hhome : list.home = some .types) (hne : source ≠ target)
    (hs : g₀.mergeKey? source = some key) (ht : g₀.mergeKey? target = some key) :
    ∃ decl, Donates g target source id list key decl := by
  have hmem : id ∈ g.listOf source list := by
    rw [h.listOf_eq, hl]
    exact List.mem_cons_self
  obtain ⟨⟨parent, decl⟩, hnode, hparent, hlist⟩ :=
    exists_node?_of_place? (h.edited.consistent.mem_listOf_iff.mp hmem)
  obtain rfl : parent = some source := hparent
  have hkeys := h.mergeKey?_eq hu
  exact ⟨decl, h.edited.consistent, hnode, hlist, hhome, hne, hkeys ▸ hs, hkeys ▸ ht⟩

/-- What is kept while a type is merged into another one: each step on the way keeps it. -/
structure MergeInvariant (target source : DeclId) (key : MergeKey) (I : Graph → Prop) : Prop where
  /-- Merging what is said about the type itself keeps it. -/
  top : ∀ {g : Graph} (other : TypeDecl), g.outline.Consistent none →
    g.mergeKey? target = some key → I g →
      (mergeTop target other).Outcome g (fun _ g' => I g') fun _ _ => True
  /-- Merging the first conformance does. -/
  conformance : ∀ {g id rest decl}, Donates g target source id .conformances key decl →
    g.listOf source .conformances = id :: rest → I g →
      (mergeConformance target id).Outcome g (fun _ g' => I g') fun _ _ => True
  /-- Merging the first property does. -/
  property : ∀ {g id rest decl}, Donates g target source id .properties key decl →
    g.listOf source .properties = id :: rest → I g →
      (mergeProperty target id).Outcome g (fun _ g' => I g') fun _ _ => True
  /-- Merging the first instance variable does. -/
  ivar : ∀ {g id rest decl}, Donates g target source id .ivars key decl →
    g.listOf source .ivars = id :: rest → I g →
      (mergeIvar target id).Outcome g (fun _ g' => I g') fun _ _ => True
  /-- Merging the first method does. -/
  method : ∀ {g id rest decl}, Donates g target source id .methods key decl →
    g.listOf source .methods = id :: rest → I g →
      (mergeMethod target id).Outcome g (fun _ g' => I g') fun _ _ => True
  /-- Removing the drained type does. -/
  remove : ∀ {g : Graph}, g.outline.Consistent none → g.mergeKey? source = some key →
    (∀ l, g.listOf source l = []) → I g →
      (remove source).Outcome g (fun _ g' => I g') fun _ _ => True

/-- Where nothing in particular is to be kept. -/
theorem MergeInvariant.trivial : MergeInvariant target source key fun _ => True := by
  have hany {α : Type} (e : Edit α) (g : Graph) :
      e.Outcome g (fun _ _ => True) fun _ _ => True :=
    (outcome_self e).mono (fun _ _ _ => True.intro) fun _ _ hx => hx
  constructor <;> intros <;> exact hany _ _

/-- **Merging a list of the source loses nothing**, if merging one member does not, and keeps what
that keeps. -/
theorem Draining.succeeds_forM_unifies {f : DeclId → Edit PUnit} {I : Graph → Prop}
    (h : Draining g₀ source left g) (hu : Unifies g₀ g) (hI : I g) (list : ChildList)
    (hhome : list.home = some .types) (hne : source ≠ target)
    (hs : g₀.mergeKey? source = some key) (ht : g₀.mergeKey? target = some key)
    (hdrain : ∀ {left g id rest}, Draining g₀ source left g → left list = id :: rest →
      (f id).Succeeds g fun _ g' => Draining g₀ source (Function.update left list rest) g')
    (hunify : ∀ {g id decl}, Donates g target source id list key decl →
      (f id).Outcome g (fun _ g' => Unifies g g') fun _ _ => True)
    (hkeep : ∀ {g id rest decl}, Donates g target source id list key decl →
      g.listOf source list = id :: rest → I g →
        (f id).Outcome g (fun _ g' => I g') fun _ _ => True) :
    ((left list).forM f).Succeeds g fun _ g' =>
      Draining g₀ source (Function.update left list []) g' ∧ Unifies g₀ g' ∧ I g' := by
  refine outcome_forM (fun rest g' =>
    Draining g₀ source (Function.update left list rest) g' ∧ Unifies g₀ g' ∧ I g')
    (fun id rest g' h' => ?_) (left list) ⟨by rwa [Function.update_eq_self], hu, hI⟩
  obtain ⟨hd, hu', hI'⟩ := h'
  obtain ⟨decl, hdonates⟩ := hd.donates hu' (Function.update_self ..) hhome hne hs ht
  have hhead : g'.listOf source list = id :: rest := by
    rw [hd.listOf_eq, Function.update_self]
  refine (Outcome.and (hdrain hd (Function.update_self ..))
    (Outcome.and (hunify hdonates) (hkeep hdonates hhead hI'))).mono
    (fun _ g'' h'' => ⟨?_, hu'.trans h''.2.1, h''.2.2⟩) fun _ _ hx => hx.1
  rw [← Function.update_idem]
  exact h''.1

/-- **A source that is drained can go**, and is all that is gone of the types. -/
theorem Draining.succeeds_remove_unifies (h : Draining g₀ source left g) (hu : Unifies g₀ g)
    (hleft : ∀ l, left l = []) (hne : source ≠ target) (hs : g₀.mergeKey? source = some key)
    (ht : g₀.mergeKey? target = some key) :
    (remove source).Succeeds g fun _ g' => Unifies g₀ g' ∧
      ∀ t, g'.mergeKey? t = if t = source then none else g₀.mergeKey? t := by
  have hc := h.edited.consistent
  have hkeys := h.mergeKey?_eq hu
  have hempty : ∀ l, g.listOf source l = [] := fun l => (h.listOf_eq l).trans (hleft l)
  obtain ⟨p, d, hn, hp⟩ := exists_node?_type hc (h.kind?_type (kind?_of_mergeKey? hs))
  have hdrop : (remove source).Succeeds g fun _ g' => Edited (· = source) g g' ∧
      g.Enters source none [p] g' :=
    succeeds_remove_enters hc hn fun l => by rw [← listOf_of_node? hn, hempty]
  refine hdrop.mono fun _ g' h' => ?_
  obtain ⟨he, henters⟩ := h'
  refine ⟨hu.trans (.of_drop (he.mono fun _ _ => trivial) henters hn rfl
    (.inr (.inl (by simp [hkeys, hs]))) (.inl hp) ((forall_listOf_eq_nil_iff hc).mp hempty)
    (fun key' hkey' => ⟨target, hne.symm, ?_⟩) fun x hx => absurd hx ?_), fun t => ?_⟩
  · rwa [hkeys, ht, ← hs, ← hkeys]
  · -- A type is no member.
    have hnone : g.memberKey? source = none := by rw [memberKey?, get?, hn]; rfl
    simp [filed?, hnone]
  · rw [← hkeys]
    exact henters.read_eq Decl.mergeKey?_childless t

/-- **Merging a type into another one with its key loses nothing**, and only that type is gone.
What each step keeps is kept. -/
theorem succeeds_mergeType_unifies {I : Graph → Prop} (hc : g.outline.Consistent none)
    (hne : source ≠ target) (hs : g.mergeKey? source = some key)
    (ht : g.mergeKey? target = some key) (hinv : MergeInvariant target source key I) (hI : I g) :
    (mergeType target source).Succeeds g fun _ g' => Unifies g g' ∧
      (∀ t, g'.mergeKey? t = if t = source then none else g.mergeKey? t) ∧ I g' := by
  have hkind : g.kind? target = some (some .types) := kind?_of_mergeKey? ht
  rw [Succeeds, mergeType, outcome_bind]
  refine outcome_look_typed Decl.view_type (kind?_of_mergeKey? hs) fun n other hn hother => ?_
  have hstart : Draining g source (fun l => (Decl.type other).listOf l) g := by
    refine ⟨.refl hc, fun l => ?_⟩
    rw [listOf_of_node? hn, hother]
  rw [outcome_bind]
  refine (Outcome.and (succeeds_mergeTop hkind)
    (Outcome.and (outcome_mergeTop_unifies hc ht) (hinv.top other hc ht hI))).mono
    (fun _ g₁ h₁ => ?_) fun _ _ hx => hx.1
  obtain ⟨ho, hu₁, hI₁⟩ := h₁
  rw [outcome_bind]
  refine ((hstart.of_outline ho).succeeds_forM_unifies hu₁ hI₁ .conformances rfl hne hs ht
    (fun h hl => succeeds_mergeConformance h hkind hne hl)
    outcome_mergeConformance_unifies hinv.conformance).mono fun _ g₂ h₂ => ?_
  obtain ⟨hd₂, hu₂, hI₂⟩ := h₂
  rw [outcome_bind]
  refine (hd₂.succeeds_forM_unifies hu₂ hI₂ .properties rfl hne hs ht
    (fun h hl => succeeds_mergeProperty h hkind hne hl)
    outcome_mergeProperty_unifies hinv.property).mono fun _ g₃ h₃ => ?_
  obtain ⟨hd₃, hu₃, hI₃⟩ := h₃
  rw [outcome_bind]
  refine (hd₃.succeeds_forM_unifies hu₃ hI₃ .ivars rfl hne hs ht
    (fun h hl => succeeds_mergeIvar h hkind hne hl) outcome_mergeIvar_unifies
    hinv.ivar).mono fun _ g₄ h₄ => ?_
  obtain ⟨hd₄, hu₄, hI₄⟩ := h₄
  rw [outcome_bind]
  refine (hd₄.succeeds_forM_unifies hu₄ hI₄ .methods rfl hne hs ht
    (fun h hl => succeeds_mergeMethod h hkind hne hl) outcome_mergeMethod_unifies
    hinv.method).mono fun _ g₅ h₅ => ?_
  obtain ⟨hd₅, hu₅, hI₅⟩ := h₅
  rw [outcome_discard]
  -- Everything that the source listed has been handed over, so it is removed alone.
  have hdrained : ∀ l, g₅.listOf source l = [] := fun l => by
    rw [hd₅.listOf_eq]
    cases l <;> rfl
  have hs₅ : g₅.mergeKey? source = some key := by rw [hd₅.mergeKey?_eq hu₅, hs]
  refine (Outcome.and
    (hd₅.succeeds_remove_unifies hu₅ (fun l => by cases l <;> rfl) hne hs ht)
    (hinv.remove hd₅.edited.consistent hs₅ hdrained hI₅)).mono (fun _ g' h' => ?_)
    fun _ _ hx => hx.1
  exact ⟨h'.1.1, h'.1.2, h'.2⟩

end ObjcSwift.TypeMerge
