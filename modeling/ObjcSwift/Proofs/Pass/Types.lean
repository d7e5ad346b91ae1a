import ObjcSwift.Pass.TypeMerge
import ObjcSwift.Proofs.Pass.Steps

/-!
# Merging types succeeds

The pass that merges the declarations of a type moves members from one declaration, the source, to
another, the target, or removes them, and then removes the source. It goes through the lists that
the source had at the start, so what carries the proof is that these lists **drain from the front**
(`TypeMerge.Draining`): at each point the source lists what the pass has still to go through, and in
the end it lists nothing and can be removed alone.

The declarations to be merged come in groups that share no declaration
(`TypeMerge.finds_mergeGroups`), so a group is untouched until its turn comes.
-/

namespace ObjcSwift.TypeMerge

open ObjcSwift.Graph ObjcSwift.Graph.Edit

variable {g g₀ g' : Graph} {id target source : DeclId} {left : ChildList → List DeclId}
  {list : ChildList} {rest : List DeclId}

/-! ### Members -/

/-- A number that stands for a member of a type. -/
def IsMember (g : Graph) (id : DeclId) : Prop :=
  ∃ list : ChildList, list.home = some .types ∧ g.kind? id = some (some list)

theorem not_isMember_of_type (h : g.kind? id = some (some .types)) : ¬IsMember g id := by
  rintro ⟨list, hhome, hid⟩
  obtain rfl : ChildList.types = list := by simpa using h.symm.trans hid
  exact absurd hhome (by decide)

theorem IsMember.of_edited {gone : DeclId → Prop} (h : IsMember g' id) (he : Edited gone g g') :
    IsMember g id := by
  obtain ⟨list, hhome, hid⟩ := h
  exact ⟨list, hhome, he.kind?_back id _ hid⟩

/-- Members list nothing. -/
theorem listOf_member {d : Decl} (hd : d.ownList? = some list) (hhome : list.home = some .types)
    (l : ChildList) : d.listOf l = [] := by
  rw [List.eq_nil_iff_forall_not_mem]
  intro j hj
  refine home_ne_member l ?_ ((Decl.ownList?_of_mem_listOf hj).symm.trans hd)
  rw [hhome]
  simp

/-! ### Draining the lists of the source -/

/-- The pass has got to some point of a source: what is gone is members, and the source lists what
is left to go through. -/
structure Draining (g₀ : Graph) (source : DeclId) (left : ChildList → List DeclId) (g : Graph) :
    Prop where
  /-- What is gone is members. -/
  edited : Edited (IsMember g₀) g₀ g
  /-- The source lists what is left. -/
  listOf_eq : ∀ list, g.listOf source list = left list

theorem Draining.of_outline (h : Draining g₀ source left g) (ho : g'.outline = g.outline) :
    Draining g₀ source left g' where
  edited := h.edited.trans (.of_outline h.edited.consistent ho)
  listOf_eq list :=
    (congrFun (congrFun (congrArg Outline.listOf ho) source) list).trans (h.listOf_eq list)

/-- Types are not gone. -/
theorem Draining.kind?_type (h : Draining g₀ source left g)
    (hid : g₀.kind? id = some (some .types)) : g.kind? id = some (some .types) := by
  rw [h.edited.kind?_eq id (not_isMember_of_type hid), hid]

/-- What is first in a list is of the kind that the list is for. -/
theorem Draining.kind?_head (h : Draining g₀ source left g) (hl : left list = id :: rest) :
    g.kind? id = some (some list) := by
  refine kind?_of_mem_listOf h.edited.consistent (p := source) ?_
  rw [h.listOf_eq, hl]
  exact List.mem_cons_self

/-- Erasing what is first in one list of the source leaves the rest of that list, and the other
lists. -/
theorem Draining.erase_head (h : Draining g₀ source left g) (hl : left list = id :: rest)
    (l : ChildList) : (g.listOf source l).erase id = Function.update left list rest l := by
  by_cases hne : l = list
  · rw [hne, h.listOf_eq, hl, List.erase_cons_head, Function.update_self]
  · rw [Function.update_of_ne hne, ← h.listOf_eq, List.erase_of_not_mem]
    intro hmem
    have hkind := kind?_of_mem_listOf h.edited.consistent hmem
    rw [h.kind?_head hl] at hkind
    exact hne (by simpa using hkind.symm)

/-- **Moving or removing what is first in a list of the source** drains the list by one. -/
theorem Draining.succeeds_relocate (h : Draining g₀ source left g) (hl : left list = id :: rest)
    (hhome : list.home = some .types) (ht : g₀.kind? target = some (some .types))
    (hne : source ≠ target) (duplicate : Bool) :
    (relocate id target duplicate).Succeeds g fun _ g' =>
      Draining g₀ source (Function.update left list rest) g' := by
  have hkind := h.kind?_head hl
  -- What may go is a member, and was one at the start.
  have hmember : ∀ j, j = id → IsMember g₀ j := by
    rintro j rfl
    exact ⟨list, hhome, h.edited.kind?_back j _ hkind⟩
  unfold relocate
  cases duplicate with
  | true =>
    obtain ⟨n, hn, hlist⟩ := exists_node?_of_kind? hkind
    rw [if_pos rfl, Succeeds, outcome_discard]
    refine (succeeds_remove_edited h.edited.consistent hn (listOf_member hlist hhome)).mono
      fun _ g' h' => ⟨h.edited.trans (h'.2.2.mono hmember), fun l => ?_⟩
    have hlists : g'.listOf source l = (g.listOf source l).erase id :=
      congrFun (congrFun (congrArg Outline.listOf h'.2.1) source) l
    rw [hlists, h.erase_head hl]
  | false =>
    rw [if_neg (by simp)]
    refine (succeeds_moveTo_edited h.edited.consistent hkind
      (by rw [hhome]; exact h.kind?_type ht)).mono
      fun _ g' h' => ⟨h.edited.trans h'.2, fun l => ?_⟩
    have hlists : g'.listOf source l =
        if source = target ∧ l = list then (g.listOf target list).erase id ++ [id]
        else (g.listOf source l).erase id :=
      congrFun (congrFun (congrArg Outline.listOf h'.1) source) l
    rw [hlists, if_neg fun hc => hne hc.1, h.erase_head hl]

/-- A loop that drains a list by one at each turn drains it. -/
theorem Draining.succeeds_forM {f : DeclId → Edit PUnit} (h : Draining g₀ source left g)
    (list : ChildList)
    (hstep : ∀ {left g id rest}, Draining g₀ source left g → left list = id :: rest →
      (f id).Succeeds g fun _ g' => Draining g₀ source (Function.update left list rest) g') :
    ((left list).forM f).Succeeds g fun _ g' =>
      Draining g₀ source (Function.update left list []) g' := by
  refine outcome_forM (fun rest g' => Draining g₀ source (Function.update left list rest) g')
    (fun id rest g' h' => ?_) (left list) (by rwa [Function.update_eq_self])
  refine (hstep h' (Function.update_self ..)).mono fun _ g'' h'' => ?_
  rwa [Function.update_idem] at h''

/-! ### Merging members -/

/-- What is found among the members of a type stands in the list that was searched. -/
theorem outcome_look_findMember {lists : TypeDecl → List DeclId} {p : Decl → Bool}
    {done : Option DeclId → Graph → Prop} {failed : GraphError → Graph → Prop}
    (list : ChildList) (hlists : ∀ d, lists d = (Decl.type d).listOf list)
    (hc : g.outline.Consistent none) (ht : g.kind? target = some (some .types))
    (hdone : ∀ found, (∀ id, found = some id → g.kind? id = some (some list)) → done found g) :
    (look (findMember · target lists p)).Outcome g done failed := by
  obtain ⟨found, hok, hfound⟩ : Finds (findMember g target lists p) fun found =>
      ∀ id, found = some id → g.kind? id = some (some list) := by
    refine (finds_typed Decl.view_type ht).bind ?_
    rintro d ⟨n, hn, hd⟩
    refine finds_pure fun id hid => ?_
    have hmem := List.mem_of_find?_eq_some hid
    rw [hlists, ← hd] at hmem
    exact kind?_of_mem_decl hc hn hmem
  rw [outcome_look_ok hok]
  exact hdone found hfound

section Members

variable (h : Draining g₀ source left g) (ht : g₀.kind? target = some (some .types))
  (hne : source ≠ target)
include h ht hne

theorem succeeds_mergeConformance (hl : left .conformances = id :: rest) :
    (mergeConformance target id).Succeeds g fun _ g' =>
      Draining g₀ source (Function.update left .conformances rest) g' := by
  rw [Succeeds, mergeConformance, outcome_bind]
  refine outcome_look_typed Decl.view_conformance (h.kind?_head hl) fun _ c _ _ => ?_
  rw [outcome_bind]
  refine outcome_look_findMember .conformances (fun _ => rfl) h.edited.consistent
    (h.kind?_type ht) fun found _ => ?_
  exact h.succeeds_relocate hl rfl ht hne found.isSome

theorem succeeds_mergeIvar (hl : left .ivars = id :: rest) :
    (mergeIvar target id).Succeeds g fun _ g' =>
      Draining g₀ source (Function.update left .ivars rest) g' := by
  rw [Succeeds, mergeIvar, outcome_bind]
  refine outcome_look_typed Decl.view_ivar (h.kind?_head hl) fun _ v _ _ => ?_
  rw [outcome_bind]
  refine outcome_look_findMember .ivars (fun _ => rfl) h.edited.consistent
    (h.kind?_type ht) fun found _ => ?_
  exact h.succeeds_relocate hl rfl ht hne found.isSome

theorem succeeds_mergeProperty (hl : left .properties = id :: rest) :
    (mergeProperty target id).Succeeds g fun _ g' =>
      Draining g₀ source (Function.update left .properties rest) g' := by
  rw [Succeeds, mergeProperty, outcome_bind]
  refine outcome_look_typed Decl.view_property (h.kind?_head hl) fun _ p _ _ => ?_
  rw [outcome_bind]
  refine outcome_look_findMember .properties (fun _ => rfl) h.edited.consistent
    (h.kind?_type ht) fun found hfound => ?_
  cases found with
  | none => exact h.succeeds_relocate hl rfl ht hne false
  | some kept =>
    simp only [outcome_bind]
    refine outcome_look_typed Decl.view_property (hfound kept rfl) fun n q hn hq => ?_
    refine (succeeds_setDecl hn ?_).mono fun _ g' h' =>
      (h.of_outline h'.1).succeeds_relocate hl rfl ht hne true
    rw [hq]
    exact ⟨fun l => by cases l <;> rfl, rfl⟩

theorem succeeds_mergeMethod (hl : left .methods = id :: rest) :
    (mergeMethod target id).Succeeds g fun _ g' =>
      Draining g₀ source (Function.update left .methods rest) g' := by
  rw [Succeeds, mergeMethod, outcome_bind]
  refine outcome_look_typed Decl.view_method (h.kind?_head hl) fun _ m _ _ => ?_
  rw [outcome_bind]
  refine outcome_look_findMember .methods (fun _ => rfl) h.edited.consistent
    (h.kind?_type ht) fun found hfound => ?_
  cases found with
  | none => exact h.succeeds_relocate hl rfl ht hne false
  | some kept =>
    simp only [outcome_bind]
    refine outcome_look_typed Decl.view_method (hfound kept rfl) fun n q hn hq => ?_
    refine (succeeds_setDecl hn ?_).mono fun _ g' h' =>
      (h.of_outline h'.1).succeeds_relocate hl rfl ht hne true
    rw [hq]
    exact ⟨fun l => by cases l <;> rfl, rfl⟩

end Members

/-! ### Merging two declarations -/

theorem succeeds_mergeTop {other : TypeDecl} (ht : g.kind? target = some (some .types)) :
    (mergeTop target other).Succeeds g fun _ g' => g'.outline = g.outline := by
  rw [Succeeds, mergeTop, outcome_bind]
  refine outcome_look_typed Decl.view_type ht fun n d hn hd => ?_
  refine (succeeds_setDecl hn ?_).mono fun _ _ h => h.1
  rw [hd]
  exact ⟨fun l => by cases l <;> rfl, rfl⟩

/-- **Merging a declaration of a type into another one succeeds**, and what is gone is members and
the merged declaration. -/
theorem succeeds_mergeType (hc : g.outline.Consistent none)
    (ht : g.kind? target = some (some .types)) (hs : g.kind? source = some (some .types))
    (hne : source ≠ target) :
    (mergeType target source).Succeeds g fun _ g' =>
      Edited (fun id => id = source ∨ IsMember g id) g g' := by
  rw [Succeeds, mergeType, outcome_bind]
  refine outcome_look_typed Decl.view_type hs fun n other hn hother => ?_
  have hstart : Draining g source (fun l => (Decl.type other).listOf l) g := by
    refine ⟨.refl hc, fun l => ?_⟩
    rw [listOf_of_node? hn, hother]
  rw [outcome_bind]
  refine (succeeds_mergeTop ht).mono fun _ g₁ ho => ?_
  have h₁ := hstart.of_outline ho
  rw [outcome_bind]
  refine (h₁.succeeds_forM .conformances fun h hl =>
    succeeds_mergeConformance h ht hne hl).mono fun _ g₂ h₂ => ?_
  rw [outcome_bind]
  refine (h₂.succeeds_forM .properties fun h hl =>
    succeeds_mergeProperty h ht hne hl).mono fun _ g₃ h₃ => ?_
  rw [outcome_bind]
  refine (h₃.succeeds_forM .ivars fun h hl =>
    succeeds_mergeIvar h ht hne hl).mono fun _ g₄ h₄ => ?_
  rw [outcome_bind]
  refine (h₄.succeeds_forM .methods fun h hl =>
    succeeds_mergeMethod h ht hne hl).mono fun _ g₅ h₅ => ?_
  -- All four lists of a type are drained, and it has no others.
  have hempty : ∀ l, g₅.listOf source l = [] := by
    intro l
    rw [h₅.listOf_eq]
    cases l <;> rfl
  obtain ⟨m, hm, -⟩ := exists_node?_of_kind? (h₅.kind?_type hs)
  rw [outcome_discard]
  refine (succeeds_remove_edited h₅.edited.consistent hm fun l => ?_).mono fun _ g₆ h₆ => ?_
  · rw [← listOf_of_node? hm, hempty]
  · exact (h₅.edited.mono fun _ => Or.inr).trans (h₆.2.2.mono fun _ => Or.inl)

/-! ### Merging a group -/

/-- The file that a declaration stands in can be looked up. -/
theorem finds_inImplementation : Finds (inImplementation g id) fun _ => True := by
  unfold inImplementation
  split
  · rename_i file hfile
    have hsome := List.find?_some hfile
    obtain ⟨f, hf⟩ := Option.isSome_iff_exists.mp hsome
    obtain ⟨d, hd, hdf⟩ := Option.bind_eq_some_iff.mp hf
    have hok : g.file file = .ok f := by
      rw [Graph.file, typed, hd]
      simp only [hdf]
    rw [hok]
    exact finds_pure trivial
  · exact finds_pure trivial

theorem best_mem (first : DeclId) (rank : Nat) (ranked : List (DeclId × Nat)) :
    best first rank ranked ∈ first :: ranked.map (·.1) := by
  induction ranked generalizing first rank with
  | nil => exact List.mem_cons_self
  | cons x ranked ih =>
    obtain ⟨id, r⟩ := x
    unfold best
    split_ifs
    · exact List.mem_cons_of_mem first (ih id r)
    · rcases List.mem_cons.mp (ih first rank) with h | h
      · rw [h]
        exact List.mem_cons_self
      · exact List.mem_cons_of_mem first (List.mem_cons_of_mem id h)

/-- The target of a group is one of its declarations. -/
theorem finds_target {first : DeclId}
    (hids : ∀ id ∈ first :: rest, g.kind? id = some (some .types)) :
    Finds (TypeMerge.target g first rest) (· ∈ first :: rest) := by
  have hrank : ∀ id ∈ first :: rest,
      Finds (do return (id, ← targetRank g id) : Except GraphError (DeclId × Nat)) fun x =>
        x.1 ∈ first :: rest := by
    intro id hid
    refine Finds.bind (P := fun _ => True) ?_ fun _ _ => finds_pure hid
    refine (finds_typed Decl.view_type (hids id hid)).bind fun d _ => ?_
    exact finds_inImplementation.bind fun _ _ => finds_pure trivial
  refine (finds_mapM_all hrank).bind fun ranked hranked => finds_pure ?_
  rcases List.mem_cons.mp (best_mem first 0 ranked) with h | h
  · rw [h]
    exact List.mem_cons_self
  · obtain ⟨x, hx, hid⟩ := List.mem_map.mp h
    exact hid ▸ hranked x hx

/-- **Merging a group of declarations succeeds**, and what is gone is members and declarations of
the group. -/
theorem succeeds_mergeGroup {group : List DeclId} (hc : g.outline.Consistent none)
    (hgroup : ∀ id ∈ group, g.kind? id = some (some .types)) (hnodup : group.Nodup) :
    (mergeGroup group).Succeeds g fun _ g' =>
      Edited (fun id => id ∈ group ∨ IsMember g id) g g' := by
  unfold mergeGroup
  split
  · rename_i first second rest
    obtain ⟨target, hok, htarget⟩ := finds_target hgroup
    rw [Succeeds, outcome_bind, outcome_look_ok hok, outcome_bind]
    -- Of the other declarations, those that are still to come are there.
    refine (outcome_forM (fun left g' => left.Nodup ∧
        (∀ id ∈ left, id ∈ first :: second :: rest ∧ id ≠ target) ∧
        Edited (fun id =>
          (id ∈ first :: second :: rest ∧ id ∉ left ∧ id ≠ target) ∨ IsMember g id) g g')
      (fun source left g₁ h => ?_)
      ((first :: second :: rest).filter (· ≠ target))
      ⟨hnodup.filter _, fun id hid => by simpa using hid, .refl hc⟩).mono
      (fun _ g' h => h.2.2.mono fun id hid => hid.imp_left And.left) fun _ _ hx => hx
    obtain ⟨hnodup', hleft, he⟩ := h
    obtain ⟨hsource, hleft'⟩ := List.nodup_cons.mp hnodup'
    obtain ⟨hs, hne⟩ := hleft source List.mem_cons_self
    have hkeep : ∀ id ∈ first :: second :: rest, (id ∈ source :: left ∨ id = target) →
        g₁.kind? id = some (some .types) := by
      intro id hid hin
      have htype := hgroup id hid
      rw [he.kind?_eq id, htype]
      rintro (⟨-, hout, hnt⟩ | hmember)
      · exact hin.elim hout hnt
      · exact not_isMember_of_type htype hmember
    refine (succeeds_mergeType he.consistent (hkeep target htarget (Or.inr rfl))
      (hkeep source hs (Or.inl List.mem_cons_self)) hne).mono fun _ g₂ h₂ => ?_
    refine ⟨hleft', fun id hid => hleft id (List.mem_cons_of_mem source hid),
      (he.mono fun id hid => ?_).trans (h₂.mono fun id hid => ?_)⟩
    · refine hid.imp_left fun hother => ?_
      obtain ⟨hin, hout, hnt⟩ := hother
      exact ⟨hin, fun hm => hout (List.mem_cons_of_mem source hm), hnt⟩
    · rcases hid with rfl | hmember
      · exact Or.inl ⟨hs, hsource, hne⟩
      · exact Or.inr (hmember.of_edited he)
  · exact .refl hc

/-! ### Groups -/

theorem nodup_eraseDups {α : Type} [DecidableEq α] (l : List α) : l.eraseDups.Nodup := by
  cases l with
  | nil => simp
  | cons a l =>
    rw [List.eraseDups_cons, List.nodup_cons]
    refine ⟨fun hmem => ?_, nodup_eraseDups _⟩
    rw [List.mem_eraseDups, List.mem_filter] at hmem
    simp at hmem
termination_by l.length
decreasing_by
  have := List.length_filter_le (fun b => !b == a) l
  simp only [List.length_cons]
  omega

/-- **The groups share no declaration**, and consist of types without repetition. -/
theorem finds_mergeGroups (hc : g.outline.Consistent none) :
    Finds (mergeGroups g) fun groups => groups.Pairwise List.Disjoint ∧
      ∀ group ∈ groups, group.Nodup ∧ ∀ id ∈ group, g.kind? id = some (some .types) := by
  have hkeyed : ∀ id ∈ g.typeIds,
      Finds (do return ((← g.type id).mergeKey?, id) : Except GraphError (Option MergeKey × DeclId))
        fun x => id = x.2 ∧ g.kind? id = some (some .types) ∧
          ∃ d, g.type id = .ok d ∧ x.1 = d.mergeKey? := by
    intro id hid
    have hkind := kind?_of_mem_typeIds hc hid
    obtain ⟨d, hok, -⟩ : Finds (g.type id) _ := finds_typed Decl.view_type hkind
    rw [hok]
    exact finds_pure ⟨rfl, hkind, d, rfl, rfl⟩
  refine (finds_mapM _ hkeyed).bind fun keyed hall => ?_
  obtain ⟨hids, hkey⟩ : keyed.map (·.2) = g.typeIds ∧ ∀ x ∈ keyed,
      g.kind? x.2 = some (some .types) ∧ ∃ d, g.type x.2 = .ok d ∧ x.1 = d.mergeKey? := by
    generalize g.typeIds = ids at hall
    induction hall with
    | nil => exact ⟨rfl, by simp⟩
    | cons hx _ ih =>
      refine ⟨by rw [List.map_cons, ih.1, hx.1], fun y hy => ?_⟩
      rcases List.mem_cons.mp hy with rfl | hy
      · exact hx.1 ▸ hx.2
      · exact ih.2 y hy
  refine finds_pure ⟨?_, fun group hgroup => ?_⟩
  · rw [List.pairwise_map]
    refine (nodup_eraseDups _).imp fun {key key'} hne id hid hid' => hne ?_
    -- A declaration has one key only.
    obtain ⟨x, hx, rfl⟩ := List.mem_map.mp hid
    obtain ⟨x', hx', heq⟩ := List.mem_map.mp hid'
    obtain ⟨hx, hxkey⟩ := List.mem_filter.mp hx
    obtain ⟨hx', hxkey'⟩ := List.mem_filter.mp hx'
    obtain ⟨-, d, hd, hk⟩ := hkey x hx
    obtain ⟨-, d', hd', hk'⟩ := hkey x' hx'
    rw [heq] at hd'
    obtain rfl : d = d' := Except.ok.inj (hd.symm.trans hd')
    rw [beq_iff_eq] at hxkey hxkey'
    simpa using hxkey.symm.trans (hk.trans (hk'.symm.trans hxkey'))
  · obtain ⟨key, -, rfl⟩ := List.mem_map.mp hgroup
    constructor
    · exact (List.filter_sublist.map _).nodup (hids ▸ nodup_typeIds hc)
    · intro id hid
      obtain ⟨x, hx, rfl⟩ := List.mem_map.mp hid
      exact (hkey x (List.mem_filter.mp hx).1).1

/-! ### All types -/

/-- A file that declares nothing can be removed alone. -/
theorem succeeds_dropEmptyHeader (hc : g.outline.Consistent none) (hid : g.kind? id = some none) :
    (dropEmptyHeader id).Succeeds g fun _ g' => Edited (· = id) g g' := by
  rw [Succeeds, dropEmptyHeader, outcome_bind]
  refine outcome_look_typed Decl.view_file hid fun n f hn hf => ?_
  split_ifs with hempty
  · rw [outcome_bind, outcome_discard]
    refine (succeeds_remove_edited hc hn fun l => ?_).mono fun _ g' h => h.2.2
    have hlists : ((f.types = [] ∧ f.aliases = []) ∧ f.functions = []) ∧ f.globals = [] := by
      simpa [FileDecl.isEmpty] using (Bool.and_eq_true_iff.mp hempty).2
    rw [hf]
    cases l <;> simp [Decl.listOf, hlists]
  · exact .refl hc

/-- **Merging types succeeds.** -/
theorem succeeds_mergeAll (hc : g.outline.Consistent none) :
    mergeAll.Succeeds g fun _ g' => Edited (fun _ => True) g g' := by
  obtain ⟨groups, hok, hdisj, hgroups⟩ := finds_mergeGroups hc
  rw [Succeeds, mergeAll, outcome_bind, outcome_look_ok hok, outcome_bind]
  -- The declarations of the groups that are still to come are there.
  refine (outcome_mapM (fun _ left g₁ => left.Pairwise List.Disjoint ∧
      (∀ group ∈ left, group ∈ groups) ∧ Edited (fun id => ∀ group ∈ left, id ∉ group) g g₁)
    (fun _ group left g₁ h => ?_) ⟨hdisj, fun _ h => h, .refl hc⟩).mono (fun _ g₁ h => ?_)
    fun _ _ hx => hx
  · obtain ⟨hpair, hleft, he⟩ := h
    obtain ⟨hhead, hpair'⟩ := List.pairwise_cons.mp hpair
    have htypes : ∀ group' ∈ group :: left, ∀ id ∈ group', g₁.kind? id = some (some .types) := by
      intro group' hgroup' id hid
      rw [he.kind?_eq id fun hout => hout group' hgroup' hid]
      exact (hgroups group' (hleft group' hgroup')).2 id hid
    refine (succeeds_mergeGroup he.consistent (htypes group List.mem_cons_self)
      (hgroups group (hleft group List.mem_cons_self)).1).mono fun _ g₂ h₂ => ?_
    refine ⟨hpair', fun group' h' => hleft group' (List.mem_cons_of_mem group h'),
      (he.mono fun id hid group' h' => hid group' (List.mem_cons_of_mem group h')).trans
        (h₂.mono fun id hid group' h' hmem => ?_)⟩
    rcases hid with hid | hmember
    · exact hhead group' h' hid hmem
    · exact not_isMember_of_type (htypes group' (List.mem_cons_of_mem group h') id hmem) hmember
  · have he := h.2.2
    rw [outcome_bind, outcome_get, outcome_bind]
    refine (outcome_mapM (fun _ left g₂ => left.Nodup ∧ (∀ id ∈ left, id ∈ g₁.files) ∧
        Edited (· ∉ left) g₁ g₂)
      (fun _ file left g₂ h₂ => ?_)
      ⟨he.consistent.nodup_files, fun _ h => h, .refl he.consistent⟩).mono
      (fun _ g₂ h₂ => ?_) fun _ _ hx => hx
    · obtain ⟨hnodup, hleft, he₂⟩ := h₂
      obtain ⟨hfile, hnodup'⟩ := List.nodup_cons.mp hnodup
      have hkind : g₂.kind? file = some none := by
        rw [he₂.kind?_eq file (by simp)]
        exact kind?_of_mem_files he.consistent (hleft file List.mem_cons_self)
      refine (succeeds_dropEmptyHeader he₂.consistent hkind).mono fun _ g₃ h₃ => ?_
      refine ⟨hnodup', fun id hid => hleft id (List.mem_cons_of_mem file hid),
        (he₂.mono fun id hid hm => hid (List.mem_cons_of_mem file hm)).trans
          (h₃.mono fun id hid => hid ▸ hfile)⟩
    · exact (he.mono fun _ _ => trivial).trans (h₂.2.2.mono fun _ _ => trivial)

end ObjcSwift.TypeMerge
