import ObjcSwift.Proofs.Graph.Lookups
import ObjcSwift.Proofs.Graph.WellFormed
import ObjcSwift.Typing.Bodies

/-!
# The steps of a pass

A pass rewrites declarations, moves members between types and removes what it has merged. It works
from numbers that it has looked up before, so what has to be known at each step is that these
numbers still stand for declarations of the kinds they had. `Graph.Edited` says so of all numbers
but some, those of what the pass removes on purpose.

Annotating bodies is a rewriting too: it keeps the outline of the graph.
-/

namespace ObjcSwift.Graph

open Edit

variable {g g' g'' : Graph} {id : DeclId} {n : GraphNode} {gone gone' : DeclId → Prop}

/-! ### Kinds in a consistent graph -/

theorem kind?_of_mem_files (hc : g.outline.Consistent none) (h : id ∈ g.files) :
    g.kind? id = some none := by
  obtain ⟨n, hn, -, hlist⟩ := exists_node?_of_place? (hc.mem_files_iff.mp h)
  rw [kind?_of_node? hn, hlist]

theorem kind?_of_mem_listOf (hc : g.outline.Consistent none) {p : DeclId} {list : ChildList}
    (h : id ∈ g.listOf p list) : g.kind? id = some (some list) := by
  obtain ⟨n, hn, -, hlist⟩ := exists_node?_of_place? (hc.mem_listOf_iff.mp h)
  rw [kind?_of_node? hn, hlist]

/-- What a declaration lists is of the kind that the list is for. -/
theorem kind?_of_mem_decl (hc : g.outline.Consistent none) {p : DeclId} {list : ChildList}
    (hn : g.node? p = some n) (h : id ∈ n.decl.listOf list) : g.kind? id = some (some list) := by
  rw [← listOf_of_node? hn] at h
  exact kind?_of_mem_listOf hc h

theorem kind?_of_mem_typeIds (hc : g.outline.Consistent none) (h : id ∈ g.typeIds) :
    g.kind? id = some (some .types) := by
  rw [typeIds_eq] at h
  obtain ⟨f, -, hid⟩ := List.mem_flatMap.mp h
  exact kind?_of_mem_listOf hc hid

theorem nodup_typeIds (hc : g.outline.Consistent none) : g.typeIds.Nodup := by
  rw [typeIds_eq, List.nodup_flatMap]
  refine ⟨fun f _ => hc.nodup_listOf f .types, hc.nodup_files.imp ?_⟩
  intro f f' hne id hid hid'
  have hplace := (hc.mem_listOf_iff.mp hid).symm.trans (hc.mem_listOf_iff.mp hid')
  exact hne (by simpa using hplace)

/-- What carries code is there. -/
theorem kind?_of_mem_codeOwners (hle : g.slots.length ≤ 2 ^ 32) (h : id ∈ g.codeOwners) :
    g.kind? id ≠ none := by
  obtain ⟨⟨j, d⟩, hmem, rfl⟩ := List.mem_map.mp h
  obtain ⟨n, hn, -⟩ := node?_of_mem_live hle (List.mem_filter.mp hmem).1
  rw [kind?_of_node? hn]
  simp

/-! ### What an edit keeps -/

/-- An edit has left a consistent graph with the same slots, in which every declaration is of the
kind it was, and nothing is gone but what is allowed to be. -/
structure Edited (gone : DeclId → Prop) (g g' : Graph) : Prop where
  /-- Owners and lists still agree. -/
  consistent : g'.outline.Consistent none
  /-- No slot was taken or given back. -/
  length_eq : g'.slots.length = g.slots.length
  /-- What is there is of the kind it was. -/
  kind?_back : ∀ id kind, g'.kind? id = some kind → g.kind? id = some kind
  /-- What is not allowed to be gone is there. -/
  kind?_eq : ∀ id, ¬gone id → g'.kind? id = g.kind? id

theorem Edited.of_outline (hc : g.outline.Consistent none) (ho : g'.outline = g.outline) :
    Edited gone g g' :=
  ⟨ho ▸ hc, congrArg Outline.slots ho, fun id _ h => by rwa [kind?_of_outline ho] at h,
    fun id _ => by rw [kind?_of_outline ho]⟩

theorem Edited.refl (hc : g.outline.Consistent none) : Edited gone g g :=
  .of_outline hc rfl

theorem Edited.trans (h : Edited gone g g') (h' : Edited gone g' g'') : Edited gone g g'' :=
  ⟨h'.consistent, h'.length_eq.trans h.length_eq,
    fun id kind hid => h.kind?_back id kind (h'.kind?_back id kind hid),
    fun id hid => (h'.kind?_eq id hid).trans (h.kind?_eq id hid)⟩

theorem Edited.mono (h : Edited gone g g') (himp : ∀ id, gone id → gone' id) :
    Edited gone' g g' :=
  ⟨h.consistent, h.length_eq, h.kind?_back,
    fun id hid => h.kind?_eq id fun hg => hid (himp id hg)⟩

/-- **Removing a declaration that lists nothing** empties its slot and changes nothing else. -/
theorem succeeds_remove_edited (hc : g.outline.Consistent none) (hn : g.node? id = some n)
    (hleaf : ∀ list, n.decl.listOf list = []) :
    (remove id).Succeeds g fun d g' =>
      d = n.decl.childless ∧ g'.outline = g.outline.drop id ∧ Edited (· = id) g g' := by
  obtain ⟨d, g', hok, hd, ho⟩ := (succeeds_remove_leaf hc hn hleaf).exists_ok
  obtain ⟨hc', hlength⟩ := (succeeds_remove_consistent hc hn).of_ok hok
  unfold Succeeds Outcome
  rw [hok]
  have hkind : ∀ j, g'.kind? j = if j = id then none else g.kind? j := by
    intro j
    have hplace : g'.place? j = if j = id then none else g.place? j :=
      congrFun (congrArg Outline.place? ho) j
    rw [kind?_eq_place?, hplace, kind?_eq_place?]
    split_ifs <;> rfl
  refine ⟨hd, ho, hc', hlength, fun j kind hj => ?_, fun j hj => by rw [hkind, if_neg hj]⟩
  rw [hkind] at hj
  split_ifs at hj
  exact hj

/-- **Moving a declaration** changes no kind. -/
theorem succeeds_moveTo_edited {q : DeclId} {list : ChildList} (hc : g.outline.Consistent none)
    (hid : g.kind? id = some (some list)) (hq : g.kind? q = some list.home) :
    (moveTo id q).Succeeds g fun _ g' =>
      g'.outline = (g.outline.unlink id).link id q list ∧ Edited gone g g' := by
  obtain ⟨_, g', hok, ho⟩ := (succeeds_moveTo hc hid hq).exists_ok
  obtain ⟨hk, hlength⟩ := outcome_moveTo_kind?.of_ok hok
  unfold Succeeds Outcome
  rw [hok]
  refine ⟨ho, ?_, hlength, fun j _ h => by rwa [hk] at h, fun j _ => by rw [hk]⟩
  rw [ho]
  exact (hc.unlink id).link q list

/-! ### Annotating -/

theorem alike_annotateDecl (c : Catalog) (d : Decl) : d.Alike (annotateDecl c g id d) := by
  cases d <;> exact ⟨fun list => by cases list <;> rfl, rfl⟩

theorem outline_annotated (c : Catalog) : (annotated c g id).outline = g.outline := by
  unfold annotated
  cases hn : g.node? id with
  | none => rfl
  | some n => exact outline_setNode_of_alike hn rfl (alike_annotateDecl c n.decl)

/-- Annotating all bodies keeps the outline. -/
theorem outline_annotateAll (c : Catalog) : (g.annotateAll c).outline = g.outline := by
  unfold annotateAll
  generalize g.codeOwners = ids
  induction ids generalizing g with
  | nil => rfl
  | cons id ids ih => exact ih.trans (outline_annotated c)

theorem consistent_annotateAll (c : Catalog) (hc : g.outline.Consistent none) :
    (g.annotateAll c).outline.Consistent none := by
  rw [outline_annotateAll]
  exact hc

theorem length_annotateAll (c : Catalog) : (g.annotateAll c).slots.length = g.slots.length :=
  congrArg Outline.slots (outline_annotateAll c)

/-- Annotating declarations leaves the others alone. -/
theorem node?_foldl_annotated {c : Catalog} {ids : List DeclId} {j : DeclId} (hj : j ∉ ids) :
    (ids.foldl (annotated c) g).node? j = g.node? j := by
  induction ids generalizing g with
  | nil => rfl
  | cons id ids ih =>
    obtain ⟨hne, hj⟩ := List.ne_and_not_mem_of_not_mem_cons hj
    rw [List.foldl_cons, ih hj, annotated]
    cases hn : g.node? id with
    | none => rfl
    | some n => rw [node?_setNode hn, if_neg hne]

/-- Annotating the bodies of a declaration that is there succeeds. -/
theorem succeeds_annotate {c : Catalog} (hn : g.node? id = some n) :
    (annotate c id).Succeeds g fun _ g' => g' = annotated c g id := by
  simp only [Succeeds, annotate, outcome_bind, outcome_node_some hn, outcome_modify]

/-- Annotating several declarations that are there succeeds. -/
theorem succeeds_forM_annotate {c : Catalog} {ids : List DeclId}
    (hids : ∀ id ∈ ids, g.kind? id ≠ none) :
    (ids.forM (annotate c)).Succeeds g fun _ g' =>
      g'.outline = g.outline ∧ g' = ids.foldl (annotated c) g := by
  induction ids generalizing g with
  | nil => exact ⟨rfl, rfl⟩
  | cons id ids ih =>
    obtain ⟨kind, hkind⟩ := Option.ne_none_iff_exists'.mp (hids id List.mem_cons_self)
    obtain ⟨n, hn, -⟩ := exists_node?_of_kind? hkind
    refine outcome_bind.mpr ((succeeds_annotate hn).mono fun _ g' h => ?_)
    obtain rfl := h
    have ho : (annotated c g id).outline = g.outline := outline_annotated c
    have hrest : ∀ j ∈ ids, (annotated c g id).kind? j ≠ none := by
      intro j hj
      rw [kind?_of_outline ho]
      exact hids j (List.mem_cons_of_mem id hj)
    refine (ih hrest).mono fun _ g' h => ⟨h.1.trans ho, h.2⟩

end ObjcSwift.Graph
