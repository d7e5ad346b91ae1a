import ObjcSwift.Decl.Graph
import Mathlib

/-!
# The lists of a declaration

A declaration keeps the declarations it owns in lists, one for each kind. Here the lists are read by
kind, `Decl.listOf`, and every function that changes lists is described by what it does to that
reading: it replaces one list and keeps the others (`Decl.Relists`), or it treats all lists alike.

Which lists a declaration has depends on its own kind only (`Decl.hasList_eq_true`): files have the
lists of the declarations that stand in no type, types those of members, and nothing else has any.
-/

namespace ObjcSwift

namespace ChildList

/-- The kind of the declarations that have a list, given as the list in which they stand themselves:
members stand in types, and everything else stands in files, which stand in no list. -/
def home : ChildList → Option ChildList
  | types | aliases | functions | globals => none
  | properties | methods | ivars | conformances => some types

/-- All lists. -/
def all : List ChildList :=
  [types, aliases, functions, globals, properties, methods, ivars, conformances]

theorem mem_all (list : ChildList) : list ∈ all := by
  cases list <;> decide

theorem nodup_all : all.Nodup := by decide

end ChildList

namespace Decl

/-- The declarations that a declaration keeps in one of its lists; in a list that it does not have,
there are none. -/
def listOf (list : ChildList) : Decl → List DeclId
  | file d =>
    match list with
    | .types => d.types
    | .aliases => d.aliases
    | .functions => d.functions
    | .globals => d.globals
    | _ => []
  | type d =>
    match list with
    | .properties => d.properties
    | .methods => d.methods
    | .ivars => d.ivars
    | .conformances => d.conformances
    | _ => []
  | _ => []

/-- Another declaration of the same kind, with other content in one list and the same in the
others. -/
structure Relists (d d' : Decl) (list : ChildList) (ids : List DeclId) : Prop where
  /-- The list with new content. -/
  listOf_self : d'.listOf list = ids
  /-- The other lists. -/
  listOf_other : ∀ l, l ≠ list → d'.listOf l = d.listOf l
  /-- The kind. -/
  ownList?_eq : d'.ownList? = d.ownList?

/-- Two declarations of the same kind with the same lists. -/
structure Alike (d d' : Decl) : Prop where
  /-- The lists. -/
  listOf_eq : ∀ list, d'.listOf list = d.listOf list
  /-- The kind. -/
  ownList?_eq : d'.ownList? = d.ownList?

/-! ### Reading lists by kind -/

/-- What a declaration owns, list by list. -/
theorem children_eq_flatMap (d : Decl) : d.children = ChildList.all.flatMap (listOf · d) := by
  cases d <;> simp [children, listOf, ChildList.all]

/-- What a declaration owns is what stands in one of its lists. -/
theorem mem_children {d : Decl} {id : DeclId} :
    id ∈ d.children ↔ ∃ list, id ∈ d.listOf list := by
  rw [children_eq_flatMap, List.mem_flatMap]
  exact ⟨fun ⟨list, _, h⟩ => ⟨list, h⟩, fun ⟨list, h⟩ => ⟨list, list.mem_all, h⟩⟩

/-- What a declaration owns is listed once, if no list has a repetition and no two lists share a
number. -/
theorem nodup_children {d : Decl} (hnodup : ∀ list, (d.listOf list).Nodup)
    (hdisj : ∀ id l l', id ∈ d.listOf l → id ∈ d.listOf l' → l = l') : d.children.Nodup := by
  rw [children_eq_flatMap, List.nodup_flatMap]
  refine ⟨fun list _ => hnodup list, ChildList.nodup_all.imp ?_⟩
  intro l l' hne id h h'
  exact hne (hdisj id l l' h h')

/-- What is listed once stands in one list. -/
theorem eq_of_count_children {d : Decl} {id : DeclId} {l l' : ChildList}
    (h : d.children.count id ≤ 1) (hid : id ∈ d.listOf l) (hid' : id ∈ d.listOf l') : l = l' := by
  by_contra hne
  have hnodup : (d.children.filter (· == id)).Nodup := by
    rw [List.filter_beq]
    exact List.nodup_replicate.mpr h
  rw [children_eq_flatMap, List.filter_flatMap, List.nodup_flatMap] at hnodup
  have hsymm : Std.Symm (Function.onFun List.Disjoint fun l => (d.listOf l).filter (· == id)) :=
    ⟨fun _ _ hdisj => hdisj.symm⟩
  exact hnodup.2.forall l.mem_all l'.mem_all hne (List.mem_filter.mpr ⟨hid, by simp⟩)
    (List.mem_filter.mpr ⟨hid', by simp⟩)

/-- Whether a declaration has a list is a matter of its kind. -/
theorem hasList_eq_true {d : Decl} {list : ChildList} :
    d.hasList list = true ↔ d.ownList? = list.home := by
  cases d <;> cases list <;> simp [hasList, updateList?, ownList?, ChildList.home]

/-- A declaration that lists something has the list. -/
theorem ownList?_of_mem_listOf {d : Decl} {list : ChildList} {id : DeclId}
    (h : id ∈ d.listOf list) : d.ownList? = list.home := by
  cases d <;> cases list <;> simp_all [listOf, ownList?, ChildList.home]

/-! ### Changing lists -/

theorem updateList?_relists {d d' : Decl} {list : ChildList} {f : List DeclId → List DeclId}
    (h : d.updateList? list f = some d') : d.Relists d' list (f (d.listOf list)) := by
  cases d <;> cases list <;> simp only [updateList?, Option.some.injEq, reduceCtorEq] at h <;>
    subst h <;> exact ⟨rfl, fun l hl => by cases l <;> simp_all [listOf], rfl⟩

/-- A list can be changed exactly where it is there. -/
theorem exists_updateList? {d : Decl} {list : ChildList} (f : List DeclId → List DeclId)
    (h : d.ownList? = list.home) : ∃ d', d.updateList? list f = some d' := by
  cases d <;> cases list <;> simp_all [updateList?, ownList?, ChildList.home]

/-- One more number at the end of a list changes how often this number is listed, and no other. -/
theorem Relists.count_children {d d' : Decl} {list : ChildList} {id j : DeclId}
    (h : d.Relists d' list (d.listOf list ++ [id])) (hj : j ≠ id) :
    d'.children.count j = d.children.count j := by
  rw [children_eq_flatMap, children_eq_flatMap, List.count_flatMap, List.count_flatMap]
  refine congrArg List.sum (List.map_congr_left fun l _ => ?_)
  by_cases hl : l = list
  · subst hl
    simp [h.listOf_self, Ne.symm hj]
  · simp [h.listOf_other l hl]

/-- Erasing a number takes it out of the first list that has it. -/
theorem eraseChild?_relists {d d' : Decl} {id : DeclId} (h : d.eraseChild? id = some d') :
    ∃ list, id ∈ d.listOf list ∧ d.Relists d' list ((d.listOf list).erase id) := by
  cases d with
  | file f =>
    simp only [eraseChild?, List.contains_iff_mem] at h
    split_ifs at h with h1 h2 h3 h4 <;> obtain rfl := Option.some.inj h
    · exact ⟨.types, h1, rfl, fun l hl => by cases l <;> simp_all [listOf], rfl⟩
    · exact ⟨.aliases, h2, rfl, fun l hl => by cases l <;> simp_all [listOf], rfl⟩
    · exact ⟨.functions, h3, rfl, fun l hl => by cases l <;> simp_all [listOf], rfl⟩
    · exact ⟨.globals, h4, rfl, fun l hl => by cases l <;> simp_all [listOf], rfl⟩
  | type t =>
    simp only [eraseChild?, List.contains_iff_mem] at h
    split_ifs at h with h1 h2 h3 h4 <;> obtain rfl := Option.some.inj h
    · exact ⟨.properties, h1, rfl, fun l hl => by cases l <;> simp_all [listOf], rfl⟩
    · exact ⟨.methods, h2, rfl, fun l hl => by cases l <;> simp_all [listOf], rfl⟩
    · exact ⟨.ivars, h3, rfl, fun l hl => by cases l <;> simp_all [listOf], rfl⟩
    · exact ⟨.conformances, h4, rfl, fun l hl => by cases l <;> simp_all [listOf], rfl⟩
  | _ => simp [eraseChild?] at h

/-- A number can be erased exactly where it is listed. -/
theorem eraseChild?_eq_none {d : Decl} {id : DeclId} (h : d.eraseChild? id = none) :
    id ∉ d.children := by
  cases d with
  | file f =>
    simp only [eraseChild?, List.contains_iff_mem] at h
    split_ifs at h with h1 h2 h3 h4
    simp [children, h1, h2, h3, h4]
  | type t =>
    simp only [eraseChild?, List.contains_iff_mem] at h
    split_ifs at h with h1 h2 h3 h4
    simp [children, h1, h2, h3, h4]
  | _ => simp [children]

theorem childless_of_eraseChild? {d d' : Decl} {id : DeclId} (h : d.eraseChild? id = some d') :
    d'.childless = d.childless := by
  cases d with
  | file f =>
    simp only [eraseChild?] at h
    split_ifs at h <;> obtain rfl := Option.some.inj h <;> rfl
  | type t =>
    simp only [eraseChild?] at h
    split_ifs at h <;> obtain rfl := Option.some.inj h <;> rfl
  | _ => simp [eraseChild?] at h

theorem childless_of_updateList? {d d' : Decl} {list : ChildList} {f : List DeclId → List DeclId}
    (h : d.updateList? list f = some d') : d'.childless = d.childless := by
  cases d <;> cases list <;> simp only [updateList?, Option.some.injEq, reduceCtorEq] at h <;>
    subst h <;> rfl

/-! ### All lists at once -/

@[simp]
theorem ownList?_mapLists {d : Decl} {f : List DeclId → List DeclId} :
    (d.mapLists f).ownList? = d.ownList? := by
  cases d <;> rfl

theorem listOf_mapLists {d : Decl} {f : List DeclId → List DeclId} (hf : f [] = [])
    (list : ChildList) : (d.mapLists f).listOf list = f (d.listOf list) := by
  cases d <;> cases list <;> simp [mapLists, listOf, hf]

theorem mapLists_mapLists (f f' : List DeclId → List DeclId) (d : Decl) :
    (d.mapLists f).mapLists f' = d.mapLists fun ids => f' (f ids) := by
  cases d <;> rfl

theorem mapLists_self (d : Decl) : (d.mapLists fun ids => ids) = d := by
  cases d <;> rfl

theorem childless_mapLists (f : List DeclId → List DeclId) (d : Decl) :
    (d.mapLists f).childless = d.childless :=
  mapLists_mapLists f _ d

@[simp]
theorem ownList?_childless {d : Decl} : d.childless.ownList? = d.ownList? :=
  ownList?_mapLists

@[simp]
theorem listOf_childless {d : Decl} {list : ChildList} : d.childless.listOf list = [] :=
  listOf_mapLists rfl list

theorem children_eq_nil {d : Decl} (h : ∀ list, d.listOf list = []) : d.children = [] := by
  rw [List.eq_nil_iff_forall_not_mem]
  intro id hid
  obtain ⟨list, hlist⟩ := mem_children.mp hid
  rw [h list] at hlist
  exact absurd hlist (by simp)

/-! ### Declarations with other lists -/

/-- A declaration with other lists. -/
def relist (lists : ChildList → List DeclId) : Decl → Decl
  | file d =>
    file { d with
      types := lists .types, aliases := lists .aliases, functions := lists .functions,
      globals := lists .globals }
  | type d =>
    type { d with
      properties := lists .properties, methods := lists .methods, ivars := lists .ivars,
      conformances := lists .conformances }
  | d => d

theorem relist_childless (d : Decl) : d.childless.relist (d.listOf ·) = d := by
  cases d <;> rfl

/-- A declaration is known if its lists are, and what is left without them. -/
theorem eq_of_childless_eq {d d' : Decl} (h : d.childless = d'.childless)
    (hlists : ∀ list, d.listOf list = d'.listOf list) : d = d' := by
  rw [← relist_childless d, ← relist_childless d', h, funext hlists]

end Decl

end ObjcSwift
