import ObjcSwift.Decl.Graph.Edit
import ObjcSwift.Proofs.Graph.Lists

/-!
# The outline of a graph

What links the declarations of a graph to each other is its **outline** (`Graph.outline`): where
each declaration stands, what each lists, and which are the files. What the declarations say beyond
that is left out, so an edit that only rewrites signatures or bodies keeps the outline, and an edit
that links, unlinks or empties slots is a small change of it.

An outline is **consistent** (`Outline.Consistent`) when the two directions agree: a list of an
owner names exactly the declarations that stand there. Edits pass through outlines in which this
fails for one declaration, which is being moved or removed; that declaration is then *loose*: no
list names it, and nothing is said about the owner it names itself.

The second half of the file is about outlines alone: what unlinking, linking and emptying slots do
to consistency.
-/

namespace ObjcSwift

/-! ### Numbers of slots -/

namespace DeclId

theorem toNat_lt (id : DeclId) : id.toNat < 2 ^ 32 :=
  id.index.toNat_lt

@[simp]
theorem ofNat_toNat (id : DeclId) : ofNat id.toNat = id := by
  simp [ofNat, toNat]

theorem toNat_ofNat {n : Nat} (h : n < 2 ^ 32) : (ofNat n).toNat = n := by
  simp only [ofNat, toNat]
  exact UInt32.toNat_ofNat_of_lt' h

theorem toNat_inj {i j : DeclId} : i.toNat = j.toNat ↔ i = j := by
  refine ⟨fun h => ?_, fun h => h ▸ rfl⟩
  rw [← ofNat_toNat i, h, ofNat_toNat]

end DeclId

/-! ### Outlines -/

/-- Where a declaration stands: its owner, and the list for its kind. Files have neither. -/
structure Place where
  /-- The owner. -/
  owner : Option DeclId
  /-- The list for the kind of the declaration. -/
  list : Option ChildList
deriving DecidableEq

/-- What links the declarations of a graph to each other. -/
@[ext]
structure Outline where
  /-- The number of slots. -/
  slots : Nat
  /-- The files. -/
  files : List DeclId
  /-- Where the declaration in a slot stands. -/
  place? : DeclId → Option Place
  /-- What the declaration in a slot lists. -/
  listOf : DeclId → ChildList → List DeclId

/-- Where a node stands. -/
def GraphNode.place (n : GraphNode) : Place :=
  ⟨n.parent, n.decl.ownList?⟩

namespace Graph

variable {g : Graph} {id : DeclId} {n : GraphNode}

/-- Where the declaration of a number stands. -/
def place? (g : Graph) (id : DeclId) : Option Place :=
  (g.node? id).map GraphNode.place

/-- What the declaration of a number lists; an empty slot lists nothing. -/
def listOf (g : Graph) (id : DeclId) (list : ChildList) : List DeclId :=
  ((g.node? id).map fun n => n.decl.listOf list).getD []

/-- The outline of a graph. -/
def outline (g : Graph) : Outline :=
  ⟨g.slots.length, g.files, g.place?, g.listOf⟩

theorem get?_of_node? (h : g.node? id = some n) : g.get? id = some n.decl := by
  rw [get?, h]
  rfl

theorem parent?_of_node? (h : g.node? id = some n) : g.parent? id = n.parent := by
  rw [parent?, h]
  rfl

theorem place?_of_node? (h : g.node? id = some n) : g.place? id = some n.place := by
  rw [place?, h]
  rfl

theorem listOf_of_node? (h : g.node? id = some n) (list : ChildList) :
    g.listOf id list = n.decl.listOf list := by
  rw [listOf, h]
  rfl

theorem exists_node?_of_place? {p : Place} (h : g.place? id = some p) :
    ∃ n, g.node? id = some n ∧ n.parent = p.owner ∧ n.decl.ownList? = p.list := by
  obtain ⟨n, hn, rfl⟩ := Option.map_eq_some_iff.mp h
  exact ⟨n, hn, rfl, rfl⟩

/-- Only a declaration of the right kind lists anything. -/
theorem place?_of_mem_listOf {p : DeclId} {list : ChildList} (h : id ∈ g.listOf p list) :
    ∃ owner, g.node? p = some owner ∧ id ∈ owner.decl.listOf list ∧
      owner.decl.ownList? = list.home := by
  cases hp : g.node? p with
  | none => simp [listOf, hp] at h
  | some owner =>
    rw [listOf_of_node? hp] at h
    exact ⟨owner, rfl, h, Decl.ownList?_of_mem_listOf h⟩

/-- The types of a graph, file by file. What is listed as a file and is none has no types. -/
theorem typeIds_eq (g : Graph) : g.typeIds = g.files.flatMap fun f => g.listOf f .types := by
  unfold typeIds
  refine List.flatMap_congr fun f _ => ?_
  rw [file, typed, get?, listOf]
  cases g.node? f with
  | none => rfl
  | some n =>
    obtain ⟨_, d⟩ := n
    cases d <;> rfl

/-! ### What edits of slots do to nodes -/

theorem lt_length_of_node? (h : g.node? id = some n) : id.toNat < g.slots.length := by
  rw [node?, Option.join_eq_some_iff] at h
  exact (List.getElem?_eq_some_iff.mp h).1

theorem mem_slots_of_node? (h : g.node? id = some n) : some n ∈ g.slots :=
  List.mem_of_getElem? (Option.join_eq_some_iff.mp h)

theorem node?_eq_none_of_length_le (h : g.slots.length ≤ id.toNat) : g.node? id = none := by
  rw [node?, List.getElem?_eq_none h]
  rfl

/-- Filling a slot that is not empty changes what is in it, and nothing else. -/
theorem node?_setNode {m : GraphNode} (h : g.node? id = some n) (j : DeclId) :
    (g.setNode id m).node? j = if j = id then some m else g.node? j := by
  have hlt := lt_length_of_node? h
  by_cases hj : j = id
  · subst hj
    simp [setNode, node?, hlt]
  · have hne : id.toNat ≠ j.toNat := fun he => hj (DeclId.toNat_inj.mp he).symm
    simp [setNode, node?, hj, List.getElem?_set_ne hne]

/-- What is read off from every slot stays if it is the same for the old and the new declaration. -/
theorem map_slots_setNode {β : Type} {f : GraphNode → β} {m : GraphNode}
    (h : g.node? id = some n) (hm : f m = f n) :
    (g.setNode id m).slots.map (Option.map f) = g.slots.map (Option.map f) := by
  have hslot : (g.slots.map (Option.map f))[id.toNat]? = some (some (f n)) := by
    have := Option.join_eq_some_iff.mp h
    simp [this]
  obtain ⟨hlt, hget⟩ := List.getElem?_eq_some_iff.mp hslot
  rw [setNode, List.map_set, Option.map_some, hm, ← hget]
  exact List.set_getElem_self hlt

/-- Filling the next slot changes nothing in the slots before. -/
theorem node?_append (h : g.slots.length < 2 ^ 32) (j : DeclId) :
    ({ g with slots := g.slots ++ [some n] } : Graph).node? j =
      if j = .ofNat g.slots.length then some n else g.node? j := by
  by_cases hj : j = .ofNat g.slots.length
  · subst hj
    simp [node?, DeclId.toNat_ofNat h]
  · have hne : j.toNat ≠ g.slots.length := fun he => hj (by rw [← he, DeclId.ofNat_toNat])
    rw [if_neg hj, node?, node?]
    rcases Nat.lt_or_ge j.toNat g.slots.length with hlt | hge
    · rw [List.getElem?_append_left hlt]
    · rw [List.getElem?_eq_none hge, List.getElem?_eq_none (by simp; omega)]

end Graph

/-! ### Changes of an outline -/

namespace Outline

variable {o o' : Outline} {id : DeclId}

/-- The outline with another declaration in a slot. -/
def put (o : Outline) (id : DeclId) (place : Place) (lists : ChildList → List DeclId) : Outline :=
  { o with
    place? := fun j => if j = id then some place else o.place? j
    listOf := fun p list => if p = id then lists list else o.listOf p list }

/-- The outline without the links to and from the owner of a declaration. -/
def unlink (o : Outline) (id : DeclId) : Outline :=
  { o with
    files := o.files.erase id
    place? := fun j => if j = id then (o.place? id).map fun p => { p with owner := none }
      else o.place? j
    listOf := fun p list => (o.listOf p list).erase id }

/-- The outline with a number at the end of a list of an owner. -/
def push (o : Outline) (id p : DeclId) (list : ChildList) : Outline :=
  { o with
    listOf := fun q l => if q = p ∧ l = list then o.listOf p list ++ [id] else o.listOf q l }

/-- The outline with a declaration at the end of a list of an owner. -/
def link (o : Outline) (id p : DeclId) (list : ChildList) : Outline :=
  { o.push id p list with
    place? := fun j => if j = id then some ⟨some p, some list⟩ else o.place? j }

/-- The outline with a declaration at the end of the files. -/
def linkFile (o : Outline) (id : DeclId) : Outline :=
  { o with
    files := o.files ++ [id]
    place? := fun j => if j = id then some ⟨none, none⟩ else o.place? j }

/-- The outline with the next slot filled. -/
def grow (o : Outline) (place : Place) : Outline :=
  { o.put (.ofNat o.slots) place (fun _ => []) with slots := o.slots + 1 }

/-- The outline without a declaration that lists nothing. -/
def drop (o : Outline) (id : DeclId) : Outline :=
  { o.unlink id with place? := fun j => if j = id then none else o.place? j }

/-- What emptying the slot of a declaration, and those of everything below it, leaves. -/
structure Freed (o o' : Outline) (root : DeclId) : Prop where
  /-- No slot is given back. -/
  slots_eq : o'.slots = o.slots
  /-- The files are the same. -/
  files_eq : o'.files = o.files
  /-- The root is gone. -/
  place?_root : o'.place? root = none
  /-- A slot is empty or as before. -/
  kept : ∀ id, (o'.place? id = none ∧ ∀ list, o'.listOf id list = []) ∨
    (o'.place? id ≠ none ∧ o'.place? id = o.place? id ∧ o'.listOf id = o.listOf id)
  /-- With a declaration goes what it lists. -/
  closed : ∀ p list id, o'.place? p = none → id ∈ o.listOf p list → o'.place? id = none
  /-- What goes is the root, or is listed by something that goes. -/
  traced : ∀ id, o.place? id ≠ none → o'.place? id = none →
    id = root ∨ ∃ p list, id ∈ o.listOf p list ∧ o'.place? p = none

end Outline

theorem Graph.outline_setNode {g : Graph} {id : DeclId} {n m : GraphNode}
    (h : g.node? id = some n) :
    (g.setNode id m).outline = g.outline.put id m.place fun list => m.decl.listOf list := by
  refine Outline.ext ?_ rfl ?_ ?_
  · simp [outline, setNode, Outline.put]
  · funext j
    simp only [outline, place?, Outline.put, node?_setNode h]
    split_ifs <;> rfl
  · funext p list
    simp only [outline, listOf, Outline.put, node?_setNode h]
    split_ifs <;> rfl

/-! ### Consistency -/

namespace Outline

variable {o o' : Outline} {id : DeclId}

/-- The two directions of an outline agree, except for a loose declaration, which no list names. -/
structure Consistent (o : Outline) (loose : Option DeclId) : Prop where
  /-- No file is listed twice. -/
  nodup_files : o.files.Nodup
  /-- The listed files are the declarations without owner and list. -/
  mem_files : ∀ id, id ∈ o.files ↔ some id ≠ loose ∧ o.place? id = some ⟨none, none⟩
  /-- No list names a declaration twice. -/
  nodup_listOf : ∀ p list, (o.listOf p list).Nodup
  /-- A list names the declarations that stand in it. -/
  mem_listOf : ∀ p list id,
    id ∈ o.listOf p list ↔ some id ≠ loose ∧ o.place? id = some ⟨some p, some list⟩
  /-- Files are the declarations without owner. -/
  owner_eq_none : ∀ id place, o.place? id = some place → some id ≠ loose →
    (place.owner = none ↔ place.list = none)

/-- Where there is nothing, there is nothing to agree. -/
theorem consistent_empty : (Graph.outline {}).Consistent none where
  nodup_files := List.nodup_nil
  mem_files id := by simp [Graph.outline, Graph.place?, Graph.node?]
  nodup_listOf p list := by simp [Graph.outline, Graph.listOf, Graph.node?]
  mem_listOf p list id := by simp [Graph.outline, Graph.place?, Graph.listOf, Graph.node?]
  owner_eq_none id place h := by simp [Graph.outline, Graph.place?, Graph.node?] at h

namespace Consistent

theorem mem_files_iff (h : o.Consistent none) : id ∈ o.files ↔ o.place? id = some ⟨none, none⟩ := by
  simp [h.mem_files]

theorem mem_listOf_iff (h : o.Consistent none) {p : DeclId} {list : ChildList} :
    id ∈ o.listOf p list ↔ o.place? id = some ⟨some p, some list⟩ := by
  simp [h.mem_listOf]

/-- No list names a loose declaration. -/
theorem loose_not_mem (h : o.Consistent (some id)) (p : DeclId) (list : ChildList) :
    id ∉ o.listOf p list :=
  fun hm => ((h.mem_listOf p list id).mp hm).1 rfl

/-- Unlinking makes a declaration loose. -/
theorem unlink (h : o.Consistent none) (id : DeclId) : (o.unlink id).Consistent (some id) where
  nodup_files := h.nodup_files.erase id
  mem_files j := by
    simp only [Outline.unlink, h.nodup_files.mem_erase_iff, h.mem_files_iff]
    by_cases hj : j = id <;> simp [hj]
  nodup_listOf p list := (h.nodup_listOf p list).erase id
  mem_listOf p list j := by
    simp only [Outline.unlink, (h.nodup_listOf p list).mem_erase_iff, h.mem_listOf_iff]
    by_cases hj : j = id <;> simp [hj]
  owner_eq_none j place hp hj := by
    have hne : j ≠ id := fun he => hj (he ▸ rfl)
    simp only [Outline.unlink, hne, if_false] at hp
    exact h.owner_eq_none j place hp (by simp)

/-- Linking makes a loose declaration stand in a list again. -/
theorem link (h : o.Consistent (some id)) (p : DeclId) (list : ChildList) :
    (o.link id p list).Consistent none where
  nodup_files := h.nodup_files
  mem_files j := by
    simp only [Outline.link, Outline.push, h.mem_files]
    by_cases hj : j = id <;> simp [hj]
  nodup_listOf q l := by
    simp only [Outline.link, Outline.push]
    split_ifs with hq
    · exact (h.nodup_listOf p list).append (List.nodup_singleton id)
        (List.disjoint_singleton.mpr (h.loose_not_mem p list))
    · exact h.nodup_listOf q l
  mem_listOf q l j := by
    simp only [Outline.link, Outline.push]
    -- Only one list has changed, and only for the loose declaration, which stood in none.
    by_cases hq : q = p ∧ l = list
    · by_cases hj : j = id <;> simp [hj, hq, h.mem_listOf]
    · by_cases hj : j = id
      · have hq' : ¬(p = q ∧ list = l) := fun hc => hq ⟨hc.1.symm, hc.2.symm⟩
        simpa [hj, hq, h.loose_not_mem q l] using hq'
      · simp [hj, hq, h.mem_listOf]
  owner_eq_none j place hp _ := by
    simp only [Outline.link, Outline.push] at hp
    split_ifs at hp with hj
    · simp [← Option.some.inj hp]
    · exact h.owner_eq_none j place hp (by simpa using hj)

/-- Listing a loose declaration among the files makes it a file. -/
theorem linkFile (h : o.Consistent (some id)) : (o.linkFile id).Consistent none where
  nodup_files := by
    have hid : id ∉ o.files := fun hm => ((h.mem_files id).mp hm).1 rfl
    exact h.nodup_files.append (List.nodup_singleton id) (List.disjoint_singleton.mpr hid)
  mem_files j := by
    simp only [Outline.linkFile]
    by_cases hj : j = id <;> simp [hj, h.mem_files]
  nodup_listOf := h.nodup_listOf
  mem_listOf p list j := by
    simp only [Outline.linkFile, h.mem_listOf]
    by_cases hj : j = id <;> simp [hj]
  owner_eq_none j place hp _ := by
    simp only [Outline.linkFile] at hp
    split_ifs at hp with hj
    · simp [← Option.some.inj hp]
    · exact h.owner_eq_none j place hp (by simpa using hj)

/-- A declaration in a new slot is loose at first. -/
theorem grow (h : o.Consistent none) (place : Place) (hnew : o.place? (.ofNat o.slots) = none)
    (hlists : ∀ list, o.listOf (.ofNat o.slots) list = []) :
    (o.grow place).Consistent (some (.ofNat o.slots)) where
  nodup_files := h.nodup_files
  mem_files j := by
    simp only [Outline.grow, Outline.put, h.mem_files_iff]
    by_cases hj : j = .ofNat o.slots <;> simp [hj, hnew]
  nodup_listOf p list := by
    simp only [Outline.grow, Outline.put]
    split_ifs
    · exact List.nodup_nil
    · exact h.nodup_listOf p list
  mem_listOf p list j := by
    -- The new slot lists nothing, as did the empty one.
    have hold : (if p = .ofNat o.slots then [] else o.listOf p list) = o.listOf p list := by
      split_ifs with hp
      · rw [hp, hlists list]
      · rfl
    simp only [Outline.grow, Outline.put, hold, h.mem_listOf_iff]
    by_cases hj : j = .ofNat o.slots <;> simp [hj, hnew]
  owner_eq_none j place' hp hj := by
    have hne : j ≠ .ofNat o.slots := fun he => hj (he ▸ rfl)
    simp only [Outline.grow, Outline.put, hne, if_false] at hp
    exact h.owner_eq_none j place' hp (by simp)

end Consistent

namespace Freed

variable {j p root : DeclId} {place : Place} {list : ChildList}

/-- What is still there stands where it stood. -/
theorem place?_of_live (hf : o.Freed o' root) (hj : o'.place? j = some place) :
    o.place? j = some place ∧ j ≠ root := by
  refine ⟨?_, ?_⟩
  · rcases hf.kept j with ⟨hnone, -⟩ | ⟨-, hsame, -⟩
    · exact absurd (hj.symm.trans hnone) (by simp)
    · rwa [hsame] at hj
  · rintro rfl
    exact absurd (hj.symm.trans hf.place?_root) (by simp)

/-- A listed declaration goes only with the one that lists it. -/
theorem place?_of_owner (hf : o.Freed o' root) (h : o.Consistent (some root))
    (hj : o.place? j = some place) (hne : j ≠ root)
    (howner : ∀ p, place.owner = some p → o'.place? p ≠ none) : o'.place? j = some place := by
  rcases hf.kept j with ⟨hnone, -⟩ | ⟨-, hsame, -⟩
  · rcases hf.traced j (by simp [hj]) hnone with he | ⟨q, l, hq, hgone⟩
    · exact absurd he hne
    · have hplace := ((h.mem_listOf q l j).mp hq).2
      rw [hj] at hplace
      exact absurd hgone (howner q (by rw [Option.some.inj hplace]))
  · rw [hsame, hj]

/-- What is still listed is what was listed, if the one that lists it is still there. -/
theorem mem_listOf_iff (hf : o.Freed o' root) :
    j ∈ o'.listOf p list ↔ o'.place? p ≠ none ∧ j ∈ o.listOf p list := by
  rcases hf.kept p with ⟨hnone, hnil⟩ | ⟨hlive, -, hsame⟩
  · simp [hnone, hnil]
  · simp [hlive, hsame]

theorem nodup_listOf (hf : o.Freed o' root) (h : (o.listOf p list).Nodup) :
    (o'.listOf p list).Nodup := by
  rcases hf.kept p with ⟨-, hnil⟩ | ⟨-, -, hsame⟩
  · rw [hnil]
    exact List.nodup_nil
  · rwa [hsame]

end Freed

/-- Emptying the slot of a loose declaration and those below it restores consistency. -/
theorem Consistent.freed (h : o.Consistent (some id)) (hf : o.Freed o' id) :
    o'.Consistent none where
  nodup_files := hf.files_eq ▸ h.nodup_files
  mem_files j := by
    rw [hf.files_eq, h.mem_files]
    constructor
    · rintro ⟨hne, hj⟩
      exact ⟨by simp, hf.place?_of_owner h hj (by simpa using hne) (by simp)⟩
    · rintro ⟨-, hj⟩
      obtain ⟨hold, hne⟩ := hf.place?_of_live hj
      exact ⟨by simpa using hne, hold⟩
  nodup_listOf p list := hf.nodup_listOf (h.nodup_listOf p list)
  mem_listOf p list j := by
    rw [hf.mem_listOf_iff, h.mem_listOf]
    constructor
    · rintro ⟨hp, hne, hj⟩
      refine ⟨by simp, hf.place?_of_owner h hj (by simpa using hne) fun q hq => ?_⟩
      rwa [← Option.some.inj hq]
    · rintro ⟨-, hj⟩
      obtain ⟨hold, hne⟩ := hf.place?_of_live hj
      have hm : j ∈ o.listOf p list := (h.mem_listOf p list j).mpr ⟨by simpa using hne, hold⟩
      -- What an owner lists is gone if the owner is.
      refine ⟨fun hgone => ?_, by simpa using hne, hold⟩
      exact absurd (hj.symm.trans (hf.closed p list j hgone hm)) (by simp)
  owner_eq_none j place hp _ := by
    obtain ⟨hold, hne⟩ := hf.place?_of_live hp
    exact h.owner_eq_none j place hold (by simpa using hne)

end Outline

end ObjcSwift
