import ObjcSwift.Proofs.Graph.Scripts

/-!
# The laws of merging

Graphs merge like lists: the empty graph is neutral on both sides, and of three graphs it does not
matter which two are merged first (`Graph.merge_assoc`). So the graphs of several files, merged in
the order of the files, make one graph however the merges are grouped.

Both laws hold because moving numbers up twice is moving them up once by the sum, **also where they
wrap around**. What needs numbers for all slots is that nothing wraps: then the graph behind another
one says what it said, with every number in it plus the slots of the first (`Graph.Moved`).
-/

namespace ObjcSwift

/-! ### Moving numbers up -/

namespace DeclId

theorem shift_zero (id : DeclId) : id.shift 0 = id :=
  ofNat_toNat id

theorem shift_shift (id : DeclId) (m n : Nat) : (id.shift m).shift n = id.shift (m + n) := by
  refine toNat_inj.mp ?_
  simp only [shift, ofNat, toNat, UInt32.toNat_ofNat']
  omega

end DeclId

namespace Graph

variable {a b g : Graph} {id : DeclId} {n : GraphNode}

theorem shiftNode_zero (n : GraphNode) : shiftNode 0 n = n := by
  simp [shiftNode, DeclId.shift_zero, Decl.mapLists_self]

theorem shiftNode_shiftNode (m k : Nat) (n : GraphNode) :
    shiftNode k (shiftNode m n) = shiftNode (m + k) n := by
  simp [shiftNode, DeclId.shift_shift, Decl.mapLists_mapLists, Function.comp_def]

/-! ### The neutral graph, and associativity -/

theorem merge_empty (g : Graph) : g.merge {} = g := by
  simp [merge]

theorem empty_merge (g : Graph) : merge {} g = g := by
  have hslot : ∀ slot : Option GraphNode, slot.map (shiftNode 0) = slot := by
    intro slot
    cases slot <;> simp [shiftNode_zero]
  simp [merge, DeclId.shift_zero, hslot]

/-- **Of three graphs it does not matter which two are merged first.** -/
theorem merge_assoc (a b c : Graph) : (a.merge b).merge c = a.merge (b.merge c) := by
  have hslot : ∀ slot : Option GraphNode,
      (slot.map (shiftNode b.slots.length)).map (shiftNode a.slots.length) =
        slot.map (shiftNode (a.slots.length + b.slots.length)) := by
    intro slot
    cases slot <;> simp [shiftNode_shiftNode, Nat.add_comm]
  simp [merge, DeclId.shift_shift, Function.comp_def, hslot, Nat.add_comm a.slots.length]

/-! ### What the second graph says -/

/-- A node says what another one says, with every number in it moved up by an offset. -/
structure Moved (offset : Nat) (n n' : GraphNode) : Prop where
  /-- The number of the owner. -/
  parent_eq : n'.parent.map DeclId.toNat = n.parent.map (·.toNat + offset)
  /-- The numbers in each list. -/
  listOf_eq : ∀ list,
    (n'.decl.listOf list).map DeclId.toNat = (n.decl.listOf list).map (·.toNat + offset)
  /-- Everything else. -/
  childless_eq : n'.decl.childless = n.decl.childless

/-- The owner that a declaration of a well-formed graph names is in a slot. -/
theorem WellFormed.toNat_lt_of_parent (h : g.WellFormed) {p : DeclId} (hn : g.node? id = some n)
    (hp : n.parent = some p) : p.toNat < g.slots.length := by
  have hparent : g.parent? id = some p := by rw [parent?, hn, Option.bind_some, hp]
  have hid : id ∉ g.files := fun hid => by simp [h.parent?_file id hid] at hparent
  obtain ⟨q, owner, -, hq, howner, -⟩ := h.listed_by_owner id n.decl (get?_of_node? hn) hid
  obtain rfl : q = p := Option.some.inj (hq.symm.trans hparent)
  obtain ⟨m, hm, -⟩ := exists_node?_of_get? howner
  exact lt_length_of_node? hm

/-- What a declaration of a well-formed graph lists is in a slot. -/
theorem WellFormed.toNat_lt_of_mem_listOf (h : g.WellFormed) (hle : g.slots.length ≤ 2 ^ 32)
    {k : DeclId} {list : ChildList} (hk : k ∈ g.listOf id list) : k.toNat < g.slots.length := by
  have hlive := h.contains_listed k ((mem_listed hle).mpr ⟨id, list, hk⟩)
  obtain ⟨m, hm⟩ := Option.isSome_iff_exists.mp hlive
  exact lt_length_of_node? hm

/-- A file of a well-formed graph is in a slot. -/
theorem WellFormed.toNat_lt_of_mem_files (h : g.WellFormed) (hid : id ∈ g.files) :
    id.toNat < g.slots.length := by
  obtain ⟨file, hfile⟩ := (h.mem_files_iff id).mp hid
  obtain ⟨m, hm, -⟩ := exists_node?_of_get? hfile
  exact lt_length_of_node? hm

/-- **No number in a well-formed graph wraps around**, if there are numbers for the slots that it
has and those before it. -/
theorem WellFormed.moved_shiftNode (h : g.WellFormed) {offset : Nat}
    (hle : g.slots.length + offset ≤ 2 ^ 32) (hn : g.node? id = some n) :
    Moved offset n (shiftNode offset n) where
  parent_eq := by
    cases hp : n.parent with
    | none => simp [shiftNode, hp]
    | some p =>
      have hlt := h.toNat_lt_of_parent hn hp
      simp [shiftNode, hp, DeclId.toNat_shift (show p.toNat + offset < 2 ^ 32 by omega)]
  listOf_eq list := by
    rw [shiftNode, Decl.listOf_mapLists (by simp), List.map_map]
    refine List.map_congr_left fun k hk => ?_
    rw [← listOf_of_node? hn] at hk
    have hlt := h.toNat_lt_of_mem_listOf (by omega) hk
    exact DeclId.toNat_shift (by omega)
  childless_eq := Decl.childless_mapLists _ n.decl

/-- The types of a merge are those of the first graph, and then those of the second. -/
theorem typeIds_merge (ha : a.WellFormed) (hb : b.WellFormed)
    (hle : a.slots.length + b.slots.length ≤ 2 ^ 32) :
    (a.merge b).typeIds = a.typeIds ++ b.typeIds.map (·.shift a.slots.length) := by
  have hleft : ∀ f ∈ a.files, (a.merge b).listOf f .types = a.listOf f .types :=
    fun f hf => listOf_merge_left (ha.toNat_lt_of_mem_files hf) .types
  have hright : ∀ f ∈ b.files, (a.merge b).listOf (f.shift a.slots.length) .types =
      (b.listOf f .types).map (·.shift a.slots.length) := by
    intro f hf
    have hlt := hb.toNat_lt_of_mem_files hf
    exact listOf_merge_right (by omega) .types
  rw [typeIds_eq, typeIds_eq, typeIds_eq, merge, List.flatMap_append, List.flatMap_map,
    List.map_flatMap]
  exact congrArg₂ (· ++ ·) (List.flatMap_congr hleft) (List.flatMap_congr hright)

/-- **Graphs merge like lists, and a merge says what both graphs said.** Merging is associative and
has the empty graph as neutral element, whatever the graphs. If two graphs are well formed and there
are numbers for the slots of both, then the types of their merge are those of the first and behind
them those of the second, every number of the first still stands for what it stood for, and every
number of the second, plus the slots of the first, stands for what it stood for, with all numbers in
it moved up alike. A slot that is empty stays so. -/
theorem merges_like_lists (a b c : Graph) :
    (a.merge b).merge c = a.merge (b.merge c) ∧ a.merge {} = a ∧ merge {} a = a ∧
    (a.WellFormed → b.WellFormed → a.slots.length + b.slots.length ≤ 2 ^ 32 →
      (a.merge b).typeIds.map DeclId.toNat =
        a.typeIds.map DeclId.toNat ++ b.typeIds.map (·.toNat + a.slots.length) ∧
      (∀ id : DeclId, id.toNat < a.slots.length → (a.merge b).node? id = a.node? id) ∧
      ∀ id : DeclId, id.toNat < b.slots.length →
        ∃ id' : DeclId, id'.toNat = id.toNat + a.slots.length ∧
          Option.Rel (Moved a.slots.length) (b.node? id) ((a.merge b).node? id')) := by
  refine ⟨merge_assoc a b c, merge_empty a, empty_merge a, fun ha hb hle =>
    ⟨?_, fun id hid => node?_merge_left hid, fun id hid => ?_⟩⟩
  · rw [typeIds_merge ha hb hle, List.map_append, List.map_map]
    refine congrArg _ (List.map_congr_left fun t ht => ?_)
    rw [typeIds_eq] at ht
    obtain ⟨f, -, ht⟩ := List.mem_flatMap.mp ht
    have hlt := hb.toNat_lt_of_mem_listOf (by omega) ht
    exact DeclId.toNat_shift (by omega)
  · have hroom : id.toNat + a.slots.length < 2 ^ 32 := by omega
    refine ⟨id.shift a.slots.length, DeclId.toNat_shift hroom, ?_⟩
    rw [node?_merge_right hroom]
    cases hn : b.node? id with
    | none => exact .none
    | some n => exact .some (hb.moved_shiftNode (by omega) hn)

/-- A graph with emptied slots. -/
def sparseGraph : Graph :=
  runScript removalScript {}

/-- A file, a type in it, and a conformance of the type. -/
def smallGraph : Graph :=
  runScript (removalScript.take 3) {}

theorem merges_like_lists_sparseGraph :
    sparseGraph.WellFormed ∧ smallGraph.WellFormed ∧
      sparseGraph.slots.length + smallGraph.slots.length ≤ 2 ^ 32 ∧
      (sparseGraph.merge smallGraph).typeIds.map DeclId.toNat = [4, 6] ∧
      ∃ id : DeclId, id.toNat = 7 ∧
        Option.Rel (Moved 5) (smallGraph.node? ⟨2⟩) ((sparseGraph.merge smallGraph).node? id) := by
  have hsparse : sparseGraph.slots.length = 5 := by decide_cbv
  have hsmall : smallGraph.slots.length = 3 := by decide_cbv
  have hwf : sparseGraph.WellFormed ∧ smallGraph.WellFormed := by
    constructor <;> refine wellFormed_of_consistent (consistent_runScript _
      Outline.consistent_empty ?_) ?_ <;> decide_cbv
  have hle : sparseGraph.slots.length + smallGraph.slots.length ≤ 2 ^ 32 := by omega
  obtain ⟨htypes, -, hmoved⟩ := (merges_like_lists sparseGraph smallGraph {}).2.2.2 hwf.1 hwf.2 hle
  have hid : (⟨2⟩ : DeclId).toNat = 2 := rfl
  obtain ⟨id, hid', hnode⟩ := hmoved ⟨2⟩ (by omega)
  refine ⟨hwf.1, hwf.2, hle, ?_, id, by omega, hsparse ▸ hnode⟩
  rw [htypes, hsparse]
  decide_cbv

end Graph

end ObjcSwift
