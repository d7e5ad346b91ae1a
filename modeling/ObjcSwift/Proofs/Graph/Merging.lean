import ObjcSwift.Proofs.Graph.Editing

/-!
# Merging graphs

A graph behind another one keeps its shape: all its numbers move up by the slots of the first graph.
As long as the slots of both are within the range of numbers, a number belongs to exactly one of the
two graphs, and two consistent graphs merge to a consistent one (`Graph.consistent_merge`).
-/

namespace ObjcSwift

/-! ### Moving numbers up -/

namespace DeclId

variable {offset : Nat} {i k : DeclId} {ids : List DeclId}

theorem toNat_shift (h : k.toNat + offset < 2 ^ 32) : (k.shift offset).toNat = k.toNat + offset :=
  toNat_ofNat h

theorem shift_inj (hi : i.toNat + offset < 2 ^ 32) (hk : k.toNat + offset < 2 ^ 32) :
    i.shift offset = k.shift offset ↔ i = k := by
  refine ⟨fun h => toNat_inj.mp ?_, fun h => h ▸ rfl⟩
  have h' := congrArg toNat h
  rw [toNat_shift hi, toNat_shift hk] at h'
  omega

/-- Every number from the offset on is one that was moved up. -/
theorem exists_shift_eq (h : offset ≤ i.toNat) :
    ∃ k : DeclId, k.toNat + offset = i.toNat ∧ k.shift offset = i := by
  have hlt := i.toNat_lt
  have hk : (ofNat (i.toNat - offset)).toNat = i.toNat - offset := toNat_ofNat (by omega)
  have hsum : (ofNat (i.toNat - offset)).toNat + offset = i.toNat := by omega
  refine ⟨ofNat (i.toNat - offset), hsum, toNat_inj.mp ?_⟩
  rw [toNat_shift (by omega), hsum]

theorem shift_mem_map_shift (hids : ∀ j ∈ ids, j.toNat + offset < 2 ^ 32)
    (hk : k.toNat + offset < 2 ^ 32) : k.shift offset ∈ ids.map (·.shift offset) ↔ k ∈ ids := by
  refine ⟨fun h => ?_, List.mem_map_of_mem⟩
  obtain ⟨j, hj, he⟩ := List.mem_map.mp h
  obtain rfl := (shift_inj (hids j hj) hk).mp he
  exact hj

theorem not_mem_map_shift (hids : ∀ j ∈ ids, j.toNat + offset < 2 ^ 32) (hi : i.toNat < offset) :
    i ∉ ids.map (·.shift offset) := by
  intro h
  obtain ⟨j, hj, rfl⟩ := List.mem_map.mp h
  rw [toNat_shift (hids j hj)] at hi
  omega

theorem nodup_map_shift (hids : ∀ j ∈ ids, j.toNat + offset < 2 ^ 32) (h : ids.Nodup) :
    (ids.map (·.shift offset)).Nodup :=
  h.map_on fun i hi k hk he => (shift_inj (hids i hi) (hids k hk)).mp he

end DeclId

namespace Graph

variable {g h : Graph} {j k : DeclId}

/-! ### The nodes of a merge -/

theorem node?_merge_left (hj : j.toNat < g.slots.length) : (g.merge h).node? j = g.node? j := by
  rw [node?, node?, merge, List.getElem?_append_left hj]

theorem node?_merge_right (hk : k.toNat + g.slots.length < 2 ^ 32) :
    (g.merge h).node? (k.shift g.slots.length) = (h.node? k).map (shiftNode g.slots.length) := by
  have hle : g.slots.length ≤ k.toNat + g.slots.length := by omega
  rw [node?, node?, merge, DeclId.toNat_shift hk, List.getElem?_append_right hle,
    Nat.add_sub_cancel, List.getElem?_map]
  cases h.slots[k.toNat]? with
  | none => rfl
  | some slot => cases slot <;> rfl

/-- A place with its owner moved up. -/
def shiftPlace (offset : Nat) (place : Place) : Place :=
  { place with owner := place.owner.map (·.shift offset) }

theorem place?_merge_left (hj : j.toNat < g.slots.length) : (g.merge h).place? j = g.place? j := by
  rw [place?, place?, node?_merge_left hj]

theorem place?_merge_right (hk : k.toNat + g.slots.length < 2 ^ 32) :
    (g.merge h).place? (k.shift g.slots.length) =
      (h.place? k).map (shiftPlace g.slots.length) := by
  rw [place?, place?, node?_merge_right hk, Option.map_map, Option.map_map]
  refine congrArg (Option.map · _) ?_
  funext n
  simp [GraphNode.place, shiftNode, shiftPlace]

theorem listOf_merge_left (hj : j.toNat < g.slots.length) (list : ChildList) :
    (g.merge h).listOf j list = g.listOf j list := by
  rw [listOf, listOf, node?_merge_left hj]

theorem listOf_merge_right (hk : k.toNat + g.slots.length < 2 ^ 32) (list : ChildList) :
    (g.merge h).listOf (k.shift g.slots.length) list =
      (h.listOf k list).map (·.shift g.slots.length) := by
  rw [listOf, listOf, node?_merge_right hk]
  cases h.node? k with
  | none => rfl
  | some n => simp [shiftNode, Decl.listOf_mapLists]

/-! ### Numbers in use -/

theorem toNat_lt_of_place? {place : Place} (hj : g.place? j = some place) :
    j.toNat < g.slots.length := by
  obtain ⟨n, hn, -⟩ := exists_node?_of_place? hj
  exact lt_length_of_node? hn

theorem toNat_lt_of_mem_files (hc : g.outline.Consistent none) (hj : j ∈ g.files) :
    j.toNat < g.slots.length :=
  toNat_lt_of_place? (hc.mem_files_iff.mp hj)

theorem toNat_lt_of_mem_listOf (hc : g.outline.Consistent none) {p : DeclId} {list : ChildList}
    (hj : j ∈ g.listOf p list) : j.toNat < g.slots.length ∧ p.toNat < g.slots.length := by
  obtain ⟨owner, ho, -⟩ := place?_of_mem_listOf hj
  exact ⟨toNat_lt_of_place? (hc.mem_listOf_iff.mp hj), lt_length_of_node? ho⟩

theorem toNat_lt_of_owner (hc : g.outline.Consistent none) {p : DeclId} {place : Place}
    (hj : g.place? j = some place) (hp : place.owner = some p) : p.toNat < g.slots.length := by
  obtain ⟨owner, list⟩ := place
  obtain rfl : owner = some p := hp
  cases list with
  | none => exact absurd ((hc.owner_eq_none j _ hj (by simp)).mpr rfl) (by simp)
  | some list =>
    have hm : j ∈ g.listOf p list := hc.mem_listOf_iff.mpr hj
    exact (toNat_lt_of_mem_listOf hc hm).2

/-- A number belongs to the first graph, or is a number moved up behind it. -/
theorem toNat_lt_or_exists_shift (g : Graph) (j : DeclId) :
    j.toNat < g.slots.length ∨
      ∃ k : DeclId, k.toNat + g.slots.length < 2 ^ 32 ∧ k.shift g.slots.length = j := by
  rcases Nat.lt_or_ge j.toNat g.slots.length with hj | hj
  · exact Or.inl hj
  · obtain ⟨k, hsum, hk⟩ := DeclId.exists_shift_eq hj
    exact Or.inr ⟨k, hsum ▸ j.toNat_lt, hk⟩

/-! ### Merging consistent graphs -/

section

variable (hg : g.outline.Consistent none) (hh : h.outline.Consistent none)
  (hlt : g.slots.length + h.slots.length ≤ 2 ^ 32)
include hh hlt

/-- There is a number for every listed file behind the first graph. -/
theorem room_of_mem_files : ∀ i ∈ h.files, i.toNat + g.slots.length < 2 ^ 32 := by
  intro i hi
  have := toNat_lt_of_mem_files hh hi
  omega

/-- There is a number for everything listed behind the first graph. -/
theorem room_of_mem_listOf (p : DeclId) (list : ChildList) :
    ∀ i ∈ h.listOf p list, i.toNat + g.slots.length < 2 ^ 32 := by
  intro i hi
  have := (toNat_lt_of_mem_listOf hh hi).1
  omega

/-- What stands under a moved owner stood under that owner before. -/
theorem place?_map_shiftPlace_iff {q : DeclId} {list : ChildList}
    (hq : q.toNat + g.slots.length < 2 ^ 32) :
    (h.place? k).map (shiftPlace g.slots.length) = some ⟨some (q.shift g.slots.length), some list⟩ ↔
      h.place? k = some ⟨some q, some list⟩ := by
  refine ⟨fun hm => ?_, fun hm => by rw [hm]; rfl⟩
  obtain ⟨⟨owner, list'⟩, hplace, hs⟩ := Option.map_eq_some_iff.mp hm
  obtain ⟨q₀, howner, he⟩ := Option.map_eq_some_iff.mp (congrArg Place.owner hs)
  have hlow := toNat_lt_of_owner hh hplace howner
  obtain rfl := (DeclId.shift_inj (by omega) hq).mp he
  obtain rfl : owner = some q₀ := howner
  obtain rfl : list' = some list := congrArg Place.list hs
  exact hplace

include hg

/-- The files of a merge are what stands nowhere in it. -/
theorem mem_files_merge_iff :
    j ∈ (g.merge h).files ↔ (g.merge h).place? j = some ⟨none, none⟩ := by
  have hfiles := room_of_mem_files hh hlt
  change j ∈ g.files ++ h.files.map (·.shift g.slots.length) ↔ _
  rw [List.mem_append]
  rcases g.toNat_lt_or_exists_shift j with hj | ⟨k, hk, rfl⟩
  · rw [place?_merge_left hj, or_iff_left (DeclId.not_mem_map_shift hfiles hj)]
    exact hg.mem_files_iff
  · have hleft : k.shift g.slots.length ∉ g.files := fun hm => by
      have := toNat_lt_of_mem_files hg hm
      rw [DeclId.toNat_shift hk] at this
      omega
    rw [place?_merge_right hk, or_iff_right hleft, DeclId.shift_mem_map_shift hfiles hk]
    refine hh.mem_files_iff.trans ?_
    change h.place? k = _ ↔ _
    rcases h.place? k with - | ⟨owner, list⟩
    · simp
    · simp [shiftPlace]

/-- A list of a merge names what stands in it: nothing of the one graph stands under an owner of the
other. -/
theorem mem_listOf_merge_iff {p : DeclId} {list : ChildList} :
    j ∈ (g.merge h).listOf p list ↔ (g.merge h).place? j = some ⟨some p, some list⟩ := by
  -- If the owner comes from one graph and the number from the other, neither side holds.
  rcases g.toNat_lt_or_exists_shift p with hp | ⟨q, hq, rfl⟩ <;>
    rcases g.toNat_lt_or_exists_shift j with hj | ⟨k, hk, rfl⟩
  · rw [listOf_merge_left hp, place?_merge_left hj]
    exact hg.mem_listOf_iff
  · rw [listOf_merge_left hp, place?_merge_right hk]
    refine iff_of_false (fun hm => ?_) fun hm => ?_
    · have := (toNat_lt_of_mem_listOf hg hm).1
      rw [DeclId.toNat_shift hk] at this
      omega
    · obtain ⟨place, hplace, hs⟩ := Option.map_eq_some_iff.mp hm
      obtain ⟨p₀, howner, rfl⟩ := Option.map_eq_some_iff.mp (congrArg Place.owner hs)
      have hlow := toNat_lt_of_owner hh hplace howner
      rw [DeclId.toNat_shift (by omega)] at hp
      omega
  · rw [listOf_merge_right hq, place?_merge_left hj]
    have hroom := room_of_mem_listOf hh hlt q list
    refine iff_of_false (DeclId.not_mem_map_shift hroom hj) fun hm => ?_
    have := toNat_lt_of_owner hg hm rfl
    rw [DeclId.toNat_shift hq] at this
    omega
  · rw [listOf_merge_right hq, place?_merge_right hk,
      DeclId.shift_mem_map_shift (room_of_mem_listOf hh hlt q list) hk,
      place?_map_shiftPlace_iff hh hlt hq]
    exact hh.mem_listOf_iff

/-- **Two consistent graphs merge to a consistent one**, if there are numbers for the slots of
both. -/
theorem consistent_merge : (g.merge h).outline.Consistent none where
  nodup_files := by
    have hfiles := room_of_mem_files hh hlt
    refine hg.nodup_files.append (DeclId.nodup_map_shift hfiles hh.nodup_files) ?_
    intro i hi hi'
    exact DeclId.not_mem_map_shift hfiles (toNat_lt_of_mem_files hg hi) hi'
  mem_files j := by
    rw [and_iff_right (by simp)]
    exact mem_files_merge_iff hg hh hlt
  nodup_listOf p list := by
    change ((g.merge h).listOf p list).Nodup
    rcases g.toNat_lt_or_exists_shift p with hp | ⟨q, hq, rfl⟩
    · rw [listOf_merge_left hp]
      exact hg.nodup_listOf p list
    · rw [listOf_merge_right hq]
      exact DeclId.nodup_map_shift (room_of_mem_listOf hh hlt q list) (hh.nodup_listOf q list)
  mem_listOf p list j := by
    rw [and_iff_right (by simp)]
    exact mem_listOf_merge_iff hg hh hlt
  owner_eq_none j place hp _ := by
    rcases g.toNat_lt_or_exists_shift j with hj | ⟨k, hk, rfl⟩
    · exact hg.owner_eq_none j place ((place?_merge_left hj).symm.trans hp) (by simp)
    · obtain ⟨place₀, hplace, rfl⟩ := Option.map_eq_some_iff.mp
        ((place?_merge_right hk).symm.trans hp)
      simpa [shiftPlace] using hh.owner_eq_none k place₀ hplace (by simp)

end

end Graph

end ObjcSwift
