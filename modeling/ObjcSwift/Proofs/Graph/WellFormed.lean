import ObjcSwift.Proofs.Graph.Editing

/-!
# Well-formed graphs

A graph is **well formed** (`Graph.WellFormed`) when its files are exactly the declarations of that
kind, and when every other declaration is listed once in the whole graph, by the owner it names and
in the list for its kind. This is the notion to read; the one to work with is the consistency of the
outline, which says the same of one list at a time.

A consistent graph whose slots all have a number is well formed (`Graph.wellFormed_of_consistent`),
and the converse holds where no list names a file (`Graph.consistent_of_wellFormed`). Such a graph
is only three levels deep: members, what stands in files, and files
(`Graph.reachesFile_of_consistent`).
-/

namespace ObjcSwift.Graph

variable {g : Graph} {id : DeclId} {n : GraphNode}

/-- The numbers in all lists of all declarations, slot by slot. -/
def listed (g : Graph) : List DeclId :=
  g.slots.flatMap fun slot => (slot.map fun n => n.decl.children).getD []

/-- Owners and lists of a graph agree everywhere. -/
structure WellFormed (g : Graph) : Prop where
  /-- No file is listed twice. -/
  nodup_files : g.files.Nodup
  /-- The listed files are the declarations of that kind. -/
  mem_files_iff : ∀ id, id ∈ g.files ↔ ∃ file, g.get? id = some (.file file)
  /-- Files have no owner. -/
  parent?_file : ∀ id ∈ g.files, g.parent? id = none
  /-- Every other declaration is listed once in the whole graph. -/
  count_listed : ∀ id d, g.get? id = some d → id ∉ g.files → g.listed.count id = 1
  /-- It is listed by the owner it names, in the list for its kind. -/
  listed_by_owner : ∀ id d, g.get? id = some d → id ∉ g.files →
    ∃ p owner list, g.parent? id = some p ∧ g.get? p = some owner ∧ d.ownList? = some list ∧
      id ∈ owner.listOf list
  /-- What is listed is there. -/
  contains_listed : ∀ id ∈ g.listed, g.contains id = true

/-- Going from owner to owner, a declaration is a listed file after at most two steps. -/
def ReachesFile (g : Graph) (id : DeclId) : Prop :=
  id ∈ g.files ∨ ∃ p, g.parent? id = some p ∧
    (p ∈ g.files ∨ ∃ q, g.parent? p = some q ∧ q ∈ g.files)

/-! ### Slots and numbers -/

theorem node?_ofNat {i : Nat} (hi : i < 2 ^ 32) : g.node? (.ofNat i) = (g.slots[i]?).join := by
  rw [node?, DeclId.toNat_ofNat hi]

theorem exists_node?_of_get? {d : Decl} (h : g.get? id = some d) :
    ∃ n, g.node? id = some n ∧ n.decl = d :=
  Option.map_eq_some_iff.mp h

/-- Graphs with the same files and the same declarations are the same, if all their slots have a
number. -/
theorem ext_node? {g' : Graph} (hfiles : g'.files = g.files)
    (hlength : g'.slots.length = g.slots.length) (hle : g.slots.length ≤ 2 ^ 32)
    (hnode : ∀ id, g'.node? id = g.node? id) : g' = g := by
  obtain ⟨slots, files⟩ := g
  obtain ⟨slots', files'⟩ := g'
  obtain rfl : files' = files := hfiles
  obtain rfl : slots' = slots := by
    refine List.ext_getElem hlength fun i hi' hi => ?_
    have hi32 := Nat.lt_of_lt_of_le hi hle
    have hslot := hnode (.ofNat i)
    rw [node?_ofNat hi32, node?_ofNat hi32] at hslot
    simpa [List.getElem?_eq_getElem hi', List.getElem?_eq_getElem hi] using hslot
  rfl

/-- What is listed in a slot is listed by the number of the slot. -/
theorem mem_listOf_of_slot {i : Nat} (hi : i < 2 ^ 32) {slot : Option GraphNode}
    (hslot : g.slots[i]? = some slot) (hid : id ∈ (slot.map fun n => n.decl.children).getD []) :
    ∃ list, id ∈ g.listOf (.ofNat i) list := by
  cases slot with
  | none => exact absurd hid (by simp)
  | some n =>
    obtain ⟨list, hlist⟩ := Decl.mem_children.mp hid
    have hn : g.node? (.ofNat i) = some n := by
      rw [node?_ofNat hi, hslot]
      rfl
    exact ⟨list, by rwa [listOf_of_node? hn]⟩

/-- What is in a list of some number is listed. -/
theorem mem_listed_of_mem_listOf {p : DeclId} {list : ChildList} (hid : id ∈ g.listOf p list) :
    id ∈ g.listed := by
  obtain ⟨owner, ho, hmem, -⟩ := place?_of_mem_listOf hid
  refine List.mem_flatMap.mpr ⟨some owner, ?_, Decl.mem_children.mpr ⟨list, hmem⟩⟩
  exact mem_slots_of_node? ho

/-- What is listed is in a list of some number, if all slots have one. -/
theorem mem_listed (hle : g.slots.length ≤ 2 ^ 32) :
    id ∈ g.listed ↔ ∃ p list, id ∈ g.listOf p list := by
  refine ⟨fun hid => ?_, fun ⟨p, list, hid⟩ => mem_listed_of_mem_listOf hid⟩
  obtain ⟨slot, hslot, hid⟩ := List.mem_flatMap.mp hid
  obtain ⟨i, hi, rfl⟩ := List.getElem_of_mem hslot
  obtain ⟨list, hlist⟩ :=
    mem_listOf_of_slot (Nat.lt_of_lt_of_le hi hle) (List.getElem?_eq_getElem hi) hid
  exact ⟨_, list, hlist⟩

/-! ### From consistent to well formed -/

/-- A declaration of a consistent graph owns nothing twice. -/
theorem nodup_children_of_consistent (hc : g.outline.Consistent none)
    (hn : g.node? id = some n) : n.decl.children.Nodup := by
  refine Decl.nodup_children (fun list => ?_) fun j l l' h h' => ?_
  · rw [← listOf_of_node? hn]
    exact hc.nodup_listOf id list
  · rw [← listOf_of_node? hn] at h h'
    have hplace := (hc.mem_listOf_iff.mp h).symm.trans (hc.mem_listOf_iff.mp h')
    simpa using hplace

/-- Where no declaration lists a number twice, and what is listed names as its owner the declaration
that lists it, nothing is listed twice in the whole graph, if all its slots have a number. -/
theorem nodup_listed_of_owners (hle : g.slots.length ≤ 2 ^ 32)
    (hchildren : ∀ p n, g.node? p = some n → n.decl.children.Nodup)
    (howner : ∀ p n, g.node? p = some n → ∀ id ∈ n.decl.children, g.parent? id = some p) :
    g.listed.Nodup := by
  have hnode {i : Nat} (hi : i < g.slots.length) {n : GraphNode} (hn : g.slots[i] = some n) :
      g.node? (.ofNat i) = some n := by
    rw [node?_ofNat (Nat.lt_of_lt_of_le hi hle), List.getElem?_eq_getElem hi, hn]
    rfl
  have hslot {i : Nat} (hi : i < g.slots.length) {id : DeclId}
      (hid : id ∈ (g.slots[i].map fun n => n.decl.children).getD []) :
      g.parent? id = some (.ofNat i) := by
    cases hn : g.slots[i] with
    | none => exact absurd hid (by simp [hn])
    | some n => exact howner _ n (hnode hi hn) id (by simpa [hn] using hid)
  rw [listed, List.nodup_flatMap]
  constructor
  · intro slot hmem
    obtain ⟨i, hi, rfl⟩ := List.getElem_of_mem hmem
    cases hn : g.slots[i] with
    | none => exact List.nodup_nil
    | some n => exact hchildren _ n (hnode hi hn)
  · -- Two slots that list the same would both be its owner.
    rw [List.pairwise_iff_getElem]
    intro i j hi hj hij id hid hid'
    have hsame : DeclId.ofNat i = .ofNat j :=
      Option.some.inj ((hslot hi hid).symm.trans (hslot hj hid'))
    have := congrArg DeclId.toNat hsame
    rw [DeclId.toNat_ofNat (Nat.lt_of_lt_of_le hi hle),
      DeclId.toNat_ofNat (Nat.lt_of_lt_of_le hj hle)] at this
    omega

/-- What is in a list of a declaration of a consistent graph names it as its owner. -/
theorem parent?_of_mem_listOf (hc : g.outline.Consistent none) {p : DeclId} {list : ChildList}
    (hid : id ∈ g.listOf p list) : g.parent? id = some p := by
  obtain ⟨m, hm, hp, -⟩ := exists_node?_of_place? (hc.mem_listOf_iff.mp hid)
  exact (parent?_of_node? hm).trans hp

/-- What a declaration of a consistent graph lists names it as its owner. -/
theorem parent?_of_mem_children (hc : g.outline.Consistent none) {p : DeclId}
    (hn : g.node? p = some n) (hid : id ∈ n.decl.children) : g.parent? id = some p := by
  obtain ⟨list, hlist⟩ := Decl.mem_children.mp hid
  rw [← listOf_of_node? hn] at hlist
  exact parent?_of_mem_listOf hc hlist

/-- In a consistent graph whose slots all have a number, nothing is listed twice. -/
theorem nodup_listed (hc : g.outline.Consistent none) (hle : g.slots.length ≤ 2 ^ 32) :
    g.listed.Nodup :=
  nodup_listed_of_owners hle (fun _ _ hn => nodup_children_of_consistent hc hn)
    fun _ _ hn _ hid => parent?_of_mem_children hc hn hid

/-- In a consistent graph, what is of the kind that stands in no list is a listed file. -/
theorem mem_files_of_kind? (hc : g.outline.Consistent none) (h : g.kind? id = some none) :
    id ∈ g.files := by
  obtain ⟨n, hn, hkind⟩ := exists_node?_of_kind? h
  have hplace : g.outline.place? id = some ⟨n.parent, none⟩ := by
    rw [← hkind]
    exact place?_of_node? hn
  have howner : n.parent = none := (hc.owner_eq_none id _ hplace (by simp)).mpr rfl
  rw [howner] at hplace
  exact hc.mem_files_iff.mpr hplace

/-- The files of a consistent graph are the declarations of that kind. -/
theorem mem_files_iff_get? (hc : g.outline.Consistent none) :
    id ∈ g.files ↔ ∃ file, g.get? id = some (.file file) := by
  refine ⟨fun h => ?_, fun ⟨file, h⟩ => ?_⟩
  · obtain ⟨n, hn, -, hlist⟩ := exists_node?_of_place? (hc.mem_files_iff.mp h)
    cases hd : n.decl with
    | file file => exact ⟨file, by rw [get?, hn, Option.map_some, hd]⟩
    | _ => simp [hd, Decl.ownList?] at hlist
  · obtain ⟨n, hn, hd⟩ := exists_node?_of_get? h
    exact mem_files_of_kind? hc (by rw [kind?_of_node? hn, hd]; rfl)

/-- A declaration of a consistent graph that is not a listed file has an owner. -/
theorem exists_parent_of_not_mem_files (hc : g.outline.Consistent none)
    (hn : g.node? id = some n) (hid : id ∉ g.files) : ∃ p, n.parent = some p := by
  cases hp : n.parent with
  | some p => exact ⟨p, rfl⟩
  | none =>
    have hplace : g.outline.place? id = some n.place := place?_of_node? hn
    rw [GraphNode.place, hp] at hplace
    have hlist := (hc.owner_eq_none id _ hplace (by simp)).mp rfl
    rw [show n.decl.ownList? = none from hlist] at hplace
    exact absurd (hc.mem_files_iff.mpr hplace) hid

/-- **A consistent graph is well formed**, if all its slots have a number. -/
theorem wellFormed_of_consistent (hc : g.outline.Consistent none)
    (hle : g.slots.length ≤ 2 ^ 32) : g.WellFormed where
  nodup_files := hc.nodup_files
  mem_files_iff _ := mem_files_iff_get? hc
  parent?_file id hid := by
    obtain ⟨n, hn, hp, -⟩ := exists_node?_of_place? (hc.mem_files_iff.mp hid)
    exact (parent?_of_node? hn).trans hp
  count_listed id d hd hid := by
    obtain ⟨n, hn, rfl⟩ := exists_node?_of_get? hd
    obtain ⟨p, hp⟩ := exists_parent_of_not_mem_files hc hn hid
    obtain ⟨owner, list, ho, -, -, hmem⟩ := exists_owner hc hn hp
    refine List.count_eq_one_of_mem (nodup_listed hc hle) ((mem_listed hle).mpr ⟨p, list, ?_⟩)
    rw [listOf_of_node? ho]
    exact (hmem list).mpr rfl
  listed_by_owner id d hd hid := by
    obtain ⟨n, hn, rfl⟩ := exists_node?_of_get? hd
    obtain ⟨p, hp⟩ := exists_parent_of_not_mem_files hc hn hid
    obtain ⟨owner, list, ho, hlist, -, hmem⟩ := exists_owner hc hn hp
    exact ⟨p, owner.decl, list, (parent?_of_node? hn).trans hp, get?_of_node? ho, hlist,
      (hmem list).mpr rfl⟩
  contains_listed id hid := by
    obtain ⟨p, list, hlist⟩ := (mem_listed hle).mp hid
    obtain ⟨n, hn, -⟩ := exists_node?_of_place? (hc.mem_listOf_iff.mp hlist)
    rw [contains, hn]
    rfl

/-- A consistent graph lists no file. -/
theorem not_mem_listed_of_mem_files (hc : g.outline.Consistent none)
    (hle : g.slots.length ≤ 2 ^ 32) : ∀ id ∈ g.files, id ∉ g.listed := by
  intro id hid hlisted
  obtain ⟨p, list, hlist⟩ := (mem_listed hle).mp hlisted
  have hplace := (hc.mem_files_iff.mp hid).symm.trans (hc.mem_listOf_iff.mp hlist)
  exact absurd hplace (by simp)

/-! ### From well formed to consistent -/

/-- In a well-formed graph that lists no file, nothing is listed twice. -/
theorem WellFormed.nodup_listed (h : g.WellFormed) (hfiles : ∀ id ∈ g.files, id ∉ g.listed) :
    g.listed.Nodup := by
  rw [List.nodup_iff_count_eq_one]
  intro id hid
  obtain ⟨n, hn⟩ := Option.isSome_iff_exists.mp (h.contains_listed id hid)
  exact h.count_listed id n.decl (get?_of_node? hn) fun hf => hfiles id hf hid

/-- Where nothing is listed twice, a declaration lists nothing twice. -/
theorem nodup_children_of_nodup_listed (h : g.listed.Nodup) (hn : g.node? id = some n) :
    n.decl.children.Nodup :=
  (List.nodup_flatMap.mp h).1 (some n) (mem_slots_of_node? hn)

/-- An owner lists nothing more often than the graph does. -/
theorem count_children_le (hn : some n ∈ g.slots) (j : DeclId) :
    n.decl.children.count j ≤ g.listed.count j := by
  refine List.Sublist.count_le j ?_
  rw [listed, List.flatMap_def]
  exact List.sublist_flatten_of_mem (List.mem_map.mpr ⟨some n, hn, rfl⟩)

/-- What is listed once in the whole graph is listed in one slot. -/
theorem index_eq_of_count_listed (h : g.listed.count id ≤ 1) {i j : Nat} {n m : GraphNode}
    (hn : g.slots[i]? = some (some n)) (hm : g.slots[j]? = some (some m))
    (hid : id ∈ n.decl.children) (hid' : id ∈ m.decl.children) : i = j := by
  obtain ⟨hi, hslot⟩ := List.getElem?_eq_some_iff.mp hn
  obtain ⟨hj, hslot'⟩ := List.getElem?_eq_some_iff.mp hm
  -- Its occurrences are at most one, so they are not in two slots.
  have hnodup : (g.listed.filter (· == id)).Nodup := by
    rw [List.filter_beq]
    exact List.nodup_replicate.mpr h
  rw [listed, List.filter_flatMap, List.nodup_flatMap, List.pairwise_iff_getElem] at hnodup
  have hocc : id ∈ (((g.slots[i]).map fun n => n.decl.children).getD []).filter (· == id) := by
    rw [hslot]
    exact List.mem_filter.mpr ⟨hid, by simp⟩
  have hocc' : id ∈ (((g.slots[j]).map fun n => n.decl.children).getD []).filter (· == id) := by
    rw [hslot']
    exact List.mem_filter.mpr ⟨hid', by simp⟩
  by_contra hij
  rcases Nat.lt_or_gt_of_ne hij with hlt | hlt
  · exact hnodup.2 _ _ hi hj hlt hocc hocc'
  · exact hnodup.2 _ _ hj hi hlt hocc' hocc

/-- What is listed once in the whole graph stands in one list of one owner. -/
theorem eq_of_count_listed (h : g.listed.count id ≤ 1) {p q : DeclId} {l l' : ChildList}
    (hp : id ∈ g.listOf p l) (hq : id ∈ g.listOf q l') : p = q ∧ l = l' := by
  obtain ⟨owner, ho, hmem, -⟩ := place?_of_mem_listOf hp
  obtain ⟨owner', ho', hmem', -⟩ := place?_of_mem_listOf hq
  have hslot := Option.join_eq_some_iff.mp ho
  obtain rfl : p = q := DeclId.toNat_inj.mp <| index_eq_of_count_listed h hslot
    (Option.join_eq_some_iff.mp ho') (Decl.mem_children.mpr ⟨l, hmem⟩)
    (Decl.mem_children.mpr ⟨l', hmem'⟩)
  obtain rfl : owner = owner' := Option.some.inj (ho.symm.trans ho')
  have hcount := (count_children_le (mem_slots_of_node? ho) id).trans h
  exact ⟨rfl, Decl.eq_of_count_children hcount hmem hmem'⟩

/-- In a well-formed graph, a declaration that is no file stands in one list of one owner. -/
theorem WellFormed.eq_of_mem_listOf (h : g.WellFormed) (hn : g.node? id = some n)
    (hid : id ∉ g.files) {p q : DeclId} {l l' : ChildList} (hp : id ∈ g.listOf p l)
    (hq : id ∈ g.listOf q l') : p = q ∧ l = l' :=
  eq_of_count_listed (h.count_listed id n.decl (get?_of_node? hn) hid).le hp hq

/-- In a well-formed graph, a declaration that is no file stands in the list for its kind of the
owner that it names. -/
theorem WellFormed.stands (h : g.WellFormed) (hn : g.node? id = some n) (hid : id ∉ g.files) :
    ∃ p list, n.place = ⟨some p, some list⟩ ∧ id ∈ g.listOf p list := by
  obtain ⟨p, owner, list, hp, ho, hlist, hmem⟩ :=
    h.listed_by_owner id n.decl (get?_of_node? hn) hid
  obtain ⟨m, hm, rfl⟩ := exists_node?_of_get? ho
  have hparent : n.parent = some p := (parent?_of_node? hn).symm.trans hp
  refine ⟨p, list, by rw [GraphNode.place, hparent, hlist], ?_⟩
  rwa [listOf_of_node? hm]

/-- In a well-formed graph, what a declaration lists is of the kind that the list is for, unless it
is a file. That holds of every slot, also of one without number. -/
theorem WellFormed.kind?_of_mem_slots (h : g.WellFormed) (hn : some n ∈ g.slots) {list : ChildList}
    (hid : id ∈ n.decl.listOf list) (hf : id ∉ g.files) : g.kind? id = some (some list) := by
  have hchild : id ∈ n.decl.children := Decl.mem_children.mpr ⟨list, hid⟩
  have hlisted : id ∈ g.listed := List.mem_flatMap.mpr ⟨some n, hn, hchild⟩
  obtain ⟨m, hm⟩ := Option.isSome_iff_exists.mp (h.contains_listed id hlisted)
  have hcount := (h.count_listed id m.decl (get?_of_node? hm) hf).le
  -- The owner that it names lists it too, so that owner is in this slot.
  obtain ⟨p, list', hplace, hid'⟩ := h.stands hm hf
  obtain ⟨owner, ho, hmem, -⟩ := place?_of_mem_listOf hid'
  obtain ⟨i, hi⟩ := List.mem_iff_getElem?.mp hn
  have hslot := Option.join_eq_some_iff.mp ho
  obtain rfl : i = p.toNat :=
    index_eq_of_count_listed hcount hi hslot hchild (Decl.mem_children.mpr ⟨list', hmem⟩)
  obtain rfl : n = owner := Option.some.inj (Option.some.inj (hi.symm.trans hslot))
  obtain rfl := Decl.eq_of_count_children ((count_children_le hn id).trans hcount) hid hmem
  rw [kind?_of_node? hm, show m.decl.ownList? = some list from congrArg Place.list hplace]

/-- The files of a well-formed graph are the declarations without owner and list. -/
theorem WellFormed.mem_files_iff_place (h : g.WellFormed) (hn : g.node? id = some n) :
    id ∈ g.files ↔ n.place = ⟨none, none⟩ := by
  constructor
  · intro hid
    obtain ⟨file, hget⟩ := (h.mem_files_iff id).mp hid
    obtain ⟨m, hm, hdecl⟩ := exists_node?_of_get? hget
    obtain rfl : m = n := Option.some.inj (hm.symm.trans hn)
    have hparent : m.parent = none := (parent?_of_node? hn).symm.trans (h.parent?_file id hid)
    rw [GraphNode.place, hparent, hdecl]
    rfl
  · intro hplace
    by_contra hid
    obtain ⟨p, list, hplace', -⟩ := h.stands hn hid
    rw [hplace] at hplace'
    exact absurd hplace' (by simp)

/-- What is of a kind that stands in a list is no file of a well-formed graph. -/
theorem WellFormed.not_mem_files (h : g.WellFormed) (hn : g.node? id = some n) {list : ChildList}
    (hlist : n.decl.ownList? = some list) : id ∉ g.files := by
  intro hfile
  have hplace := congrArg Place.list ((h.mem_files_iff_place hn).mp hfile)
  exact absurd (hlist.symm.trans hplace) (by simp)

/-- In a well-formed graph that lists no file, a list names the declarations that stand in it. -/
theorem WellFormed.mem_listOf_iff_place (h : g.WellFormed)
    (hfiles : ∀ id ∈ g.files, id ∉ g.listed) {p : DeclId} {list : ChildList} :
    id ∈ g.listOf p list ↔ g.place? id = some ⟨some p, some list⟩ := by
  constructor
  · intro hid
    have hlisted : id ∈ g.listed := mem_listed_of_mem_listOf hid
    obtain ⟨n, hn⟩ := Option.isSome_iff_exists.mp (h.contains_listed id hlisted)
    obtain ⟨p', list', hplace, hid'⟩ := h.stands hn fun hf => hfiles id hf hlisted
    obtain ⟨rfl, rfl⟩ := h.eq_of_mem_listOf hn (fun hf => hfiles id hf hlisted) hid hid'
    exact (place?_of_node? hn).trans (congrArg some hplace)
  · intro hplace
    obtain ⟨n, hn, heq⟩ := Option.map_eq_some_iff.mp hplace
    have hid : id ∉ g.files := fun hf => by
      rw [(h.mem_files_iff_place hn).mp hf] at heq
      exact absurd heq (by simp)
    obtain ⟨p', list', hplace', hid'⟩ := h.stands hn hid
    obtain ⟨rfl, rfl⟩ : p = p' ∧ list = list' := by simpa using heq.symm.trans hplace'
    exact hid'

/-- **A well-formed graph is consistent**, if it lists no file. -/
theorem consistent_of_wellFormed (h : g.WellFormed) (hfiles : ∀ id ∈ g.files, id ∉ g.listed) :
    g.outline.Consistent none where
  nodup_files := h.nodup_files
  mem_files id := by
    rw [and_iff_right (by simp)]
    constructor
    · intro hid
      obtain ⟨file, hget⟩ := (h.mem_files_iff id).mp hid
      obtain ⟨n, hn, -⟩ := exists_node?_of_get? hget
      exact (place?_of_node? hn).trans (congrArg some ((h.mem_files_iff_place hn).mp hid))
    · intro hplace
      obtain ⟨n, hn, heq⟩ := Option.map_eq_some_iff.mp hplace
      exact (h.mem_files_iff_place hn).mpr heq
  nodup_listOf p list := by
    change (g.listOf p list).Nodup
    cases hn : g.node? p with
    | none => simp [listOf, hn]
    | some n =>
      have hchildren := nodup_children_of_nodup_listed (h.nodup_listed hfiles) hn
      rw [Decl.children_eq_flatMap, List.nodup_flatMap] at hchildren
      rw [listOf_of_node? hn]
      exact hchildren.1 list list.mem_all
  mem_listOf p list id := by
    rw [and_iff_right (by simp)]
    exact h.mem_listOf_iff_place hfiles
  owner_eq_none id place hplace _ := by
    obtain ⟨n, hn, rfl⟩ := Option.map_eq_some_iff.mp hplace
    by_cases hid : id ∈ g.files
    · rw [(h.mem_files_iff_place hn).mp hid]
      simp
    · obtain ⟨p, list, hplace', -⟩ := h.stands hn hid
      rw [hplace']
      simp

/-- The declarations that are there, with their numbers. -/
theorem node?_of_mem_live (hle : g.slots.length ≤ 2 ^ 32) {d : Decl} (h : (id, d) ∈ g.live) :
    ∃ n, g.node? id = some n ∧ n.decl = d := by
  obtain ⟨⟨slot, i⟩, hslot, hid⟩ := List.mem_filterMap.mp h
  obtain ⟨n, rfl, he⟩ := Option.map_eq_some_iff.mp hid
  obtain ⟨rfl, rfl⟩ := Prod.mk.injEq .. ▸ he
  have hi : g.slots[i]? = some (some n) := List.mem_zipIdx_iff_getElem?.mp hslot
  have hlt := (List.getElem?_eq_some_iff.mp hi).1
  refine ⟨n, ?_, rfl⟩
  rw [node?_ofNat (Nat.lt_of_lt_of_le hlt hle), hi]
  rfl

/-! ### Owners of owners -/

/-- A declaration that stands in a list of members is no owner. -/
theorem home_ne_member (list : ChildList) {list' : ChildList} (h : list'.home ≠ none) :
    list.home ≠ some list' := by
  cases list <;> cases list' <;> simp_all [ChildList.home]

/-- **From every declaration of a consistent graph two steps lead to a file.** -/
theorem reachesFile_of_consistent (hc : g.outline.Consistent none) (hn : g.node? id = some n) :
    g.ReachesFile id := by
  by_cases hid : id ∈ g.files
  · exact Or.inl hid
  · obtain ⟨p, hp⟩ := exists_parent_of_not_mem_files hc hn hid
    obtain ⟨owner, list, ho, -, -, hmem⟩ := exists_owner hc hn hp
    have hkind := Decl.ownList?_of_mem_listOf ((hmem list).mpr rfl)
    refine Or.inr ⟨p, (parent?_of_node? hn).trans hp, ?_⟩
    by_cases hpf : p ∈ g.files
    · exact Or.inl hpf
    · obtain ⟨q, hq⟩ := exists_parent_of_not_mem_files hc ho hpf
      obtain ⟨owner', list', ho', hkind', -, hmem'⟩ := exists_owner hc ho hq
      refine Or.inr ⟨q, (parent?_of_node? ho).trans hq, ?_⟩
      -- The owner of a member stands in no list of members itself.
      have htypes : list'.home = none := by
        by_contra hne
        exact home_ne_member list hne (hkind.symm.trans hkind')
      have howner := Decl.ownList?_of_mem_listOf ((hmem' list').mpr rfl)
      exact mem_files_of_kind? hc (by rw [kind?_of_node? ho', howner, htypes])

end ObjcSwift.Graph
