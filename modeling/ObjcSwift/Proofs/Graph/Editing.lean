import ObjcSwift.Proofs.Graph.Atomicity

/-!
# Editing a consistent graph

What each edit does to the outline of a graph whose owners and lists agree. An edit of such a graph
fails only if its arguments ask for something impossible: a declaration that is not there, or one
under an owner of the wrong kind.

Removing is the only edit that reaches further than its arguments. Which slots it empties is said in
two steps: `Graph.freed_outline` says on every graph what emptying slots leaves, and
`Outline.Consistent.freed` that it leaves a consistent outline.
-/

namespace ObjcSwift.Graph

open Edit

variable {g g' : Graph} {id : DeclId} {n : GraphNode}

/-! ### Rewriting a declaration -/

/-- A declaration of the same kind with the same lists, in the same place, keeps the outline. -/
theorem outline_setNode_of_alike {m : GraphNode} (h : g.node? id = some n)
    (hp : m.parent = n.parent) (hd : n.decl.Alike m.decl) :
    (g.setNode id m).outline = g.outline := by
  rw [outline_setNode h]
  refine Outline.ext rfl rfl ?_ ?_
  · funext j
    simp only [Outline.put]
    split_ifs with hj
    · rw [hj]
      simp only [outline, place?_of_node? h, GraphNode.place, hp, hd.ownList?_eq]
    · rfl
  · funext p list
    simp only [Outline.put]
    split_ifs with hj
    · rw [hj]
      simp only [outline, listOf_of_node? h, hd.listOf_eq]
    · rfl

/-- Another owner for a declaration changes nothing else. -/
theorem outline_setParent {parent : Option DeclId} (h : g.node? id = some n) :
    (g.setNode id { n with parent }).outline =
      { g.outline with
        place? := fun j =>
          if j = id then some ⟨parent, n.decl.ownList?⟩ else g.outline.place? j } := by
  rw [outline_setNode h]
  refine Outline.ext rfl rfl rfl ?_
  funext p list
  simp only [Outline.put]
  split_ifs with hp
  · rw [hp]
    exact (listOf_of_node? h list).symm
  · rfl

/-- **Rewriting a declaration keeps the outline**, if it keeps its kind and its lists. -/
theorem succeeds_setDecl {d : Decl} (h : g.node? id = some n) (hd : n.decl.Alike d) :
    (setDecl id d).Succeeds g fun _ g' =>
      g'.outline = g.outline ∧ ∀ j, g'.node? j = if j = id then some ⟨n.parent, d⟩ else g.node? j :=
  (outcome_modifyNode_some h).mpr ⟨outline_setNode_of_alike h rfl hd, node?_setNode h⟩

/-- Rewriting a declaration takes no slot and gives none back, whatever the graph is. -/
theorem outcome_setDecl_length {d : Decl} :
    (setDecl id d).Outcome g (fun _ g' => g'.slots.length = g.slots.length)
      (fun _ g' => g'.slots.length = g.slots.length) := by
  simp only [setDecl, modifyNode, outcome_bind, outcome_node]
  cases g.node? id with
  | none => trivial
  | some n => simp [setNode]

/-! ### Linking and unlinking -/

/-- No declaration stands in a list that its own kind has. -/
theorem home_ne_self (list : ChildList) : list.home ≠ some list := by
  cases list <;> decide

/-- In a consistent graph a declaration with an owner is listed there, in the list for its kind and
in no other. -/
theorem exists_owner (hc : g.outline.Consistent none) (hn : g.node? id = some n) {p : DeclId}
    (hp : n.parent = some p) :
    ∃ owner list, g.node? p = some owner ∧ n.decl.ownList? = some list ∧ p ≠ id ∧
      ∀ l, id ∈ owner.decl.listOf l ↔ l = list := by
  have hplace : g.outline.place? id = some ⟨some p, n.decl.ownList?⟩ := by
    rw [← hp]
    exact place?_of_node? hn
  obtain ⟨list, hlist⟩ : ∃ list, n.decl.ownList? = some list := by
    cases hl : n.decl.ownList? with
    | none =>
      rw [hl] at hplace
      exact absurd ((hc.owner_eq_none id _ hplace (by simp)).mpr rfl) (by simp)
    | some list => exact ⟨list, rfl⟩
  rw [hlist] at hplace
  have hmem : id ∈ g.listOf p list := hc.mem_listOf_iff.mpr hplace
  obtain ⟨owner, ho, -, hhome⟩ := place?_of_mem_listOf hmem
  refine ⟨owner, list, ho, hlist, ?_, fun l => ?_⟩
  · rintro rfl
    obtain rfl : owner = n := Option.some.inj (ho.symm.trans hn)
    exact home_ne_self list (hhome.symm.trans hlist)
  · rw [← listOf_of_node? ho]
    refine (hc.mem_listOf_iff : id ∈ g.outline.listOf p l ↔ _).trans ?_
    rw [hplace]
    simpa using eq_comm

/-- Taking a file out of the files unlinks it, as no list names it. -/
theorem outline_unlink_file (hc : g.outline.Consistent none) (hn : g.node? id = some n)
    (hplace : g.outline.place? id = some ⟨none, none⟩) :
    (({ g with files := g.files.erase id } : Graph).setNode id { n with parent := none }).outline =
      g.outline.unlink id := by
  have hn' : ({ g with files := g.files.erase id } : Graph).node? id = some n := hn
  have hlist : n.decl.ownList? = none :=
    congrArg Place.list (Option.some.inj ((place?_of_node? hn).symm.trans hplace))
  have hnot : ∀ p l, id ∉ g.outline.listOf p l := by
    intro p l hm
    rw [hc.mem_listOf_iff, hplace] at hm
    simp at hm
  rw [outline_setNode hn']
  refine Outline.ext rfl rfl ?_ ?_
  · funext j
    simp only [Outline.put, Outline.unlink, hplace, GraphNode.place, hlist]
    rfl
  · funext q l
    simp only [Outline.put, Outline.unlink, List.erase_of_not_mem (hnot q l)]
    split_ifs with hq
    · rw [hq]
      exact (listOf_of_node? hn l).symm
    · rfl

/-- Erasing a declaration from the list of its owner unlinks it, as no other list names it and it is
no file. -/
theorem outline_unlink_owned {p : DeclId} {owner : GraphNode} {d' : Decl} {list : ChildList}
    (hc : g.outline.Consistent none) (hn : g.node? id = some n) (hp : n.parent = some p)
    (ho : g.node? p = some owner) (hpid : p ≠ id)
    (hmem : ∀ l, id ∈ owner.decl.listOf l ↔ l = list)
    (hr : owner.decl.Relists d' list ((owner.decl.listOf list).erase id)) :
    ((g.setNode p { owner with decl := d' }).setNode id { n with parent := none }).outline =
      g.outline.unlink id := by
  have hn' : (g.setNode p { owner with decl := d' }).node? id = some n := by
    rw [node?_setNode ho, if_neg hpid.symm, hn]
  have hplace : g.outline.place? id = some ⟨some p, n.decl.ownList?⟩ := by
    rw [← hp]
    exact place?_of_node? hn
  -- What has an owner is no file.
  have hfile : id ∉ g.files := by
    intro hm
    have hnone := hplace.symm.trans (hc.mem_files_iff.mp hm)
    simp at hnone
  -- What lists it is the owner that it names.
  have hother : ∀ q l, q ≠ p → id ∉ g.outline.listOf q l := by
    intro q l hq hm
    have hq' := hplace.symm.trans (hc.mem_listOf_iff.mp hm)
    exact hq (by simpa using (congrArg (Option.map Place.owner) hq').symm)
  rw [outline_setNode hn', outline_setNode ho]
  refine Outline.ext rfl ?_ ?_ ?_
  · exact (List.erase_of_not_mem hfile).symm
  · funext j
    simp only [Outline.put, Outline.unlink]
    split_ifs with hj hjp
    · simp only [hplace, Option.map_some, GraphNode.place]
    · rw [hjp]
      simp only [outline, place?_of_node? ho, GraphNode.place, hr.ownList?_eq]
    · rfl
  · funext q l
    simp only [Outline.put, Outline.unlink]
    split_ifs with hq hqp
    · rw [hq, List.erase_of_not_mem (hother id l hpid.symm)]
      exact (listOf_of_node? hn l).symm
    · rw [hqp]
      change d'.listOf l = (g.listOf p l).erase id
      rw [listOf_of_node? ho]
      by_cases hl : l = list
      · rw [hl, hr.listOf_self]
      · rw [hr.listOf_other l hl, List.erase_of_not_mem fun hm => hl ((hmem l).mp hm)]
    · rw [List.erase_of_not_mem (hother q l hqp)]

/-- Unlinking a declaration takes it out of the one list of its owner that has it. -/
theorem succeeds_unlink_owned {p : DeclId} {owner : GraphNode} {list : ChildList}
    (hn : g.node? id = some n) (hp : n.parent = some p) (ho : g.node? p = some owner)
    (hpid : p ≠ id) (hmem : ∀ l, id ∈ owner.decl.listOf l ↔ l = list) :
    (unlink id).Succeeds g fun _ g' => ∃ d', owner.decl.eraseChild? id = some d' ∧
      owner.decl.Relists d' list ((owner.decl.listOf list).erase id) ∧
      g' = (g.setNode p { owner with decl := d' }).setNode id { n with parent := none } := by
  obtain ⟨d', hd'⟩ : ∃ d', owner.decl.eraseChild? id = some d' := by
    cases he : owner.decl.eraseChild? id with
    | none =>
      have hchild := Decl.mem_children.mpr ⟨list, (hmem list).mpr rfl⟩
      exact absurd hchild (Decl.eraseChild?_eq_none he)
    | some d' => exact ⟨d', rfl⟩
  -- The first list that has the declaration is the only one.
  obtain ⟨list', hl', hr⟩ := Decl.eraseChild?_relists hd'
  obtain rfl := (hmem list').mp hl'
  have hn' : (g.setNode p { owner with decl := d' }).node? id = some n := by
    rw [node?_setNode ho, if_neg hpid.symm, hn]
  simp only [Succeeds, unlink, outcome_bind, outcome_node_some hn, hp, outcome_node_some ho, hd',
    outcome_modify, outcome_modifyNode_some hn']
  exact ⟨d', rfl, hr, rfl⟩

/-- **Unlinking a declaration of a consistent graph** takes it out of the one list that has it. -/
theorem succeeds_unlink (hc : g.outline.Consistent none) (hn : g.node? id = some n) :
    (unlink id).Succeeds g fun _ g' =>
      g'.outline = g.outline.unlink id ∧ g'.node? id = some ⟨none, n.decl⟩ := by
  cases hp : n.parent with
  | none =>
    have hplace : g.outline.place? id = some ⟨none, n.decl.ownList?⟩ := by
      rw [← hp]
      exact place?_of_node? hn
    have hlist : n.decl.ownList? = none := (hc.owner_eq_none id _ hplace (by simp)).mp rfl
    rw [hlist] at hplace
    have hcont : g.files.contains id = true :=
      List.contains_iff_mem.mpr (hc.mem_files_iff.mpr hplace)
    have hn' : ({ g with files := g.files.erase id } : Graph).node? id = some n := hn
    simp only [Succeeds, unlink, outcome_bind, outcome_node_some hn, hp, outcome_get, hcont,
      if_true, outcome_set, outcome_modifyNode_some hn']
    exact ⟨outline_unlink_file hc hn hplace, by rw [node?_setNode hn', if_pos rfl]⟩
  | some p =>
    obtain ⟨owner, list, ho, -, hpid, hmem⟩ := exists_owner hc hn hp
    refine (succeeds_unlink_owned hn hp ho hpid hmem).mono fun _ g' h => ?_
    obtain ⟨d', -, hr, rfl⟩ := h
    have hn' : (g.setNode p { owner with decl := d' }).node? id = some n := by
      rw [node?_setNode ho, if_neg hpid.symm, hn]
    exact ⟨outline_unlink_owned hc hn hp ho hpid hmem hr, by rw [node?_setNode hn', if_pos rfl]⟩

/-! ### Adding -/

/-- A new slot takes a declaration without what it owned elsewhere. -/
theorem outline_allocate (parent : Option DeclId) (d : Decl) (hlt : g.slots.length < 2 ^ 32) :
    ({ g with slots := g.slots ++ [some ⟨parent, d.childless⟩] } : Graph).outline =
      g.outline.grow ⟨parent, d.ownList?⟩ := by
  refine Outline.ext ?_ rfl ?_ ?_
  · simp [outline, Outline.grow]
  · funext j
    simp only [outline, place?, Outline.grow, Outline.put, node?_append hlt]
    by_cases hj : j = .ofNat g.slots.length <;> simp [hj, GraphNode.place]
  · funext p list
    simp only [outline, listOf, Outline.grow, Outline.put, node?_append hlt]
    by_cases hj : p = .ofNat g.slots.length <;> simp [hj]

/-- In a graph that is not full, the next number is free. -/
theorem consistent_grow (hc : g.outline.Consistent none) (hlt : g.slots.length < 2 ^ 32)
    (place : Place) : (g.outline.grow place).Consistent (some (.ofNat g.slots.length)) := by
  have hnone : g.node? (.ofNat g.slots.length) = none :=
    node?_eq_none_of_length_le (Nat.le_of_eq (DeclId.toNat_ofNat hlt).symm)
  refine hc.grow place ?_ fun list => ?_
  · simp [outline, place?, hnone]
  · simp [outline, listOf, hnone]

theorem succeeds_addFile (file : FileDecl) (hlt : g.slots.length < 2 ^ 32) :
    (addFile file).Succeeds g fun id g' => id = .ofNat g.slots.length ∧
      g'.outline = (g.outline.grow ⟨none, none⟩).linkFile id := by
  simp only [Succeeds, addFile, allocate, outcome_bind, outcome_getThe, outcome_set, outcome_pure,
    outcome_modify]
  refine ⟨trivial, ?_⟩
  have ho := outline_allocate none (.file file) hlt
  have hslots := congrArg Outline.slots ho
  have hplace := congrArg Outline.place? ho
  have hlists := congrArg Outline.listOf ho
  refine Outline.ext hslots rfl (hplace.trans ?_) hlists
  funext j
  simp only [Outline.linkFile, Outline.grow, Outline.put, outline, Decl.ownList?]
  by_cases hj : j = .ofNat g.slots.length <;> simp [hj]

/-- **Adding a declaration** fills the next slot, exactly where an owner of the right kind is. -/
theorem outcome_addChild {p : DeclId} {d : Decl} (hlt : g.slots.length < 2 ^ 32) :
    (addChild p d).Outcome g
      (fun id g' => ∃ list, d.ownList? = some list ∧ id = .ofNat g.slots.length ∧
        g'.outline = (g.outline.grow ⟨some p, some list⟩).link id p list)
      (fun _ g' => g' = g ∧ ∀ list, d.ownList? = some list → g.kind? p ≠ some list.home) := by
  simp only [addChild, outcome_bind]
  refine outcome_listUnder.mono (fun list g' h => ?_) fun _ _ hx => hx
  obtain ⟨rfl, hd, hp⟩ := h
  simp only [allocate, outcome_bind, outcome_getThe, outcome_set, outcome_pure]
  refine (succeeds_pushInto ?_).outcome.mono (fun _ g₁ h₁ => ?_) fun _ _ hx => hx
  · rw [kind?_append (toNat_lt_of_kind? hp), hp]
  · refine ⟨list, hd, trivial, ?_⟩
    rw [h₁.1, outline_allocate (some p) d hlt, hd]
    refine Outline.ext rfl rfl ?_ rfl
    funext j
    simp only [Outline.push, Outline.link, Outline.grow, Outline.put, outline]
    by_cases hj : j = .ofNat g'.slots.length <;> simp [hj]

theorem succeeds_addChild {p : DeclId} {d : Decl} {list : ChildList}
    (hlt : g.slots.length < 2 ^ 32) (hd : d.ownList? = some list)
    (hp : g.kind? p = some list.home) :
    (addChild p d).Succeeds g fun id g' => id = .ofNat g.slots.length ∧
      g'.outline = (g.outline.grow ⟨some p, some list⟩).link id p list := by
  refine (outcome_addChild hlt).mono (fun id g' h => ?_) fun _ _ hx => hx.2 list hd hp
  obtain ⟨list', hd', hid, ho⟩ := h
  obtain rfl : list' = list := Option.some.inj (hd'.symm.trans hd)
  exact ⟨hid, ho⟩

/-! ### Moving -/

/-- **Moving a declaration** of a consistent graph puts it at the end of a list of its new owner. -/
theorem outcome_moveTo {q : DeclId} (hc : g.outline.Consistent none) :
    (moveTo id q).Outcome g
      (fun _ g' => ∃ list, g.kind? id = some (some list) ∧
        g'.outline = (g.outline.unlink id).link id q list)
      (fun _ g' => g' = g ∧
        ∀ list, g.kind? id = some (some list) → g.kind? q ≠ some list.home) := by
  simp only [moveTo, outcome_bind, outcome_node]
  cases hn : g.node? id with
  | none =>
    refine ⟨trivial, fun list hk => ?_⟩
    simp [kind?, hn] at hk
  | some n =>
    refine outcome_listUnder.mono (fun list g' h => ?_) fun x g' hx => ⟨hx.1, fun list hk => ?_⟩
    · obtain ⟨rfl, hd, hq⟩ := h
      refine (succeeds_unlink hc hn).outcome.mono (fun _ g₁ h₁ => ?_) fun _ _ hx => hx
      -- Unlinking changes an owner but no kind, so the list that was chosen before is still there.
      have hkind : g₁.kind? = g'.kind? := by
        funext j
        rw [kind?_eq_place?, kind?_eq_place?]
        change (g₁.outline.place? j).map _ = _
        rw [h₁.1]
        simp only [Outline.unlink]
        split_ifs with hj
        · rw [hj, Option.map_map]
          rfl
        · rfl
      refine (succeeds_pushInto (hkind ▸ hq)).outcome.mono (fun _ g₂ h₂ => ?_) fun _ _ hx => hx
      have hid : g₂.kind? id = some (some list) := by
        rw [h₂.2, hkind, kind?_of_node? hn, hd]
      obtain ⟨m, hm, hml⟩ := exists_node?_of_kind? hid
      refine (outcome_modifyNode_some hm).mpr ⟨list, ?_, ?_⟩
      · rw [kind?_of_node? hn, hd]
      · rw [outline_setParent hm, h₂.1, h₁.1, hml]
        refine Outline.ext rfl rfl ?_ rfl
        funext j
        simp only [Outline.push, Outline.unlink, Outline.link]
    · exact hx.2 list (Option.some.inj ((kind?_of_node? hn).symm.trans hk))

theorem succeeds_moveTo {q : DeclId} {list : ChildList} (hc : g.outline.Consistent none)
    (hid : g.kind? id = some (some list)) (hq : g.kind? q = some list.home) :
    (moveTo id q).Succeeds g fun _ g' =>
      g'.outline = (g.outline.unlink id).link id q list := by
  refine (outcome_moveTo hc).mono (fun _ g' h => ?_) fun _ _ hx => hx.2 list hid hq
  obtain ⟨list', hid', ho⟩ := h
  obtain rfl : list' = list := by simpa using hid'.symm.trans hid
  exact ho

/-! ### Emptying slots -/

/-- A declaration is another one, or stands somewhere below it: lists lead from there to it. -/
def Below (g : Graph) : DeclId → DeclId → Prop :=
  Relation.ReflTransGen fun p id => ∃ n, g.node? p = some n ∧ id ∈ n.decl.children

/-- The node in one of some slots. -/
def nodeAt (slots : List (Option GraphNode)) (id : DeclId) : Option GraphNode :=
  (slots[id.toNat]?).join

theorem nodeAt_eq_some {slots : List (Option GraphNode)} :
    nodeAt slots id = some n ↔ slots[id.toNat]? = some (some n) :=
  Option.join_eq_some_iff

theorem nodeAt_set {slots : List (Option GraphNode)} (j : DeclId) :
    nodeAt (slots.set id.toNat none) j = if j = id then none else nodeAt slots j := by
  by_cases hj : j = id
  · subst hj
    simp only [nodeAt, if_true, List.getElem?_set_self']
    cases slots[j.toNat]? <;> rfl
  · have hne : id.toNat ≠ j.toNat := fun he => hj (DeclId.toNat_inj.mp he).symm
    rw [if_neg hj, nodeAt, nodeAt, List.getElem?_set_ne hne]

theorem length_free (slots : List (Option GraphNode)) (pending : List DeclId) :
    (free slots pending).length = slots.length := by
  fun_induction free slots pending with
  | case1 slots => rfl
  | case2 slots id pending node h ih => simpa using ih
  | case3 slots id pending hne ih => exact ih

/-- Emptying slots changes nothing in the slots it leaves full. -/
theorem nodeAt_free (slots : List (Option GraphNode)) (pending : List DeclId) (j : DeclId) :
    nodeAt (free slots pending) j = none ∨ nodeAt (free slots pending) j = nodeAt slots j := by
  fun_induction free slots pending with
  | case1 slots => exact Or.inr rfl
  | case2 slots id pending node h ih =>
    rcases ih with ih | ih
    · exact Or.inl ih
    · rw [nodeAt_set] at ih
      split_ifs at ih with hj
      · exact Or.inl ih
      · exact Or.inr ih
  | case3 slots id pending hne ih => exact ih

theorem nodeAt_free_of_empty {slots : List (Option GraphNode)} {j : DeclId}
    (h : nodeAt slots j = none) (pending : List DeclId) :
    nodeAt (free slots pending) j = none := by
  rcases nodeAt_free slots pending j with h' | h'
  · exact h'
  · rw [h', h]

/-- The slots on the stack are emptied. -/
theorem nodeAt_free_of_mem (slots : List (Option GraphNode)) (pending : List DeclId) {j : DeclId}
    (hj : j ∈ pending) : nodeAt (free slots pending) j = none := by
  fun_induction free slots pending with
  | case1 slots => exact absurd hj (by simp)
  | case2 slots id pending node h ih =>
    rcases List.mem_cons.mp hj with rfl | hj
    · exact nodeAt_free_of_empty (by rw [nodeAt_set, if_pos rfl]) _
    · exact ih (List.mem_append_right _ hj)
  | case3 slots id pending hne ih =>
    rcases List.mem_cons.mp hj with rfl | hj
    · refine nodeAt_free_of_empty ?_ pending
      cases hs : nodeAt slots j with
      | none => rfl
      | some n => exact absurd (nodeAt_eq_some.mp hs) (hne n)
    · exact ih hj

/-- With a declaration goes what it lists. -/
theorem nodeAt_free_closed (slots : List (Option GraphNode)) (pending : List DeclId)
    {p j : DeclId} (hp : nodeAt slots p = some n) (hj : j ∈ n.decl.children)
    (hgone : nodeAt (free slots pending) p = none) : nodeAt (free slots pending) j = none := by
  fun_induction free slots pending with
  | case1 slots =>
    rw [hp] at hgone
    exact absurd hgone (by simp)
  | case2 slots id pending node h ih =>
    by_cases hpid : p = id
    · subst hpid
      obtain rfl : n = node := Option.some.inj (hp.symm.trans (nodeAt_eq_some.mpr h))
      exact nodeAt_free_of_mem _ _ (List.mem_append_left _ hj)
    · exact ih (by rw [nodeAt_set, if_neg hpid, hp]) hgone
  | case3 slots id pending hne ih => exact ih hp hgone

/-- With a declaration goes everything below it. -/
theorem nodeAt_free_of_below {slots : List (Option GraphNode)} {files pending : List DeclId}
    {r j : DeclId} (hr : r ∈ pending) (hj : (Graph.mk slots files).Below r j) :
    nodeAt (free slots pending) j = none := by
  induction hj with
  | refl => exact nodeAt_free_of_mem slots pending hr
  | tail _ hlast ih =>
    obtain ⟨m, hm, hmem⟩ := hlast
    exact nodeAt_free_closed slots pending hm hmem ih

/-- What goes is on the stack, or stands below something that is. -/
theorem exists_below_of_nodeAt_free (slots : List (Option GraphNode)) (files pending : List DeclId)
    {j : DeclId} (hj : nodeAt slots j = some n) (hgone : nodeAt (free slots pending) j = none) :
    ∃ r ∈ pending, (Graph.mk slots files).Below r j := by
  fun_induction free slots pending with
  | case1 slots =>
    rw [hj] at hgone
    exact absurd hgone (by simp)
  | case2 slots id pending node h ih =>
    by_cases hjid : j = id
    · exact ⟨id, List.mem_cons_self, hjid ▸ .refl⟩
    · obtain ⟨r, hr, hbelow⟩ := ih (by rw [nodeAt_set, if_neg hjid, hj]) hgone
      -- Fewer slots are full after this turn, so there is less below a declaration.
      have hbelow : (Graph.mk slots files).Below r j := by
        refine Relation.ReflTransGen.mono ?_ _ _ hbelow
        intro p c hc
        obtain ⟨m, hm, hmem⟩ := hc
        refine ⟨m, ?_, hmem⟩
        rw [show (Graph.mk _ files).node? p = _ from nodeAt_set p] at hm
        split_ifs at hm
        exact hm
      rcases List.mem_append.mp hr with hr | hr
      · exact ⟨id, List.mem_cons_self, .head ⟨node, nodeAt_eq_some.mpr h, hr⟩ hbelow⟩
      · exact ⟨r, List.mem_cons_of_mem _ hr, hbelow⟩
  | case3 slots id pending hne ih =>
    obtain ⟨r, hr, hbelow⟩ := ih hj hgone
    exact ⟨r, List.mem_cons_of_mem _ hr, hbelow⟩

/-- What goes is on the stack, or is listed by something that goes. -/
theorem nodeAt_free_traced (slots : List (Option GraphNode)) (pending : List DeclId) {j : DeclId}
    (hj : nodeAt slots j = some n) (hgone : nodeAt (free slots pending) j = none) :
    j ∈ pending ∨ ∃ p m, nodeAt slots p = some m ∧ j ∈ m.decl.children ∧
      nodeAt (free slots pending) p = none := by
  obtain ⟨r, hr, hbelow⟩ := exists_below_of_nodeAt_free slots [] pending hj hgone
  cases hbelow with
  | refl => exact Or.inl hr
  | tail hbelow hlast =>
    obtain ⟨m, hm, hmem⟩ := hlast
    exact Or.inr ⟨_, m, hm, hmem, nodeAt_free_of_below hr hbelow⟩

/-- A declaration that owns nothing goes alone. -/
theorem free_leaf {slots : List (Option GraphNode)} (h : slots[id.toNat]? = some (some n))
    (hn : n.decl.children = []) : free slots [id] = slots.set id.toNat none := by
  rw [free]
  split
  · rename_i node hnode
    obtain rfl : n = node := by simpa using h.symm.trans hnode
    rw [hn]
    simp [free]
  · rename_i hne
    exact absurd h (hne n)

/-- **What emptying the slots below a declaration leaves**, on every graph. -/
theorem freed_outline (g : Graph) (id : DeclId) :
    g.outline.Freed ({ g with slots := free g.slots [id] } : Graph).outline id := by
  -- The outline of a slot is nothing exactly if the slot is empty.
  have hnone : ∀ (g : Graph) j, g.outline.place? j = none ↔ nodeAt g.slots j = none :=
    fun g j => Option.map_eq_none_iff
  refine ⟨length_free g.slots [id], rfl, ?_, fun j => ?_, fun p list j hp hj => ?_,
    fun j hj hgone => ?_⟩
  · rw [hnone]
    exact nodeAt_free_of_mem g.slots [id] List.mem_cons_self
  · rcases nodeAt_free g.slots [id] j with hj | hj
    · refine Or.inl ⟨(hnone _ j).mpr hj, fun list => ?_⟩
      change ((nodeAt (free g.slots [id]) j).map _).getD [] = []
      rw [hj]
      rfl
    · cases hn : nodeAt g.slots j with
      | none =>
        refine Or.inl ⟨(hnone _ j).mpr (hj.trans hn), fun list => ?_⟩
        change ((nodeAt (free g.slots [id]) j).map _).getD [] = []
        rw [hj, hn]
        rfl
      | some n =>
        refine Or.inr ⟨fun hc => ?_, ?_, ?_⟩
        · rw [hnone, hj, hn] at hc
          exact absurd hc (by simp)
        · change (nodeAt (free g.slots [id]) j).map _ = (nodeAt g.slots j).map _
          rw [hj]
        · funext list
          change ((nodeAt (free g.slots [id]) j).map _).getD [] = ((nodeAt g.slots j).map _).getD []
          rw [hj]
  · obtain ⟨owner, ho, hmem, -⟩ := place?_of_mem_listOf hj
    rw [hnone] at hp ⊢
    exact nodeAt_free_closed g.slots [id] ho (Decl.mem_children.mpr ⟨list, hmem⟩) hp
  · rw [hnone] at hgone
    cases hn : nodeAt g.slots j with
    | none => exact absurd ((hnone g j).mpr hn) hj
    | some n =>
      rcases nodeAt_free_traced g.slots [id] hn hgone with hmem | ⟨p, m, hp, hm, hpgone⟩
      · exact Or.inl (by simpa using hmem)
      · obtain ⟨list, hlist⟩ := Decl.mem_children.mp hm
        refine Or.inr ⟨p, list, ?_, (hnone _ p).mpr hpgone⟩
        change j ∈ g.listOf p list
        rwa [listOf_of_node? hp]

/-! ### Removing -/

/-- A declaration that is there can be removed: it is unlinked, and its slot is emptied with those
below it. -/
theorem succeeds_remove (hc : g.outline.Consistent none) (hn : g.node? id = some n) :
    (remove id).Succeeds g fun d g' => d = n.decl.childless ∧
      ∃ g₁ : Graph, g₁.outline = g.outline.unlink id ∧ g₁.node? id = some ⟨none, n.decl⟩ ∧
        g' = { g₁ with slots := free g₁.slots [id] } := by
  simp only [Succeeds, remove, outcome_bind]
  refine (succeeds_unlink hc hn).outcome.mono (fun _ g₁ h₁ => ?_) fun _ _ hx => hx
  exact (outcome_node_some h₁.2).mpr ⟨rfl, g₁, h₁.1, h₁.2, rfl⟩

/-- **Removing keeps a consistent graph consistent.** -/
theorem succeeds_remove_consistent (hc : g.outline.Consistent none) (hn : g.node? id = some n) :
    (remove id).Succeeds g fun _ g' =>
      g'.outline.Consistent none ∧ g'.slots.length = g.slots.length := by
  refine (succeeds_remove hc hn).mono fun d g' h => ?_
  obtain ⟨-, g₁, ho, -, rfl⟩ := h
  refine ⟨(ho ▸ hc.unlink id).freed (freed_outline g₁ id), ?_⟩
  exact (length_free g₁.slots [id]).trans (congrArg Outline.slots ho)

/-- A declaration that lists nothing is removed alone. -/
theorem succeeds_remove_leaf (hc : g.outline.Consistent none) (hn : g.node? id = some n)
    (hleaf : ∀ list, n.decl.listOf list = []) :
    (remove id).Succeeds g fun d g' =>
      d = n.decl.childless ∧ g'.outline = g.outline.drop id := by
  refine (succeeds_remove hc hn).mono fun d g' h => ?_
  obtain ⟨hd, g₁, ho, hn₁, rfl⟩ := h
  refine ⟨hd, ?_⟩
  -- Nothing is below it, so no other slot is emptied.
  have hfree : free g₁.slots [id] = g₁.slots.set id.toNat none :=
    free_leaf (nodeAt_eq_some.mp hn₁) (Decl.children_eq_nil hleaf)
  have hnode : ∀ j, ({ g₁ with slots := free g₁.slots [id] } : Graph).node? j =
      if j = id then none else g₁.node? j := by
    intro j
    change nodeAt (free g₁.slots [id]) j = if j = id then none else nodeAt g₁.slots j
    rw [hfree, nodeAt_set]
  refine Outline.ext ?_ ?_ ?_ ?_
  · exact (length_free g₁.slots [id]).trans (congrArg Outline.slots ho)
  · have hfiles := congrArg Outline.files ho
    exact hfiles
  · funext j
    simp only [Outline.drop]
    split_ifs with hj
    · simp [outline, place?, hnode, hj]
    · have hplace := congrFun (congrArg Outline.place? ho) j
      simp only [Outline.unlink, hj, if_false] at hplace
      rw [← hplace]
      simp [outline, place?, hnode, hj]
  · funext p list
    change _ = (g.outline.unlink id).listOf p list
    rw [← ho]
    simp only [outline, listOf, hnode]
    split_ifs with hp
    · rw [hp, hn₁]
      exact (hleaf list).symm
    · rfl

/-- Removing a declaration with an owner takes it out of a list of the owner, and then empties its
slot and those below it. -/
theorem outcome_remove_owned {t : DeclId} {owner : GraphNode} (hn : g.node? id = some n)
    (hp : n.parent = some t) (ho : g.node? t = some owner) :
    (remove id).Outcome g (fun d g' => ∃ d' m, owner.decl.eraseChild? id = some d' ∧
        (g.setNode t { owner with decl := d' }).node? id = some m ∧ d = m.decl.childless ∧
        g' = { g with slots := free ((g.setNode t { owner with decl := d' }).setNode id
          { m with parent := none }).slots [id] }) fun _ _ => True := by
  simp only [remove, unlink, outcome_bind, outcome_node_some hn, hp, outcome_node_some ho]
  cases hd : owner.decl.eraseChild? id with
  | none => trivial
  | some d' =>
    obtain ⟨m, hm⟩ : ∃ m, (g.setNode t { owner with decl := d' }).node? id = some m := by
      rw [node?_setNode ho]
      split_ifs
      · exact ⟨_, rfl⟩
      · exact ⟨n, hn⟩
    have hloose := node?_setNode (m := { m with parent := none }) hm id
    rw [if_pos rfl] at hloose
    simp only [outcome_bind, outcome_modify, outcome_modifyNode_some hm, outcome_node_some hloose]
    exact ⟨d', m, rfl, hm, rfl, rfl⟩

/-- If the declaration owns nothing, its slot is emptied and no other. -/
theorem node?_free_leaf {t : DeclId} {owner m : GraphNode} {d' : Decl} (ho : g.node? t = some owner)
    (hm : (g.setNode t { owner with decl := d' }).node? id = some m)
    (hleaf : m.decl.children = []) (j : DeclId) :
    node? { g with slots := free ((g.setNode t { owner with decl := d' }).setNode id
      { m with parent := none }).slots [id] } j =
        if j = id then none else if j = t then some { owner with decl := d' } else g.node? j := by
  have hslot := node?_setNode (m := { m with parent := none }) hm id
  rw [if_pos rfl] at hslot
  rw [free_leaf (Option.join_eq_some_iff.mp hslot) hleaf]
  refine (nodeAt_set j).trans ?_
  split_ifs with hj hjt
  · rfl
  · exact (node?_setNode hm j).trans (by rw [if_neg hj, node?_setNode ho, if_pos hjt])
  · exact (node?_setNode hm j).trans (by rw [if_neg hj, node?_setNode ho, if_neg hjt])

end ObjcSwift.Graph
