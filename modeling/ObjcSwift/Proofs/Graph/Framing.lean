import ObjcSwift.Proofs.Graph.Ancestry
import ObjcSwift.Proofs.Graph.Scripts

/-!
# What removing and moving leave as it was

Removing a declaration empties its slot and those of everything below it; moving one puts it at the
end of a list of its new owner. All else that happens in a well-formed graph is that the owner loses
the place at which it lists the declaration (`Decl.without`). No other list, declaration or slot
changes (`Graph.Removes`, `Graph.Moves`).

Both begin with unlinking, which is where the owner loses that place (`Graph.Unlinks`). It does not
matter for what stands below a declaration, as the place that is lost leads to the declaration
itself (`Graph.Unlinks.below_iff`).

Where lists name no file, an owner does not stand below what it owns, since it would own itself
(`Graph.WellFormed.not_below_of_parent?`).
-/

namespace ObjcSwift

/-- A declaration that no longer lists a number. -/
def Decl.without (id : DeclId) (d : Decl) : Decl :=
  d.mapLists fun ids => ids.filter (· ≠ id)

/-- A node whose declaration no longer lists a number. -/
def GraphNode.without (id : DeclId) (n : GraphNode) : GraphNode :=
  { n with decl := n.decl.without id }

namespace Decl

variable {d d' : Decl} {id : DeclId}

theorem listOf_without (list : ChildList) :
    (d.without id).listOf list = (d.listOf list).filter (· ≠ id) :=
  listOf_mapLists (by simp) list

/-- What is not listed need not be taken out. -/
theorem without_of_not_mem (h : id ∉ d.children) : d.without id = d := by
  refine eq_of_childless_eq (childless_mapLists _ d) fun list => ?_
  rw [listOf_without, List.filter_eq_self]
  rintro j hj
  simpa using fun he : j = id => h (he ▸ mem_children.mpr ⟨list, hj⟩)

theorem mem_children_without {j : DeclId} :
    j ∈ (d.without id).children ↔ j ∈ d.children ∧ j ≠ id := by
  simp only [mem_children, listOf_without, List.mem_filter, decide_eq_true_eq, exists_and_right]

/-- Taking the first place of a number takes the number, if it has one place only. -/
theorem erase_eq_filter {ids : List DeclId} (h : ids.count id ≤ 1) :
    ids.erase id = ids.filter (· ≠ id) := by
  induction ids with
  | nil => rfl
  | cons i ids ih =>
    by_cases hi : i = id
    · have hnot : id ∉ ids := by
        rw [hi, List.count_cons_self] at h
        exact List.count_eq_zero.mp (by omega)
      have hself : ids.filter (· ≠ id) = ids :=
        List.filter_eq_self.mpr fun j hj => by simpa using fun he : j = id => hnot (he ▸ hj)
      rw [hi, List.erase_cons_head, List.filter_cons_of_neg (by simp), hself]
    · rw [List.count_cons_of_ne (by simpa using hi)] at h
      simp [hi, ih h]

/-- Erasing a number that is listed once is doing without it. -/
theorem eq_without_of_eraseChild? (h : d.eraseChild? id = some d')
    (hcount : d.children.count id ≤ 1) : d' = d.without id := by
  refine eq_of_childless_eq ((childless_of_eraseChild? h).trans (childless_mapLists _ d).symm)
    fun l => ?_
  obtain ⟨list, hmem, hr⟩ := eraseChild?_relists h
  rw [listOf_without]
  by_cases hl : l = list
  · have hle : (d.listOf list).count id ≤ d.children.count id := by
      rw [children_eq_flatMap, List.flatMap_def]
      refine List.Sublist.count_le id (List.sublist_flatten_of_mem ?_)
      exact List.mem_map.mpr ⟨list, list.mem_all, rfl⟩
    rw [hl, hr.listOf_self, erase_eq_filter (hle.trans hcount)]
  · rw [hr.listOf_other l hl, eq_comm, List.filter_eq_self]
    rintro j hj
    simpa using fun he : j = id => hl (eq_of_count_children hcount (he ▸ hj) hmem)

end Decl

namespace Graph

open Edit

variable {g g' g₁ : Graph} {id p q j : DeclId} {n : GraphNode}

/-! ### What changes -/

/-- Two graphs have the same number of slots, and the same in the slots without a number. -/
structure Aligned (g g' : Graph) : Prop where
  /-- The number of slots. -/
  length_eq : g'.slots.length = g.slots.length
  /-- The slots without a number. -/
  drop_eq : g'.slots.drop (2 ^ 32) = g.slots.drop (2 ^ 32)

/-- What removing a declaration does to a graph. -/
structure Removes (g : Graph) (id : DeclId) (g' : Graph) : Prop extends Aligned g g' where
  /-- The slots of the declaration and of everything below it are empty. -/
  node?_below : ∀ j, g.Below id j → g'.node? j = none
  /-- The owner no longer lists the declaration, and is the same otherwise. -/
  node?_owner : ∀ p, ¬g.Below id p → g.parent? id = some p →
    g'.node? p = (g.node? p).map (GraphNode.without id)
  /-- All other declarations are the same. -/
  node?_other : ∀ j, ¬g.Below id j → g.parent? id ≠ some j → g'.node? j = g.node? j
  /-- The declaration is no longer a file, and the other files are the same. -/
  files_eq : g'.files = g.files.filter (· ≠ id)

/-- What moving a declaration to an owner does to a graph. -/
structure Moves (g : Graph) (id q : DeclId) (g' : Graph) : Prop extends Aligned g g' where
  /-- The declaration has another owner, and is the same otherwise. -/
  node?_self : g'.node? id = (g.node? id).map fun n => { n with parent := some q }
  /-- The owner, if it is another one, no longer lists the declaration, and is the same
  otherwise. -/
  node?_owner : ∀ p, p ≠ q → g.parent? id = some p →
    g'.node? p = (g.node? p).map (GraphNode.without id)
  /-- The new owner lists the declaration at the end of the list for its kind and nowhere else, and
  is the same otherwise. -/
  node?_new : ∃ m list d, g.node? q = some m ∧ g.kind? id = some (some list) ∧
    (m.decl.without id).updateList? list (· ++ [id]) = some d ∧
    g'.node? q = some { m with decl := d }
  /-- All other declarations are the same. -/
  node?_other : ∀ j, j ≠ id → j ≠ q → g.parent? id ≠ some j → g'.node? j = g.node? j
  /-- The files are the same. -/
  files_eq : g'.files = g.files

theorem Aligned.refl (g : Graph) : g.Aligned g := ⟨rfl, rfl⟩

theorem Aligned.trans {g'' : Graph} (h : g.Aligned g') (h' : g'.Aligned g'') : g.Aligned g'' :=
  ⟨h'.length_eq.trans h.length_eq, h'.drop_eq.trans h.drop_eq⟩

theorem aligned_set (slots : List (Option GraphNode)) (files files' : List DeclId) (id : DeclId)
    (slot : Option GraphNode) : Aligned ⟨slots, files⟩ ⟨slots.set id.toNat slot, files'⟩ :=
  ⟨List.length_set, List.drop_set_of_lt id.toNat_lt⟩

theorem aligned_setNode (g : Graph) (id : DeclId) (n : GraphNode) : g.Aligned (g.setNode id n) :=
  aligned_set g.slots g.files g.files id (some n)

theorem aligned_free (slots : List (Option GraphNode)) (files files' pending : List DeclId) :
    Aligned ⟨slots, files⟩ ⟨free slots pending, files'⟩ := by
  fun_induction free slots pending with
  | case1 slots => exact ⟨rfl, rfl⟩
  | case2 slots id pending node h ih => exact (aligned_set slots files files id none).trans ih
  | case3 slots id pending hne ih => exact ih

/-! ### Unlinking -/

/-- What unlinking a declaration does to a graph. -/
structure Unlinks (g : Graph) (id : DeclId) (n : GraphNode) (g' : Graph) : Prop
    extends Aligned g g' where
  /-- The declaration has no owner, and is the same otherwise. -/
  node?_self : g'.node? id = some { n with parent := none }
  /-- The owner no longer lists the declaration. -/
  node?_owner : ∀ p, n.parent = some p → g'.node? p = (g.node? p).map (GraphNode.without id)
  /-- All other declarations are the same. -/
  node?_other : ∀ j, j ≠ id → n.parent ≠ some j → g'.node? j = g.node? j
  /-- The declaration is no longer a file. -/
  files_eq : g'.files = g.files.filter (· ≠ id)

/-- In a well-formed graph, a declaration that is no file is listed by the owner that it names, in
the list for its kind and in no other. -/
theorem WellFormed.exists_owner (h : g.WellFormed) (hn : g.node? id = some n) (hid : id ∉ g.files) :
    ∃ p owner list, n.parent = some p ∧ g.node? p = some owner ∧ n.decl.ownList? = some list ∧
      p ≠ id ∧ ∀ l, id ∈ owner.decl.listOf l ↔ l = list := by
  obtain ⟨p, list, hplace, hlist⟩ := h.stands hn hid
  obtain ⟨owner, ho, -, hhome⟩ := place?_of_mem_listOf hlist
  have hkind : n.decl.ownList? = some list := congrArg Place.list hplace
  refine ⟨p, owner, list, congrArg Place.owner hplace, ho, hkind, ?_, fun l => ?_⟩
  · rintro rfl
    obtain rfl : owner = n := Option.some.inj (ho.symm.trans hn)
    exact home_ne_self list (hhome.symm.trans hkind)
  · rw [← listOf_of_node? ho]
    exact ⟨fun hl => (h.eq_of_mem_listOf hn hid hl hlist).2, fun hl => hl ▸ hlist⟩

theorem filter_files_of_not_mem (hid : id ∉ g.files) : g.files.filter (· ≠ id) = g.files := by
  refine List.filter_eq_self.mpr fun j hj => ?_
  simpa using fun he : j = id => hid (he ▸ hj)

/-- Files of a well-formed graph name no owner. -/
theorem WellFormed.parent_eq_none (h : g.WellFormed) (hn : g.node? id = some n)
    (hid : id ∈ g.files) : n.parent = none :=
  congrArg Place.owner ((h.mem_files_iff_place hn).mp hid)

/-- Unlinking a file takes it from the files. -/
theorem succeeds_unlink_file (h : g.WellFormed) (hn : g.node? id = some n) (hid : id ∈ g.files) :
    (unlink id).Succeeds g fun _ g' => g.Unlinks id n g' := by
  have hp := h.parent_eq_none hn hid
  have hn' : ({ g with files := g.files.erase id } : Graph).node? id = some n := hn
  simp only [Succeeds, unlink, outcome_bind, outcome_node_some hn, hp, outcome_get,
    List.contains_iff_mem.mpr hid, if_true, outcome_set, outcome_modifyNode_some hn']
  refine ⟨aligned_set _ _ _ id _, ?_, fun p hparent => ?_, fun j hj _ => ?_, ?_⟩
  · rw [node?_setNode hn', if_pos rfl]
  · exact absurd (hp.symm.trans hparent) (by simp)
  · rw [node?_setNode hn', if_neg hj]
    rfl
  · exact Decl.erase_eq_filter (List.nodup_iff_count_le_one.mp h.nodup_files id)

/-- Unlinking any other declaration takes it from its owner. -/
theorem succeeds_unlink_listed (h : g.WellFormed) (hn : g.node? id = some n) (hid : id ∉ g.files) :
    (unlink id).Succeeds g fun _ g' => g.Unlinks id n g' := by
  obtain ⟨p, owner, list, hp, ho, -, hpid, hmem⟩ := h.exists_owner hn hid
  have hcount : owner.decl.children.count id ≤ 1 :=
    (count_children_le (mem_slots_of_node? ho) id).trans
      (h.count_listed id n.decl (get?_of_node? hn) hid).le
  refine (succeeds_unlink_owned hn hp ho hpid hmem).mono fun _ g' hg' => ?_
  obtain ⟨d', hd', -, rfl⟩ := hg'
  obtain rfl := Decl.eq_without_of_eraseChild? hd' hcount
  have hn' : (g.setNode p (owner.without id)).node? id = some n := by
    rw [node?_setNode ho, if_neg hpid.symm, hn]
  have hnode (j : DeclId) : ((g.setNode p (owner.without id)).setNode id
      { n with parent := none }).node? j = if j = id then some { n with parent := none }
        else if j = p then some (owner.without id) else g.node? j := by
    rw [node?_setNode hn', node?_setNode ho]
  refine ⟨(aligned_setNode g p _).trans (aligned_setNode _ id _), ?_, fun p' hp' => ?_,
    fun j hj hjp => ?_, (filter_files_of_not_mem hid).symm⟩
  · exact (hnode id).trans (if_pos rfl)
  · obtain rfl : p = p' := Option.some.inj (hp.symm.trans hp')
    refine (hnode p).trans ?_
    rw [if_neg hpid, if_pos rfl, ho]
    rfl
  · refine (hnode j).trans ?_
    rw [if_neg hj, if_neg fun he : j = p => hjp (he ▸ hp)]

/-- **Unlinking a declaration of a well-formed graph** takes it from its owner or from the files. -/
theorem succeeds_unlink_unlinks (h : g.WellFormed) (hn : g.node? id = some n) :
    (unlink id).Succeeds g fun _ g' => g.Unlinks id n g' := by
  by_cases hid : id ∈ g.files
  · exact succeeds_unlink_file h hn hid
  · exact succeeds_unlink_listed h hn hid

/-- Unlinking changes nothing below a declaration: the place that is lost leads to it. -/
theorem Unlinks.below_iff (h : g.Unlinks id n g₁) (hn : g.node? id = some n) :
    g₁.Below id j ↔ g.Below id j := by
  -- A declaration lists after unlinking what it listed before, but for the one unlinked.
  have hlists (p c : DeclId) : (∃ m, g₁.node? p = some m ∧ c ∈ m.decl.children) →
      ∃ m, g.node? p = some m ∧ c ∈ m.decl.children := by
    rintro ⟨m, hm, hc⟩
    by_cases hp : n.parent = some p
    · rw [h.node?_owner p hp] at hm
      obtain ⟨owner, ho, rfl⟩ := Option.map_eq_some_iff.mp hm
      exact ⟨owner, ho, (Decl.mem_children_without.mp hc).1⟩
    · by_cases hpid : p = id
      · rw [hpid, h.node?_self] at hm
        obtain rfl := Option.some.inj hm
        exact ⟨n, hpid ▸ hn, hc⟩
      · exact ⟨m, by rw [← h.node?_other p hpid hp, hm], hc⟩
  have hstill (p c : DeclId) (hcid : c ≠ id) : (∃ m, g.node? p = some m ∧ c ∈ m.decl.children) →
      ∃ m, g₁.node? p = some m ∧ c ∈ m.decl.children := by
    rintro ⟨m, hm, hc⟩
    by_cases hp : n.parent = some p
    · refine ⟨m.without id, ?_, Decl.mem_children_without.mpr ⟨hc, hcid⟩⟩
      rw [h.node?_owner p hp, hm]
      rfl
    · by_cases hpid : p = id
      · subst hpid
        obtain rfl : n = m := Option.some.inj (hn.symm.trans hm)
        exact ⟨_, h.node?_self, hc⟩
      · exact ⟨m, by rw [h.node?_other p hpid hp, hm], hc⟩
  constructor
  · exact Relation.ReflTransGen.mono hlists id j
  · intro hj
    induction hj with
    | refl => exact .refl
    | @tail p c _ hlast ih =>
      by_cases hcid : c = id
      · exact hcid ▸ .refl
      · exact ih.tail (hstill p c hcid hlast)

/-! ### Removing -/

/-- **Removing a declaration of a well-formed graph** fails only if there is none, and touches
nothing but what is removed and its owner. -/
theorem outcome_remove_removes (h : g.WellFormed) :
    (remove id).Outcome g
      (fun d g' => (g.get? id).map Decl.childless = some d ∧ g.Removes id g')
      fun _ _ => g.contains id = false := by
  cases hn : g.node? id with
  | none =>
    simp only [remove, unlink, outcome_bind, outcome_node, hn, contains]
    rfl
  | some n =>
    simp only [remove, outcome_bind]
    refine (succeeds_unlink_unlinks h hn).outcome.mono (fun _ g₁ h₁ => ?_) fun _ _ hx => hx
    rw [outcome_node_some h₁.node?_self, outcome_modify, outcome_pure]
    -- Only what is below it has its slot emptied.
    have hfree (j : DeclId) (hj : ¬g.Below id j) :
        node? { g₁ with slots := free g₁.slots [id] } j = g₁.node? j := by
      rcases nodeAt_free g₁.slots [id] j with hgone | hsame
      · cases hm : g₁.node? j with
        | none => exact hgone
        | some m =>
          obtain ⟨r, hr, hbelow⟩ := exists_below_of_nodeAt_free g₁.slots g₁.files [id] hm hgone
          obtain rfl := List.mem_singleton.mp hr
          exact absurd ((h₁.below_iff hn).mp hbelow) hj
      · exact hsame
    have hparent := parent?_of_node? hn
    have hne {j : DeclId} (hj : ¬g.Below id j) : j ≠ id := fun he => hj (he ▸ .refl)
    refine ⟨by rw [get?_of_node? hn]; rfl, h₁.toAligned.trans (aligned_free _ _ _ _),
      fun j hj => ?_, fun p hp howner => ?_, fun j hj hother => ?_, h₁.files_eq⟩
    · exact nodeAt_free_of_below (List.mem_singleton.mpr rfl) ((h₁.below_iff hn).mpr hj)
    · exact (hfree p hp).trans (h₁.node?_owner p (hparent ▸ howner))
    · exact (hfree j hj).trans (h₁.node?_other j (hne hj) (hparent ▸ hother))

/-! ### Moving -/

/-- An owner of the right kind takes one more number, and nothing else changes. -/
theorem succeeds_pushInto_node {m : GraphNode} {list : ChildList} (hq : g.node? q = some m)
    (hk : m.decl.ownList? = list.home) :
    (pushInto q list id).Succeeds g fun _ g' => ∃ d, m.decl.updateList? list (· ++ [id]) = some d ∧
      g' = g.setNode q { m with decl := d } := by
  obtain ⟨d, hd⟩ := Decl.exists_updateList? (· ++ [id]) hk
  simp only [Succeeds, pushInto, outcome_bind, outcome_node_some hq, hd, outcome_modify]
  exact ⟨d, rfl, rfl⟩

/-- After unlinking, no declaration of a well-formed graph lists what was unlinked. -/
theorem Unlinks.node?_without (h : g.Unlinks id n g₁) (hwf : g.WellFormed)
    (hn : g.node? id = some n) (hid : id ∉ g.files) {m : GraphNode} (hq : g.node? q = some m)
    (hqid : q ≠ id) : g₁.node? q = some (m.without id) := by
  by_cases hp : n.parent = some q
  · rw [h.node?_owner q hp, hq]
    rfl
  · obtain ⟨p, list, hplace, hmem⟩ := hwf.stands hn hid
    have hnot : id ∉ m.decl.children := fun hchild => by
      obtain ⟨l, hl⟩ := Decl.mem_children.mp hchild
      rw [← listOf_of_node? hq] at hl
      obtain ⟨rfl, -⟩ := hwf.eq_of_mem_listOf hn hid hl hmem
      exact hp (congrArg Place.owner hplace)
    rw [h.node?_other q hqid hp, hq, GraphNode.without, Decl.without_of_not_mem hnot]

/-- What is unlinked and then listed by the new owner is moved when it names that owner. -/
theorem Unlinks.succeeds_setParent (h : g.Unlinks id n g₁) (hwf : g.WellFormed)
    (hn : g.node? id = some n) {list : ChildList} (hlist : n.decl.ownList? = some list)
    {m : GraphNode} (hm : g.node? q = some m) (hq : g₁.node? q = some (m.without id))
    (hqid : q ≠ id) {d : Decl} (hd : (m.decl.without id).updateList? list (· ++ [id]) = some d) :
    (modifyNode id fun node => { node with parent := some q }).Succeeds
      (g₁.setNode q { m with decl := d }) fun _ g' => g.Moves id q g' := by
  have hid : id ∉ g.files := hwf.not_mem_files hn hlist
  have hself : (g₁.setNode q { m with decl := d }).node? id = some { n with parent := none } := by
    rw [node?_setNode hq, if_neg hqid.symm, h.node?_self]
  have hnode (j : DeclId) : ((g₁.setNode q { m with decl := d }).setNode id
      { n with parent := some q }).node? j = if j = id then some { n with parent := some q }
        else if j = q then some { m with decl := d } else g₁.node? j := by
    rw [node?_setNode hself, node?_setNode hq]
  have hparent := parent?_of_node? hn
  have hpid {p : DeclId} (hp : g.parent? id = some p) : p ≠ id := by
    obtain ⟨p', owner, list, hp', -, -, hne, -⟩ := hwf.exists_owner hn hid
    obtain rfl : p' = p := Option.some.inj (hp'.symm.trans (hparent.symm.trans hp))
    exact hne
  refine (outcome_modifyNode_some hself).mpr ?_
  refine ⟨h.toAligned.trans ((aligned_setNode g₁ q _).trans (aligned_setNode _ id _)), ?_,
    fun p hpq hp => ?_, ⟨m, list, d, hm, ?_, hd, ?_⟩, fun j hj hjq hjp => ?_, ?_⟩
  · exact (hnode id).trans (by rw [if_pos rfl, hn]; rfl)
  · refine (hnode p).trans ?_
    rw [if_neg (hpid hp), if_neg hpq, h.node?_owner p (hparent ▸ hp)]
  · rw [kind?_of_node? hn, hlist]
  · exact (hnode q).trans (by rw [if_neg hqid, if_pos rfl])
  · refine (hnode j).trans ?_
    rw [if_neg hj, if_neg hjq, h.node?_other j hj (hparent ▸ hjp)]
  · exact h.files_eq.trans (filter_files_of_not_mem hid)

/-- **Moving a declaration of a well-formed graph** fails only if the new owner has no list for it,
and touches nothing but the declaration and its two owners. -/
theorem outcome_moveTo_moves (h : g.WellFormed) :
    (moveTo id q).Outcome g (fun _ g' => g.Moves id q g')
      fun _ _ => ∀ list, g.kind? id = some (some list) → g.kind? q ≠ some list.home := by
  simp only [moveTo, outcome_bind]
  cases hn : g.node? id with
  | none =>
    rw [outcome_node, hn]
    intro list hk
    simp [kind?, hn] at hk
  | some n =>
    rw [outcome_node_some hn]
    refine outcome_listUnder.mono (fun list g₀ h₀ => ?_) fun x _ hx list hk => ?_
    · obtain ⟨rfl, hlist, hkind⟩ := h₀
      obtain ⟨m, hm, hmk⟩ := exists_node?_of_kind? hkind
      -- No kind owns declarations of its own kind, so the new owner is another declaration.
      have hqid : q ≠ id := by
        rintro rfl
        obtain rfl : m = n := Option.some.inj (hm.symm.trans hn)
        exact home_ne_self list (hmk.symm.trans hlist)
      refine (succeeds_unlink_unlinks h hn).outcome.mono (fun _ g₁ h₁ => ?_) fun _ _ hx => hx
      have hq := h₁.node?_without h hn (h.not_mem_files hn hlist) hm hqid
      have hk : (m.without id).decl.ownList? = list.home := Decl.ownList?_mapLists.trans hmk
      refine (succeeds_pushInto_node hq hk).outcome.mono (fun _ g₂ h₂ => ?_) fun _ _ hx => hx
      obtain ⟨d, hd, rfl⟩ := h₂
      exact (h₁.succeeds_setParent h hn hlist hm hq hqid hd).outcome
    · exact hx.2 list (Option.some.inj ((kind?_of_node? hn).symm.trans hk))

/-! ### Owners do not stand below what they own -/

/-- Going from owner to owner, one comes to everything below which a declaration stands. -/
theorem exists_climb_of_below (hc : g.outline.Consistent none) (h : g.Below id j) :
    ∃ k, g.climb k j = some id := by
  induction h with
  | refl => exact ⟨0, rfl⟩
  | tail _ hlast ih =>
    obtain ⟨k, hk⟩ := ih
    obtain ⟨m, hm, hmem⟩ := hlast
    exact ⟨k + 1, by rw [climb, parent?_of_mem_children hc hm hmem]; exact hk⟩

/-- In a well-formed graph that lists no file, from every declaration one comes to one without
owner. -/
theorem WellFormed.ascends (h : g.WellFormed) (hfiles : ∀ f ∈ g.files, f ∉ g.listed)
    (hn : g.node? id = some n) : g.Ascends id := by
  have hc := consistent_of_wellFormed h hfiles
  rcases reachesFile_of_consistent hc hn with hid | ⟨p, hp, hpf | ⟨q, hq, hqf⟩⟩
  · exact ⟨0, id, rfl, h.parent?_file id hid⟩
  · exact ⟨1, p, by rw [climb, hp]; rfl, h.parent?_file p hpf⟩
  · refine ⟨2, q, ?_, h.parent?_file q hqf⟩
    rw [climb, hp, Option.bind_some, climb, hq]
    rfl

/-- An owner that stood below what it owns would be in a ring. -/
theorem WellFormed.not_below_of_parent? (h : g.WellFormed)
    (hfiles : ∀ f ∈ g.files, f ∉ g.listed) (hp : g.parent? id = some p) : ¬g.Below id p := by
  intro hbelow
  obtain ⟨k, hk⟩ := exists_climb_of_below (consistent_of_wellFormed h hfiles) hbelow
  have hring : g.InRing id := ⟨k, by rw [climb, hp]; exact hk⟩
  obtain ⟨n, hn⟩ := Option.isSome_iff_exists.mp (contains_of_parent? hp)
  exact hring.not_ascends (k := 0) rfl (h.ascends hfiles hn)

/-! ### What edits touch -/

/-- **Edits touch what they name.** In a well-formed graph, removing a declaration gives back what
it was without what it owned, and moving it puts it at the end of the list for its kind;
`Graph.Removes` and `Graph.Moves` say of every slot and of the files what becomes of them. Every
declaration that is there can be removed, and moved to every owner that has a list for it. Where
lists name no file, the owner of a removed declaration stays. -/
theorem edits_touch_what_they_name (g : Graph) (hwf : g.WellFormed) :
    (∀ id d g', remove id g = .ok d g' →
      (g.get? id).map Decl.childless = some d ∧ g.Removes id g') ∧
    (∀ id q g', moveTo id q g = .ok () g' → g.Moves id q g') ∧
    (∀ id, g.contains id = true → ∃ d g', remove id g = .ok d g') ∧
    (∀ id q list, g.kind? id = some (some list) → g.kind? q = some list.home →
      ∃ g', moveTo id q g = .ok () g') ∧
    ((∀ f ∈ g.files, f ∉ g.listed) → ∀ id p, g.parent? id = some p → ¬g.Below id p) := by
  refine ⟨fun id d g' h => ?_, fun id q g' h => ?_, fun id hid => ?_, fun id q list hid hq => ?_,
    fun hfiles id p hp => hwf.not_below_of_parent? hfiles hp⟩
  · exact (outcome_remove_removes hwf).of_ok h
  · exact (outcome_moveTo_moves hwf).of_ok h
  · cases he : remove id g with
    | ok d g' => exact ⟨d, g', rfl⟩
    | error x g' =>
      have hnone := (outcome_remove_removes hwf).of_error he
      exact absurd (hid.symm.trans hnone) (by simp)
  · cases he : moveTo id q g with
    | ok _ g' => exact ⟨g', rfl⟩
    | error x g' => exact absurd hq ((outcome_moveTo_moves hwf).of_error he list hid)

/-- A file with two types, of which the first has two properties and the second has one. -/
def framingScript : List Command :=
  let type : Decl := .type { name := "Feed", kind := .classDecl none }
  let property : Decl := .property { name := "title", storage := { type := .string } }
  [.addFile ⟨"Feed.m", "Feed.swift", {}, [], [], [], [], []⟩, .addChild ⟨0⟩ type,
    .addChild ⟨0⟩ type, .addChild ⟨1⟩ property, .addChild ⟨1⟩ property, .addChild ⟨2⟩ property]

/-- The graph that the script builds. -/
def framingGraph : Graph :=
  runScript framingScript {}

theorem edits_touch_what_they_name_framingGraph :
    framingGraph.WellFormed ∧
      (∃ d g', remove ⟨1⟩ framingGraph = .ok d g' ∧ g'.node? ⟨4⟩ = none ∧
        g'.listOf ⟨0⟩ .types = [⟨2⟩]) ∧
      ∃ g', moveTo ⟨3⟩ ⟨1⟩ framingGraph = .ok () g' ∧ g'.listOf ⟨1⟩ .properties = [⟨4⟩, ⟨3⟩] ∧
        g'.node? ⟨2⟩ = framingGraph.node? ⟨2⟩ := by
  have hle : framingGraph.slots.length ≤ 2 ^ 32 := by decide_cbv
  obtain ⟨hwf, hfiles⟩ := wellFormed_runScript hle
  obtain ⟨hremove, hmove, hremoves, hmoves, howner⟩ := edits_touch_what_they_name framingGraph hwf
  refine ⟨hwf, ?_, ?_⟩
  · obtain ⟨d, g', hg'⟩ := hremoves ⟨1⟩ (by decide_cbv)
    have hr := (hremove ⟨1⟩ d g' hg').2
    have hlisted : ⟨4⟩ ∈ framingGraph.listOf ⟨1⟩ .properties := by decide_cbv
    obtain ⟨n, hn, hmem, -⟩ := place?_of_mem_listOf hlisted
    have hp : framingGraph.parent? ⟨1⟩ = some ⟨0⟩ := by decide_cbv
    refine ⟨d, g', hg', hr.node?_below ⟨4⟩ ?_, ?_⟩
    · exact .single ⟨n, hn, Decl.mem_children.mpr ⟨.properties, hmem⟩⟩
    · rw [listOf, hr.node?_owner ⟨0⟩ (howner hfiles ⟨1⟩ ⟨0⟩ hp) hp]
      decide_cbv
  · obtain ⟨g', hg'⟩ := hmoves ⟨3⟩ ⟨1⟩ .properties (by decide_cbv) (by decide_cbv)
    have hm := hmove ⟨3⟩ ⟨1⟩ g' hg'
    refine ⟨g', hg', ?_, hm.node?_other ⟨2⟩ (by decide) (by decide) (by decide_cbv)⟩
    obtain ⟨m, list, d, hq, hk, hd, hnew⟩ := hm.node?_new
    obtain rfl : ChildList.properties = list := by
      have hkind : framingGraph.kind? ⟨3⟩ = some (some .properties) := by decide_cbv
      simpa using hkind.symm.trans hk
    have hbefore : framingGraph.listOf ⟨1⟩ .properties = [⟨3⟩, ⟨4⟩] := by decide_cbv
    rw [listOf_of_node? hq] at hbefore
    rw [listOf_of_node? hnew, (Decl.updateList?_relists hd).listOf_self]
    change (m.decl.without ⟨3⟩).listOf .properties ++ [⟨3⟩] = _
    rw [Decl.listOf_without, hbefore]
    decide

end Graph

end ObjcSwift
