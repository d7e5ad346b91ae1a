import ObjcSwift.Proofs.Graph.WellFormed

/-!
# What the check of a graph decides

`Graph.verify` looks at one declaration at a time: whether its owner lists it, and whether what it
lists is there, names it as the owner and comes once. Together this decides that every declaration
is **owned exclusively** (`Graph.ExclusivelyOwned`): no number is listed twice in the whole graph,
wherever it is listed. What one list cannot see follows from the owners, as a declaration names only
one (`Graph.nodup_listed_of_owners`).
-/

namespace ObjcSwift.Graph

variable {g : Graph} {id p : DeclId} {n : GraphNode}

/-- Owners and lists of a graph agree on who owns what. A graph that was read from elsewhere need
not be like this. -/
structure ExclusivelyOwned (g : Graph) : Prop where
  /-- What is listed among the files is a file. -/
  file_of_mem_files : ∀ id ∈ g.files, ∃ file, g.get? id = some (.file file)
  /-- A declaration without owner is listed among the files. -/
  mem_files_of_parent?_eq_none : ∀ id, g.contains id = true → g.parent? id = none → id ∈ g.files
  /-- The owner that a declaration names is there and lists it. -/
  listed_by_parent? : ∀ id p, g.parent? id = some p →
    ∃ owner, g.get? p = some owner ∧ id ∈ owner.children
  /-- Nothing is listed twice in the whole graph. -/
  nodup_listed : g.listed.Nodup
  /-- What a declaration lists is there and names it as its owner. -/
  parent?_of_mem_children : ∀ p owner, g.get? p = some owner →
    ∀ id ∈ owner.children, g.contains id = true ∧ g.parent? id = some p

/-! ### The parts of the check -/

theorem seq_eq_ok_iff {x y : Except GraphError Unit} :
    (do x; y) = .ok () ↔ x = .ok () ∧ y = .ok () := by
  rw [bind_eq_ok]
  exact ⟨fun ⟨_, hx, hy⟩ => ⟨hx, hy⟩, fun ⟨hx, hy⟩ => ⟨(), hx, hy⟩⟩

theorem forM_eq_ok_iff {α : Type} {f : α → Except GraphError Unit} {xs : List α} :
    xs.forM f = .ok () ↔ ∀ x ∈ xs, f x = .ok () := by
  induction xs with
  | nil => simp [pure, Except.pure]
  | cons x xs ih =>
    change (f x >>= fun _ => xs.forM f) = _ ↔ _
    rw [seq_eq_ok_iff, List.forall_mem_cons, ← ih]

theorem file_eq_ok_iff :
    (∃ file, g.file id = .ok file) ↔ ∃ file, g.get? id = some (.file file) := by
  rw [Graph.file, typed]
  cases g.get? id with
  | none => simp
  | some d => cases d <;> simp [Decl.file?]

/-- The owner of a declaration is checked: it is listed, or among the files when it names none. -/
theorem verifyParent_eq_ok_iff :
    g.verifyParent id = .ok () ↔ (g.parent? id = none → id ∈ g.files) ∧
      ∀ p, g.parent? id = some p → ∃ owner, g.get? p = some owner ∧ id ∈ owner.children := by
  rw [verifyParent]
  cases g.parent? id with
  | none => by_cases hid : id ∈ g.files <;> simp [hid]
  | some p =>
    cases ho : g.get? p with
    | none => simp [ho]
    | some owner => by_cases hid : id ∈ owner.children <;> simp [ho, hid]

/-- What an owner lists is checked: no number comes twice, and each names the owner. -/
theorem verifyChildren_eq_ok_iff {ids : List DeclId} : ∀ {seen : List DeclId},
    g.verifyChildren p seen ids = .ok () ↔
      ids.Nodup ∧ ids.Disjoint seen ∧ ∀ i ∈ ids, g.parent? i = some p := by
  induction ids with
  | nil => simp [verifyChildren]
  | cons i ids ih =>
    intro seen
    have hstep : g.verifyChildren p seen (i :: ids) = .ok () ↔
        i ∉ seen ∧ g.parent? i = some p ∧ g.verifyChildren p (i :: seen) ids = .ok () := by
      rw [verifyChildren, parent?]
      cases g.node? i with
      | none => by_cases hi : i ∈ seen <;> simp [hi]
      | some n => by_cases hi : i ∈ seen <;> by_cases hp : n.parent = some p <;> simp [hi, hp]
    rw [hstep, ih, List.nodup_cons, List.disjoint_cons_left, List.disjoint_cons_right,
      List.forall_mem_cons]
    tauto

theorem mem_live_of_get? {d : Decl} (h : g.get? id = some d) : (id, d) ∈ g.live := by
  obtain ⟨n, hn, rfl⟩ := exists_node?_of_get? h
  refine List.mem_filterMap.mpr ⟨(some n, id.toNat), ?_, by simp⟩
  exact List.mem_zipIdx_iff_getElem?.mpr (Option.join_eq_some_iff.mp hn)

theorem mem_live_iff (hle : g.slots.length ≤ 2 ^ 32) {d : Decl} :
    (id, d) ∈ g.live ↔ g.get? id = some d := by
  refine ⟨fun h => ?_, mem_live_of_get?⟩
  obtain ⟨n, hn, rfl⟩ := node?_of_mem_live hle h
  exact get?_of_node? hn

/-- The check is the one of every file, every owner and every list, if all slots have a number. -/
theorem verify_eq_ok_iff (hle : g.slots.length ≤ 2 ^ 32) :
    g.verify = .ok () ↔ (∀ id ∈ g.files, ∃ file, g.get? id = some (.file file)) ∧
      ∀ id d, g.get? id = some d →
        g.verifyParent id = .ok () ∧ g.verifyChildren id [] d.children = .ok () := by
  have hfile (id : DeclId) : (do let _ ← g.file id : Except GraphError Unit) = .ok () ↔
      ∃ file, g.get? id = some (.file file) := by
    rw [← file_eq_ok_iff, bind_eq_ok]
    exact ⟨fun ⟨file, h, _⟩ => ⟨file, h⟩, fun ⟨file, h⟩ => ⟨file, h, rfl⟩⟩
  rw [verify, seq_eq_ok_iff, forM_eq_ok_iff, forM_eq_ok_iff]
  simp only [hfile, seq_eq_ok_iff, Prod.forall, mem_live_iff hle]

/-- **What is listed without naming the owner fails the check.** -/
theorem exists_verify_eq_error (hle : g.slots.length ≤ 2 ^ 32) {owner : Decl}
    (ho : g.get? p = some owner) (hid : id ∈ owner.children) (hp : g.parent? id ≠ some p) :
    ∃ e, g.verify = .error e := by
  cases hv : g.verify with
  | error e => exact ⟨e, rfl⟩
  | ok _ =>
    have hchildren := (((verify_eq_ok_iff hle).mp hv).2 p owner ho).2
    exact absurd ((verifyChildren_eq_ok_iff.mp hchildren).2.2 id hid) hp

/-- **A consistent graph passes the check**, if all its slots have a number. -/
theorem verify_of_consistent (hc : g.outline.Consistent none) (hle : g.slots.length ≤ 2 ^ 32) :
    g.verify = .ok () := by
  refine (verify_eq_ok_iff hle).mpr ⟨fun id hid => (mem_files_iff_get? hc).mp hid, ?_⟩
  intro id d hd
  obtain ⟨n, hn, rfl⟩ := exists_node?_of_get? hd
  refine ⟨verifyParent_eq_ok_iff.mpr ⟨fun hp => ?_, fun p hp => ?_⟩, verifyChildren_eq_ok_iff.mpr
    ⟨nodup_children_of_consistent hc hn, by simp, fun j hj => parent?_of_mem_children hc hn hj⟩⟩
  · by_contra hid
    obtain ⟨p, hp'⟩ := exists_parent_of_not_mem_files hc hn hid
    simp [parent?, hn, hp'] at hp
  · have hparent : n.parent = some p := by simpa [parent?, hn] using hp
    obtain ⟨owner, list, ho, -, -, hmem⟩ := exists_owner hc hn hparent
    exact ⟨owner.decl, get?_of_node? ho, Decl.mem_children.mpr ⟨list, (hmem list).mpr rfl⟩⟩

/-! ### Exclusive ownership -/

/-- What names an owner is there. -/
theorem contains_of_parent? (h : g.parent? id = some p) : g.contains id = true := by
  obtain ⟨n, hn, -⟩ := Option.bind_eq_some_iff.mp h
  rw [contains, hn]
  rfl

theorem exists_get?_iff_contains : (∃ d, g.get? id = some d) ↔ g.contains id = true := by
  rw [contains, get?]
  cases g.node? id <;> simp

/-- **The check decides exclusive ownership.** A graph whose slots all have a number passes it if
and only if what is listed among the files is a file, every other declaration is listed by the owner
it names, and no number is listed twice in the whole graph, by a declaration that is not its owner,
or without a declaration. -/
theorem verify_decides_exclusive_ownership (g : Graph) (hle : g.slots.length ≤ 2 ^ 32) :
    g.verify = .ok () ↔ g.ExclusivelyOwned := by
  simp only [verify_eq_ok_iff hle, verifyParent_eq_ok_iff, verifyChildren_eq_ok_iff]
  constructor
  · rintro ⟨hfiles, hdecls⟩
    refine ⟨hfiles, fun id hid hp => ?_, fun id p hp => ?_, ?_, fun p owner ho id hid => ?_⟩
    · obtain ⟨d, hd⟩ := exists_get?_iff_contains.mpr hid
      exact (hdecls id d hd).1.1 hp
    · obtain ⟨d, hd⟩ := exists_get?_iff_contains.mpr (contains_of_parent? hp)
      exact (hdecls id d hd).1.2 p hp
    · refine nodup_listed_of_owners hle (fun p n hn => ?_) fun p n hn id hid => ?_
      · exact (hdecls p n.decl (by rw [get?, hn]; rfl)).2.1
      · exact (hdecls p n.decl (by rw [get?, hn]; rfl)).2.2.2 id hid
    · have hp := (hdecls p owner ho).2.2.2 id hid
      exact ⟨contains_of_parent? hp, hp⟩
  · intro h
    refine ⟨h.file_of_mem_files, fun id d hd => ⟨⟨?_, h.listed_by_parent? id⟩, ?_, by simp, ?_⟩⟩
    · exact h.mem_files_of_parent?_eq_none id (exists_get?_iff_contains.mp ⟨d, hd⟩)
    · obtain ⟨n, hn, rfl⟩ := exists_node?_of_get? hd
      exact nodup_children_of_nodup_listed h.nodup_listed hn
    · exact fun i hi => (h.parent?_of_mem_children id d hd i hi).2

/-- Two types list one property, which names the second of them as its owner. -/
def contestedGraph : Graph where
  slots :=
    [some ⟨none, .file ⟨"Feed.m", "Feed.swift", {}, [], [⟨1⟩, ⟨2⟩], [], [], []⟩⟩,
      some ⟨some ⟨0⟩, .type { name := "Feed", kind := .classDecl none, properties := [⟨3⟩] }⟩,
      some ⟨some ⟨0⟩, .type { name := "Page", kind := .classDecl none, properties := [⟨3⟩] }⟩,
      some ⟨some ⟨2⟩, .property { name := "title", storage := { type := .string } }⟩]
  files := [⟨0⟩]

theorem verify_decides_exclusive_ownership_contested :
    contestedGraph.slots.length ≤ 2 ^ 32 ∧
      contestedGraph.verify = .error (.notAChild ⟨3⟩ ⟨1⟩) ∧ ¬contestedGraph.ExclusivelyOwned := by
  have hle : contestedGraph.slots.length ≤ 2 ^ 32 := by decide
  have hverify : contestedGraph.verify = .error (.notAChild ⟨3⟩ ⟨1⟩) := rfl
  refine ⟨hle, hverify, fun h => ?_⟩
  have hok := (verify_decides_exclusive_ownership contestedGraph hle).mpr h
  rw [hverify] at hok
  exact absurd hok (by simp)

end ObjcSwift.Graph
