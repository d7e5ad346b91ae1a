import ObjcSwift.Proofs.Graph.Verify

/-!
# Owners of owners

Whoever goes from owner to owner comes to a declaration without owner (`Graph.Ascends`), or goes
around in a **ring** for ever (`Graph.InRing`). A ring is invisible to the check of a graph, which
looks at one declaration at a time: in a ring, each is listed by the owner that it names, as
everywhere else (`Graph.mutualGraph_is_a_ring`).

What the check does see is enough to say where a ring can be. Owners are files and types, so in a
ring some file has an owner, or some type stands in a type; such a declaration is **misplaced**
(`Graph.Misplaced`), as no edit puts it there. And nothing but a ring keeps a walk from ending,
since a walk that is longer than the graph has come somewhere twice
(`Graph.exists_inRing_of_climb_ne_none`).
-/

namespace ObjcSwift.Graph

variable {g : Graph} {id p r s : DeclId}

/-! ### Climbing -/

/-- The declaration that is a number of owners up. -/
def climb (g : Graph) : Nat → DeclId → Option DeclId
  | 0, id => some id
  | k + 1, id => (g.parent? id).bind (g.climb k)

/-- Going from owner to owner, one comes to a declaration without owner. -/
def Ascends (g : Graph) (id : DeclId) : Prop :=
  ∃ k top, g.climb k id = some top ∧ g.parent? top = none

/-- Going from owner to owner, one comes back to the declaration. -/
def InRing (g : Graph) (id : DeclId) : Prop :=
  ∃ k, g.climb (k + 1) id = some id

/-- A declaration names an owner that has no list for its kind. -/
def Misplaced (g : Graph) (id : DeclId) : Prop :=
  ∃ p, g.parent? id = some p ∧
    ∀ list, g.kind? id = some (some list) → g.kind? p ≠ some list.home

theorem climb_add (j k : Nat) : g.climb (j + k) id = (g.climb j id).bind (g.climb k) := by
  induction j generalizing id with
  | zero => simp [climb]
  | succ j ih =>
    rw [Nat.add_right_comm, climb, climb]
    cases g.parent? id with
    | none => rfl
    | some p => exact ih

/-- The last step of a climb. -/
theorem climb_succ (k : Nat) : g.climb (k + 1) id = (g.climb k id).bind g.parent? := by
  have hone : g.climb 1 = g.parent? := by
    funext j
    cases h : g.parent? j <;> simp [climb, h]
  rw [climb_add, hone]

/-- Above the top there is nothing. -/
theorem climb_eq_none_of_le {j k : Nat} (h : g.climb j id = none) (hjk : j ≤ k) :
    g.climb k id = none := by
  obtain ⟨m, rfl⟩ := Nat.exists_eq_add_of_le hjk
  rw [climb_add, h]
  rfl

/-- Going on from a declaration further up. -/
theorem climb_add_of_climb {j k : Nat} (h : g.climb j id = some r) :
    g.climb (j + k) id = g.climb k r := by
  rw [climb_add, h]
  rfl

/-- A walk that ends is one that is somewhere over. -/
theorem ascends_iff : g.Ascends id ↔ ∃ k, g.climb k id = none := by
  constructor
  · rintro ⟨k, top, hk, htop⟩
    exact ⟨k + 1, by rw [climb_succ, hk]; exact htop⟩
  · rintro ⟨k, hk⟩
    induction k with
    | zero => exact absurd hk (by simp [climb])
    | succ k ih =>
      cases h : g.climb k id with
      | none => exact ih h
      | some top =>
        rw [climb_succ, h] at hk
        exact ⟨k, top, h, hk⟩

/-! ### Rings -/

/-- A ring can be gone around as often as one likes. -/
theorem InRing.climb_ne_none (h : g.InRing r) (k : Nat) : g.climb k r ≠ none := by
  obtain ⟨m, hm⟩ := h
  have haround (n : Nat) : g.climb (n * (m + 1)) r = some r := by
    induction n with
    | zero => simp [climb]
    | succ n ih => rw [Nat.succ_mul, climb_add_of_climb ih, hm]
  intro hnone
  have hover := climb_eq_none_of_le hnone (Nat.le_mul_of_pos_right k m.succ_pos)
  rw [haround k] at hover
  exact absurd hover (by simp)

/-- The owners of a declaration in a ring are in a ring. -/
theorem InRing.climb (h : g.InRing r) {k : Nat} (hk : g.climb k r = some s) : g.InRing s := by
  obtain ⟨m, hm⟩ := h
  refine ⟨m, ?_⟩
  rw [← climb_add_of_climb hk, Nat.add_comm, climb_add_of_climb hm, hk]

/-- A walk that comes to a ring does not end. -/
theorem InRing.not_ascends (h : g.InRing r) {k : Nat} (hk : g.climb k id = some r) :
    ¬g.Ascends id := by
  rw [ascends_iff]
  rintro ⟨j, hj⟩
  refine h.climb_ne_none j ?_
  rw [← climb_add_of_climb hk]
  exact climb_eq_none_of_le hj (Nat.le_add_left j k)

/-! ### Climbing in a graph that passes the check -/

/-- The owner that a declaration of a checked graph names is there and lists it. -/
theorem listed_of_verify (hv : g.verify = .ok ()) (hp : g.parent? id = some p) :
    ∃ owner list, g.node? p = some owner ∧ id ∈ owner.decl.listOf list := by
  obtain ⟨d, hd⟩ := exists_get?_iff_contains.mpr (contains_of_parent? hp)
  have hdecls := (seq_eq_ok_iff.mp hv).2
  have hparent := (seq_eq_ok_iff.mp (forM_eq_ok_iff.mp hdecls _ (mem_live_of_get? hd))).1
  obtain ⟨owner, ho, hmem⟩ := (verifyParent_eq_ok_iff.mp hparent).2 p hp
  obtain ⟨n, hn, rfl⟩ := exists_node?_of_get? ho
  obtain ⟨list, hlist⟩ := Decl.mem_children.mp hmem
  exact ⟨n, list, hn, hlist⟩

/-- In a checked graph one only climbs to declarations that are there. -/
theorem contains_of_climb (hv : g.verify = .ok ()) (hid : g.contains id = true) {k : Nat}
    (hk : g.climb k id = some r) : g.contains r = true := by
  cases k with
  | zero =>
    obtain rfl : id = r := Option.some.inj hk
    exact hid
  | succ k =>
    rw [climb_succ] at hk
    obtain ⟨s, -, hr⟩ := Option.bind_eq_some_iff.mp hk
    obtain ⟨owner, -, ho, -⟩ := listed_of_verify hv hr
    rw [contains, ho]
    rfl

/-- **A walk that is longer than the graph has come to a ring**, as it has come somewhere twice. -/
theorem exists_inRing_of_climb_ne_none (hv : g.verify = .ok ()) (hid : g.contains id = true)
    (h : g.climb g.slots.length id ≠ none) : ∃ k r, g.climb k id = some r ∧ g.InRing r := by
  have hsome (k : Fin (g.slots.length + 1)) : ∃ r, g.climb k id = some r := by
    refine Option.ne_none_iff_exists'.mp fun hnone => h ?_
    exact climb_eq_none_of_le hnone (Nat.le_of_lt_succ k.isLt)
  choose up hup using hsome
  have hslot (k : Fin (g.slots.length + 1)) : (up k).toNat < g.slots.length := by
    obtain ⟨n, hn⟩ := Option.isSome_iff_exists.mp (contains_of_climb hv hid (hup k))
    exact lt_length_of_node? hn
  obtain ⟨i, j, hne, hsame⟩ := Fintype.exists_ne_map_eq_of_card_lt
    (fun k => (⟨(up k).toNat, hslot k⟩ : Fin g.slots.length)) (by simp)
  have hsame : up i = up j := DeclId.toNat_inj.mp (Fin.mk.inj hsame)
  -- Whichever of the two comes first, from there one comes back to it.
  have hring {i j : Fin (g.slots.length + 1)} (hlt : i < j) (hsame : up i = up j) :
      g.InRing (up i) := by
    refine ⟨j - i - 1, ?_⟩
    have hlt : (i : Nat) < j := hlt
    rw [← climb_add_of_climb (hup i), show (i : Nat) + (j - i - 1 + 1) = j by omega, hup j, hsame]
  rcases lt_or_gt_of_ne hne with hlt | hlt
  · exact ⟨i, up i, hup i, hring hlt hsame⟩
  · exact ⟨j, up j, hup j, hring hlt hsame.symm⟩

/-- In a checked graph, only files and types own anything. -/
theorem kind?_of_owner (hv : g.verify = .ok ()) (hp : g.parent? id = some p) :
    g.kind? p = some none ∨ g.kind? p = some (some .types) := by
  obtain ⟨owner, list, ho, hmem⟩ := listed_of_verify hv hp
  rw [kind?_of_node? ho, Decl.ownList?_of_mem_listOf hmem]
  cases list <;> simp [ChildList.home]

/-- **In every ring of a checked graph something is misplaced**: a file that has an owner, or a type
that stands in a type. -/
theorem InRing.exists_misplaced (hv : g.verify = .ok ()) (h : g.InRing r) :
    ∃ k s, g.climb k r = some s ∧ g.InRing s ∧ g.Misplaced s := by
  have hparent {s : DeclId} (hs : g.InRing s) : ∃ p, g.parent? s = some p ∧ g.InRing p := by
    have hone : g.climb 1 s = g.parent? s := by rw [climb_succ]; rfl
    obtain ⟨p, hp⟩ := Option.ne_none_iff_exists'.mp (hs.climb_ne_none 1)
    exact ⟨p, hone ▸ hp, hs.climb hp⟩
  have hkind {s : DeclId} (hs : g.InRing s) :
      g.kind? s = some none ∨ g.kind? s = some (some .types) := by
    obtain ⟨m, hm⟩ := hs
    rw [climb_succ] at hm
    obtain ⟨c, -, hc⟩ := Option.bind_eq_some_iff.mp hm
    exact kind?_of_owner hv hc
  have hfile {s : DeclId} (hs : g.InRing s) (hk : g.kind? s = some none) : g.Misplaced s := by
    obtain ⟨p, hp, -⟩ := hparent hs
    exact ⟨p, hp, fun list hlist => absurd (hk.symm.trans hlist) (by simp)⟩
  obtain ⟨p, hp, hpring⟩ := hparent h
  rcases hkind h with hk | hk
  · exact ⟨0, r, rfl, h, hfile h hk⟩
  · rcases hkind hpring with hpk | hpk
    · exact ⟨1, p, by rw [climb_succ]; exact hp, hpring, hfile hpring hpk⟩
    · refine ⟨0, r, rfl, h, p, hp, fun list hlist => ?_⟩
      obtain rfl : ChildList.types = list := by simpa using hk.symm.trans hlist
      rw [hpk]
      decide

/-! ### Walks with fuel -/

/-- More fuel adds nothing to a walk that is over. -/
theorem ancestorsFrom_eq_of_climb {k fuel : Nat} (h : g.climb (k + 1) id = none) (hle : k ≤ fuel) :
    g.ancestorsFrom fuel (g.parent? id) = g.ancestorsFrom k (g.parent? id) := by
  induction k generalizing id fuel with
  | zero =>
    have hnone : g.parent? id = none := by rw [climb_succ] at h; exact h
    rw [hnone]
    cases fuel <;> rfl
  | succ k ih =>
    cases hp : g.parent? id with
    | none => cases fuel <;> rfl
    | some p =>
      obtain ⟨fuel, rfl⟩ := Nat.exists_eq_add_of_le' hle
      rw [climb, hp] at h
      rw [ancestorsFrom, ← Nat.add_assoc, ancestorsFrom, ih h (Nat.le_add_left k fuel)]

/-- A walk that is not over takes all the fuel. -/
theorem length_ancestorsFrom {fuel : Nat} (h : g.climb fuel id ≠ none) :
    (g.ancestorsFrom fuel (g.parent? id)).length = fuel := by
  induction fuel generalizing id with
  | zero => rfl
  | succ fuel ih =>
    rw [climb] at h
    cases hp : g.parent? id with
    | none => exact absurd (by rw [hp]; rfl) h
    | some p =>
      rw [hp] at h
      rw [ancestorsFrom, List.length_cons, ih h]

/-! ### Which walks end -/

/-- **The walks of a checked graph end outside misplaced rings.** Going from owner to owner, one
comes to a declaration without owner, unless one comes to a ring in which something is misplaced.
The list of the owners is then the whole walk, and it is the whole walk only then: with more fuel, a
walk that ends gets no longer, and every other walk does. -/
theorem checked_walks_end_outside_rings (g : Graph) (hv : g.verify = .ok ()) (id : DeclId)
    (hid : g.contains id = true) :
    (g.Ascends id ↔ ¬∃ k r, g.climb k id = some r ∧ g.InRing r ∧ g.Misplaced r) ∧
      (g.Ascends id ↔ ∀ fuel, g.slots.length ≤ fuel →
        g.ancestorsFrom fuel (g.parent? id) = g.ancestors id) := by
  -- A walk that is not over after as many steps as there are slots has come to a ring.
  have hover (h : g.Ascends id) : g.climb g.slots.length id = none := by
    by_contra hne
    obtain ⟨k, r, hk, hr⟩ := exists_inRing_of_climb_ne_none hv hid hne
    exact hr.not_ascends hk h
  constructor
  · constructor
    · rintro h ⟨k, r, hk, hr, -⟩
      exact hr.not_ascends hk h
    · intro h
      refine ascends_iff.mpr ⟨g.slots.length, ?_⟩
      by_contra hne
      obtain ⟨k, r, hk, hr⟩ := exists_inRing_of_climb_ne_none hv hid hne
      obtain ⟨j, s, hj, hs, hmisplaced⟩ := hr.exists_misplaced hv
      exact h ⟨k + j, s, by rw [climb_add_of_climb hk, hj], hs, hmisplaced⟩
  · constructor
    · intro h fuel hle
      have hnext := climb_eq_none_of_le (hover h) (Nat.le_succ _)
      rw [ancestors, ancestorsFrom_eq_of_climb hnext hle,
        ancestorsFrom_eq_of_climb hnext (Nat.le_succ _)]
    · intro h
      -- Otherwise one more step of fuel makes a longer list.
      refine ascends_iff.mpr ⟨g.slots.length + 2, ?_⟩
      by_contra hne
      have hlong := congrArg List.length (h (g.slots.length + 2) (by omega))
      have hshort : g.climb (g.slots.length + 1) id ≠ none := fun hnone =>
        hne (climb_eq_none_of_le hnone (Nat.le_succ _))
      rw [length_ancestorsFrom hne, ancestors, length_ancestorsFrom hshort] at hlong
      omega

/-- Two types list each other, and one of them lists a property. -/
def mutualGraph : Graph where
  slots :=
    [some ⟨none, .file ⟨"Feed.m", "Feed.swift", {}, [], [], [], [], []⟩⟩,
      some ⟨some ⟨2⟩, .type { name := "Feed", kind := .classDecl none, properties := [⟨2⟩, ⟨3⟩] }⟩,
      some ⟨some ⟨1⟩, .type { name := "Page", kind := .classDecl none, properties := [⟨1⟩] }⟩,
      some ⟨some ⟨1⟩, .property { name := "title", storage := { type := .string } }⟩]
  files := [⟨0⟩]

theorem mutualGraph_is_a_ring :
    mutualGraph.verify = .ok () ∧ mutualGraph.contains ⟨1⟩ = true ∧
      ¬∃ k top, mutualGraph.climb k ⟨1⟩ = some top ∧ mutualGraph.parent? top = none := by
  have hring : mutualGraph.InRing ⟨1⟩ := ⟨1, rfl⟩
  exact ⟨rfl, rfl, hring.not_ascends (k := 0) rfl⟩

theorem checked_walks_end_outside_rings_property :
    mutualGraph.verify = .ok () ∧ mutualGraph.contains ⟨3⟩ = true ∧
      ¬mutualGraph.Ascends ⟨3⟩ := by
  have hv : mutualGraph.verify = .ok () := rfl
  have hid : mutualGraph.contains ⟨3⟩ = true := rfl
  refine ⟨hv, hid, fun h => ?_⟩
  refine (checked_walks_end_outside_rings mutualGraph hv ⟨3⟩ hid).1.mp h ⟨1, ⟨1⟩, rfl, ⟨1, rfl⟩, ?_⟩
  refine ⟨⟨2⟩, rfl, fun list hlist => ?_⟩
  have hkind : mutualGraph.kind? ⟨1⟩ = some (some .types) := rfl
  obtain rfl : ChildList.types = list := by simpa using hkind.symm.trans hlist
  decide

end ObjcSwift.Graph
