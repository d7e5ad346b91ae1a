import ObjcSwift.Proofs.Graph.Outcome
import ObjcSwift.Proofs.Graph.Outline

/-!
# Edits that fail change nothing

An edit checks everything that can fail before it changes anything. That is so on **every** graph,
also on one whose owners and lists do not agree: owners that are not there, numbers that are listed
twice, declarations that own each other in a ring. Nothing in this file assumes more.

Two things have to be seen.

* *What comes after the first change cannot fail.* An edit that has unlinked a declaration looks up
  again what it has looked up before; unlinking empties no slot and changes no kind
  (`Graph.outcome_unlink`), so it finds it again.
* *Emptying slots ends.* A ring of owners sends the loop that empties slots around only once: what
  is listed in a slot is put on the stack when the slot is emptied, and a slot is emptied once
  (`Graph.freeTurn_iterate`).
-/

namespace ObjcSwift.Graph

open Edit

variable {g g' : Graph} {id : DeclId} {n : GraphNode}

/-! ### Kinds -/

/-- The kind of the declaration of a number, given as the list in which its kind stands. -/
def kind? (g : Graph) (id : DeclId) : Option (Option ChildList) :=
  (g.node? id).map fun n => n.decl.ownList?

theorem kind?_of_node? (h : g.node? id = some n) : g.kind? id = some n.decl.ownList? := by
  rw [kind?, h]
  rfl

theorem kind?_eq_place? : g.kind? id = (g.place? id).map Place.list := by
  rw [kind?, place?, Option.map_map]
  rfl

theorem kind?_of_outline (h : g'.outline = g.outline) : g'.kind? = g.kind? := by
  funext id
  have hplace : g'.place? id = g.place? id := congrFun (congrArg Outline.place? h) id
  rw [kind?_eq_place?, kind?_eq_place?, hplace]

theorem exists_node?_of_kind? {kind : Option ChildList} (h : g.kind? id = some kind) :
    ∃ n, g.node? id = some n ∧ n.decl.ownList? = kind :=
  Option.map_eq_some_iff.mp h

/-- Another declaration of the same kind in a slot changes no kind. -/
theorem kind?_setNode {m : GraphNode} (h : g.node? id = some n)
    (hk : m.decl.ownList? = n.decl.ownList?) : (g.setNode id m).kind? = g.kind? := by
  funext j
  rw [kind?, kind?, node?_setNode h]
  split_ifs with hj
  · rw [hj, h]
    exact congrArg some hk
  · rfl

/-! ### The steps of an edit -/

/-- Looking for the list in which a declaration belongs changes nothing, and finds it exactly where
there is an owner of the right kind. -/
theorem outcome_listUnder {p : DeclId} {d : Decl} :
    (listUnder p d).Outcome g
      (fun list g' => g' = g ∧ d.ownList? = some list ∧ g.kind? p = some list.home)
      (fun _ g' => g' = g ∧ ∀ list, d.ownList? = some list → g.kind? p ≠ some list.home) := by
  simp only [listUnder, outcome_bind, outcome_node]
  cases hp : g.node? p with
  | none =>
    refine ⟨trivial, fun list _ hk => ?_⟩
    simp [kind?, hp] at hk
  | some owner =>
    cases hd : d.ownList? with
    | none => exact ⟨rfl, fun list hl => absurd hl (by simp)⟩
    | some list =>
      by_cases hl : owner.decl.hasList list = true
      · simp only [hl, if_true, outcome_pure]
        exact ⟨trivial, trivial, by rw [kind?_of_node? hp, Decl.hasList_eq_true.mp hl]⟩
      · simp only [hl]
        refine ⟨rfl, fun l hll hk => hl (Decl.hasList_eq_true.mpr ?_)⟩
        obtain rfl := Option.some.inj hll
        exact Option.some.inj ((kind?_of_node? hp).symm.trans hk)

/-- An owner of the right kind takes one more number. -/
theorem succeeds_pushInto {p child : DeclId} {list : ChildList}
    (h : g.kind? p = some list.home) :
    (pushInto p list child).Succeeds g fun _ g' =>
      g'.outline = g.outline.push child p list ∧ g'.kind? = g.kind? := by
  obtain ⟨owner, hp, hk⟩ := exists_node?_of_kind? h
  obtain ⟨d', hd'⟩ := Decl.exists_updateList? (· ++ [child]) hk
  have hr := Decl.updateList?_relists hd'
  simp only [Succeeds, pushInto, outcome_bind, outcome_node_some hp, hd', outcome_modify]
  refine ⟨?_, kind?_setNode hp hr.ownList?_eq⟩
  rw [outline_setNode hp]
  refine Outline.ext rfl rfl ?_ ?_
  · funext j
    simp only [Outline.put, Outline.push]
    split_ifs with hj
    · rw [hj]
      simp only [outline, place?_of_node? hp, GraphNode.place, hr.ownList?_eq]
    · rfl
  · funext q l
    simp only [Outline.put, Outline.push]
    by_cases hq : q = p
    · by_cases hl : l = list
      · simp [hq, hl, hr.listOf_self, outline, listOf_of_node? hp]
      · simp [hq, hl, hr.listOf_other l hl, outline, listOf_of_node? hp]
    · simp [hq]

/-- Another owner can be given to every declaration that is there. -/
theorem succeeds_setParent {parent : Option DeclId} {kind : Option ChildList}
    (h : g.kind? id = some kind) :
    (modifyNode id fun node => { node with parent }).Succeeds g fun _ g' =>
      g'.kind? = g.kind? ∧ g'.slots.length = g.slots.length := by
  obtain ⟨n, hn, -⟩ := exists_node?_of_kind? h
  exact (outcome_modifyNode_some hn).mpr ⟨kind?_setNode hn rfl, by simp [setNode]⟩

/-- **Unlinking changes everything or nothing**, and it empties no slot and changes no kind. -/
theorem outcome_unlink :
    (unlink id).Outcome g
      (fun _ g' => g'.kind? = g.kind? ∧ g'.slots.length = g.slots.length ∧
        ∃ kind, g.kind? id = some kind)
      (fun _ g' => g' = g) := by
  simp only [unlink, outcome_bind, outcome_node]
  cases hn : g.node? id with
  | none => trivial
  | some n =>
    have hid : g.kind? id = some n.decl.ownList? := kind?_of_node? hn
    -- Forgetting the owner is the last step; it finds the declaration where it was.
    have hlast : ∀ g₁ : Graph, g₁.kind? = g.kind? → g₁.slots.length = g.slots.length →
        (modifyNode id fun node => { node with parent := none }).Outcome g₁
          (fun _ g' => g'.kind? = g.kind? ∧ g'.slots.length = g.slots.length ∧
            ∃ kind, g.kind? id = some kind)
          (fun _ g' => g' = g) := by
      intro g₁ hk hs
      refine (succeeds_setParent (by rw [hk, hid])).outcome.mono (fun _ g' h' => ?_)
        fun _ _ hx => hx
      exact ⟨h'.1.trans hk, h'.2.trans hs, _, hid⟩
    cases hp : n.parent with
    | none =>
      simp only [hp, outcome_bind, outcome_get]
      by_cases hf : g.files.contains id = true
      · simp only [hf, if_true, outcome_bind, outcome_set]
        exact hlast _ rfl rfl
      · simp only [hf]
        rfl
    | some p =>
      simp only [hp, outcome_bind, outcome_node]
      cases ho : g.node? p with
      | none => trivial
      | some owner =>
        cases he : owner.decl.eraseChild? id with
        | none =>
          simp only [he]
          rfl
        | some d' =>
          obtain ⟨list, -, hd'⟩ := Decl.eraseChild?_relists he
          simp only [he, outcome_bind, outcome_modify]
          exact hlast _ (kind?_setNode ho hd'.ownList?_eq) (by simp [setNode])

/-! ### Adding and moving -/

/-- New slots at the end change no kind before them. -/
theorem kind?_append (h : id.toNat < g.slots.length) (slots : List (Option GraphNode))
    (files : List DeclId) :
    ({ slots := g.slots ++ slots, files } : Graph).kind? id = g.kind? id := by
  rw [kind?, kind?, node?, node?, List.getElem?_append_left h]

theorem toNat_lt_of_kind? {kind : Option ChildList} (h : g.kind? id = some kind) :
    id.toNat < g.slots.length := by
  obtain ⟨n, hn, -⟩ := exists_node?_of_kind? h
  exact lt_length_of_node? hn

/-- **Adding changes everything or nothing**, and it takes one slot and changes no kind before it.
It fails only where there is no owner of the right kind. -/
theorem outcome_addChild_kind? {p : DeclId} {d : Decl} :
    (addChild p d).Outcome g
      (fun _ g' => g'.slots.length = g.slots.length + 1 ∧
        ∀ j : DeclId, j.toNat < g.slots.length → g'.kind? j = g.kind? j)
      (fun _ g' => g' = g ∧ ∀ list, d.ownList? = some list → g.kind? p ≠ some list.home) := by
  simp only [addChild, outcome_bind]
  refine outcome_listUnder.mono (fun list g₀ h => ?_) fun _ _ hx => hx
  obtain ⟨rfl, -, hp⟩ := h
  simp only [allocate, outcome_bind, outcome_getThe, outcome_set, outcome_pure]
  refine (succeeds_pushInto ?_).outcome.mono (fun _ g₁ h₁ => ?_) fun _ _ hx => hx
  · rw [kind?_append (toNat_lt_of_kind? hp), hp]
  · have hs := congrArg Outline.slots h₁.1
    refine ⟨by simpa [outline, Outline.push] using hs, fun j hj => ?_⟩
    rw [h₁.2, kind?_append hj]

/-- **Moving changes everything or nothing**, and it empties no slot and changes no kind. -/
theorem outcome_moveTo_kind? {q : DeclId} :
    (moveTo id q).Outcome g
      (fun _ g' => g'.kind? = g.kind? ∧ g'.slots.length = g.slots.length) (fun _ g' => g' = g) := by
  simp only [moveTo, outcome_bind, outcome_node]
  cases hn : g.node? id with
  | none => trivial
  | some n =>
    refine outcome_listUnder.mono (fun list g₀ h => ?_) fun _ _ hx => hx.1
    obtain ⟨rfl, -, hq⟩ := h
    refine outcome_unlink.mono (fun _ g₁ h₁ => ?_) fun _ _ hx => hx
    obtain ⟨hk, hs, kind, hid⟩ := h₁
    refine (succeeds_pushInto (hk ▸ hq)).outcome.mono (fun _ g₂ h₂ => ?_) fun _ _ hx => hx
    have hid₂ : g₂.kind? id = some kind := by rw [h₂.2, hk, hid]
    have hs₂ : g₂.slots.length = g₁.slots.length := congrArg Outline.slots h₂.1
    refine (succeeds_setParent hid₂).outcome.mono (fun _ g₃ h₃ => ?_) fun _ _ hx => hx
    exact ⟨h₃.1.trans (h₂.2.trans hk), h₃.2.trans (hs₂.trans hs)⟩

theorem atomic_addChild (p : DeclId) (d : Decl) : (addChild p d).Atomic :=
  fun _ => outcome_addChild_kind?.mono (fun _ _ _ => trivial) fun _ _ hx => hx.1

theorem atomic_moveTo (id q : DeclId) : (moveTo id q).Atomic :=
  fun _ => outcome_moveTo_kind?.mono (fun _ _ _ => trivial) fun _ _ hx => hx

/-! ### Removing -/

/-- One turn of the loop that empties slots: the number on top of the stack goes, and if its slot is
not empty, the slot is emptied and what it lists comes on the stack. -/
def freeTurn : List (Option GraphNode) × List DeclId → List (Option GraphNode) × List DeclId
  | (slots, []) => (slots, [])
  | (slots, id :: pending) =>
    match slots[id.toNat]? with
    | some (some node) => (slots.set id.toNat none, node.decl.children ++ pending)
    | _ => (slots, pending)

/-- How many numbers the declarations in some slots list together. -/
def listedCount (slots : List (Option GraphNode)) : Nat :=
  (slots.map fun slot => (slot.map fun n => n.decl.children.length).getD 0).sum

/-- Emptying a slot gives up exactly what was listed there. -/
theorem listedCount_set {slots : List (Option GraphNode)} {i : Nat}
    (h : slots[i]? = some (some n)) :
    listedCount (slots.set i none) + n.decl.children.length = listedCount slots := by
  induction slots generalizing i with
  | nil => simp at h
  | cons slot slots ih =>
    cases i with
    | zero =>
      obtain rfl : slot = some n := by simpa using h
      simp [listedCount]
      omega
    | succ i =>
      have hi := ih (by simpa using h)
      simp only [listedCount, List.set_cons_succ, List.map_cons, List.sum_cons] at hi ⊢
      omega

/-- **Emptying slots ends on every graph.** The loop takes no more turns than there are numbers on
the stack and in the lists, and leaves the slots that `Graph.free` gives. -/
theorem freeTurn_iterate (slots : List (Option GraphNode)) (pending : List DeclId) :
    ∃ turns, turns ≤ pending.length + listedCount slots ∧
      freeTurn^[turns] (slots, pending) = (free slots pending, []) := by
  fun_induction free slots pending with
  | case1 slots => exact ⟨0, Nat.zero_le _, rfl⟩
  | case2 slots id pending node h ih =>
    obtain ⟨turns, hle, hturns⟩ := ih
    -- What comes onto the stack is no longer in a list, so the bound does not grow.
    have hcount := listedCount_set h
    refine ⟨turns + 1, ?_, ?_⟩
    · simp only [List.length_append, List.length_cons] at hle ⊢
      omega
    · rw [Function.iterate_succ_apply, ← hturns]
      simp only [freeTurn, h]
  | case3 slots id pending hne ih =>
    obtain ⟨turns, hle, hturns⟩ := ih
    refine ⟨turns + 1, ?_, ?_⟩
    · simp only [List.length_cons]
      omega
    · rw [Function.iterate_succ_apply, ← hturns]
      simp only [freeTurn]

/-- Removing fails exactly when unlinking does, in the same way. -/
theorem remove_eq_error_iff {x : GraphError} :
    remove id g = .error x g' ↔ unlink id g = .error x g' := by
  have hun : (unlink id).Outcome g _ _ := outcome_unlink
  cases hu : unlink id g with
  | error y g₁ =>
    have hr : remove id g = .error y g₁ := by
      change EStateM.bind (unlink id) _ g = _
      rw [EStateM.bind, hu]
    rw [hr]
    simp
  | ok a g₁ =>
    -- After unlinking, the declaration is still in its slot, so nothing is left to fail.
    obtain ⟨hk, -, kind, hid⟩ := hun.of_ok hu
    obtain ⟨n, hn, -⟩ := exists_node?_of_kind? (by rw [hk, hid] : g₁.kind? id = some kind)
    have hr : (remove id).Succeeds g fun _ _ => True := by
      simp only [Succeeds, remove, outcome_bind]
      unfold Outcome
      rw [hu]
      exact (outcome_node_some hn).mpr trivial
    obtain ⟨d, g₂, hok, -⟩ := hr.exists_ok
    rw [hok]
    simp

theorem atomic_remove (id : DeclId) : (remove id).Atomic := by
  intro g
  unfold Outcome
  cases hr : remove id g with
  | ok d g' => trivial
  | error x g' => exact outcome_unlink.of_error (remove_eq_error_iff.mp hr)

theorem atomic_removeChild (p child : DeclId) : (removeChild p child).Atomic := by
  intro g
  simp only [removeChild, outcome_bind, outcome_get]
  split_ifs
  · exact atomic_remove child g
  · rfl

/-- **Failed edits are atomic on every graph.** Whatever the graph and the arguments, an edit that
fails leaves the graph exactly as it was. Removing ends on every graph, after at most as many turns
as there are numbers in the lists and one more, and it fails exactly when unlinking the root of what
is removed does. -/
theorem failed_edits_change_nothing :
    (∀ p d, (addChild p d).Atomic) ∧ (∀ id, (remove id).Atomic) ∧
      (∀ p child, (removeChild p child).Atomic) ∧ (∀ id q, (moveTo id q).Atomic) ∧
      (∀ (g : Graph) (id : DeclId), ∃ turns, turns ≤ listedCount g.slots + 1 ∧
        freeTurn^[turns] (g.slots, [id]) = (free g.slots [id], [])) ∧
      ∀ (g g' : Graph) (id : DeclId) (x : GraphError),
        remove id g = .error x g' ↔ unlink id g = .error x g' := by
  refine ⟨atomic_addChild, atomic_remove, atomic_removeChild, atomic_moveTo, fun g id => ?_,
    fun g g' id x => remove_eq_error_iff⟩
  obtain ⟨turns, hle, hturns⟩ := freeTurn_iterate g.slots [id]
  exact ⟨turns, by simpa [Nat.add_comm] using hle, hturns⟩

end ObjcSwift.Graph
