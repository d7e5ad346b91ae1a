import ObjcSwift.Proofs.Pass.Steps

/-!
# The rows of a graph

A graph can be read as a table. The **row** of a number (`Graph.row?`) is the declaration there
with its owner, but without what it owns; the lists are left out, as owners and lists agree. Read
like this, an edit of a consistent graph changes one line of the table (`Graph.Enters`): rewriting a
declaration changes what it is, moving it changes its owner, and removing it empties the line. The
lists that change along are those of a few owners, and every other node is the same.

What a fact about the whole graph asks of an edit can then be read off from that line, with no
regard to lists.
-/

namespace ObjcSwift

/-- A node whose declaration owns nothing. -/
def GraphNode.childless (n : GraphNode) : GraphNode :=
  { n with decl := n.decl.childless }

namespace Graph

open Edit

variable {g g' : Graph} {id q : DeclId} {n m : GraphNode} {list : ChildList}

/-! ### Rows -/

/-- The declaration of a number with its owner, but without what it owns. -/
def row? (g : Graph) (id : DeclId) : Option GraphNode :=
  (g.node? id).map GraphNode.childless

theorem row?_of_node? (h : g.node? id = some n) : g.row? id = some n.childless := by
  rw [row?, h]
  rfl

theorem parent?_eq_row? : g.parent? id = (g.row? id).bind (·.parent) := by
  unfold parent? row?
  cases g.node? id <;> rfl

theorem kind?_eq_row? : g.kind? id = (g.row? id).map (·.decl.ownList?) := by
  unfold kind? row?
  cases g.node? id with
  | none => rfl
  | some n => simp [GraphNode.childless]

/-- What is read off from a declaration without what it owns is read off from its row. -/
theorem get?_bind_eq_row? {α : Type} {f : Decl → Option α} (hf : ∀ d, f d.childless = f d) :
    (g.get? id).bind f = (g.row? id).bind fun n => f n.decl := by
  unfold get? row?
  cases g.node? id with
  | none => rfl
  | some n => exact (hf n.decl).symm

theorem row?_setNode (h : g.node? id = some n) :
    (g.setNode id m).row? = Function.update g.row? id (some m.childless) := by
  funext j
  rw [row?, node?_setNode h, Function.update_apply]
  split_ifs <;> rfl

/-- Other lists of a declaration make no other row. -/
theorem row?_setNode_of_childless (h : g.node? id = some n)
    (hm : m.childless = n.childless) : (g.setNode id m).row? = g.row? := by
  rw [row?_setNode h, hm, ← row?_of_node? h, Function.update_eq_self]

/-- A node is known if its row and its lists are. -/
theorem node?_eq_of_row?_eq (h : g'.row? id = g.row? id)
    (hlists : ∀ list, g'.listOf id list = g.listOf id list) : g'.node? id = g.node? id := by
  unfold row? at h
  cases hn : g.node? id with
  | none => simpa [hn] using h
  | some n =>
    rw [hn] at h
    obtain ⟨n', hn', hsame⟩ := Option.map_eq_some_iff.mp h
    obtain ⟨hparent, hdecl⟩ := GraphNode.mk.inj hsame
    have hdecl : n'.decl = n.decl := by
      refine Decl.eq_of_childless_eq hdecl fun l => ?_
      rw [← listOf_of_node? hn', ← listOf_of_node? hn, hlists]
    obtain ⟨parent, decl⟩ := n
    obtain ⟨parent', decl'⟩ := n'
    obtain rfl : parent' = parent := hparent
    obtain rfl : decl' = decl := hdecl
    exact hn'

/-! ### Edits as changes of one row -/

/-- One row has changed. The lists of some owners may have changed along; every other node is the
same. -/
structure Enters (g : Graph) (id : DeclId) (row : Option GraphNode) (owners : List DeclId)
    (g' : Graph) : Prop where
  /-- One row is another one. -/
  row?_eq : g'.row? = Function.update g.row? id row
  /-- The other nodes are the same. -/
  node?_eq : ∀ j, j ≠ id → j ∉ owners → g'.node? j = g.node? j
  /-- The files are the same, unless the row was that of a file. -/
  files_eq : g.parent? id ≠ none → g'.files = g.files

theorem Enters.parent?_eq {row : Option GraphNode} {owners : List DeclId}
    (h : g.Enters id row owners g') (j : DeclId) :
    g'.parent? j = if j = id then row.bind (·.parent) else g.parent? j := by
  rw [parent?_eq_row?, parent?_eq_row?, h.row?_eq, Function.update_apply]
  split_ifs <;> rfl

/-- What is read off from declarations changes with the row. -/
theorem Enters.read_eq {row : Option GraphNode} {owners : List DeclId} {α : Type}
    {f : Decl → Option α} (h : g.Enters id row owners g') (hf : ∀ d, f d.childless = f d)
    (j : DeclId) :
    (g'.get? j).bind f = if j = id then row.bind fun n => f n.decl else (g.get? j).bind f := by
  rw [get?_bind_eq_row? hf, get?_bind_eq_row? hf, h.row?_eq, Function.update_apply]
  split_ifs <;> rfl

/-- What is read off from declarations stays the same if it does in the row. -/
theorem Enters.read_eq_self {p : Option DeclId} {d : Decl} {owners : List DeclId} {α : Type}
    {f : Decl → Option α} (h : g.Enters id (some ⟨p, d.childless⟩) owners g')
    (hn : g.node? id = some n) (hf : ∀ d, f d.childless = f d) (hsame : f d = f n.decl)
    (j : DeclId) : (g'.get? j).bind f = (g.get? j).bind f := by
  rw [h.read_eq hf]
  split_ifs with hj
  · rw [hj, get?, hn]
    exact (hf d).trans hsame
  · rfl

/-- What is there is not what was removed. -/
theorem Enters.ne_of_kind? {owners : List DeclId} {j : DeclId} {kind : Option ChildList}
    (h : g.Enters id none owners g') (hj : g'.kind? j = some kind) : j ≠ id := by
  rintro rfl
  rw [kind?_eq_row?, h.row?_eq, Function.update_self] at hj
  exact absurd hj (by simp)

/-- A declaration with an owner is no file. -/
theorem not_mem_files_of_parent? (hc : g.outline.Consistent none) (h : g.parent? id ≠ none) :
    id ∉ g.files := by
  intro hid
  obtain ⟨n, hn, hparent, -⟩ := exists_node?_of_place? (hc.mem_files_iff.mp hid)
  exact h ((parent?_of_node? hn).trans hparent)

/-- The owner of a declaration is of the kind that has the list for it. -/
theorem kind?_of_parent? (hc : g.outline.Consistent none) (hp : g.parent? id = some q) :
    ∃ list, g.kind? id = some (some list) ∧ g.kind? q = some list.home := by
  obtain ⟨n, hn, hparent⟩ := Option.bind_eq_some_iff.mp hp
  obtain ⟨owner, list, ho, hlist, -, hmem⟩ := exists_owner hc hn hparent
  refine ⟨list, by rw [kind?_of_node? hn, hlist], ?_⟩
  rw [kind?_of_node? ho, Decl.ownList?_of_mem_listOf ((hmem list).mpr rfl)]

/-- Types stand in files. -/
theorem exists_node?_type {t : DeclId} (hc : g.outline.Consistent none)
    (ht : g.kind? t = some (some .types)) :
    ∃ p d, g.node? t = some ⟨some p, .type d⟩ ∧ g.kind? p = some none := by
  obtain ⟨⟨parent, decl⟩, hn, hlist⟩ := exists_node?_of_kind? ht
  obtain ⟨d, rfl⟩ := Decl.view_type.exists_make decl hlist
  cases parent with
  | none =>
    have howner := hc.owner_eq_none t _ (place?_of_node? hn) (by simp)
    exact absurd (howner.mp rfl) (by simp [GraphNode.place, Decl.ownList?])
  | some p =>
    obtain ⟨list, hlist', hp⟩ := kind?_of_parent? hc (q := p) (parent?_of_node? hn)
    obtain rfl : ChildList.types = list := by simpa [ht] using hlist'
    exact ⟨p, d, hn, hp⟩

/-- A declaration lists nothing exactly if nothing stands in it. -/
theorem forall_listOf_eq_nil_iff (hc : g.outline.Consistent none) :
    (∀ list, g.listOf q list = []) ↔ ∀ j, g.parent? j ≠ some q := by
  constructor
  · intro h j hj
    obtain ⟨n, hn, hparent⟩ := Option.bind_eq_some_iff.mp hj
    obtain ⟨owner, list, ho, -, -, hmem⟩ := exists_owner hc hn hparent
    have hin := (hmem list).mpr rfl
    rw [← listOf_of_node? ho, h] at hin
    exact absurd hin (by simp)
  · intro h list
    exact List.eq_nil_iff_forall_not_mem.mpr fun j hj => h j (parent?_of_mem_listOf hc hj)

/-- Rewriting a declaration changes its row. -/
theorem succeeds_setDecl_enters {gone : DeclId → Prop} {d : Decl} (hc : g.outline.Consistent none)
    (hn : g.node? id = some n) (hd : n.decl.Alike d) :
    (setDecl id d).Succeeds g fun _ g' =>
      Edited gone g g' ∧ g.Enters id (some ⟨n.parent, d.childless⟩) [] g' := by
  refine (succeeds_setDecl hn hd).mono fun _ g' h =>
    ⟨.of_outline hc h.1, ?_, fun j hj _ => ?_, fun _ => congrArg Outline.files h.1⟩
  · funext j
    rw [row?, h.2, Function.update_apply]
    split_ifs <;> rfl
  · rw [h.2, if_neg hj]

/-- What a list names has the owner of the list. -/
theorem parent_eq_of_mem_listOf (hc : g.outline.Consistent none) (hn : g.node? id = some n)
    (hmem : id ∈ g.listOf q list) : n.parent = some q := by
  have hplace := (place?_of_node? hn).symm.trans (hc.mem_listOf_iff.mp hmem)
  exact congrArg Place.owner (Option.some.inj hplace)

theorem outcome_unlink_row? (hn : g.node? id = some n) :
    (unlink id).Outcome g
      (fun _ g' => g'.row? = Function.update g.row? id (some ⟨none, n.decl.childless⟩))
      fun _ _ => True := by
  -- Forgetting the owner is the last step; by then lists have changed, but no row.
  have hlast : ∀ g₁ : Graph, g₁.row? = g.row? →
      (modifyNode id fun node => { node with parent := none }).Outcome g₁
        (fun _ g' => g'.row? = Function.update g.row? id (some ⟨none, n.decl.childless⟩))
        fun _ _ => True := by
    intro g₁ hg₁
    have hid : g₁.row? id = some n.childless := by rw [hg₁, row?_of_node? hn]
    obtain ⟨m, hm, hsame⟩ := Option.map_eq_some_iff.mp hid
    refine (outcome_modifyNode_some hm).mpr ?_
    rw [row?_setNode hm, hg₁]
    refine congrArg (fun d => Function.update g.row? id (some (GraphNode.mk none d))) ?_
    exact congrArg GraphNode.decl hsame
  simp only [unlink, outcome_bind, outcome_node_some hn]
  cases hp : n.parent with
  | none =>
    simp only [outcome_bind, outcome_get]
    split_ifs
    · rw [outcome_bind, outcome_set]
      exact hlast _ rfl
    · trivial
  | some p =>
    simp only [outcome_bind, outcome_node]
    cases ho : g.node? p with
    | none => trivial
    | some owner =>
      cases he : owner.decl.eraseChild? id with
      | none =>
        simp only [he]
        trivial
      | some d' =>
        simp only [he, outcome_bind, outcome_modify]
        refine hlast _ (row?_setNode_of_childless ho ?_)
        exact congrArg (GraphNode.mk owner.parent) (Decl.childless_of_eraseChild? he)

theorem outcome_pushInto_row? {child : DeclId} :
    (pushInto id list child).Outcome g (fun _ g' => g'.row? = g.row?) fun _ _ => True := by
  simp only [pushInto, outcome_bind, outcome_node]
  cases ho : g.node? id with
  | none => trivial
  | some owner =>
    cases hd : owner.decl.updateList? list (· ++ [child]) with
    | none =>
      simp only [hd]
      trivial
    | some d' =>
      simp only [hd, outcome_modify]
      refine row?_setNode_of_childless ho ?_
      exact congrArg (GraphNode.mk owner.parent) (Decl.childless_of_updateList? hd)

/-- What unlinks a declaration and changes its row touches no more than the row, its old owner, and
those whose lists it changes besides. -/
theorem Enters.of_unlinked {row : Option GraphNode} (others : List DeclId)
    (hc : g.outline.Consistent none) (hn : g.node? id = some n)
    (hrow : g'.row? = Function.update g.row? id row) (hfiles : g'.files = g.files.erase id)
    (hlists : ∀ j, j ∉ others → ∀ l, g'.listOf j l = (g.listOf j l).erase id) :
    g.Enters id row (others ++ n.parent.toList) g' where
  row?_eq := hrow
  node?_eq j hj hout := by
    rw [List.mem_append, not_or, Option.mem_toList] at hout
    refine node?_eq_of_row?_eq ?_ fun l => ?_
    · rw [hrow, Function.update_of_ne hj]
    · rw [hlists j hout.1, List.erase_of_not_mem fun hmem => ?_]
      exact hout.2 (parent_eq_of_mem_listOf hc hn hmem)
  files_eq hp := by
    rw [hfiles, List.erase_of_not_mem (not_mem_files_of_parent? hc hp)]

/-- Moving a declaration changes the owner in its row. -/
theorem succeeds_moveTo_enters {gone : DeclId → Prop} (hc : g.outline.Consistent none)
    (hn : g.node? id = some n) (hlist : n.decl.ownList? = some list)
    (hq : g.kind? q = some list.home) :
    (moveTo id q).Succeeds g fun _ g' => Edited gone g g' ∧
      g.Enters id (some ⟨some q, n.decl.childless⟩) (q :: n.parent.toList) g' := by
  have hid : g.kind? id = some (some list) := by rw [kind?_of_node? hn, hlist]
  -- Unlinking takes the owner out of the row, and listing changes no row.
  have hrow : (moveTo id q).Outcome g
      (fun _ g' => g'.row? = Function.update g.row? id (some ⟨some q, n.decl.childless⟩))
      fun _ _ => True := by
    simp only [moveTo, outcome_bind, outcome_node_some hn]
    refine outcome_listUnder.mono (fun list g₀ h => ?_) fun _ _ _ => trivial
    obtain ⟨rfl, -, -⟩ := h
    refine (outcome_unlink_row? hn).mono (fun _ g₁ h₁ => ?_) fun _ _ hx => hx
    refine outcome_pushInto_row?.mono (fun _ g₂ h₂ => ?_) fun _ _ hx => hx
    have hid : g₂.row? id = some ⟨none, n.decl.childless⟩ := by
      rw [h₂, h₁, Function.update_self]
    obtain ⟨m, hm, hsame⟩ := Option.map_eq_some_iff.mp hid
    refine (outcome_modifyNode_some hm).mpr ?_
    rw [row?_setNode hm, h₂, h₁, Function.update_idem]
    refine congrArg (fun d => Function.update g₀.row? id (some (GraphNode.mk (some q) d))) ?_
    exact congrArg GraphNode.decl hsame
  obtain ⟨_, g', hok, ho, he⟩ := (succeeds_moveTo_edited hc hid hq).exists_ok
  unfold Succeeds Outcome
  rw [hok]
  refine ⟨he, .of_unlinked [q] hc hn (hrow.of_ok hok) (congrArg Outline.files ho)
    fun j hj l => ?_⟩
  have hlists : g'.listOf j l = if j = q ∧ l = list then (g.listOf q list).erase id ++ [id]
      else (g.listOf j l).erase id :=
    congrFun (congrFun (congrArg Outline.listOf ho) j) l
  rw [hlists, if_neg fun h => hj (List.mem_singleton.mpr h.1)]

/-- Removing a declaration that owns nothing empties its row. -/
theorem succeeds_remove_enters (hc : g.outline.Consistent none) (hn : g.node? id = some n)
    (hleaf : ∀ list, n.decl.listOf list = []) :
    (remove id).Succeeds g fun _ g' =>
      Edited (· = id) g g' ∧ g.Enters id none n.parent.toList g' := by
  have hrow : (remove id).Outcome g (fun _ g' => g'.row? = Function.update g.row? id none)
      fun _ _ => True := by
    simp only [remove, outcome_bind]
    refine (Outcome.and (succeeds_unlink hc hn) (outcome_unlink_row? hn)).mono
      (fun _ g₁ h₁ => ?_) fun _ _ _ => trivial
    obtain ⟨⟨-, hn₁⟩, hrow₁⟩ := h₁
    refine (outcome_node_some hn₁).mpr ?_
    rw [outcome_modify, outcome_pure, free_leaf (nodeAt_eq_some.mp hn₁)
      (Decl.children_eq_nil hleaf)]
    funext j
    have hnode : ({ g₁ with slots := g₁.slots.set id.toNat none } : Graph).node? j =
        if j = id then none else g₁.node? j := nodeAt_set j
    rw [row?, hnode, Function.update_apply]
    split_ifs with hj
    · rfl
    · have hsame := congrFun hrow₁ j
      rwa [Function.update_of_ne hj] at hsame
  obtain ⟨_, g', hok, -, ho, he⟩ := (succeeds_remove_edited hc hn hleaf).exists_ok
  unfold Succeeds Outcome
  rw [hok]
  exact ⟨he, .of_unlinked [] hc hn (hrow.of_ok hok) (congrArg Outline.files ho)
    fun j _ l => congrFun (congrFun (congrArg Outline.listOf ho) j) l⟩

end Graph

end ObjcSwift
