import ObjcSwift.Decl.Graph

/-!
# Editing a graph of declarations

Edits run in place, one step after the other, and a step that fails leaves behind what the steps
before it did. That a failed edit nevertheless leaves the graph as it was is a property of the
edits, not of the way they are run: each checks everything that can fail before it changes anything.
-/

namespace ObjcSwift.Graph

/-- A computation that edits a graph and may fail. -/
abbrev Edit (α : Type) := EStateM GraphError Graph α

/-- The answer of a lookup in the graph being edited. -/
def look {α : Type} (f : Graph → Except GraphError α) : Edit α := do
  match f (← get) with
  | .ok a => return a
  | .error e => throw e

/-- The graph with another declaration in a slot. -/
def setNode (g : Graph) (id : DeclId) (node : GraphNode) : Graph :=
  { g with slots := g.slots.set id.toNat (some node) }

/-- The declaration in a slot, with its owner; fails when the slot is empty. -/
def node (id : DeclId) : Edit GraphNode := do
  match (← get).node? id with
  | some node => return node
  | none => throw (.missing id)

/-- Changes the declaration in a slot. -/
def modifyNode (id : DeclId) (f : GraphNode → GraphNode) : Edit Unit := do
  let node ← node id
  modify (·.setNode id (f node))

/-- Puts another declaration in the place of one. -/
def setDecl (id : DeclId) (decl : Decl) : Edit Unit :=
  modifyNode id fun node => { node with decl }

/-! ### Adding -/

/-- Fills a new slot with a declaration that owns nothing. -/
def allocate (parent : Option DeclId) (decl : Decl) : Edit DeclId := do
  let g ← getThe Graph
  set { g with slots := g.slots ++ [some (GraphNode.mk parent decl.childless)] }
  return .ofNat g.slots.length

/-- Adds a file. -/
def addFile (file : FileDecl) : Edit DeclId := do
  let id ← allocate none (.file file)
  modify fun g => { g with files := g.files ++ [id] }
  return id

/-- The list of an owner in which a declaration belongs. -/
def listUnder (parent : DeclId) (child : Decl) : Edit ChildList := do
  let owner := (← node parent).decl
  match child.ownList? with
  | some list =>
    if owner.hasList list then return list
    else throw (.invalidPlacement child.kindName owner.kindName)
  | none => throw (.invalidPlacement child.kindName owner.kindName)

/-- Adds a number at the end of a list of an owner. -/
def pushInto (parent : DeclId) (list : ChildList) (child : DeclId) : Edit Unit := do
  let owner ← node parent
  match owner.decl.updateList? list (· ++ [child]) with
  | some decl => modify (·.setNode parent { owner with decl })
  | none => throw (.invalidPlacement "child" owner.decl.kindName)

/-- Adds a declaration as the last of its kind under an owner. -/
def addChild (parent : DeclId) (decl : Decl) : Edit DeclId := do
  let list ← listUnder parent decl
  let id ← allocate (some parent) decl
  pushInto parent list id
  return id

/-! ### Removing and moving -/

/-- Takes a declaration out of the list of its owner, or out of the files, and forgets its owner. -/
def unlink (id : DeclId) : Edit Unit := do
  match (← node id).parent with
  | some parent =>
    let owner ← node parent
    match owner.decl.eraseChild? id with
    | some decl => modify (·.setNode parent { owner with decl })
    | none => throw (.notAChild id parent)
  | none =>
    let g ← get
    if g.files.contains id then set { g with files := g.files.erase id }
    else throw (.orphaned id)
  modifyNode id fun node => { node with parent := none }

/-- Emptying a full slot leaves fewer full slots. -/
theorem countP_set_none_lt {slots : List (Option GraphNode)} {i : Nat} {node : GraphNode}
    (h : slots[i]? = some (some node)) :
    (slots.set i none).countP Option.isSome < slots.countP Option.isSome := by
  obtain ⟨hi, hget⟩ := List.getElem?_eq_some_iff.1 h
  have hpos : 0 < slots.countP Option.isSome :=
    List.countP_pos_iff.2 ⟨some node, hget ▸ List.getElem_mem hi, rfl⟩
  rw [List.countP_set hi, hget]
  simp only [Option.isSome_some, Option.isSome_none, if_true, Bool.false_eq_true, if_false]
  omega

/-- Empties the slots of declarations and of everything below them. It ends on every graph: each
step empties a slot or drops a number. -/
def free (slots : List (Option GraphNode)) : (pending : List DeclId) → List (Option GraphNode)
  | [] => slots
  | id :: pending =>
    match _h : slots[id.toNat]? with
    | some (some node) => free (slots.set id.toNat none) (node.decl.children ++ pending)
    | _ => free slots pending
termination_by pending => (slots.countP Option.isSome, pending.length)
decreasing_by
  · exact Prod.Lex.left _ _ (countP_set_none_lt (by assumption))
  · exact Prod.Lex.right _ (by simp)

/-- Removes a declaration with everything below it, and gives it back without what it owned. -/
def remove (id : DeclId) : Edit Decl := do
  unlink id
  let node ← node id
  modify fun g => { g with slots := free g.slots [id] }
  return node.decl.childless

/-- Removes a declaration that an owner lists. -/
def removeChild (parent child : DeclId) : Edit Decl := do
  let g ← get
  if g.parent? child = some parent ∧ (g.get? parent).any fun d => d.children.contains child then
    remove child
  else throw (.notAChild child parent)

/-- Moves a declaration, with everything below it, to the end of the list for its kind under another
owner. -/
def moveTo (id newParent : DeclId) : Edit Unit := do
  let list ← listUnder newParent (← node id).decl
  unlink id
  pushInto newParent list id
  modifyNode id fun node => { node with parent := some newParent }

/-! ### Merging -/

/-- A node with all numbers in it moved up. -/
def shiftNode (offset : Nat) (node : GraphNode) : GraphNode where
  parent := node.parent.map (·.shift offset)
  decl := node.decl.mapLists fun ids => ids.map (·.shift offset)

/-- One graph with another behind it, whose numbers move up by the slots of the first. -/
def merge (g other : Graph) : Graph where
  slots := g.slots ++ other.slots.map (·.map (shiftNode g.slots.length))
  files := g.files ++ other.files.map (·.shift g.slots.length)

end ObjcSwift.Graph
