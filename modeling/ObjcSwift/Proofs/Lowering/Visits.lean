import ObjcSwift.Lowering.FileGraph
import Mathlib

/-!
# What should become of the nodes of a tree

A declaration may stand anywhere in a tree, and whether it is lowered depends on what is around it.
Said of the tree alone, without a walk and its state: which nodes are visited and what is around
each of them (`ObjcNode.visits`), what a node is lowered to (`Visit.lowered`), and what is reported
about it (`Visit.warnings`).

Of a declaration, one of the two is true, with two exceptions (`Visit.lowered_or_reported`). A type
definition that names the type itself has nothing to say. **A variable inside a type** is lost
without a word.
-/

namespace ObjcSwift

/-! ### The nodes that are visited -/

/-- A node that is visited, and what is around it. -/
structure Visit where
  /-- The node. -/
  node : ObjcNode
  /-- The nodes around it, the innermost first. -/
  enclosing : List ObjcNode
  /-- Whether pointers are nonnull by default where it stands. -/
  nonnull : Bool

/-- Whether a kind of node declares something on its own. -/
def NodeKind.isDeclaration : NodeKind → Bool
  | classInterface _ | classImplementation _ | classCategory _ _ _ | protocolDeclaration _
  | propertyDefinition _ _ _ | methodDefinition _ | ivarDeclaration _ _ | variableDeclaration _ _ _
  | functionDefinition _ _ _ _ | typedef _ _ => true
  | _ => false

namespace ObjcNode

/-- Whether a node declares a type. -/
def declaresType (n : ObjcNode) : Bool :=
  match n.kind with
  | .classInterface _ | .classImplementation _ | .classCategory _ _ _ | .protocolDeclaration _ =>
    true
  | _ => false

/-- Whether a node was not understood. -/
def isUnknown (n : ObjcNode) : Bool :=
  match n.kind with
  | .unknown _ => true
  | _ => false

/-- Whether pointers are nonnull by default after a node, which may be one of the two markers. -/
def nonnullAfter (n : ObjcNode) (nonnull : Bool) : Bool :=
  match n.kind with
  | .identifier name =>
    if name = nonnullBegin then true else if name = nonnullEnd then false else nonnull
  | _ => nonnull

mutual

/-- The nodes of a tree that are visited, each before the nodes inside it, and whether pointers are
nonnull by default after the tree. What is inside a node that was not understood is skipped. -/
def visits (enclosing : List ObjcNode) (nonnull : Bool) : ObjcNode → List Visit × Bool
  | ⟨kind, span, children⟩ =>
    let n : ObjcNode := ⟨kind, span, children⟩
    let below := if n.isUnknown then ([], n.nonnullAfter nonnull)
      else visitsAll (n :: enclosing) (n.nonnullAfter nonnull) children
    (⟨n, enclosing, nonnull⟩ :: below.1, below.2)

/-- The nodes of several trees that are visited, one tree after the other. -/
def visitsAll (enclosing : List ObjcNode) (nonnull : Bool) : List ObjcNode → List Visit × Bool
  | [] => ([], nonnull)
  | n :: ns =>
    let first := n.visits enclosing nonnull
    let others := visitsAll enclosing first.2 ns
    (first.1 ++ others.1, others.2)

end

end ObjcNode

/-! ### What nodes are lowered to -/

/-- Where a declaration comes from, and the list of its owner that it is in. -/
structure Origin where
  /-- The list; files are in none. -/
  list : Option ChildList
  /-- The node it comes from. -/
  source : Option SourceRef
deriving DecidableEq

/-- Where a declaration comes from. -/
def Decl.origin (d : Decl) : Origin :=
  ⟨d.ownList?, d.header.source⟩

/-- Where the declarations of a graph come from, slot by slot. -/
def Graph.origins (g : Graph) : List (Option Origin) :=
  g.slots.map (Option.map fun n => n.decl.origin)

namespace Visit

variable (path : String) (v : Visit)

/-- Whether there is a type around the node. -/
def insideType : Bool :=
  v.enclosing.any ObjcNode.declaresType

/-- Whether the node is a type definition whose type already has the name that it defines. -/
def namesItself : Bool :=
  match v.node.kind with
  | .typedef name type => (type.toSwift { nonnull := v.nonnull }).name? == some name
  | _ => false

/-- Whether the node is a variable inside a type. -/
def isVariableInType : Bool :=
  match v.node.kind with
  | .variableDeclaration _ _ _ => v.insideType
  | _ => false

/-- The origin of a declaration that comes from the node. -/
def origin (list : ChildList) : Origin :=
  ⟨some list, some ⟨some path, v.node.kind.label, v.node.span⟩⟩

/-- A warning about the node. -/
def warning (message : String) : Diagnostic :=
  ⟨.warning, message, .ofSpan (some path) v.node.span⟩

/-- What the node is lowered to. -/
def lowered : List Origin :=
  match v.node.kind with
  | .classInterface _ | .classImplementation _ | .classCategory _ _ _ | .protocolDeclaration _ =>
    [v.origin path .types]
  | .protocolReferences protocols =>
    if v.insideType then protocols.map fun _ => v.origin path .conformances else []
  | .propertyDefinition _ _ _ => if v.insideType then [v.origin path .properties] else []
  | .methodDefinition _ => if v.insideType then [v.origin path .methods] else []
  | .ivarDeclaration _ _ => if v.insideType then [v.origin path .ivars] else []
  | .variableDeclaration _ _ _ => if v.insideType then [] else [v.origin path .globals]
  | .functionDefinition _ _ _ _ => [v.origin path .functions]
  | .typedef _ _ => if v.namesItself then [] else [v.origin path .aliases]
  | _ => []

/-- What is reported about the node. -/
def warnings : List Diagnostic :=
  match v.node.kind with
  | .propertyDefinition name _ _ =>
    if v.insideType then []
    else [v.warning path ("property `" ++ name ++ "` outside of a type declaration")]
  | .methodDefinition _ =>
    if v.insideType then [] else [v.warning path "method outside of a type declaration"]
  | .ivarDeclaration name _ =>
    if v.insideType then []
    else [v.warning path ("instance variable `" ++ name ++ "` outside of a class")]
  | .unknown text =>
    [v.warning path
      ("skipped unrecognized declaration `" ++ Text.trim (Text.firstLine text) ++ "`")]
  | _ => []

/-- The types that are mapped at the node. -/
def mapped : List ObjcType :=
  match v.node.kind with
  | .propertyDefinition _ type _ | .ivarDeclaration _ type => if v.insideType then [type] else []
  | .methodDefinition method => if v.insideType then method.types else []
  | .variableDeclaration _ type _ => if v.insideType then [] else [type]
  | .functionDefinition _ result parameters _ => result :: parameters.map (·.type)
  | .typedef _ type => [type]
  | _ => []

/-- Whether a type that is mapped at the node overflows. -/
def overflows : Bool :=
  v.mapped.any ObjcType.overflows

end Visit

/-! ### Declarations -/

namespace Visit

variable {path : String} {v : Visit}

/-- **A declaration is lowered or reported, with two exceptions**, which are neither. -/
theorem lowered_or_reported (h : v.node.kind.isDeclaration = true) :
    if v.namesItself || v.isVariableInType then v.lowered path = [] ∧ v.warnings path = []
    else (∃ list, v.lowered path = [v.origin path list]) ∧ v.warnings path = [] ∨
      v.lowered path = [] ∧ ∃ message, v.warnings path = [v.warning path message] := by
  obtain ⟨⟨kind, span, children⟩, enclosing, nonnull⟩ := v
  cases kind with
  | classInterface | classImplementation | classCategory | protocolDeclaration
  | functionDefinition => exact Or.inl ⟨⟨_, rfl⟩, rfl⟩
  | propertyDefinition | methodDefinition | ivarDeclaration =>
    simp only [namesItself, isVariableInType, lowered, warnings, Bool.or_self, Bool.false_eq_true,
      if_false]
    split_ifs
    · exact Or.inl ⟨⟨_, rfl⟩, rfl⟩
    · exact Or.inr ⟨rfl, ⟨_, rfl⟩⟩
  | variableDeclaration =>
    simp only [namesItself, isVariableInType, lowered, warnings, Bool.false_or]
    split_ifs
    · exact ⟨rfl, trivial⟩
    · exact Or.inl ⟨⟨_, rfl⟩, trivial⟩
  | typedef name type =>
    simp only [isVariableInType, lowered, warnings, Bool.or_false]
    split_ifs
    · exact ⟨rfl, trivial⟩
    · exact Or.inl ⟨⟨_, rfl⟩, trivial⟩
  | _ => exact absurd h (by simp [NodeKind.isDeclaration])

theorem reported_of_isUnknown (h : v.node.isUnknown = true) :
    ∃ message, v.warnings path = [v.warning path message] := by
  obtain ⟨⟨kind, span, children⟩, enclosing, nonnull⟩ := v
  cases kind with
  | unknown text => exact ⟨_, rfl⟩
  | _ => exact absurd h (by simp [ObjcNode.isUnknown])

end Visit

end ObjcSwift
