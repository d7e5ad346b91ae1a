import ObjcSwift.Swift.Expr

/-!
# Walking syntax trees

Three ways through a tree, which visit the same nodes in the same order.

* `Expr.events` and `bodyEvents` list every entry into a node and every exit from it, by recursion
  on the tree; a node may ask for its children to be skipped.
* `preorder` lists the nodes by an explicit stack: it takes the node on top and puts the node's
  children in its place. The bodies of block expressions are entered on demand.
* `Expr.edit` and `bodyEdit` rebuild the tree from the leaves up while they thread a state through
  it; a node is changed when it is left, so it sees its children already changed.
-/

namespace ObjcSwift

/-- A node of a syntax tree. -/
inductive SyntaxNode
  /-- An expression. -/
  | expr (e : Expr)
  /-- A statement. -/
  | stmt (s : Stmt)

/-- The expression at a node, if it is one. -/
def SyntaxNode.expr? : SyntaxNode → Option Expr
  | .expr e => some e
  | .stmt _ => none

/-! ### Events -/

/-- A step of a walk. -/
inductive WalkEvent
  /-- A node is entered. -/
  | enter (node : SyntaxNode)
  /-- A node is left. -/
  | exit (node : SyntaxNode)

section Events

variable (skip : SyntaxNode → Bool)

mutual

/-- The events of a walk over an expression. -/
def Expr.events : Expr → List WalkEvent
  | ⟨shape, resolved, expected, source⟩ =>
    let node := SyntaxNode.expr ⟨shape, resolved, expected, source⟩
    .enter node :: (if skip node then [] else shape.events) ++ [.exit node]

/-- The events of a walk over the children of an expression. -/
def Shape.events : Shape → List WalkEvent
  | .identifier _ | .constant _ | .unknown _ | .sizeOfType _ => []
  | .unary _ e | .cast e _ | .sizeOfValue e | .parens e => e.events
  | .binary lhs _ rhs | .assignment lhs _ rhs => lhs.events ++ rhs.events
  | .ternary condition ifTrue ifFalse => condition.events ++ ifTrue.events ++ ifFalse.events
  | .suffixed receiver _ suffix => receiver.events ++ suffix.events
  | .arrayLiteral elements => exprsEvents elements
  | .dictionaryLiteral entries => entriesEvents entries
  | .block _ _ body => bodyEvents body

/-- The events of a walk over the expressions in a suffix. -/
def Suffix.events : Suffix → List WalkEvent
  | .member _ => []
  | .call arguments => argumentsEvents arguments
  | .subscript index => index.events

/-- The events of a walk over several expressions. -/
def exprsEvents : List Expr → List WalkEvent
  | [] => []
  | e :: es => e.events ++ exprsEvents es

/-- The events of a walk over several arguments. -/
def argumentsEvents : List Argument → List WalkEvent
  | [] => []
  | ⟨_, value⟩ :: rest => value.events ++ argumentsEvents rest

/-- The events of a walk over several dictionary entries. -/
def entriesEvents : List Entry → List WalkEvent
  | [] => []
  | ⟨key, value⟩ :: rest => key.events ++ value.events ++ entriesEvents rest

/-- The events of a walk over a body. -/
def bodyEvents : List Stmt → List WalkEvent
  | [] => []
  | s :: ss => s.events ++ bodyEvents ss

/-- The events of a walk over several variable declarations. -/
def variablesEvents : List Variable → List WalkEvent
  | [] => []
  | ⟨_, _, none, _⟩ :: rest => variablesEvents rest
  | ⟨_, _, some initial, _⟩ :: rest => initial.events ++ variablesEvents rest

/-- The events of a walk over a statement. -/
def Stmt.events (s : Stmt) : List WalkEvent :=
  .enter (.stmt s) ::
    (if skip (.stmt s) then [] else
      match s with
      | .compound body => bodyEvents body
      | .branch condition body none => condition.events ++ bodyEvents body
      | .branch condition body (some otherwise) =>
        condition.events ++ bodyEvents body ++ bodyEvents otherwise
      | .whileLoop condition body | .repeatLoop body condition =>
        condition.events ++ bodyEvents body
      | .forIn _ sequence body => sequence.events ++ bodyEvents body
      | .return none => []
      | .return (some value) => value.events
      | .expressions values => exprsEvents values
      | .locals declarations => variablesEvents declarations
      | .break | .continue | .unknown _ => []) ++
    [.exit (.stmt s)]

end

end Events

/-! ### Sizes -/

mutual

/-- The number of nodes of an expression. -/
def Expr.size : Expr → Nat
  | ⟨shape, _, _, _⟩ => shape.size + 1

/-- The number of nodes below an expression. -/
def Shape.size : Shape → Nat
  | .identifier _ | .constant _ | .unknown _ | .sizeOfType _ => 0
  | .unary _ e | .cast e _ | .sizeOfValue e | .parens e => e.size
  | .binary lhs _ rhs | .assignment lhs _ rhs => lhs.size + rhs.size
  | .ternary condition ifTrue ifFalse => condition.size + ifTrue.size + ifFalse.size
  | .suffixed receiver _ suffix => receiver.size + suffix.size
  | .arrayLiteral elements => exprsSize elements
  | .dictionaryLiteral entries => entriesSize entries
  | .block _ _ body => bodySize body

/-- The number of nodes in a suffix. -/
def Suffix.size : Suffix → Nat
  | .member _ => 0
  | .call arguments => argumentsSize arguments
  | .subscript index => index.size

/-- The number of nodes in several expressions. -/
def exprsSize : List Expr → Nat
  | [] => 0
  | e :: es => e.size + exprsSize es

/-- The number of nodes in several arguments. -/
def argumentsSize : List Argument → Nat
  | [] => 0
  | ⟨_, value⟩ :: rest => value.size + argumentsSize rest

/-- The number of nodes in several dictionary entries. -/
def entriesSize : List Entry → Nat
  | [] => 0
  | ⟨key, value⟩ :: rest => key.size + value.size + entriesSize rest

/-- The number of nodes in a body. -/
def bodySize : List Stmt → Nat
  | [] => 0
  | s :: ss => s.size + bodySize ss

/-- The number of nodes in several variable declarations. -/
def variablesSize : List Variable → Nat
  | [] => 0
  | ⟨_, _, none, _⟩ :: rest => variablesSize rest
  | ⟨_, _, some initial, _⟩ :: rest => initial.size + variablesSize rest

/-- The number of nodes of a statement. -/
def Stmt.size : Stmt → Nat
  | .compound body => bodySize body + 1
  | .branch condition body none => condition.size + bodySize body + 1
  | .branch condition body (some otherwise) =>
    condition.size + bodySize body + bodySize otherwise + 1
  | .whileLoop condition body | .repeatLoop body condition => condition.size + bodySize body + 1
  | .forIn _ sequence body => sequence.size + bodySize body + 1
  | .return none => 1
  | .return (some value) => value.size + 1
  | .expressions values => exprsSize values + 1
  | .locals declarations => variablesSize declarations + 1
  | .break | .continue | .unknown _ => 1

end

namespace SyntaxNode

/-- The number of nodes at and below a node. -/
def size : SyntaxNode → Nat
  | expr e => e.size
  | stmt s => s.size

/-- The number of nodes at and below several nodes. -/
def totalSize : List SyntaxNode → Nat
  | [] => 0
  | n :: ns => n.size + totalSize ns

/-- The children of a node in the order they are walked; the body of a block expression only on
demand. -/
def children (blocks : Bool) : SyntaxNode → List SyntaxNode
  | expr e =>
    e.subexpressions.map expr ++
      match e.shape, blocks with
      | .block _ _ body, true => body.map stmt
      | _, _ => []
  | stmt s => s.subexpressions.map expr ++ s.bodies.flatten.map stmt

@[simp]
theorem totalSize_nil : totalSize [] = 0 := rfl

@[simp]
theorem totalSize_cons (n : SyntaxNode) (ns : List SyntaxNode) :
    totalSize (n :: ns) = n.size + totalSize ns := rfl

@[simp]
theorem totalSize_append (ns ms : List SyntaxNode) :
    totalSize (ns ++ ms) = totalSize ns + totalSize ms := by
  induction ns with
  | nil => simp
  | cons n ns ih => simp [ih, Nat.add_assoc]

@[simp]
theorem totalSize_map_expr (es : List Expr) : totalSize (es.map expr) = exprsSize es := by
  induction es with
  | nil => rfl
  | cons e es ih => simp [exprsSize, size, ih]

@[simp]
theorem totalSize_map_stmt (ss : List Stmt) : totalSize (ss.map stmt) = bodySize ss := by
  induction ss with
  | nil => rfl
  | cons s ss ih => simp [bodySize, size, ih]

end SyntaxNode

@[simp]
theorem exprsSize_append (es fs : List Expr) :
    exprsSize (es ++ fs) = exprsSize es + exprsSize fs := by
  induction es with
  | nil => simp [exprsSize]
  | cons e es ih => simp [exprsSize, ih, Nat.add_assoc]

/-- The values of arguments have together as many nodes as the arguments. -/
theorem exprsSize_arguments (args : List Argument) :
    exprsSize (args.map (·.value)) = argumentsSize args := by
  induction args with
  | nil => rfl
  | cons a args ih =>
    obtain ⟨_, _⟩ := a
    simp [exprsSize, argumentsSize, ih]

/-- The keys and values of entries have together as many nodes as the entries. -/
theorem exprsSize_entries (entries : List Entry) :
    exprsSize (entries.flatMap fun entry => [entry.key, entry.value]) = entriesSize entries := by
  induction entries with
  | nil => rfl
  | cons a entries ih =>
    obtain ⟨_, _⟩ := a
    simp [exprsSize, entriesSize, ih, Nat.add_assoc]

/-- Initial values have together as many nodes as the declarations. -/
theorem exprsSize_variables (ds : List Variable) :
    exprsSize (ds.filterMap (·.initial)) = variablesSize ds := by
  induction ds with
  | nil => rfl
  | cons d ds ih =>
    obtain ⟨_, _, initial, _⟩ := d
    cases initial <;> simp [exprsSize, variablesSize, ih]

/-- The children of a node have together fewer nodes than the node. -/
theorem SyntaxNode.totalSize_children_lt (blocks : Bool) (n : SyntaxNode) :
    totalSize (n.children blocks) < n.size := by
  cases n with
  | expr e =>
    obtain ⟨shape, _, _, _⟩ := e
    cases shape with
    | suffixed receiver unwrap suffix =>
      cases suffix <;>
        simp [children, size, Expr.subexpressions, Shape.subexpressions, Suffix.subexpressions,
          Expr.size, Shape.size, Suffix.size, ← exprsSize_arguments, -List.map_map]
    | block parameters result body =>
      cases blocks <;>
        simp [children, size, Expr.subexpressions, Shape.subexpressions, Expr.size, Shape.size]
    | _ =>
      simp only [children, size, Expr.subexpressions, Shape.subexpressions, Expr.size, Shape.size,
        totalSize_append, totalSize_map_expr, exprsSize, exprsSize_entries, totalSize_nil]
      omega
  | stmt s =>
    cases s with
    | branch condition body otherwise =>
      cases otherwise with
      | none => simp [children, size, Stmt.subexpressions, Stmt.bodies, Stmt.size]
      | some other =>
        simp [children, size, Stmt.subexpressions, Stmt.bodies, Stmt.size]
        omega
    | «return» value =>
      cases value <;> simp [children, size, Stmt.subexpressions, Stmt.bodies, Stmt.size]
    | _ =>
      simp [children, size, Stmt.subexpressions, Stmt.bodies, Stmt.size, exprsSize_variables]

/-! ### Pre-order by a stack -/

/-- The nodes at and below the nodes of a stack, each before its children. -/
def preorder (blocks : Bool) : (stack : List SyntaxNode) → List SyntaxNode
  | [] => []
  | n :: stack => n :: preorder blocks (n.children blocks ++ stack)
termination_by stack => SyntaxNode.totalSize stack
decreasing_by
  have := n.totalSize_children_lt blocks
  simp only [SyntaxNode.totalSize_append, SyntaxNode.totalSize_cons]
  omega

/-- The nodes of an expression in pre-order. -/
def Expr.preorder (e : Expr) (blocks : Bool) : List SyntaxNode :=
  ObjcSwift.preorder blocks [.expr e]

/-- The nodes of a body in pre-order. -/
def Body.preorder (body : Body) (blocks : Bool) : List SyntaxNode :=
  ObjcSwift.preorder blocks (body.map .stmt)

/-- The expressions of a body in pre-order, those in block expressions included. -/
def Body.allExpressions (body : Body) : List Expr :=
  (Body.preorder body true).filterMap SyntaxNode.expr?

/-! ### Editing -/

/-- What to do at the nodes of a walk that changes the tree. -/
structure Editor (σ : Type) where
  /-- Whether to leave the children of a node alone. -/
  skip : SyntaxNode → Bool := fun _ => false
  /-- What entering a node does to the state. -/
  enter : SyntaxNode → σ → σ := fun _ st => st
  /-- What becomes of an expression when it is left. -/
  exitExpr : Expr → σ → Expr × σ := fun e st => (e, st)
  /-- What becomes of a statement when it is left. -/
  exitStmt : Stmt → σ → Stmt × σ := fun s st => (s, st)

section Edit

variable {σ : Type} (ed : Editor σ)

mutual

/-- The expression after an edit, and the state. -/
def Expr.edit : Expr → σ → Expr × σ
  | ⟨shape, resolved, expected, source⟩, st =>
    let e : Expr := ⟨shape, resolved, expected, source⟩
    let st := ed.enter (.expr e) st
    if ed.skip (.expr e) then ed.exitExpr e st
    else
      let (shape, st) := shape.edit st
      ed.exitExpr ⟨shape, resolved, expected, source⟩ st

/-- The shape after an edit of the children, and the state. -/
def Shape.edit : Shape → σ → Shape × σ
  | .identifier name, st => (.identifier name, st)
  | .constant value, st => (.constant value, st)
  | .unary op operand, st =>
    let (operand, st) := operand.edit st
    (.unary op operand, st)
  | .binary lhs op rhs, st =>
    let (lhs, st) := lhs.edit st
    let (rhs, st) := rhs.edit st
    (.binary lhs op rhs, st)
  | .ternary condition ifTrue ifFalse, st =>
    let (condition, st) := condition.edit st
    let (ifTrue, st) := ifTrue.edit st
    let (ifFalse, st) := ifFalse.edit st
    (.ternary condition ifTrue ifFalse, st)
  | .assignment lhs op rhs, st =>
    let (lhs, st) := lhs.edit st
    let (rhs, st) := rhs.edit st
    (.assignment lhs op rhs, st)
  | .suffixed receiver unwrap suffix, st =>
    let (receiver, st) := receiver.edit st
    let (suffix, st) := suffix.edit st
    (.suffixed receiver unwrap suffix, st)
  | .cast expression target, st =>
    let (expression, st) := expression.edit st
    (.cast expression target, st)
  | .sizeOfValue expression, st =>
    let (expression, st) := expression.edit st
    (.sizeOfValue expression, st)
  | .sizeOfType type, st => (.sizeOfType type, st)
  | .parens inner, st =>
    let (inner, st) := inner.edit st
    (.parens inner, st)
  | .arrayLiteral elements, st =>
    let (elements, st) := exprsEdit elements st
    (.arrayLiteral elements, st)
  | .dictionaryLiteral entries, st =>
    let (entries, st) := entriesEdit entries st
    (.dictionaryLiteral entries, st)
  | .block parameters result body, st =>
    let (body, st) := bodyEdit body st
    (.block parameters result body, st)
  | .unknown text, st => (.unknown text, st)

/-- The suffix after an edit, and the state. -/
def Suffix.edit : Suffix → σ → Suffix × σ
  | .member name, st => (.member name, st)
  | .call arguments, st =>
    let (arguments, st) := argumentsEdit arguments st
    (.call arguments, st)
  | .subscript index, st =>
    let (index, st) := index.edit st
    (.subscript index, st)

/-- Several expressions after an edit, and the state. -/
def exprsEdit : List Expr → σ → List Expr × σ
  | [], st => ([], st)
  | e :: es, st =>
    let (e, st) := e.edit st
    let (es, st) := exprsEdit es st
    (e :: es, st)

/-- Several arguments after an edit, and the state. -/
def argumentsEdit : List Argument → σ → List Argument × σ
  | [], st => ([], st)
  | ⟨label, value⟩ :: rest, st =>
    let (value, st) := value.edit st
    let (rest, st) := argumentsEdit rest st
    (⟨label, value⟩ :: rest, st)

/-- Several dictionary entries after an edit, and the state. -/
def entriesEdit : List Entry → σ → List Entry × σ
  | [], st => ([], st)
  | ⟨key, value⟩ :: rest, st =>
    let (key, st) := key.edit st
    let (value, st) := value.edit st
    let (rest, st) := entriesEdit rest st
    (⟨key, value⟩ :: rest, st)

/-- A body after an edit, and the state. -/
def bodyEdit : List Stmt → σ → List Stmt × σ
  | [], st => ([], st)
  | s :: ss, st =>
    let (s, st) := s.edit st
    let (ss, st) := bodyEdit ss st
    (s :: ss, st)

/-- Several variable declarations after an edit, and the state. -/
def variablesEdit : List Variable → σ → List Variable × σ
  | [], st => ([], st)
  | ⟨name, type, none, constant⟩ :: rest, st =>
    let (rest, st) := variablesEdit rest st
    (⟨name, type, none, constant⟩ :: rest, st)
  | ⟨name, type, some initial, constant⟩ :: rest, st =>
    let (initial, st) := initial.edit st
    let (rest, st) := variablesEdit rest st
    (⟨name, type, some initial, constant⟩ :: rest, st)

/-- The statement after an edit, and the state. -/
def Stmt.edit (s : Stmt) (st : σ) : Stmt × σ :=
  let st := ed.enter (.stmt s) st
  if ed.skip (.stmt s) then ed.exitStmt s st
  else
    let (s, st) : Stmt × σ := match s with
      | .compound body =>
        let (body, st) := bodyEdit body st
        (.compound body, st)
      | .branch condition body none =>
        let (condition, st) := condition.edit st
        let (body, st) := bodyEdit body st
        (.branch condition body none, st)
      | .branch condition body (some otherwise) =>
        let (condition, st) := condition.edit st
        let (body, st) := bodyEdit body st
        let (otherwise, st) := bodyEdit otherwise st
        (.branch condition body (some otherwise), st)
      | .whileLoop condition body =>
        let (condition, st) := condition.edit st
        let (body, st) := bodyEdit body st
        (.whileLoop condition body, st)
      | .repeatLoop body condition =>
        let (condition, st) := condition.edit st
        let (body, st) := bodyEdit body st
        (.repeatLoop body condition, st)
      | .forIn binding sequence body =>
        let (sequence, st) := sequence.edit st
        let (body, st) := bodyEdit body st
        (.forIn binding sequence body, st)
      | .return none => (.return none, st)
      | .return (some value) =>
        let (value, st) := value.edit st
        (.return (some value), st)
      | .expressions values =>
        let (values, st) := exprsEdit values st
        (.expressions values, st)
      | .locals declarations =>
        let (declarations, st) := variablesEdit declarations st
        (.locals declarations, st)
      | .break => (.break, st)
      | .continue => (.continue, st)
      | .unknown source => (.unknown source, st)
    ed.exitStmt s st

end

end Edit

end ObjcSwift
