import ObjcSwift.Swift.Pattern
import Mathlib

/-!
# The three walks are one walk

A syntax tree is walked in three ways: by recursion, as a list of events; by a stack, as a list of
nodes; and by an edit, which rebuilds the tree while it threads a state through it. They meet the
same nodes in the same order (`walks_agree`).

What ties them together is the list of the children of a node. The events of a node are its entry,
the events of its children and its exit (`SyntaxNode.events_eq`), and from there on

* the nodes that are **entered** are those the stack brings to the top, as long as what is skipped
  are the nodes whose children the stack leaves out (`entered_eq_preorder`);
* an edit that changes nothing folds its state over the events (`bodyEdit_observer`).
-/

namespace ObjcSwift

/-! ### The stack -/

/-- The walk over a stack is the walk over its upper part, and then over the rest. -/
theorem preorder_append (blocks : Bool) (nodes rest : List SyntaxNode) :
    preorder blocks (nodes ++ rest) = preorder blocks nodes ++ preorder blocks rest := by
  fun_induction preorder blocks nodes with
  | case1 => rfl
  | case2 n nodes ih =>
    rw [List.cons_append, preorder, ← List.append_assoc, ih, List.cons_append]

theorem preorder_singleton (blocks : Bool) (n : SyntaxNode) :
    preorder blocks [n] = n :: preorder blocks (n.children blocks) := by
  rw [preorder, List.append_nil]

/-! ### The recursion -/

/-- The node that an event enters. -/
def WalkEvent.entered? : WalkEvent → Option SyntaxNode
  | .enter node => some node
  | .exit _ => none

/-- The nodes that the events of a walk enter, one after the other. -/
def entered (events : List WalkEvent) : List SyntaxNode :=
  events.filterMap WalkEvent.entered?

@[simp]
theorem entered_enter (n : SyntaxNode) (events : List WalkEvent) :
    entered (.enter n :: events) = n :: entered events := rfl

@[simp]
theorem entered_exit (n : SyntaxNode) (events : List WalkEvent) :
    entered (.exit n :: events) = entered events := rfl

@[simp]
theorem entered_append (events events' : List WalkEvent) :
    entered (events ++ events') = entered events ++ entered events' :=
  List.filterMap_append

namespace SyntaxNode

/-- The events of a walk from a node. -/
def events (skip : SyntaxNode → Bool) : SyntaxNode → List WalkEvent
  | expr e => e.events skip
  | stmt s => s.events skip

/-- Whether the node is a block expression. -/
def isBlock : SyntaxNode → Bool
  | expr e => e.isBlock
  | stmt _ => false

end SyntaxNode

section Recursion

variable (skip : SyntaxNode → Bool)

theorem exprsEvents_eq (es : List Expr) :
    exprsEvents skip es = (es.map SyntaxNode.expr).flatMap (SyntaxNode.events skip) := by
  induction es with
  | nil => rfl
  | cons e es ih => rw [exprsEvents, ih]; rfl

theorem argumentsEvents_eq (arguments : List Argument) :
    argumentsEvents skip arguments = exprsEvents skip (arguments.map (·.value)) := by
  induction arguments with
  | nil => rfl
  | cons a arguments ih =>
    obtain ⟨_, value⟩ := a
    rw [argumentsEvents, ih]; rfl

theorem entriesEvents_eq (entries : List Entry) :
    entriesEvents skip entries =
      exprsEvents skip (entries.flatMap fun entry => [entry.key, entry.value]) := by
  induction entries with
  | nil => rfl
  | cons a entries ih =>
    obtain ⟨key, value⟩ := a
    rw [entriesEvents, ih, List.append_assoc]; rfl

theorem variablesEvents_eq (declarations : List Variable) :
    variablesEvents skip declarations = exprsEvents skip (declarations.filterMap (·.initial)) := by
  induction declarations with
  | nil => rfl
  | cons v declarations ih =>
    obtain ⟨_, _, _ | initial, _⟩ := v
    · rw [variablesEvents, ih]; rfl
    · rw [variablesEvents, ih]; rfl

theorem bodyEvents_eq (body : Body) :
    bodyEvents skip body = (body.map SyntaxNode.stmt).flatMap (SyntaxNode.events skip) := by
  induction body with
  | nil => rfl
  | cons s body ih => rw [bodyEvents, ih]; rfl

/-- Below an expression are walked its subexpressions and then, in a block, its body. -/
theorem Expr.events_children (e : Expr) :
    e.shape.events skip = ((SyntaxNode.expr e).children true).flatMap (SyntaxNode.events skip) := by
  obtain ⟨shape, _, _, _⟩ := e
  cases shape with
  | suffixed receiver unwrap suffix =>
    cases suffix <;>
      simp [Shape.events, Suffix.events, SyntaxNode.children, Expr.subexpressions,
        Shape.subexpressions, Suffix.subexpressions, argumentsEvents_eq, exprsEvents_eq,
        SyntaxNode.events, -List.map_map]
  | _ =>
    simp [Shape.events, SyntaxNode.children, Expr.subexpressions, Shape.subexpressions,
      exprsEvents_eq, entriesEvents_eq, bodyEvents_eq, SyntaxNode.events]

/-- **The events of a node** are its entry, the events of its children unless they are skipped, and
its exit. -/
theorem SyntaxNode.events_eq (n : SyntaxNode) :
    n.events skip =
      .enter n :: (if skip n then [] else (n.children true).flatMap (events skip)) ++
        [.exit n] := by
  cases n with
  | expr e =>
    rw [← e.events_children skip]
    obtain ⟨shape, _, _, _⟩ := e
    rw [events, Expr.events]
  | stmt s =>
    cases s with
    | branch condition body otherwise =>
      cases otherwise <;>
        simp [events, Stmt.events, children, Stmt.subexpressions, Stmt.bodies, bodyEvents_eq]
    | «return» value =>
      cases value <;> simp [events, Stmt.events, children, Stmt.subexpressions, Stmt.bodies]
    | _ =>
      simp [events, Stmt.events, children, Stmt.subexpressions, Stmt.bodies, bodyEvents_eq,
        exprsEvents_eq, variablesEvents_eq]

end Recursion

/-- **What is entered is what the stack brings to the top**, if the children that are skipped are
those that the stack leaves out. -/
theorem entered_eq_preorder {skip : SyntaxNode → Bool} {blocks : Bool}
    (h : ∀ n : SyntaxNode, n.children blocks = if skip n then [] else n.children true)
    (nodes : List SyntaxNode) :
    entered (nodes.flatMap (SyntaxNode.events skip)) = preorder blocks nodes := by
  -- The recursion of the stack: its children and what was below them are one list of nodes.
  fun_induction preorder blocks nodes with
  | case1 => rfl
  | case2 n nodes ih =>
    rw [← ih, List.flatMap_cons, List.flatMap_append, n.events_eq, h n]
    split <;> simp

/-- Without blocks, the stack leaves out what stands below block expressions. -/
theorem SyntaxNode.children_false (n : SyntaxNode) :
    n.children false = if n.isBlock then [] else n.children true := by
  cases n with
  | expr e =>
    obtain ⟨shape, _, _, _⟩ := e
    cases shape <;> rfl
  | stmt s => rfl

/-- The nodes whose children a recursion has to skip to agree with the stack. -/
def skipped (blocks : Bool) : SyntaxNode → Bool :=
  fun n => !blocks && n.isBlock

theorem SyntaxNode.children_eq (blocks : Bool) (n : SyntaxNode) :
    n.children blocks = if skipped blocks n then [] else n.children true := by
  cases blocks with
  | false => exact n.children_false
  | true => rfl

theorem Expr.preorder_eq_entered (e : Expr) (blocks : Bool) :
    e.preorder blocks = entered (e.events (skipped blocks)) := by
  have h := entered_eq_preorder (SyntaxNode.children_eq blocks) [.expr e]
  rw [List.flatMap_singleton] at h
  exact h.symm

theorem Body.preorder_eq_entered (body : Body) (blocks : Bool) :
    Body.preorder body blocks = entered (bodyEvents (skipped blocks) body) := by
  rw [bodyEvents_eq, entered_eq_preorder (SyntaxNode.children_eq blocks), Body.preorder]

/-! ### The edit -/

/-- An edit changes the values of arguments and not their labels. -/
theorem labels_argumentsEdit {σ : Type} (ed : Editor σ) (arguments : List Argument) (st : σ) :
    (argumentsEdit ed arguments st).1.map (·.label) = arguments.map (·.label) := by
  induction arguments generalizing st with
  | nil => rfl
  | cons argument rest ih =>
    obtain ⟨label, value⟩ := argument
    simp only [argumentsEdit, List.map_cons, ih]

/-- The editor that changes no node and shows each step of its walk to the state. -/
def Editor.observer {σ : Type} (skip : SyntaxNode → Bool) (see : σ → WalkEvent → σ) : Editor σ where
  skip := skip
  enter node st := see st (.enter node)
  exitExpr e st := (e, see st (.exit (.expr e)))
  exitStmt s st := (s, see st (.exit (.stmt s)))

section Observing

variable {σ : Type} {skip : SyntaxNode → Bool} {see : σ → WalkEvent → σ}

@[simp]
theorem Editor.observer_skip : (observer skip see).skip = skip := rfl

@[simp]
theorem Editor.observer_enter (n : SyntaxNode) (st : σ) :
    (observer skip see).enter n st = see st (.enter n) := rfl

@[simp]
theorem Editor.observer_exitExpr (e : Expr) (st : σ) :
    (observer skip see).exitExpr e st = (e, see st (.exit (.expr e))) := rfl

@[simp]
theorem Editor.observer_exitStmt (s : Stmt) (st : σ) :
    (observer skip see).exitStmt s st = (s, see st (.exit (.stmt s))) := rfl

/-- What is seen of a node is its entry, what is seen below it unless that is skipped, and its
exit. -/
theorem seen_node {α : Type} (a : α) (n : SyntaxNode) (below : List WalkEvent) (st : σ) :
    (if skip n then (a, see (see st (.enter n)) (.exit n))
      else (a, see (below.foldl see (see st (.enter n))) (.exit n))) =
      (a, (WalkEvent.enter n :: (if skip n then [] else below) ++
        [WalkEvent.exit n]).foldl see st) := by
  split <;> simp

mutual

/-- An observer leaves an expression as it is and sees its events. -/
theorem Expr.edit_observer : ∀ (e : Expr) (st : σ),
    e.edit (.observer skip see) st = (e, (e.events skip).foldl see st)
  | ⟨shape, resolved, expected, source⟩, st => by
    simp only [Expr.edit, Expr.events, Editor.observer_skip, Editor.observer_enter,
      Editor.observer_exitExpr, shape.edit_observer]
    exact seen_node _ _ _ st

theorem Shape.edit_observer : ∀ (shape : Shape) (st : σ),
    shape.edit (.observer skip see) st = (shape, (shape.events skip).foldl see st)
  | .identifier _, _ => rfl
  | .constant _, _ => rfl
  | .unary op operand, st => by
    simp only [Shape.edit, Shape.events, operand.edit_observer]
  | .binary lhs op rhs, st => by
    simp only [Shape.edit, Shape.events, lhs.edit_observer, rhs.edit_observer, List.foldl_append]
  | .ternary condition ifTrue ifFalse, st => by
    simp only [Shape.edit, Shape.events, condition.edit_observer, ifTrue.edit_observer,
      ifFalse.edit_observer, List.foldl_append]
  | .assignment lhs op rhs, st => by
    simp only [Shape.edit, Shape.events, lhs.edit_observer, rhs.edit_observer, List.foldl_append]
  | .suffixed receiver unwrap suffix, st => by
    simp only [Shape.edit, Shape.events, receiver.edit_observer, suffix.edit_observer,
      List.foldl_append]
  | .cast expression target, st => by
    simp only [Shape.edit, Shape.events, expression.edit_observer]
  | .sizeOfValue expression, st => by
    simp only [Shape.edit, Shape.events, expression.edit_observer]
  | .sizeOfType _, _ => rfl
  | .parens inner, st => by
    simp only [Shape.edit, Shape.events, inner.edit_observer]
  | .arrayLiteral elements, st => by
    simp only [Shape.edit, Shape.events, exprsEdit_observer elements]
  | .dictionaryLiteral entries, st => by
    simp only [Shape.edit, Shape.events, entriesEdit_observer entries]
  | .block parameters result body, st => by
    simp only [Shape.edit, Shape.events, bodyEdit_observer body]
  | .unknown _, _ => rfl

theorem Suffix.edit_observer : ∀ (suffix : Suffix) (st : σ),
    suffix.edit (.observer skip see) st = (suffix, (suffix.events skip).foldl see st)
  | .member _, _ => rfl
  | .call arguments, st => by
    simp only [Suffix.edit, Suffix.events, argumentsEdit_observer arguments]
  | .subscript index, st => by
    simp only [Suffix.edit, Suffix.events, index.edit_observer]

theorem exprsEdit_observer : ∀ (es : List Expr) (st : σ),
    exprsEdit (.observer skip see) es st = (es, (exprsEvents skip es).foldl see st)
  | [], _ => rfl
  | e :: es, st => by
    simp only [exprsEdit, exprsEvents, e.edit_observer, exprsEdit_observer es, List.foldl_append]

theorem argumentsEdit_observer : ∀ (arguments : List Argument) (st : σ),
    argumentsEdit (.observer skip see) arguments st =
      (arguments, (argumentsEvents skip arguments).foldl see st)
  | [], _ => rfl
  | ⟨label, value⟩ :: rest, st => by
    simp only [argumentsEdit, argumentsEvents, value.edit_observer, argumentsEdit_observer rest,
      List.foldl_append]

theorem entriesEdit_observer : ∀ (entries : List Entry) (st : σ),
    entriesEdit (.observer skip see) entries st =
      (entries, (entriesEvents skip entries).foldl see st)
  | [], _ => rfl
  | ⟨key, value⟩ :: rest, st => by
    simp only [entriesEdit, entriesEvents, key.edit_observer, value.edit_observer,
      entriesEdit_observer rest, List.foldl_append]

theorem bodyEdit_observer : ∀ (body : List Stmt) (st : σ),
    bodyEdit (.observer skip see) body st = (body, (bodyEvents skip body).foldl see st)
  | [], _ => rfl
  | s :: ss, st => by
    simp only [bodyEdit, bodyEvents, s.edit_observer, bodyEdit_observer ss, List.foldl_append]

theorem variablesEdit_observer : ∀ (declarations : List Variable) (st : σ),
    variablesEdit (.observer skip see) declarations st =
      (declarations, (variablesEvents skip declarations).foldl see st)
  | [], _ => rfl
  | ⟨_, _, none, _⟩ :: rest, st => by
    simp only [variablesEdit, variablesEvents, variablesEdit_observer rest]
  | ⟨_, _, some initial, _⟩ :: rest, st => by
    simp only [variablesEdit, variablesEvents, initial.edit_observer, variablesEdit_observer rest,
      List.foldl_append]

theorem Stmt.edit_observer : ∀ (s : Stmt) (st : σ),
    s.edit (.observer skip see) st = (s, (s.events skip).foldl see st)
  | .compound body, st => by
    simp only [Stmt.edit, Stmt.events, Editor.observer_skip, Editor.observer_enter,
      Editor.observer_exitStmt, bodyEdit_observer body]
    exact seen_node _ _ _ st
  | .branch condition body none, st => by
    simp only [Stmt.edit, Stmt.events, Editor.observer_skip, Editor.observer_enter,
      Editor.observer_exitStmt, condition.edit_observer, bodyEdit_observer body,
      ← List.foldl_append]
    exact seen_node _ _ _ st
  | .branch condition body (some otherwise), st => by
    simp only [Stmt.edit, Stmt.events, Editor.observer_skip, Editor.observer_enter,
      Editor.observer_exitStmt, condition.edit_observer, bodyEdit_observer body,
      bodyEdit_observer otherwise, ← List.foldl_append]
    exact seen_node _ _ _ st
  | .whileLoop condition body, st => by
    simp only [Stmt.edit, Stmt.events, Editor.observer_skip, Editor.observer_enter,
      Editor.observer_exitStmt, condition.edit_observer, bodyEdit_observer body,
      ← List.foldl_append]
    exact seen_node _ _ _ st
  | .repeatLoop body condition, st => by
    simp only [Stmt.edit, Stmt.events, Editor.observer_skip, Editor.observer_enter,
      Editor.observer_exitStmt, condition.edit_observer, bodyEdit_observer body,
      ← List.foldl_append]
    exact seen_node _ _ _ st
  | .forIn _ sequence body, st => by
    simp only [Stmt.edit, Stmt.events, Editor.observer_skip, Editor.observer_enter,
      Editor.observer_exitStmt, sequence.edit_observer, bodyEdit_observer body,
      ← List.foldl_append]
    exact seen_node _ _ _ st
  | .return none, st => by
    simp only [Stmt.edit, Stmt.events, Editor.observer_skip, Editor.observer_enter,
      Editor.observer_exitStmt]
    exact seen_node _ _ [] st
  | .return (some value), st => by
    simp only [Stmt.edit, Stmt.events, Editor.observer_skip, Editor.observer_enter,
      Editor.observer_exitStmt, value.edit_observer]
    exact seen_node _ _ _ st
  | .expressions values, st => by
    simp only [Stmt.edit, Stmt.events, Editor.observer_skip, Editor.observer_enter,
      Editor.observer_exitStmt, exprsEdit_observer values]
    exact seen_node _ _ _ st
  | .locals declarations, st => by
    simp only [Stmt.edit, Stmt.events, Editor.observer_skip, Editor.observer_enter,
      Editor.observer_exitStmt, variablesEdit_observer declarations]
    exact seen_node _ _ _ st
  | .break, st => by
    simp only [Stmt.edit, Stmt.events, Editor.observer_skip, Editor.observer_enter,
      Editor.observer_exitStmt]
    exact seen_node _ _ [] st
  | .continue, st => by
    simp only [Stmt.edit, Stmt.events, Editor.observer_skip, Editor.observer_enter,
      Editor.observer_exitStmt]
    exact seen_node _ _ [] st
  | .unknown _, st => by
    simp only [Stmt.edit, Stmt.events, Editor.observer_skip, Editor.observer_enter,
      Editor.observer_exitStmt]
    exact seen_node _ _ [] st

end

end Observing

/-- The editor that changes no node and keeps a record of the steps of its walk. -/
def Editor.recorder (skip : SyntaxNode → Bool) : Editor (List WalkEvent) :=
  .observer skip fun record event => record ++ [event]

theorem Expr.edit_recorder (skip : SyntaxNode → Bool) (e : Expr) :
    e.edit (.recorder skip) [] = (e, e.events skip) := by
  rw [Editor.recorder, e.edit_observer, List.foldl_append_eq_append, ← List.flatMap_def,
    List.flatMap_singleton', List.nil_append]

theorem bodyEdit_recorder (skip : SyntaxNode → Bool) (body : Body) :
    bodyEdit (.recorder skip) body [] = (body, bodyEvents skip body) := by
  rw [Editor.recorder, bodyEdit_observer, List.foldl_append_eq_append, ← List.flatMap_def,
    List.flatMap_singleton', List.nil_append]

/-! ### Searching -/

/-- A search finds what is entered. -/
theorem Pattern.findAny_iff (p : Pattern Expr) (blocks : Bool) (e : Expr) :
    findAny p blocks e = true ↔
      ∃ e', .expr e' ∈ entered (e.events (skipped blocks)) ∧ p e' = true := by
  rw [findAny, e.preorder_eq_entered, List.any_eq_true]
  constructor
  · rintro ⟨e', he', hp⟩
    obtain ⟨n, hn, hne⟩ := List.mem_filterMap.mp he'
    cases n with
    | expr e'' => exact ⟨e', Option.some.inj hne ▸ hn, hp⟩
    | stmt s => exact absurd hne (by simp [SyntaxNode.expr?])
  · rintro ⟨e', he', hp⟩
    exact ⟨e', List.mem_filterMap.mpr ⟨.expr e', he', rfl⟩, hp⟩

/-! ### The three walks -/

/-- **The walks over syntax trees agree**, over every expression and every body.

* The stack with blocks yields the nodes that the recursion enters when it skips nothing; without
  blocks, those that it enters when it skips what stands below block expressions and nothing else.
* Whatever is skipped, an edit that changes nothing takes the steps of the recursion, and gives the
  tree back.
* A search finds a pattern exactly in the expressions that are entered. -/
theorem walks_agree (e : Expr) (body : Body) :
    (e.preorder true = entered (e.events fun _ => false) ∧
      e.preorder false = entered (e.events SyntaxNode.isBlock) ∧
      Body.preorder body true = entered (bodyEvents (fun _ => false) body) ∧
      Body.preorder body false = entered (bodyEvents SyntaxNode.isBlock body)) ∧
    (∀ skip, e.edit (.recorder skip) [] = (e, e.events skip) ∧
      bodyEdit (.recorder skip) body [] = (body, bodyEvents skip body)) ∧
    (∀ p, (Pattern.findAny p true e = true ↔
        ∃ e', .expr e' ∈ entered (e.events fun _ => false) ∧ p e' = true) ∧
      (Pattern.findAny p false e = true ↔
        ∃ e', .expr e' ∈ entered (e.events SyntaxNode.isBlock) ∧ p e' = true)) := by
  refine ⟨⟨?_, ?_, ?_, ?_⟩, fun skip => ⟨?_, ?_⟩, fun p => ⟨?_, ?_⟩⟩
  · exact e.preorder_eq_entered true
  · exact e.preorder_eq_entered false
  · exact Body.preorder_eq_entered body true
  · exact Body.preorder_eq_entered body false
  · exact e.edit_recorder skip
  · exact bodyEdit_recorder skip body
  · exact Pattern.findAny_iff p true e
  · exact Pattern.findAny_iff p false e

end ObjcSwift
