import ObjcSwift.Proofs.Syntax.Expressions
import ObjcSwift.Typing.Annotate
import Mathlib

/-!
# Annotating leaves no expression out

Annotating a body gives a type to **every** expression in it, however deep it stands: arguments and
what is called, elements of literals, operands of casts and of size expressions, and everything in
nested statements and in the bodies of blocks (`Body.typed_annotate`).

That an expression is typed throughout is said of the walk in pre-order (`SyntaxNode.Typed`). Two
facts make it a property that recurses with the tree: the walk over several nodes is the walks over
each of them one after the other (`preorder_append`), and the walk from a node is the node and the
walk over its children (`Expr.typed_iff`, `Stmt.typed_iff`).

One place has to be looked at: the callee of a method call is not annotated like other expressions,
but gets its type from the call as a whole.
-/

namespace ObjcSwift

/-! ### Walks in pre-order -/

/-- Every expression at and below a node has a type. -/
def SyntaxNode.Typed (n : SyntaxNode) : Prop :=
  ∀ e, .expr e ∈ preorder true [n] → e.resolved.isSome = true

/-- Every expression in an expression has a type. -/
abbrev Expr.Typed (e : Expr) : Prop :=
  (SyntaxNode.expr e).Typed

/-- Every expression in a statement has a type. -/
abbrev Stmt.Typed (s : Stmt) : Prop :=
  (SyntaxNode.stmt s).Typed

/-- What stands below an expression of some shape. -/
def Shape.nodes (shape : Shape) : List SyntaxNode :=
  shape.subexpressions.map .expr ++
    match shape with
    | .block _ _ body => body.map .stmt
    | _ => []

theorem Expr.children_eq_nodes (e : Expr) : (SyntaxNode.expr e).children true = e.shape.nodes := by
  obtain ⟨shape, _, _, _⟩ := e
  cases shape <;> rfl

/-- An expression is typed throughout if it has a type and what stands below it is typed. -/
theorem Expr.typed_iff {e : Expr} :
    e.Typed ↔ e.resolved.isSome = true ∧ ∀ n ∈ e.shape.nodes, n.Typed := by
  rw [← e.children_eq_nodes]
  refine SyntaxNode.everywhere_iff.trans (and_congr_left' ?_)
  simp only [SyntaxNode.expr.injEq, forall_eq']

/-- A statement is typed throughout if what stands below it is. -/
theorem Stmt.typed_iff {s : Stmt} :
    s.Typed ↔ (∀ e ∈ s.subexpressions, e.Typed) ∧ ∀ body ∈ s.bodies, ∀ t ∈ body, t.Typed := by
  have hchildren : (∀ n ∈ (SyntaxNode.stmt s).children true, n.Typed) ↔
      (∀ e ∈ s.subexpressions, e.Typed) ∧ ∀ body ∈ s.bodies, ∀ t ∈ body, t.Typed := by
    simp only [SyntaxNode.children, List.forall_mem_append, List.forall_mem_map,
      List.forall_mem_flatten]
  rw [← hchildren]
  refine SyntaxNode.everywhere_iff.trans (and_iff_right ?_)
  simp only [reduceCtorEq, false_implies, implies_true]

/-! ### Annotating -/

/-- A suffix that is no method call is annotated after its receiver. -/
theorem Shape.annotate_suffixed {scope : Scope} {asked : Option SwiftType} {receiver : Expr}
    {unwrap : Unwrap} {suffix : Suffix}
    (h : (¬∃ target memberUnwrap name,
        receiver.shape = .suffixed target memberUnwrap (.member name)) ∨
      ∀ arguments, suffix ≠ .call arguments) :
    (Shape.suffixed receiver unwrap suffix).annotate scope asked =
      let receiver := receiver.annotate scope receiver.expected
      let base := receiver.type.opened unwrap
      let annotated := suffix.annotate scope base.1
      (.suffixed receiver unwrap annotated.1, annotated.2.chained base.2) := by
  rw [Shape.annotate]
  rintro target memberUnwrap name resolved asked source arguments rfl rfl
  rcases h with h | h
  · exact h ⟨target, memberUnwrap, name, rfl⟩
  · exact h arguments rfl

mutual

/-- **Annotating an expression types every expression in it.** -/
theorem Expr.typed_annotate (scope : Scope) (asked : Option SwiftType) :
    ∀ e : Expr, (e.annotate scope asked).Typed
  | ⟨shape, _, _, _⟩ => Expr.typed_iff.mpr ⟨rfl, Shape.typed_annotate scope asked shape⟩

theorem Shape.typed_annotate (scope : Scope) (asked : Option SwiftType) :
    ∀ shape : Shape, ∀ n ∈ (shape.annotate scope asked).1.nodes, n.Typed
  | .identifier _ => by simp [Shape.annotate, Shape.nodes, Shape.subexpressions]
  | .constant _ => by simp [Shape.annotate, Shape.nodes, Shape.subexpressions]
  | .unary op operand => by
    simp only [Shape.annotate, Shape.nodes, Shape.subexpressions, List.append_nil,
      List.forall_mem_map, List.forall_mem_singleton]
    exact operand.typed_annotate scope _
  | .binary lhs op rhs => by
    simp only [Shape.annotate]
    split
    · simp only [Shape.nodes, Shape.subexpressions, List.append_nil, List.forall_mem_map,
        List.forall_mem_cons, List.not_mem_nil, false_implies, implies_true, and_true]
      exact ⟨lhs.typed_annotate scope _, rhs.typed_annotate scope _⟩
    · simp only [Shape.nodes, Shape.subexpressions, List.append_nil, List.forall_mem_map,
        List.forall_mem_cons, List.not_mem_nil, false_implies, implies_true, and_true]
      exact ⟨lhs.typed_annotate scope _, rhs.typed_annotate scope _⟩
  | .ternary condition ifTrue ifFalse => by
    simp only [Shape.annotate, Shape.nodes, Shape.subexpressions, List.append_nil,
      List.forall_mem_map, List.forall_mem_cons, List.not_mem_nil, false_implies, implies_true,
      and_true]
    exact ⟨condition.typed_annotate scope _, ifTrue.typed_annotate scope _,
      ifFalse.typed_annotate scope _⟩
  | .assignment lhs op rhs => by
    simp only [Shape.annotate, Shape.nodes, Shape.subexpressions, List.append_nil,
      List.forall_mem_map, List.forall_mem_cons, List.not_mem_nil, false_implies, implies_true,
      and_true]
    exact ⟨lhs.typed_annotate scope _, rhs.typed_annotate scope _⟩
  | .suffixed receiver unwrap (.member name) => by
    rw [Shape.annotate_suffixed (.inr (by simp))]
    simp only [Suffix.annotate, Shape.nodes, Shape.subexpressions, Suffix.subexpressions,
      List.append_nil, List.forall_mem_map, List.forall_mem_singleton]
    exact receiver.typed_annotate scope _
  | .suffixed receiver unwrap (.call arguments) => by
    have hreceiver := receiver.typed_annotate scope receiver.expected
    by_cases hmethod : ∃ target memberUnwrap name,
        receiver.shape = .suffixed target memberUnwrap (.member name)
    · -- The callee takes the type of the method; below it stands the target, which is annotated
      -- as it would be in a callee that is annotated like other expressions.
      obtain ⟨_, _, _, _⟩ := receiver
      obtain ⟨target, memberUnwrap, name, rfl⟩ := hmethod
      obtain ⟨-, hnodes⟩ := Expr.typed_iff.mp hreceiver
      rw [Expr.annotate, Shape.annotate_suffixed (.inr (by simp))] at hnodes
      simp only [Shape.annotate, Shape.nodes, Shape.subexpressions, Suffix.subexpressions,
        List.append_nil, List.forall_mem_map, List.forall_mem_cons]
      exact ⟨Expr.typed_iff.mpr ⟨rfl, hnodes⟩, typed_argumentsAnnotate scope _ arguments⟩
    · rw [Shape.annotate_suffixed (.inl hmethod)]
      simp only [Suffix.annotate, Shape.nodes, Shape.subexpressions, Suffix.subexpressions,
        List.append_nil, List.forall_mem_map, List.forall_mem_cons]
      exact ⟨hreceiver, typed_argumentsAnnotate scope _ arguments⟩
  | .suffixed receiver unwrap (.subscript index) => by
    rw [Shape.annotate_suffixed (.inr (by simp))]
    simp only [Suffix.annotate, Shape.nodes, Shape.subexpressions, Suffix.subexpressions,
      List.append_nil, List.forall_mem_map, List.forall_mem_cons, List.not_mem_nil, false_implies,
      implies_true, and_true]
    exact ⟨receiver.typed_annotate scope _, index.typed_annotate scope _⟩
  | .cast expression target => by
    simp only [Shape.annotate, Shape.nodes, Shape.subexpressions, List.append_nil,
      List.forall_mem_map, List.forall_mem_singleton]
    exact expression.typed_annotate scope _
  | .sizeOfValue expression => by
    simp only [Shape.annotate, Shape.nodes, Shape.subexpressions, List.append_nil,
      List.forall_mem_map, List.forall_mem_singleton]
    exact expression.typed_annotate scope _
  | .sizeOfType _ => by simp [Shape.annotate, Shape.nodes, Shape.subexpressions]
  | .parens inner => by
    simp only [Shape.annotate, Shape.nodes, Shape.subexpressions, List.append_nil,
      List.forall_mem_map, List.forall_mem_singleton]
    exact inner.typed_annotate scope _
  | .arrayLiteral elements => by
    simp only [Shape.annotate, Shape.nodes, Shape.subexpressions, List.append_nil,
      List.forall_mem_map]
    exact typed_exprsAnnotate scope _ elements
  | .dictionaryLiteral entries => by
    simp only [Shape.annotate, Shape.nodes, Shape.subexpressions, List.append_nil,
      List.forall_mem_map, List.mem_flatMap, List.mem_cons, List.not_mem_nil, or_false]
    rintro e ⟨entry, hentry, rfl | rfl⟩
    · exact (typed_entriesAnnotate scope entries entry hentry).1
    · exact (typed_entriesAnnotate scope entries entry hentry).2
  | .block parameters result body => by
    simp only [Shape.annotate, Shape.nodes, Shape.subexpressions, List.map_nil, List.nil_append,
      List.forall_mem_map]
    exact typed_bodyAnnotate _ body
  | .unknown _ => by simp [Shape.annotate, Shape.nodes, Shape.subexpressions]

theorem typed_exprsAnnotate (scope : Scope) (asked : Option SwiftType) :
    ∀ es : List Expr, ∀ e ∈ exprsAnnotate scope asked es, e.Typed
  | [] => by simp [exprsAnnotate]
  | e :: es => List.forall_mem_cons.mpr
    ⟨e.typed_annotate scope asked, typed_exprsAnnotate scope asked es⟩

theorem typed_argumentsAnnotate (scope : Scope) :
    ∀ (parameters : List SwiftType) (arguments : List Argument),
      ∀ a ∈ argumentsAnnotate scope parameters arguments, a.value.Typed
  | _, [] => by simp [argumentsAnnotate]
  | parameters, ⟨_, value⟩ :: rest => List.forall_mem_cons.mpr
    ⟨value.typed_annotate scope _, typed_argumentsAnnotate scope parameters.tail rest⟩

theorem typed_entriesAnnotate (scope : Scope) :
    ∀ entries : List Entry, ∀ a ∈ entriesAnnotate scope entries, a.key.Typed ∧ a.value.Typed
  | [] => by simp [entriesAnnotate]
  | ⟨key, value⟩ :: rest => List.forall_mem_cons.mpr
    ⟨⟨key.typed_annotate scope _, value.typed_annotate scope _⟩, typed_entriesAnnotate scope rest⟩

theorem typed_bodyAnnotate (scope : Scope) :
    ∀ body : List Stmt, ∀ s ∈ bodyAnnotate scope body, s.Typed
  | [] => by simp [bodyAnnotate]
  | s :: ss => List.forall_mem_cons.mpr ⟨s.typed_annotate scope, typed_bodyAnnotate _ ss⟩

theorem typed_variablesAnnotate (scope : Scope) :
    ∀ declarations : List Variable, ∀ v ∈ variablesAnnotate scope declarations,
      ∀ e, v.initial = some e → e.Typed
  | [] => by simp [variablesAnnotate]
  | ⟨_, _, none, _⟩ :: rest => List.forall_mem_cons.mpr
    ⟨by simp, typed_variablesAnnotate _ rest⟩
  | ⟨_, _, some initial, _⟩ :: rest => List.forall_mem_cons.mpr
    ⟨fun _ he => Option.some.inj he ▸ initial.typed_annotate scope _,
      typed_variablesAnnotate _ rest⟩

theorem Stmt.typed_annotate (scope : Scope) : ∀ s : Stmt, (s.annotate scope).Typed
  | .compound body => by
    rw [Stmt.annotate, Stmt.typed_iff]
    simp only [Stmt.subexpressions, Stmt.bodies, List.forall_mem_singleton, List.not_mem_nil,
      false_implies, implies_true, true_and]
    exact typed_bodyAnnotate scope body
  | .branch condition body none => by
    rw [Stmt.annotate, Stmt.typed_iff]
    simp only [Stmt.subexpressions, Stmt.bodies, List.forall_mem_singleton, Option.toList_none]
    exact ⟨condition.typed_annotate scope _, typed_bodyAnnotate scope body⟩
  | .branch condition body (some otherwise) => by
    rw [Stmt.annotate, Stmt.typed_iff]
    simp only [Stmt.subexpressions, Stmt.bodies, List.forall_mem_singleton, Option.toList_some,
      List.forall_mem_cons]
    exact ⟨condition.typed_annotate scope _, typed_bodyAnnotate scope body,
      typed_bodyAnnotate scope otherwise⟩
  | .whileLoop condition body => by
    rw [Stmt.annotate, Stmt.typed_iff]
    simp only [Stmt.subexpressions, Stmt.bodies, List.forall_mem_singleton]
    exact ⟨condition.typed_annotate scope _, typed_bodyAnnotate scope body⟩
  | .repeatLoop body condition => by
    rw [Stmt.annotate, Stmt.typed_iff]
    simp only [Stmt.subexpressions, Stmt.bodies, List.forall_mem_singleton]
    exact ⟨condition.typed_annotate scope _, typed_bodyAnnotate scope body⟩
  | .forIn binding sequence body => by
    rw [Stmt.annotate, Stmt.typed_iff]
    simp only [Stmt.subexpressions, Stmt.bodies, List.forall_mem_singleton]
    exact ⟨sequence.typed_annotate scope _, typed_bodyAnnotate _ body⟩
  | .return none => by
    rw [Stmt.annotate, Stmt.typed_iff]
    simp [Stmt.subexpressions, Stmt.bodies]
  | .return (some value) => by
    rw [Stmt.annotate, Stmt.typed_iff]
    simp only [Stmt.subexpressions, Stmt.bodies, Option.toList_some, List.forall_mem_singleton]
    exact ⟨value.typed_annotate scope _, by simp⟩
  | .expressions values => by
    rw [Stmt.annotate, Stmt.typed_iff]
    exact ⟨typed_ownAnnotate scope values, by simp [Stmt.bodies]⟩
  | .locals declarations => by
    rw [Stmt.annotate, Stmt.typed_iff]
    refine ⟨?_, by simp [Stmt.bodies]⟩
    intro e he
    obtain ⟨v, hv, hve⟩ := List.mem_filterMap.mp he
    exact typed_variablesAnnotate scope declarations v hv e hve
  | .break => by
    rw [Stmt.annotate, Stmt.typed_iff]
    simp [Stmt.subexpressions, Stmt.bodies]
  | .continue => by
    rw [Stmt.annotate, Stmt.typed_iff]
    simp [Stmt.subexpressions, Stmt.bodies]
  | .unknown _ => by
    rw [Stmt.annotate, Stmt.typed_iff]
    simp [Stmt.subexpressions, Stmt.bodies]

theorem typed_ownAnnotate (scope : Scope) :
    ∀ es : List Expr, ∀ e ∈ ownAnnotate scope es, e.Typed
  | [] => by simp [ownAnnotate]
  | e :: es => List.forall_mem_cons.mpr ⟨e.typed_annotate scope _, typed_ownAnnotate scope es⟩

end

/-! ### Bodies -/

/-- **Annotating a body types every expression in it**, whatever the context. -/
theorem Body.typed_annotate (catalog : Catalog) (context : BodyContext) (body : Body) :
    ∀ s ∈ body.annotate catalog context, s.Typed :=
  typed_bodyAnnotate _ body

end ObjcSwift
