import ObjcSwift.Decl.Graph
import ObjcSwift.Proofs.Syntax.Walks
import Mathlib

/-!
# What holds of every expression

A property of expressions holds **everywhere** in a tree if it holds of every expression that the
walk in pre-order meets, those in the bodies of block expressions included. It can be checked level
by level (`SyntaxNode.everywhere_iff`), which is what proofs by induction on trees need, and it is
the same as to hold of all the expressions that are listed (`forall_mem_expressions`), which is what
statements about whole declarations are made of.
-/

namespace ObjcSwift

variable {P : Expr → Prop}

/-! ### Trees -/

/-- The statements directly inside a shape: the body of a block. -/
def Shape.statements : Shape → Body
  | .block _ _ body => body
  | _ => []

theorem SyntaxNode.children_expr (e : Expr) :
    (expr e).children true =
      e.shape.subexpressions.map expr ++ e.shape.statements.map stmt := by
  obtain ⟨shape, _, _, _⟩ := e
  cases shape <;> rfl

theorem SyntaxNode.forall_mem_children_expr {e : Expr} {Q : SyntaxNode → Prop} :
    (∀ c ∈ (expr e).children true, Q c) ↔
      (∀ e' ∈ e.shape.subexpressions, Q (expr e')) ∧ ∀ s ∈ e.shape.statements, Q (stmt s) := by
  simp only [children_expr, List.forall_mem_append, List.forall_mem_map]

theorem SyntaxNode.forall_mem_children_stmt {s : Stmt} {Q : SyntaxNode → Prop} :
    (∀ c ∈ (stmt s).children true, Q c) ↔
      (∀ e ∈ s.subexpressions, Q (expr e)) ∧ ∀ body ∈ s.bodies, ∀ t ∈ body, Q (stmt t) := by
  simp only [children, List.forall_mem_append, List.forall_mem_map, List.forall_mem_flatten]

/-- The property holds of every expression at and below a node. -/
def SyntaxNode.Everywhere (P : Expr → Prop) (n : SyntaxNode) : Prop :=
  ∀ e, .expr e ∈ preorder true [n] → P e

/-- The property holds of the expressions that a walk over several nodes meets exactly if it holds
everywhere in each of the nodes. -/
theorem forall_mem_preorder_iff {nodes : List SyntaxNode} :
    (∀ e, .expr e ∈ preorder true nodes → P e) ↔ ∀ n ∈ nodes, n.Everywhere P := by
  induction nodes with
  | nil => simp [preorder]
  | cons n nodes ih =>
    rw [List.forall_mem_cons, ← ih, SyntaxNode.Everywhere]
    rw [show n :: nodes = [n] ++ nodes from rfl, preorder_append]
    simp only [List.mem_append]
    constructor
    · intro h
      exact ⟨fun e he => h e (Or.inl he), fun e he => h e (Or.inr he)⟩
    · rintro ⟨h, h'⟩ e (he | he)
      · exact h e he
      · exact h' e he

/-- The property holds everywhere in a tree if it holds at its root and everywhere below. -/
theorem SyntaxNode.everywhere_iff {n : SyntaxNode} :
    n.Everywhere P ↔ (∀ e, n = .expr e → P e) ∧ ∀ c ∈ n.children true, c.Everywhere P := by
  rw [← forall_mem_preorder_iff, Everywhere, preorder_singleton]
  simp only [List.mem_cons]
  constructor
  · intro h
    exact ⟨fun e he => h e (Or.inl he.symm), fun e he => h e (Or.inr he)⟩
  · rintro ⟨h, h'⟩ e (he | he)
    · exact h e he.symm
    · exact h' e he

/-- The property holds of all expressions among the nodes of a walk exactly if it holds everywhere
in the nodes it starts from. -/
theorem forall_mem_expressions_iff {nodes : List SyntaxNode} :
    (∀ e ∈ (preorder true nodes).filterMap SyntaxNode.expr?, P e) ↔
      ∀ n ∈ nodes, n.Everywhere P := by
  rw [← forall_mem_preorder_iff]
  simp only [List.mem_filterMap]
  constructor
  · exact fun h e he => h e ⟨.expr e, he, rfl⟩
  · rintro h e ⟨n, hn, he⟩
    cases n with
    | expr e' => exact h e (Option.some.inj he ▸ hn)
    | stmt s => exact absurd he (by simp [SyntaxNode.expr?])

/-- The expressions of an expression in pre-order, those in block expressions included. -/
def Expr.allExpressions (e : Expr) : List Expr :=
  (e.preorder true).filterMap SyntaxNode.expr?

theorem Expr.forall_mem_allExpressions_iff {e : Expr} :
    (∀ e' ∈ e.allExpressions, P e') ↔ (SyntaxNode.expr e).Everywhere P :=
  forall_mem_expressions_iff.trans List.forall_mem_singleton

theorem Body.forall_mem_allExpressions_iff {body : Body} :
    (∀ e ∈ body.allExpressions, P e) ↔ ∀ s ∈ body, (SyntaxNode.stmt s).Everywhere P :=
  forall_mem_expressions_iff.trans List.forall_mem_map

/-! ### Declarations -/

/-- The property holds of every expression in a function body. -/
def Code.Everywhere (P : Expr → Prop) (code : Code) : Prop :=
  ∀ s ∈ code.body, (SyntaxNode.stmt s).Everywhere P

/-- The property holds of every expression in the accessors of a property. -/
def PropertyMode.Everywhere (P : Expr → Prop) : PropertyMode → Prop
  | .field => True
  | .computed getter setter => getter.Everywhere P ∧ ∀ s, setter = some s → s.code.Everywhere P
  | .full getter setter => getter.Everywhere P ∧ setter.code.Everywhere P

namespace Decl

/-- The expressions of a declaration, however deep they stand: those in its bodies, and those in the
initial value of a global variable. -/
def expressions : Decl → List Expr
  | globalVariable d =>
    d.initial.toList.flatMap fun e => (e.preorder true).filterMap SyntaxNode.expr?
  | d => d.bodies.flatMap Body.allExpressions

theorem forall_mem_bodies_iff {bodies : List Body} :
    (∀ e ∈ bodies.flatMap Body.allExpressions, P e) ↔
      ∀ body ∈ bodies, ∀ s ∈ body, (SyntaxNode.stmt s).Everywhere P := by
  simp only [List.mem_flatMap, ← Body.forall_mem_allExpressions_iff]
  constructor
  · exact fun h body hbody e he => h e ⟨body, hbody, he⟩
  · rintro h e ⟨body, hbody, he⟩
    exact h body hbody e he

theorem forall_mem_method_iff {d : MethodDecl} :
    (∀ e ∈ (method d).expressions, P e) ↔ ∀ code, d.code = some code → code.Everywhere P := by
  rw [expressions, forall_mem_bodies_iff, bodies]
  · simp only [List.forall_mem_map, Option.mem_toList, Code.Everywhere]
  · simp

theorem forall_mem_globalFunction_iff {d : FunctionDecl} :
    (∀ e ∈ (globalFunction d).expressions, P e) ↔
      ∀ code, d.code = some code → code.Everywhere P := by
  rw [expressions, forall_mem_bodies_iff, bodies]
  · simp only [List.forall_mem_map, Option.mem_toList, Code.Everywhere]
  · simp

theorem forall_mem_property_iff {d : PropertyDecl} :
    (∀ e ∈ (property d).expressions, P e) ↔ d.mode.Everywhere P := by
  rw [expressions, forall_mem_bodies_iff, bodies]
  · cases d.mode <;> simp [PropertyMode.Everywhere, Code.Everywhere]
  · simp

theorem forall_mem_globalVariable_iff {d : VariableDecl} :
    (∀ e ∈ (globalVariable d).expressions, P e) ↔
      ∀ e, d.initial = some e → (SyntaxNode.expr e).Everywhere P := by
  simp only [expressions, List.mem_flatMap, Option.mem_toList, ← Expr.forall_mem_allExpressions_iff]
  constructor
  · exact fun h e he e' he' => h e' ⟨e, he, he'⟩
  · rintro h e' ⟨e, he, he'⟩
    exact h e he e' he'

end Decl

end ObjcSwift
