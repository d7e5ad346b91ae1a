import ObjcSwift.Proofs.Syntax.Expressions
import Mathlib

/-!
# Edits that settle a tree

Some nodes give an edit nothing to do. An edit **settles** such a property of nodes if every tree
has it at all nodes afterwards (`settled_bodyEdit`), and it **rests** on the property if
it leaves the trees that have it at all nodes as they are (`bodyEdit_of_settled`). An edit
that does both does nothing the second time.

Both are a matter of what happens when one node is left. An edit works from the leaves up, so when a
node is left the trees below it are settled already. What it puts in the place of the node may be a
tree of several new nodes, and each of those has to be looked at.
-/

namespace ObjcSwift

variable {Q : SyntaxNode → Prop}

/-! ### Properties of all nodes -/

namespace SyntaxNode

/-- The property holds of every node at and below a node, blocks entered. -/
def Throughout (Q : SyntaxNode → Prop) (n : SyntaxNode) : Prop :=
  ∀ m ∈ ObjcSwift.preorder true [n], Q m

theorem forall_mem_preorder_iff_throughout {nodes : List SyntaxNode} :
    (∀ m ∈ ObjcSwift.preorder true nodes, Q m) ↔ ∀ n ∈ nodes, n.Throughout Q := by
  induction nodes with
  | nil => simp [ObjcSwift.preorder]
  | cons n nodes ih =>
    rw [List.forall_mem_cons, ← ih, Throughout, ← List.singleton_append, preorder_append,
      List.forall_mem_append]

/-- The property holds throughout a tree if it holds at its root and throughout the trees below. -/
theorem throughout_iff {n : SyntaxNode} :
    n.Throughout Q ↔ Q n ∧ ∀ c ∈ n.children true, c.Throughout Q := by
  rw [← forall_mem_preorder_iff_throughout, Throughout, preorder_singleton, List.forall_mem_cons]

/-- What holds throughout a tree holds everywhere of its expressions. -/
theorem Throughout.everywhere {P : Expr → Prop} {n : SyntaxNode} (h : n.Throughout Q)
    (hP : ∀ e, Q (expr e) → P e) : n.Everywhere P :=
  fun e he => hP e (h (expr e) he)

end SyntaxNode

/-- The property holds throughout an expression. -/
abbrev Expr.Settled (Q : SyntaxNode → Prop) (e : Expr) : Prop :=
  (SyntaxNode.expr e).Throughout Q

/-- The property holds throughout a statement. -/
abbrev Stmt.Settled (Q : SyntaxNode → Prop) (s : Stmt) : Prop :=
  (SyntaxNode.stmt s).Throughout Q

/-- The property holds throughout what stands below an expression of some shape. -/
structure Shape.Settled (Q : SyntaxNode → Prop) (shape : Shape) : Prop where
  /-- In the expressions directly below. -/
  subexpressions : ∀ e ∈ shape.subexpressions, e.Settled Q
  /-- In the statements of a block. -/
  statements : ∀ s ∈ shape.statements, s.Settled Q

/-- The property holds throughout what stands below a statement. -/
structure Stmt.Below (Q : SyntaxNode → Prop) (s : Stmt) : Prop where
  /-- In the expressions directly below. -/
  subexpressions : ∀ e ∈ s.subexpressions, e.Settled Q
  /-- In the bodies directly below. -/
  bodies : ∀ body ∈ s.bodies, ∀ t ∈ body, t.Settled Q

theorem Expr.settled_iff {e : Expr} : e.Settled Q ↔ Q (.expr e) ∧ e.shape.Settled Q := by
  rw [Expr.Settled, SyntaxNode.throughout_iff, SyntaxNode.forall_mem_children_expr]
  exact and_congr_right fun _ => ⟨fun h => ⟨h.1, h.2⟩, fun h => ⟨h.1, h.2⟩⟩

theorem Stmt.settled_iff {s : Stmt} : s.Settled Q ↔ Q (.stmt s) ∧ s.Below Q := by
  rw [Stmt.Settled, SyntaxNode.throughout_iff, SyntaxNode.forall_mem_children_stmt]
  exact and_congr_right fun _ => ⟨fun h => ⟨h.1, h.2⟩, fun h => ⟨h.1, h.2⟩⟩

section Settling

variable {σ : Type} {ed : Editor σ}

/-! ### Edits that settle -/

/-- The editor enters every node, and what it puts in the place of a node has the property
throughout if all that stands below the node has. -/
structure Editor.Settles (ed : Editor σ) (Q : SyntaxNode → Prop) : Prop where
  /-- No node is skipped. -/
  skip_eq : ∀ n, ed.skip n = false
  /-- What becomes of an expression. -/
  exitExpr : ∀ e st, e.shape.Settled Q → (ed.exitExpr e st).1.Settled Q
  /-- What becomes of a statement. -/
  exitStmt : ∀ s st, s.Below Q → (ed.exitStmt s st).1.Settled Q

/-- Leaving a statement that was entered. -/
theorem Editor.Settles.exitStmt_of_skip {s s' : Stmt} {st st' : σ} (h : ed.Settles Q)
    (hs : s'.Below Q) :
    (if ed.skip (.stmt s) then ed.exitStmt s st else ed.exitStmt s' st').1.Settled Q := by
  rw [if_neg (by simp [h.skip_eq])]
  exact h.exitStmt s' st' hs

mutual

/-- An edit that settles a property makes it hold throughout an expression. -/
theorem Expr.settled_edit (h : ed.Settles Q) :
    ∀ (e : Expr) (st : σ), (e.edit ed st).1.Settled Q
  | ⟨shape, resolved, expected, source⟩, st => by
    simp only [Expr.edit, h.skip_eq, Bool.false_eq_true, if_false]
    exact h.exitExpr _ _ (shape.settled_edit h _)

theorem Shape.settled_edit (h : ed.Settles Q) :
    ∀ (shape : Shape) (st : σ), (shape.edit ed st).1.Settled Q
  | .identifier _, _ | .constant _, _ | .sizeOfType _, _ | .unknown _, _ =>
    ⟨List.forall_mem_nil _, List.forall_mem_nil _⟩
  | .unary _ operand, _ =>
    ⟨List.forall_mem_singleton.mpr (operand.settled_edit h _), List.forall_mem_nil _⟩
  | .binary lhs _ rhs, _ | .assignment lhs _ rhs, _ =>
    ⟨List.forall_mem_cons.mpr ⟨lhs.settled_edit h _,
      List.forall_mem_singleton.mpr (rhs.settled_edit h _)⟩, List.forall_mem_nil _⟩
  | .ternary condition ifTrue ifFalse, _ =>
    ⟨List.forall_mem_cons.mpr ⟨condition.settled_edit h _, List.forall_mem_cons.mpr
      ⟨ifTrue.settled_edit h _, List.forall_mem_singleton.mpr (ifFalse.settled_edit h _)⟩⟩,
      List.forall_mem_nil _⟩
  | .suffixed receiver _ suffix, _ =>
    ⟨List.forall_mem_cons.mpr ⟨receiver.settled_edit h _, suffix.settled_edit h _⟩,
      List.forall_mem_nil _⟩
  | .cast expression _, _ | .sizeOfValue expression, _ | .parens expression, _ =>
    ⟨List.forall_mem_singleton.mpr (expression.settled_edit h _), List.forall_mem_nil _⟩
  | .arrayLiteral elements, _ => ⟨settled_exprsEdit h elements _, List.forall_mem_nil _⟩
  | .dictionaryLiteral entries, _ => ⟨settled_entriesEdit h entries _, List.forall_mem_nil _⟩
  | .block _ _ body, _ => ⟨List.forall_mem_nil _, settled_bodyEdit h body _⟩

theorem Suffix.settled_edit (h : ed.Settles Q) :
    ∀ (suffix : Suffix) (st : σ), ∀ e ∈ (suffix.edit ed st).1.subexpressions, e.Settled Q
  | .member _, _ => List.forall_mem_nil _
  | .call arguments, _ => settled_argumentsEdit h arguments _
  | .subscript index, _ => List.forall_mem_singleton.mpr (index.settled_edit h _)

theorem settled_exprsEdit (h : ed.Settles Q) :
    ∀ (es : List Expr) (st : σ), ∀ e ∈ (exprsEdit ed es st).1, e.Settled Q
  | [], _ => List.forall_mem_nil _
  | e :: es, _ => List.forall_mem_cons.mpr ⟨e.settled_edit h _, settled_exprsEdit h es _⟩

theorem settled_argumentsEdit (h : ed.Settles Q) :
    ∀ (arguments : List Argument) (st : σ),
      ∀ e ∈ (argumentsEdit ed arguments st).1.map (·.value), e.Settled Q
  | [], _ => List.forall_mem_nil _
  | ⟨_, value⟩ :: rest, _ =>
    List.forall_mem_cons.mpr ⟨value.settled_edit h _, settled_argumentsEdit h rest _⟩

theorem settled_entriesEdit (h : ed.Settles Q) :
    ∀ (entries : List Entry) (st : σ),
      ∀ e ∈ (entriesEdit ed entries st).1.flatMap fun entry => [entry.key, entry.value],
        e.Settled Q
  | [], _ => List.forall_mem_nil _
  | ⟨key, value⟩ :: rest, _ =>
    List.forall_mem_cons.mpr ⟨key.settled_edit h _,
      List.forall_mem_cons.mpr ⟨value.settled_edit h _, settled_entriesEdit h rest _⟩⟩

/-- **An edit that settles a property** makes it hold throughout a body. -/
theorem settled_bodyEdit (h : ed.Settles Q) :
    ∀ (body : List Stmt) (st : σ), ∀ s ∈ (bodyEdit ed body st).1, s.Settled Q
  | [], _ => List.forall_mem_nil _
  | s :: ss, _ => List.forall_mem_cons.mpr ⟨s.settled_edit h _, settled_bodyEdit h ss _⟩

theorem settled_variablesEdit (h : ed.Settles Q) :
    ∀ (declarations : List Variable) (st : σ),
      ∀ e ∈ (variablesEdit ed declarations st).1.filterMap (·.initial), e.Settled Q
  | [], _ => List.forall_mem_nil _
  | ⟨_, _, none, _⟩ :: rest, _ => settled_variablesEdit h rest _
  | ⟨_, _, some initial, _⟩ :: rest, _ =>
    List.forall_mem_cons.mpr ⟨initial.settled_edit h _, settled_variablesEdit h rest _⟩

theorem Stmt.settled_edit (h : ed.Settles Q) : ∀ (s : Stmt) (st : σ), (s.edit ed st).1.Settled Q
  | .compound body, _ => by
    rw [Stmt.edit]
    exact h.exitStmt_of_skip
      ⟨List.forall_mem_nil _, List.forall_mem_singleton.mpr (settled_bodyEdit h body _)⟩
  | .branch condition body none, _ => by
    rw [Stmt.edit]
    exact h.exitStmt_of_skip ⟨List.forall_mem_singleton.mpr (condition.settled_edit h _),
      List.forall_mem_singleton.mpr (settled_bodyEdit h body _)⟩
  | .branch condition body (some otherwise), _ => by
    rw [Stmt.edit]
    exact h.exitStmt_of_skip ⟨List.forall_mem_singleton.mpr (condition.settled_edit h _),
      List.forall_mem_cons.mpr ⟨settled_bodyEdit h body _,
        List.forall_mem_singleton.mpr (settled_bodyEdit h otherwise _)⟩⟩
  | .whileLoop condition body, _ | .repeatLoop body condition, _ => by
    rw [Stmt.edit]
    exact h.exitStmt_of_skip ⟨List.forall_mem_singleton.mpr (condition.settled_edit h _),
      List.forall_mem_singleton.mpr (settled_bodyEdit h body _)⟩
  | .forIn _ sequence body, _ => by
    rw [Stmt.edit]
    exact h.exitStmt_of_skip ⟨List.forall_mem_singleton.mpr (sequence.settled_edit h _),
      List.forall_mem_singleton.mpr (settled_bodyEdit h body _)⟩
  | .return none, _ | .break, _ | .continue, _ | .unknown _, _ => by
    rw [Stmt.edit]
    exact h.exitStmt_of_skip ⟨List.forall_mem_nil _, List.forall_mem_nil _⟩
  | .return (some value), _ => by
    rw [Stmt.edit]
    exact h.exitStmt_of_skip
      ⟨List.forall_mem_singleton.mpr (value.settled_edit h _), List.forall_mem_nil _⟩
  | .expressions values, _ => by
    rw [Stmt.edit]
    exact h.exitStmt_of_skip ⟨settled_exprsEdit h values _, List.forall_mem_nil _⟩
  | .locals declarations, _ => by
    rw [Stmt.edit]
    exact h.exitStmt_of_skip ⟨settled_variablesEdit h declarations _, List.forall_mem_nil _⟩

end

/-! ### Edits that rest -/

/-- The editor does nothing where the property holds. -/
structure Editor.RestsOn (ed : Editor σ) (Q : SyntaxNode → Prop) : Prop where
  /-- Entering a node does nothing to the state. -/
  enter_eq : ∀ n st, ed.enter n st = st
  /-- Expressions with the property stay. -/
  exitExpr : ∀ e st, Q (.expr e) → ed.exitExpr e st = (e, st)
  /-- Statements with the property stay. -/
  exitStmt : ∀ s st, Q (.stmt s) → ed.exitStmt s st = (s, st)

mutual

/-- An edit that rests on a property leaves an expression that has it throughout as it is. -/
theorem Expr.edit_of_settled (h : ed.RestsOn Q) :
    ∀ (e : Expr) (st : σ), e.Settled Q → e.edit ed st = (e, st)
  | ⟨shape, resolved, expected, source⟩, st, hs => by
    obtain ⟨hQ, hshape⟩ := Expr.settled_iff.mp hs
    simp only [Expr.edit, h.enter_eq, shape.edit_of_settled h st hshape, h.exitExpr _ st hQ,
      ite_self]

theorem Shape.edit_of_settled (h : ed.RestsOn Q) :
    ∀ (shape : Shape) (st : σ), shape.Settled Q → shape.edit ed st = (shape, st)
  | .identifier _, _, _ | .constant _, _, _ | .sizeOfType _, _, _ | .unknown _, _, _ => rfl
  | .unary _ operand, st, hs => by
    have hoperand := List.forall_mem_singleton.mp hs.subexpressions
    simp only [Shape.edit, operand.edit_of_settled h st hoperand]
  | .binary lhs _ rhs, st, hs => by
    obtain ⟨hlhs, hrhs⟩ := List.forall_mem_cons.mp hs.subexpressions
    simp only [Shape.edit, lhs.edit_of_settled h st hlhs,
      rhs.edit_of_settled h st (List.forall_mem_singleton.mp hrhs)]
  | .ternary condition ifTrue ifFalse, st, hs => by
    obtain ⟨hcondition, hbranches⟩ := List.forall_mem_cons.mp hs.subexpressions
    obtain ⟨htrue, hfalse⟩ := List.forall_mem_cons.mp hbranches
    simp only [Shape.edit, condition.edit_of_settled h st hcondition,
      ifTrue.edit_of_settled h st htrue,
      ifFalse.edit_of_settled h st (List.forall_mem_singleton.mp hfalse)]
  | .assignment lhs _ rhs, st, hs => by
    obtain ⟨hlhs, hrhs⟩ := List.forall_mem_cons.mp hs.subexpressions
    simp only [Shape.edit, lhs.edit_of_settled h st hlhs,
      rhs.edit_of_settled h st (List.forall_mem_singleton.mp hrhs)]
  | .suffixed receiver _ suffix, st, hs => by
    obtain ⟨hreceiver, hsuffix⟩ := List.forall_mem_cons.mp hs.subexpressions
    simp only [Shape.edit, receiver.edit_of_settled h st hreceiver,
      suffix.edit_of_settled h st hsuffix]
  | .cast expression _, st, hs => by
    have hexpression := List.forall_mem_singleton.mp hs.subexpressions
    simp only [Shape.edit, expression.edit_of_settled h st hexpression]
  | .sizeOfValue expression, st, hs => by
    have hexpression := List.forall_mem_singleton.mp hs.subexpressions
    simp only [Shape.edit, expression.edit_of_settled h st hexpression]
  | .parens inner, st, hs => by
    have hinner := List.forall_mem_singleton.mp hs.subexpressions
    simp only [Shape.edit, inner.edit_of_settled h st hinner]
  | .arrayLiteral elements, st, hs => by
    simp only [Shape.edit, exprsEdit_of_settled h elements st hs.subexpressions]
  | .dictionaryLiteral entries, st, hs => by
    simp only [Shape.edit, entriesEdit_of_settled h entries st hs.subexpressions]
  | .block _ _ body, st, hs => by
    simp only [Shape.edit, bodyEdit_of_settled h body st hs.statements]

theorem Suffix.edit_of_settled (h : ed.RestsOn Q) :
    ∀ (suffix : Suffix) (st : σ), (∀ e ∈ suffix.subexpressions, e.Settled Q) →
      suffix.edit ed st = (suffix, st)
  | .member _, _, _ => rfl
  | .call arguments, st, hs => by
    simp only [Suffix.edit, argumentsEdit_of_settled h arguments st hs]
  | .subscript index, st, hs => by
    simp only [Suffix.edit, index.edit_of_settled h st (List.forall_mem_singleton.mp hs)]

theorem exprsEdit_of_settled (h : ed.RestsOn Q) :
    ∀ (es : List Expr) (st : σ), (∀ e ∈ es, e.Settled Q) → exprsEdit ed es st = (es, st)
  | [], _, _ => rfl
  | e :: es, st, hs => by
    obtain ⟨he, hes⟩ := List.forall_mem_cons.mp hs
    simp only [exprsEdit, e.edit_of_settled h st he, exprsEdit_of_settled h es st hes]

theorem argumentsEdit_of_settled (h : ed.RestsOn Q) :
    ∀ (arguments : List Argument) (st : σ), (∀ e ∈ arguments.map (·.value), e.Settled Q) →
      argumentsEdit ed arguments st = (arguments, st)
  | [], _, _ => rfl
  | ⟨_, value⟩ :: rest, st, hs => by
    obtain ⟨hvalue, hrest⟩ := List.forall_mem_cons.mp hs
    simp only [argumentsEdit, value.edit_of_settled h st hvalue,
      argumentsEdit_of_settled h rest st hrest]

theorem entriesEdit_of_settled (h : ed.RestsOn Q) :
    ∀ (entries : List Entry) (st : σ),
      (∀ e ∈ entries.flatMap fun entry => [entry.key, entry.value], e.Settled Q) →
      entriesEdit ed entries st = (entries, st)
  | [], _, _ => rfl
  | ⟨key, value⟩ :: rest, st, hs => by
    obtain ⟨hkey, hs'⟩ := List.forall_mem_cons.mp hs
    obtain ⟨hvalue, hrest⟩ := List.forall_mem_cons.mp hs'
    simp only [entriesEdit, key.edit_of_settled h st hkey, value.edit_of_settled h st hvalue,
      entriesEdit_of_settled h rest st hrest]

/-- **An edit that rests on a property** leaves a body that has it throughout as it is, and the
state as well. -/
theorem bodyEdit_of_settled (h : ed.RestsOn Q) :
    ∀ (body : List Stmt) (st : σ), (∀ s ∈ body, s.Settled Q) → bodyEdit ed body st = (body, st)
  | [], _, _ => rfl
  | s :: ss, st, hs => by
    obtain ⟨hstmt, hss⟩ := List.forall_mem_cons.mp hs
    simp only [bodyEdit, s.edit_of_settled h st hstmt, bodyEdit_of_settled h ss st hss]

theorem variablesEdit_of_settled (h : ed.RestsOn Q) :
    ∀ (declarations : List Variable) (st : σ),
      (∀ e ∈ declarations.filterMap (·.initial), e.Settled Q) →
      variablesEdit ed declarations st = (declarations, st)
  | [], _, _ => rfl
  | ⟨_, _, none, _⟩ :: rest, st, hs => by
    simp only [variablesEdit, variablesEdit_of_settled h rest st hs]
  | ⟨_, _, some initial, _⟩ :: rest, st, hs => by
    obtain ⟨hinitial, hrest⟩ := List.forall_mem_cons.mp hs
    simp only [variablesEdit, initial.edit_of_settled h st hinitial,
      variablesEdit_of_settled h rest st hrest]

theorem Stmt.edit_of_settled (h : ed.RestsOn Q) :
    ∀ (s : Stmt) (st : σ), s.Settled Q → s.edit ed st = (s, st) := by
  intro s st hs
  obtain ⟨hexit, hbelow⟩ := Stmt.settled_iff.mp hs
  have hexit := h.exitStmt s st hexit
  match s with
  | .compound body =>
    have hbody := List.forall_mem_singleton.mp hbelow.bodies
    simp only [Stmt.edit, h.enter_eq, bodyEdit_of_settled h body _ hbody, hexit, ite_self]
  | .branch condition body none =>
    have hcondition := List.forall_mem_singleton.mp hbelow.subexpressions
    have hbody := List.forall_mem_singleton.mp hbelow.bodies
    simp only [Stmt.edit, h.enter_eq, condition.edit_of_settled h _ hcondition,
      bodyEdit_of_settled h body _ hbody, hexit, ite_self]
  | .branch condition body (some otherwise) =>
    have hcondition := List.forall_mem_singleton.mp hbelow.subexpressions
    obtain ⟨hbody, hotherwise⟩ := List.forall_mem_cons.mp hbelow.bodies
    simp only [Stmt.edit, h.enter_eq, condition.edit_of_settled h _ hcondition,
      bodyEdit_of_settled h body _ hbody,
      bodyEdit_of_settled h otherwise _ (List.forall_mem_singleton.mp hotherwise), hexit, ite_self]
  | .whileLoop condition body | .repeatLoop body condition =>
    have hcondition := List.forall_mem_singleton.mp hbelow.subexpressions
    have hbody := List.forall_mem_singleton.mp hbelow.bodies
    simp only [Stmt.edit, h.enter_eq, condition.edit_of_settled h _ hcondition,
      bodyEdit_of_settled h body _ hbody, hexit, ite_self]
  | .forIn _ sequence body =>
    have hsequence := List.forall_mem_singleton.mp hbelow.subexpressions
    have hbody := List.forall_mem_singleton.mp hbelow.bodies
    simp only [Stmt.edit, h.enter_eq, sequence.edit_of_settled h _ hsequence,
      bodyEdit_of_settled h body _ hbody, hexit, ite_self]
  | .return none | .break | .continue | .unknown _ =>
    simp only [Stmt.edit, h.enter_eq, hexit, ite_self]
  | .return (some value) =>
    have hvalue := List.forall_mem_singleton.mp hbelow.subexpressions
    simp only [Stmt.edit, h.enter_eq, value.edit_of_settled h _ hvalue, hexit, ite_self]
  | .expressions values =>
    simp only [Stmt.edit, h.enter_eq, exprsEdit_of_settled h values _ hbelow.subexpressions, hexit,
      ite_self]
  | .locals declarations =>
    simp only [Stmt.edit, h.enter_eq,
      variablesEdit_of_settled h declarations _ hbelow.subexpressions, hexit, ite_self]

end

end Settling

end ObjcSwift
