import ObjcSwift.Proofs.Reading.Basic
import ObjcSwift.Swift.Expr.SameShape
import ObjcSwift.Swift.Expr.Walk

/-!
# Formulas

A formula is an expression made of names, operators, casts to named types and suffixes, without
parentheses of its own. Emptying the slots of an expression is an edit of the tree (`slotEraser`),
and two formulas that are the same after it are of the same shape (`Expr.sameShape_of_plain_eq`).
-/

namespace ObjcSwift

open Reading

/-- Whether an operator may stand before its operand. -/
def Operator.isUnary : Operator → Bool
  | .negate | .subtract | .add | .bitwiseNot => true
  | _ => false

mutual

/-- The expression is made of names, operators, casts to named types and suffixes. -/
def Expr.IsFormula : Expr → Prop
  | ⟨shape, _, _, _⟩ => shape.IsFormula

/-- The shape is that of a formula. -/
def Shape.IsFormula : Shape → Prop
  | .identifier name => IsWord name
  | .unary op operand => op.isUnary ∧ operand.IsFormula
  | .binary lhs op rhs => op.category ≠ .assignment ∧ lhs.IsFormula ∧ rhs.IsFormula
  | .ternary condition ifTrue ifFalse =>
    condition.IsFormula ∧ ifTrue.IsFormula ∧ ifFalse.IsFormula
  | .suffixed receiver _ suffix => receiver.IsFormula ∧ suffix.IsFormula
  | .cast expression (.named target) => expression.IsFormula ∧ IsWord target
  | _ => False

/-- The suffix names a member or holds formulas. -/
def Suffix.IsFormula : Suffix → Prop
  | .member name => IsWord name
  | .call arguments => AreFormulas arguments
  | .subscript index => index.IsFormula

/-- The arguments are formulas without labels. -/
def AreFormulas : List Argument → Prop
  | [] => True
  | ⟨none, value⟩ :: rest => value.IsFormula ∧ AreFormulas rest
  | ⟨some _, _⟩ :: _ => False

end

theorem areFormulas_iff {arguments : List Argument} :
    AreFormulas arguments ↔ ∀ a ∈ arguments, a.label = none ∧ a.value.IsFormula := by
  induction arguments with
  | nil => simp [AreFormulas]
  | cons a rest ih =>
    obtain ⟨label, value⟩ := a
    cases label <;> simp [AreFormulas, ih]

/-! ### Expressions without slots -/

/-- Empties the three slots of every expression. -/
def slotEraser : Editor Unit where
  exitExpr e _ := ({ shape := e.shape }, ())

/-- The shape with the slots in it emptied. -/
def Shape.plain (s : Shape) : Shape :=
  (s.edit slotEraser ()).1

/-- The expression with the slots in it emptied. -/
def Expr.plain (e : Expr) : Expr :=
  { shape := e.shape.plain }

/-- The suffix with the slots in it emptied. -/
def Suffix.plain (s : Suffix) : Suffix :=
  (s.edit slotEraser ()).1

theorem Expr.edit_slotEraser : ∀ e : Expr, e.edit slotEraser () = (e.plain, ())
  | ⟨_, _, _, _⟩ => rfl

section Equations

variable {op : Operator} {e e' e'' : Expr} {type : SwiftType} {unwrap : Unwrap}
  {suffix : Suffix} {arguments : List Argument} {shape : Shape}

@[simp]
theorem Expr.plain_mk : ({ shape := shape } : Expr).plain = { shape := shape.plain } := rfl

@[simp]
theorem Shape.plain_unary : (unary op e).plain = unary op e.plain := by
  simp only [plain, edit, Expr.edit_slotEraser]

@[simp]
theorem Shape.plain_binary : (binary e op e').plain = binary e.plain op e'.plain := by
  simp only [plain, edit, Expr.edit_slotEraser]

@[simp]
theorem Shape.plain_ternary : (ternary e e' e'').plain = ternary e.plain e'.plain e''.plain := by
  simp only [plain, edit, Expr.edit_slotEraser]

@[simp]
theorem Shape.plain_cast : (cast e type).plain = cast e.plain type := by
  simp only [plain, edit, Expr.edit_slotEraser]

@[simp]
theorem Shape.plain_suffixed :
    (suffixed e unwrap suffix).plain = suffixed e.plain unwrap suffix.plain := by
  simp only [plain, edit, Expr.edit_slotEraser, Suffix.plain]

@[simp]
theorem Suffix.plain_subscript : (subscript e).plain = subscript e.plain := by
  simp only [plain, edit, Expr.edit_slotEraser]

theorem argumentsEdit_slotEraser (arguments : List Argument) :
    argumentsEdit slotEraser arguments () =
      (arguments.map fun a => ⟨a.label, a.value.plain⟩, ()) := by
  induction arguments with
  | nil => rfl
  | cons a rest ih =>
    obtain ⟨label, value⟩ := a
    simp only [argumentsEdit, Expr.edit_slotEraser, ih, List.map_cons]

@[simp]
theorem Suffix.plain_call :
    (call arguments).plain = call (arguments.map fun a => ⟨a.label, a.value.plain⟩) := by
  simp only [plain, edit, argumentsEdit_slotEraser]

end Equations

/-! ### The same shape -/

mutual

/-- Two formulas that are the same without their slots have the same shape. -/
theorem Expr.sameShape_of_plain_eq :
    ∀ e f : Expr, e.IsFormula → e.plain = f.plain → e.sameShape f = true
  | ⟨a, _, _, _⟩, ⟨b, _, _, _⟩, h, heq => by
    rw [Expr.sameShape]
    exact a.same_of_plain_eq b h (congrArg Expr.shape heq)
termination_by structural e => e

theorem Shape.same_of_plain_eq :
    ∀ a b : Shape, a.IsFormula → a.plain = b.plain → a.same b = true
  | .identifier _, b, _, heq => by
    cases b with
    | identifier _ => simpa [Shape.same] using Shape.identifier.inj heq
    | _ => simp [Shape.plain, Shape.edit] at heq
  | .unary _ operand, b, h, heq => by
    cases b with
    | unary _ operand' =>
      simp only [Shape.plain_unary, Shape.unary.injEq] at heq
      simp [Shape.same, heq.1, operand.sameShape_of_plain_eq operand' h.2 heq.2]
    | _ => simp [Shape.plain, Shape.edit] at heq
  | .binary lhs _ rhs, b, h, heq => by
    cases b with
    | binary lhs' _ rhs' =>
      simp only [Shape.plain_binary, Shape.binary.injEq] at heq
      simp [Shape.same, heq.2.1, lhs.sameShape_of_plain_eq lhs' h.2.1 heq.1,
        rhs.sameShape_of_plain_eq rhs' h.2.2 heq.2.2]
    | _ => simp [Shape.plain, Shape.edit] at heq
  | .ternary condition ifTrue ifFalse, b, h, heq => by
    cases b with
    | ternary condition' ifTrue' ifFalse' =>
      simp only [Shape.plain_ternary, Shape.ternary.injEq] at heq
      simp [Shape.same, condition.sameShape_of_plain_eq condition' h.1 heq.1,
        ifTrue.sameShape_of_plain_eq ifTrue' h.2.1 heq.2.1,
        ifFalse.sameShape_of_plain_eq ifFalse' h.2.2 heq.2.2]
    | _ => simp [Shape.plain, Shape.edit] at heq
  | .suffixed receiver _ suffix, b, h, heq => by
    cases b with
    | suffixed receiver' _ suffix' =>
      simp only [Shape.plain_suffixed, Shape.suffixed.injEq] at heq
      simp [Shape.same, heq.2.1, receiver.sameShape_of_plain_eq receiver' h.1 heq.1,
        suffix.same_of_plain_eq suffix' h.2 heq.2.2]
    | _ => simp [Shape.plain, Shape.edit] at heq
  | .cast expression (.named _), b, h, heq => by
    cases b with
    | cast expression' _ =>
      simp only [Shape.plain_cast, Shape.cast.injEq] at heq
      simp [Shape.same, heq.2, expression.sameShape_of_plain_eq expression' h.1 heq.1]
    | _ => simp [Shape.plain, Shape.edit] at heq
termination_by structural a => a

theorem Suffix.same_of_plain_eq :
    ∀ a b : Suffix, a.IsFormula → a.plain = b.plain → a.same b = true
  | .member _, b, _, heq => by
    cases b with
    | member _ => simpa [Suffix.same] using Suffix.member.inj heq
    | _ => simp [Suffix.plain, Suffix.edit] at heq
  | .call arguments, b, h, heq => by
    cases b with
    | call arguments' =>
      simp only [Suffix.plain_call, Suffix.call.injEq] at heq
      rw [Suffix.same, sameArguments_of_plain_eq arguments arguments' h heq]
    | _ => simp [Suffix.plain, Suffix.edit] at heq
  | .subscript index, b, h, heq => by
    cases b with
    | subscript index' =>
      simp only [Suffix.plain_subscript, Suffix.subscript.injEq] at heq
      rw [Suffix.same, index.sameShape_of_plain_eq index' h heq]
    | _ => simp [Suffix.plain, Suffix.edit] at heq
termination_by structural a => a

theorem sameArguments_of_plain_eq :
    ∀ as bs : List Argument, AreFormulas as →
      as.map (fun a => (⟨a.label, a.value.plain⟩ : Argument)) =
        bs.map (fun b => ⟨b.label, b.value.plain⟩) → sameArguments as bs = true
  | [], [], _, _ => by rw [sameArguments]
  | ⟨none, value⟩ :: as, ⟨_, value'⟩ :: bs, h, heq => by
    simp only [List.map_cons, List.cons.injEq, Argument.mk.injEq] at heq
    simp [sameArguments, ← heq.1.1, value.sameShape_of_plain_eq value' h.1 heq.1.2,
      sameArguments_of_plain_eq as bs h.2 heq.2]
termination_by structural as => as

end

end ObjcSwift
