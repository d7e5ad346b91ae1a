import ObjcSwift.Proofs.Typing.Coverage
import Mathlib

/-!
# Annotating, one node at a time

What annotating does at a node, as equations that do not open the walk again: the slots of an
annotated expression (`Expr.annotate_eq`), each kind of suffix, of which the method call stands
apart (`Shape.annotate_methodCall`), and an operator by what it asks of its operands
(`Operator.asks`, `Operator.asksRight`).

The form of an expression is read in three places: whether it is `nil`, whether it is a member
access, and which labels its arguments have. None of the three is changed by annotating.
-/

namespace ObjcSwift

variable (scope : Scope) (asked : Option SwiftType)

/-! ### Slots -/

namespace Expr

/-- An annotated expression: both slots are filled, and the source text stays. -/
theorem annotate_eq (e : Expr) : e.annotate scope asked =
    ⟨(e.shape.annotate scope asked).1, some (e.shape.annotate scope asked).2, asked, e.source⟩ := by
  obtain ⟨shape, _, _, _⟩ := e
  rw [annotate]

@[simp]
theorem expected_annotate (e : Expr) : (e.annotate scope asked).expected = asked := by
  rw [annotate_eq]

theorem shape_annotate (e : Expr) :
    (e.annotate scope asked).shape = (e.shape.annotate scope asked).1 := by
  rw [annotate_eq]

/-- An annotated expression has the type that it was found to have. -/
theorem resolved_annotate (e : Expr) :
    (e.annotate scope asked).resolved = some (e.annotate scope asked).type := by
  rw [annotate_eq]
  rfl

end Expr

/-! ### Suffixes -/

/-- A method call is annotated as a whole after its target. -/
theorem Shape.annotate_methodCall {callee target : Expr} {memberUnwrap unwrap : Unwrap}
    {name : String} {arguments : List Argument}
    (h : callee.shape = .suffixed target memberUnwrap (.member name)) :
    (Shape.suffixed callee unwrap (.call arguments)).annotate scope asked =
      let target := target.annotate scope target.expected
      let typing := scope.callTyping target.type memberUnwrap name unwrap arguments
      (.suffixed ⟨.suffixed target memberUnwrap (.member name), some typing.callee,
        callee.expected, callee.source⟩ unwrap
        (.call (argumentsAnnotate scope typing.parameters arguments)), typing.result) := by
  obtain ⟨_, _, _, _⟩ := callee
  obtain rfl := h
  rw [Shape.annotate]

/-- A member access is annotated after its receiver. -/
theorem Shape.annotate_member (receiver : Expr) (unwrap : Unwrap) (name : String) :
    (Shape.suffixed receiver unwrap (.member name)).annotate scope asked =
      let receiver := receiver.annotate scope receiver.expected
      let base := receiver.type.opened unwrap
      let found := scope.catalog.member? base.1 name base.1.isMetatype
      (.suffixed receiver unwrap (.member name),
        ((found.map Member.type).getD .unknown).chained base.2) := by
  rw [Shape.annotate_suffixed (.inr (by simp))]
  rfl

/-- The call of something else than a member is annotated after what is called. -/
theorem Shape.annotate_valueCall {callee : Expr} (unwrap : Unwrap) (arguments : List Argument)
    (h : ¬∃ target memberUnwrap name,
      callee.shape = .suffixed target memberUnwrap (.member name)) :
    (Shape.suffixed callee unwrap (.call arguments)).annotate scope asked =
      let callee := callee.annotate scope callee.expected
      let base := callee.type.opened unwrap
      let typing := scope.valueCallTyping base.1 arguments
      (.suffixed callee unwrap (.call (argumentsAnnotate scope typing.1 arguments)),
        typing.2.chained base.2) := by
  rw [Shape.annotate_suffixed (.inl h)]
  rfl

/-- A subscript is annotated after its receiver. -/
theorem Shape.annotate_subscript (receiver : Expr) (unwrap : Unwrap) (index : Expr) :
    (Shape.suffixed receiver unwrap (.subscript index)).annotate scope asked =
      let receiver := receiver.annotate scope receiver.expected
      let base := receiver.type.opened unwrap
      (.suffixed receiver unwrap (.subscript (index.annotate scope index.expected)),
        ((scope.catalog.subscript? base.1).getD .unknown).chained base.2) := by
  rw [Shape.annotate_suffixed (.inr (by simp))]
  rfl

/-- Below a member access stands its annotated target. -/
theorem Expr.shape_annotate_member {e target : Expr} {unwrap : Unwrap} {name : String}
    (h : e.shape = .suffixed target unwrap (.member name)) :
    (e.annotate scope asked).shape =
      .suffixed (target.annotate scope target.expected) unwrap (.member name) := by
  rw [Expr.shape_annotate, h, Shape.annotate_member]

/-- Member accesses that come out alike have targets that come out alike. -/
theorem Expr.annotate_target_congr {scope : Scope} {asked : Option SwiftType}
    {e e' target target' : Expr} {unwrap unwrap' : Unwrap} {name name' : String}
    (h : e.shape = .suffixed target unwrap (.member name))
    (h' : e'.shape = .suffixed target' unwrap' (.member name'))
    (heq : e'.annotate scope asked = e.annotate scope asked) :
    target'.annotate scope target'.expected = target.annotate scope target.expected := by
  have hshape := congrArg Expr.shape heq
  rw [Expr.shape_annotate_member scope asked h, Expr.shape_annotate_member scope asked h'] at hshape
  injection hshape

/-- A suffix on a receiver is a method call, or it is annotated after its receiver. -/
theorem Suffix.methodCall_or (receiver : Expr) (suffix : Suffix) :
    (∃ target memberUnwrap name arguments,
      receiver.shape = .suffixed target memberUnwrap (.member name) ∧ suffix = .call arguments) ∨
    (¬∃ target memberUnwrap name,
      receiver.shape = .suffixed target memberUnwrap (.member name)) ∨
    ∀ arguments, suffix ≠ .call arguments := by
  by_cases hmember : ∃ target memberUnwrap name,
      receiver.shape = .suffixed target memberUnwrap (.member name)
  · cases suffix with
    | call arguments =>
      obtain ⟨target, memberUnwrap, name, h⟩ := hmember
      exact .inl ⟨target, memberUnwrap, name, arguments, h, rfl⟩
    | _ => exact .inr (.inr (by simp))
  · exact .inr (.inl hmember)

/-- A suffix stays a suffix, and a member access one, with the same unwrapping of the receiver. -/
theorem Shape.exists_annotate_suffixed (receiver : Expr) (unwrap : Unwrap) (suffix : Suffix) :
    ∃ receiver' suffix', ((Shape.suffixed receiver unwrap suffix).annotate scope asked).1 =
      .suffixed receiver' unwrap suffix' ∧ suffix'.member? = suffix.member? := by
  rcases suffix.methodCall_or receiver with ⟨target, memberUnwrap, name, arguments, h, rfl⟩ | hstep
  · rw [Shape.annotate_methodCall scope asked h]
    exact ⟨_, _, rfl, rfl⟩
  · rw [Shape.annotate_suffixed hstep]
    refine ⟨_, _, rfl, ?_⟩
    cases suffix <;> rfl

/-! ### Forms that stay -/

@[simp]
theorem Expr.isNil_annotate (e : Expr) : (e.annotate scope asked).isNil = e.isNil := by
  obtain ⟨shape, _, _, _⟩ := e
  rw [Expr.isNil, Expr.shape_annotate]
  cases shape with
  | binary lhs op rhs =>
    simp only [Shape.annotate]
    split_ifs <;> rfl
  | suffixed receiver unwrap suffix =>
    obtain ⟨receiver', suffix', h, -⟩ :=
      Shape.exists_annotate_suffixed scope asked receiver unwrap suffix
    rw [h]
    rfl
  | _ => rfl

/-- What is a member access afterwards was one before. -/
theorem Expr.exists_member_of_annotate {e target : Expr} {unwrap : Unwrap} {name : String}
    (h : (e.annotate scope asked).shape = .suffixed target unwrap (.member name)) :
    ∃ target, e.shape = .suffixed target unwrap (.member name) := by
  obtain ⟨shape, _, _, _⟩ := e
  rw [Expr.shape_annotate] at h
  cases shape with
  | binary lhs op rhs =>
    simp only [Shape.annotate] at h
    split_ifs at h
  | suffixed receiver unwrap' suffix =>
    obtain ⟨receiver', suffix', h', hmember⟩ :=
      Shape.exists_annotate_suffixed scope asked receiver unwrap' suffix
    rw [h'] at h
    injection h with _ hunwrap hsuffix
    subst hunwrap hsuffix
    cases suffix <;> simp_all [Suffix.member?]
  | _ => simp [Shape.annotate] at h

theorem labels_argumentsAnnotate (parameters : List SwiftType) (arguments : List Argument) :
    (argumentsAnnotate scope parameters arguments).map (·.label) = arguments.map (·.label) := by
  induction arguments generalizing parameters with
  | nil => rfl
  | cons argument rest ih =>
    obtain ⟨label, value⟩ := argument
    simp only [argumentsAnnotate, List.map_cons, ih]

/-! ### Calls read labels -/

section Labels

variable {scope} {arguments arguments' : List Argument}

theorem overload?_congr {candidates : List Member}
    (h : arguments'.map (·.label) = arguments.map (·.label)) :
    overload? candidates arguments' = overload? candidates arguments := by
  unfold overload?
  rw [h]

theorem Scope.callTyping_congr {target : SwiftType} {memberUnwrap callUnwrap : Unwrap}
    {name : String} (h : arguments'.map (·.label) = arguments.map (·.label)) :
    scope.callTyping target memberUnwrap name callUnwrap arguments' =
      scope.callTyping target memberUnwrap name callUnwrap arguments := by
  unfold Scope.callTyping
  simp only [overload?_congr h]

theorem Scope.valueCallTyping_congr {callee : SwiftType}
    (h : arguments'.map (·.label) = arguments.map (·.label)) :
    scope.valueCallTyping callee arguments' = scope.valueCallTyping callee arguments := by
  unfold Scope.valueCallTyping
  simp only [overload?_congr h]

end Labels

/-! ### Operators -/

namespace Operator

/-- What an operator asks of an operand by itself. -/
def asks (op : Operator) (e : Expr) : Option SwiftType :=
  if op.category = .logical then some .bool else e.expected

/-- What an operator asks of its right operand once the left one has its type. -/
def asksRight (op : Operator) (lhs : SwiftType) (rhs : Expr) : Option SwiftType :=
  if rhs.isNil then some lhs
  else if op = .nullCoalesce && !lhs.isUnknown then some lhs.base
  else op.asks rhs

end Operator

/-- A `nil` on the left takes its type from the right operand. -/
theorem Shape.annotate_binary_of_isNil {lhs rhs : Expr} {op : Operator} (h : lhs.isNil = true) :
    (Shape.binary lhs op rhs).annotate scope asked =
      let rhs := rhs.annotate scope (op.asks rhs)
      let lhs := lhs.annotate scope (some rhs.type)
      (.binary lhs op rhs, op.binaryType lhs.type rhs.type) := by
  rw [Shape.annotate, if_pos h]
  rfl

/-- Anything else on the left is annotated first. -/
theorem Shape.annotate_binary {lhs rhs : Expr} {op : Operator} (h : lhs.isNil = false) :
    (Shape.binary lhs op rhs).annotate scope asked =
      let lhs := lhs.annotate scope (op.asks lhs)
      let rhs := rhs.annotate scope (op.asksRight lhs.type rhs)
      (.binary lhs op rhs, op.binaryType lhs.type rhs.type) := by
  rw [Shape.annotate, if_neg (by simp [h])]
  rfl

end ObjcSwift
