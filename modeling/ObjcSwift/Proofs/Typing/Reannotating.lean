import ObjcSwift.Proofs.Typing.Equations
import ObjcSwift.Typing.Builtin
import Mathlib

/-!
# Annotating again

What a place is asked for is both read and written by annotating: a place whose surroundings ask for
nothing keeps what it was asked for before, and whether they ask depends on types that are found on
the way. Still a second walk finds everything as the first one left it
(`annotating_again_changes_nothing`).

* **What is asked is asked again.** Each rule for what a part is asked for is a function of what it
  was asked for before, and applying it twice is applying it once (`Operator.asks_annotate`,
  `Operator.asksRight_annotate`).
* **Types found before are not read** (`Expr.annotate_unresolved`): only what a part is asked for
  goes from one walk to the next.
-/

namespace ObjcSwift

/-! ### What is asked the second time -/

namespace Operator

variable (scope : Scope) (op : Operator)

@[simp]
theorem asks_annotate (e : Expr) : op.asks (e.annotate scope (op.asks e)) = op.asks e := by
  simp only [asks, Expr.expected_annotate]
  split_ifs <;> rfl

@[simp]
theorem asksRight_annotate (lhs : SwiftType) (rhs : Expr) :
    op.asksRight lhs (rhs.annotate scope (op.asksRight lhs rhs)) = op.asksRight lhs rhs := by
  simp only [asksRight, asks, Expr.isNil_annotate, Expr.expected_annotate]
  split_ifs <;> rfl

end Operator

theorem Variable.asks_asks (type : SwiftType) (before : Option SwiftType) :
    Variable.asks type (Variable.asks type before) = Variable.asks type before := by
  unfold Variable.asks
  split_ifs <;> rfl

/-! ### Annotating again -/

/-- A call of a method is annotated like its target and its arguments, a call of a value like that
value and its arguments; which of the two it is does not change. -/
theorem Shape.annotate_annotate_call (scope : Scope) (asked : Option SwiftType) {receiver : Expr}
    (unwrap : Unwrap) {arguments : List Argument}
    (hreceiver : (receiver.annotate scope receiver.expected).annotate scope receiver.expected =
      receiver.annotate scope receiver.expected)
    (harguments : ∀ parameters,
      argumentsAnnotate scope parameters (argumentsAnnotate scope parameters arguments) =
        argumentsAnnotate scope parameters arguments) :
    ((Shape.suffixed receiver unwrap (.call arguments)).annotate scope asked).1.annotate scope
      asked = (Shape.suffixed receiver unwrap (.call arguments)).annotate scope asked := by
  by_cases hmethod : ∃ target memberUnwrap name,
      receiver.shape = .suffixed target memberUnwrap (.member name)
  · -- The target is annotated as it is below a member access that is not called.
    obtain ⟨target, memberUnwrap, name, hshape⟩ := hmethod
    have htarget := Expr.annotate_target_congr hshape
      (Expr.shape_annotate_member scope receiver.expected hshape) hreceiver
    rw [Expr.expected_annotate] at htarget
    simp only [Shape.annotate_methodCall scope _ hshape]
    rw [Shape.annotate_methodCall scope _ rfl]
    simp only [Expr.expected_annotate, htarget, harguments,
      Scope.callTyping_congr (labels_argumentsAnnotate scope _ arguments)]
  · have hmethod' : ¬∃ target memberUnwrap name,
        (receiver.annotate scope receiver.expected).shape =
          .suffixed target memberUnwrap (.member name) := by
      rintro ⟨_, memberUnwrap, name, h⟩
      obtain ⟨target, h⟩ := Expr.exists_member_of_annotate scope _ h
      exact hmethod ⟨target, memberUnwrap, name, h⟩
    simp only [Shape.annotate_valueCall scope _ unwrap arguments hmethod]
    rw [Shape.annotate_valueCall scope _ unwrap _ hmethod']
    simp only [Expr.expected_annotate, hreceiver, harguments,
      Scope.valueCallTyping_congr (labels_argumentsAnnotate scope _ arguments)]

mutual

/-- **Annotating an expression again changes nothing.** -/
theorem Expr.annotate_annotate (scope : Scope) (asked : Option SwiftType) :
    ∀ e : Expr, (e.annotate scope asked).annotate scope asked = e.annotate scope asked
  | ⟨shape, _, _, _⟩ => by
    simp only [Expr.annotate, Shape.annotate_annotate scope asked shape]

theorem Shape.annotate_annotate (scope : Scope) (asked : Option SwiftType) :
    ∀ shape : Shape,
      (shape.annotate scope asked).1.annotate scope asked = shape.annotate scope asked
  | .identifier _ => rfl
  | .constant _ => rfl
  | .unary op operand => by
    have ih := operand.annotate_annotate scope
    simp only [Shape.annotate, Expr.expected_annotate]
    split_ifs <;> simp only [ih]
  | .binary lhs op rhs => by
    have ihl := lhs.annotate_annotate scope
    have ihr := rhs.annotate_annotate scope
    cases hnil : lhs.isNil with
    | true =>
      simp only [Shape.annotate_binary_of_isNil scope _ hnil]
      rw [Shape.annotate_binary_of_isNil scope _ (by simpa using hnil)]
      simp only [Operator.asks_annotate, ihl, ihr]
    | false =>
      simp only [Shape.annotate_binary scope _ hnil]
      rw [Shape.annotate_binary scope _ (by simpa using hnil)]
      simp only [Operator.asks_annotate, Operator.asksRight_annotate, ihl, ihr]
  | .ternary condition ifTrue ifFalse => by
    simp only [Shape.annotate, condition.annotate_annotate scope, ifTrue.annotate_annotate scope,
      ifFalse.annotate_annotate scope]
  | .assignment lhs op rhs => by
    have ihr := rhs.annotate_annotate scope
    simp only [Shape.annotate, Expr.expected_annotate, lhs.annotate_annotate scope]
    split_ifs <;> simp only [ihr]
  | .suffixed receiver unwrap (.member name) => by
    simp only [Shape.annotate_member, Expr.expected_annotate, receiver.annotate_annotate scope]
  | .suffixed receiver unwrap (.call arguments) =>
    Shape.annotate_annotate_call scope asked unwrap
      (receiver.annotate_annotate scope receiver.expected)
      fun parameters => argumentsAnnotate_annotate scope parameters arguments
  | .suffixed receiver unwrap (.subscript index) => by
    simp only [Shape.annotate_subscript, Expr.expected_annotate, receiver.annotate_annotate scope,
      index.annotate_annotate scope]
  | .cast expression target => by
    simp only [Shape.annotate, Expr.expected_annotate, expression.annotate_annotate scope]
  | .sizeOfValue expression => by
    simp only [Shape.annotate, Expr.expected_annotate, expression.annotate_annotate scope]
  | .sizeOfType _ => rfl
  | .parens inner => by
    simp only [Shape.annotate, inner.annotate_annotate scope]
  | .arrayLiteral elements => by
    simp only [Shape.annotate, exprsAnnotate_annotate scope _ elements]
  | .dictionaryLiteral entries => by
    simp only [Shape.annotate, entriesAnnotate_annotate scope entries]
  | .block parameters result body => by
    simp only [Shape.annotate, bodyAnnotate_annotate _ body]
  | .unknown _ => rfl

theorem exprsAnnotate_annotate (scope : Scope) (asked : Option SwiftType) :
    ∀ es : List Expr,
      exprsAnnotate scope asked (exprsAnnotate scope asked es) = exprsAnnotate scope asked es
  | [] => rfl
  | e :: es => by
    simp only [exprsAnnotate, e.annotate_annotate scope, exprsAnnotate_annotate scope asked es]

theorem argumentsAnnotate_annotate (scope : Scope) :
    ∀ (parameters : List SwiftType) (arguments : List Argument),
      argumentsAnnotate scope parameters (argumentsAnnotate scope parameters arguments) =
        argumentsAnnotate scope parameters arguments
  | _, [] => rfl
  | parameters, ⟨_, value⟩ :: rest => by
    have hasked : parameters.head?.or (parameters.head?.or value.expected) =
        parameters.head?.or value.expected := by
      cases parameters <;> rfl
    simp only [argumentsAnnotate, Expr.expected_annotate, hasked, value.annotate_annotate scope,
      argumentsAnnotate_annotate scope parameters.tail rest]

theorem entriesAnnotate_annotate (scope : Scope) :
    ∀ entries : List Entry,
      entriesAnnotate scope (entriesAnnotate scope entries) = entriesAnnotate scope entries
  | [] => rfl
  | ⟨key, value⟩ :: rest => by
    simp only [entriesAnnotate, Expr.expected_annotate, key.annotate_annotate scope,
      value.annotate_annotate scope, entriesAnnotate_annotate scope rest]

theorem bodyAnnotate_annotate (scope : Scope) :
    ∀ body : List Stmt, bodyAnnotate scope (bodyAnnotate scope body) = bodyAnnotate scope body
  | [] => rfl
  | s :: ss => by
    simp only [bodyAnnotate, s.annotate_annotate scope, bodyAnnotate_annotate _ ss]

theorem variablesAnnotate_annotate (scope : Scope) :
    ∀ declarations : List Variable,
      variablesAnnotate scope (variablesAnnotate scope declarations) =
        variablesAnnotate scope declarations
  | [] => rfl
  | ⟨_, _, none, _⟩ :: rest => by
    simp only [variablesAnnotate, variablesAnnotate_annotate _ rest]
  | ⟨_, type, some initial, _⟩ :: rest => by
    simp only [variablesAnnotate, Expr.expected_annotate, Variable.asks_asks,
      initial.annotate_annotate scope, variablesAnnotate_annotate _ rest]

theorem Stmt.annotate_annotate (scope : Scope) :
    ∀ s : Stmt, (s.annotate scope).annotate scope = s.annotate scope
  | .compound body => by
    simp only [Stmt.annotate, bodyAnnotate_annotate scope body]
  | .branch condition body none => by
    simp only [Stmt.annotate, condition.annotate_annotate scope, bodyAnnotate_annotate scope body]
  | .branch condition body (some otherwise) => by
    simp only [Stmt.annotate, condition.annotate_annotate scope, bodyAnnotate_annotate scope body,
      bodyAnnotate_annotate scope otherwise]
  | .whileLoop condition body => by
    simp only [Stmt.annotate, condition.annotate_annotate scope, bodyAnnotate_annotate scope body]
  | .repeatLoop body condition => by
    simp only [Stmt.annotate, condition.annotate_annotate scope, bodyAnnotate_annotate scope body]
  | .forIn binding sequence body => by
    simp only [Stmt.annotate, Expr.expected_annotate, sequence.annotate_annotate scope,
      bodyAnnotate_annotate _ body]
  | .return none => rfl
  | .return (some value) => by
    simp only [Stmt.annotate, value.annotate_annotate scope]
  | .expressions values => by
    simp only [Stmt.annotate, ownAnnotate_annotate scope values]
  | .locals declarations => by
    simp only [Stmt.annotate, variablesAnnotate_annotate scope declarations]
  | .break => rfl
  | .continue => rfl
  | .unknown _ => rfl

theorem ownAnnotate_annotate (scope : Scope) :
    ∀ es : List Expr, ownAnnotate scope (ownAnnotate scope es) = ownAnnotate scope es
  | [] => rfl
  | e :: es => by
    simp only [ownAnnotate, Expr.expected_annotate, e.annotate_annotate scope,
      ownAnnotate_annotate scope es]

end

/-! ### Types found before -/

/-- Empties the slot for the type that was found, of every expression. -/
def unresolver : Editor Unit where
  exitExpr e _ := ({ e with resolved := none }, ())

/-- An expression without the types that were found. -/
def Expr.unresolved (e : Expr) : Expr :=
  (e.edit unresolver ()).1

/-- A body without the types that were found. -/
def Body.unresolved (body : Body) : Body :=
  (bodyEdit unresolver body ()).1

theorem Expr.unresolved_eq (e : Expr) :
    e.unresolved = ⟨(e.shape.edit unresolver ()).1, none, e.expected, e.source⟩ := by
  obtain ⟨shape, _, _, _⟩ := e
  rfl

@[simp]
theorem Expr.expected_unresolved (e : Expr) : e.unresolved.expected = e.expected := by
  rw [unresolved_eq]

@[simp]
theorem Expr.isNil_unresolved (e : Expr) : e.unresolved.isNil = e.isNil := by
  obtain ⟨shape, _, _, _⟩ := e
  cases shape <;> rfl

/-- What is a member access without the types that were found is one with them. -/
theorem Expr.exists_member_of_unresolved {e target : Expr} {unwrap : Unwrap} {name : String}
    (h : e.unresolved.shape = .suffixed target unwrap (.member name)) :
    ∃ target, e.shape = .suffixed target unwrap (.member name) := by
  obtain ⟨shape, _, _, _⟩ := e
  rw [Expr.unresolved_eq] at h
  cases shape with
  | suffixed receiver unwrap' suffix =>
    cases suffix <;> simp_all [Shape.edit, Suffix.edit]
  | _ => simp [Shape.edit] at h

/-- A call of a method stays one without the types that were found, and so does a call of a
value. -/
theorem Shape.annotate_unresolved_call (scope : Scope) (asked : Option SwiftType) {receiver : Expr}
    (unwrap : Unwrap) {arguments : List Argument}
    (hreceiver : receiver.unresolved.annotate scope receiver.expected =
      receiver.annotate scope receiver.expected)
    (harguments : ∀ parameters,
      argumentsAnnotate scope parameters (argumentsEdit unresolver arguments ()).1 =
        argumentsAnnotate scope parameters arguments) :
    ((Shape.suffixed receiver unwrap (.call arguments)).edit unresolver ()).1.annotate scope asked =
      (Shape.suffixed receiver unwrap (.call arguments)).annotate scope asked := by
  have hlabels := labels_argumentsEdit unresolver arguments ()
  show (Shape.suffixed receiver.unresolved unwrap
    (.call (argumentsEdit unresolver arguments ()).1)).annotate scope asked = _
  by_cases hmethod : ∃ target memberUnwrap name,
      receiver.shape = .suffixed target memberUnwrap (.member name)
  · -- As below a member access that is not called.
    obtain ⟨target, memberUnwrap, name, hshape⟩ := hmethod
    have hshape' : receiver.unresolved.shape =
        .suffixed target.unresolved memberUnwrap (.member name) := by
      rw [Expr.unresolved_eq, hshape]
      rfl
    have htarget := Expr.annotate_target_congr hshape hshape' hreceiver
    rw [Expr.expected_unresolved] at htarget
    rw [Shape.annotate_methodCall scope _ hshape, Shape.annotate_methodCall scope _ hshape']
    simp only [Expr.expected_unresolved, htarget, Scope.callTyping_congr hlabels, harguments,
      Expr.unresolved_eq receiver]
  · have hmethod' : ¬∃ target memberUnwrap name,
        receiver.unresolved.shape = .suffixed target memberUnwrap (.member name) := by
      rintro ⟨_, memberUnwrap, name, h⟩
      obtain ⟨target, h⟩ := Expr.exists_member_of_unresolved h
      exact hmethod ⟨target, memberUnwrap, name, h⟩
    rw [Shape.annotate_valueCall scope _ unwrap _ hmethod,
      Shape.annotate_valueCall scope _ unwrap _ hmethod']
    simp only [Expr.expected_unresolved, hreceiver, Scope.valueCallTyping_congr hlabels, harguments]

mutual

/-- **Annotating does not look at the types found before.** -/
theorem Expr.annotate_unresolved (scope : Scope) (asked : Option SwiftType) :
    ∀ e : Expr, e.unresolved.annotate scope asked = e.annotate scope asked
  | ⟨shape, _, _, _⟩ => by
    rw [Expr.unresolved_eq]
    simp only [Expr.annotate, Shape.annotate_unresolved scope asked shape]

theorem Shape.annotate_unresolved (scope : Scope) (asked : Option SwiftType) :
    ∀ shape : Shape, (shape.edit unresolver ()).1.annotate scope asked = shape.annotate scope asked
  | .identifier _ => rfl
  | .constant _ => rfl
  | .unary op operand => by
    show (Shape.unary op operand.unresolved).annotate scope asked = _
    simp only [Shape.annotate, Expr.expected_unresolved, operand.annotate_unresolved scope]
  | .binary lhs op rhs => by
    show (Shape.binary lhs.unresolved op rhs.unresolved).annotate scope asked = _
    simp only [Shape.annotate, Expr.expected_unresolved, Expr.isNil_unresolved,
      lhs.annotate_unresolved scope, rhs.annotate_unresolved scope]
  | .ternary condition ifTrue ifFalse => by
    show (Shape.ternary condition.unresolved ifTrue.unresolved ifFalse.unresolved).annotate
      scope asked = _
    simp only [Shape.annotate, condition.annotate_unresolved scope,
      ifTrue.annotate_unresolved scope, ifFalse.annotate_unresolved scope]
  | .assignment lhs op rhs => by
    show (Shape.assignment lhs.unresolved op rhs.unresolved).annotate scope asked = _
    simp only [Shape.annotate, Expr.expected_unresolved, lhs.annotate_unresolved scope,
      rhs.annotate_unresolved scope]
  | .suffixed receiver unwrap (.member name) => by
    show (Shape.suffixed receiver.unresolved unwrap (.member name)).annotate scope asked = _
    simp only [Shape.annotate_member, Expr.expected_unresolved, receiver.annotate_unresolved scope]
  | .suffixed receiver unwrap (.call arguments) =>
    Shape.annotate_unresolved_call scope asked unwrap
      (receiver.annotate_unresolved scope receiver.expected)
      fun parameters => argumentsAnnotate_unresolved scope parameters arguments
  | .suffixed receiver unwrap (.subscript index) => by
    show (Shape.suffixed receiver.unresolved unwrap (.subscript index.unresolved)).annotate
      scope asked = _
    simp only [Shape.annotate_subscript, Expr.expected_unresolved,
      receiver.annotate_unresolved scope, index.annotate_unresolved scope]
  | .cast expression target => by
    show (Shape.cast expression.unresolved target).annotate scope asked = _
    simp only [Shape.annotate, Expr.expected_unresolved, expression.annotate_unresolved scope]
  | .sizeOfValue expression => by
    show (Shape.sizeOfValue expression.unresolved).annotate scope asked = _
    simp only [Shape.annotate, Expr.expected_unresolved, expression.annotate_unresolved scope]
  | .sizeOfType _ => rfl
  | .parens inner => by
    show (Shape.parens inner.unresolved).annotate scope asked = _
    simp only [Shape.annotate, inner.annotate_unresolved scope]
  | .arrayLiteral elements => by
    show (Shape.arrayLiteral (exprsEdit unresolver elements ()).1).annotate scope asked = _
    simp only [Shape.annotate, exprsAnnotate_unresolved scope _ elements]
  | .dictionaryLiteral entries => by
    show (Shape.dictionaryLiteral (entriesEdit unresolver entries ()).1).annotate scope asked = _
    simp only [Shape.annotate, entriesAnnotate_unresolved scope entries]
  | .block parameters result body => by
    show (Shape.block parameters result (bodyEdit unresolver body ()).1).annotate scope asked = _
    simp only [Shape.annotate, bodyAnnotate_unresolved _ body]
  | .unknown _ => rfl

theorem exprsAnnotate_unresolved (scope : Scope) (asked : Option SwiftType) :
    ∀ es : List Expr,
      exprsAnnotate scope asked (exprsEdit unresolver es ()).1 = exprsAnnotate scope asked es
  | [] => rfl
  | e :: es => by
    show exprsAnnotate scope asked (e.unresolved :: (exprsEdit unresolver es ()).1) = _
    simp only [exprsAnnotate, e.annotate_unresolved scope, exprsAnnotate_unresolved scope asked es]

theorem argumentsAnnotate_unresolved (scope : Scope) :
    ∀ (parameters : List SwiftType) (arguments : List Argument),
      argumentsAnnotate scope parameters (argumentsEdit unresolver arguments ()).1 =
        argumentsAnnotate scope parameters arguments
  | _, [] => rfl
  | parameters, ⟨label, value⟩ :: rest => by
    show argumentsAnnotate scope parameters
      (⟨label, value.unresolved⟩ :: (argumentsEdit unresolver rest ()).1) = _
    simp only [argumentsAnnotate, Expr.expected_unresolved, value.annotate_unresolved scope,
      argumentsAnnotate_unresolved scope parameters.tail rest]

theorem entriesAnnotate_unresolved (scope : Scope) :
    ∀ entries : List Entry,
      entriesAnnotate scope (entriesEdit unresolver entries ()).1 = entriesAnnotate scope entries
  | [] => rfl
  | ⟨key, value⟩ :: rest => by
    show entriesAnnotate scope
      (⟨key.unresolved, value.unresolved⟩ :: (entriesEdit unresolver rest ()).1) = _
    simp only [entriesAnnotate, Expr.expected_unresolved, key.annotate_unresolved scope,
      value.annotate_unresolved scope, entriesAnnotate_unresolved scope rest]

theorem bodyAnnotate_unresolved (scope : Scope) :
    ∀ body : List Stmt,
      bodyAnnotate scope (bodyEdit unresolver body ()).1 = bodyAnnotate scope body
  | [] => rfl
  | s :: ss => by
    show bodyAnnotate scope ((s.edit unresolver ()).1 :: (bodyEdit unresolver ss ()).1) = _
    simp only [bodyAnnotate, s.annotate_unresolved scope, bodyAnnotate_unresolved _ ss]

theorem variablesAnnotate_unresolved (scope : Scope) :
    ∀ declarations : List Variable,
      variablesAnnotate scope (variablesEdit unresolver declarations ()).1 =
        variablesAnnotate scope declarations
  | [] => rfl
  | ⟨name, type, none, constant⟩ :: rest => by
    show variablesAnnotate scope
      (⟨name, type, none, constant⟩ :: (variablesEdit unresolver rest ()).1) = _
    simp only [variablesAnnotate, variablesAnnotate_unresolved _ rest]
  | ⟨name, type, some initial, constant⟩ :: rest => by
    show variablesAnnotate scope
      (⟨name, type, some initial.unresolved, constant⟩ :: (variablesEdit unresolver rest ()).1) = _
    simp only [variablesAnnotate, Expr.expected_unresolved, initial.annotate_unresolved scope,
      variablesAnnotate_unresolved _ rest]

theorem Stmt.annotate_unresolved (scope : Scope) :
    ∀ s : Stmt, (s.edit unresolver ()).1.annotate scope = s.annotate scope
  | .compound body => by
    show (Stmt.compound (bodyEdit unresolver body ()).1).annotate scope = _
    simp only [Stmt.annotate, bodyAnnotate_unresolved scope body]
  | .branch condition body none => by
    show (Stmt.branch condition.unresolved (bodyEdit unresolver body ()).1 none).annotate scope = _
    simp only [Stmt.annotate, condition.annotate_unresolved scope,
      bodyAnnotate_unresolved scope body]
  | .branch condition body (some otherwise) => by
    show (Stmt.branch condition.unresolved (bodyEdit unresolver body ()).1
      (some (bodyEdit unresolver otherwise ()).1)).annotate scope = _
    simp only [Stmt.annotate, condition.annotate_unresolved scope,
      bodyAnnotate_unresolved scope body, bodyAnnotate_unresolved scope otherwise]
  | .whileLoop condition body => by
    show (Stmt.whileLoop condition.unresolved (bodyEdit unresolver body ()).1).annotate scope = _
    simp only [Stmt.annotate, condition.annotate_unresolved scope,
      bodyAnnotate_unresolved scope body]
  | .repeatLoop body condition => by
    show (Stmt.repeatLoop (bodyEdit unresolver body ()).1 condition.unresolved).annotate scope = _
    simp only [Stmt.annotate, condition.annotate_unresolved scope,
      bodyAnnotate_unresolved scope body]
  | .forIn binding sequence body => by
    show (Stmt.forIn binding sequence.unresolved (bodyEdit unresolver body ()).1).annotate scope = _
    simp only [Stmt.annotate, Expr.expected_unresolved, sequence.annotate_unresolved scope,
      bodyAnnotate_unresolved _ body]
  | .return none => rfl
  | .return (some value) => by
    show (Stmt.return (some value.unresolved)).annotate scope = _
    simp only [Stmt.annotate, value.annotate_unresolved scope]
  | .expressions values => by
    show (Stmt.expressions (exprsEdit unresolver values ()).1).annotate scope = _
    simp only [Stmt.annotate, ownAnnotate_unresolved scope values]
  | .locals declarations => by
    show (Stmt.locals (variablesEdit unresolver declarations ()).1).annotate scope = _
    simp only [Stmt.annotate, variablesAnnotate_unresolved scope declarations]
  | .break => rfl
  | .continue => rfl
  | .unknown _ => rfl

theorem ownAnnotate_unresolved (scope : Scope) :
    ∀ es : List Expr, ownAnnotate scope (exprsEdit unresolver es ()).1 = ownAnnotate scope es
  | [] => rfl
  | e :: es => by
    show ownAnnotate scope (e.unresolved :: (exprsEdit unresolver es ()).1) = _
    simp only [ownAnnotate, Expr.expected_unresolved, e.annotate_unresolved scope,
      ownAnnotate_unresolved scope es]

end

/-! ### Bodies -/

/-- **Annotating a body again changes nothing**, whatever the context: neither the types that were
found nor what was asked for. And bodies that differ at most in the types found before become the
same. -/
theorem annotating_again_changes_nothing (c : Catalog) (context : BodyContext) :
    (∀ body : Body, Body.annotate c context (body.annotate c context) = body.annotate c context) ∧
      ∀ body body' : Body, body.unresolved = body'.unresolved →
        body.annotate c context = body'.annotate c context := by
  refine ⟨bodyAnnotate_annotate _, fun body body' h => ?_⟩
  calc body.annotate c context
      = Body.annotate c context body.unresolved := (bodyAnnotate_unresolved _ body).symm
    _ = Body.annotate c context body'.unresolved := by rw [h]
    _ = body'.annotate c context := bodyAnnotate_unresolved _ body'

/-- `let shown = title?.uppercased(); return shown ?? ""`, where the called method was found to be
of some type before. -/
def shoutedTitle (found : Option SwiftType) : Body :=
  let method : Expr :=
    { shape := .suffixed (.identifier "title") .safe (.member "uppercased"), resolved := found }
  [.locals [⟨"shown", .unknown, some (method.call []), true⟩],
    .return (some
      { shape := .binary (.identifier "shown") .nullCoalesce { shape := .constant (.string "") } })]

/-- What was found of the method before makes no difference, and the types come out as declared: the
call gives an optional, which the operator takes away again. -/
theorem annotating_again_changes_nothing_shoutedTitle :
    (shoutedTitle none).unresolved = (shoutedTitle (some .bool)).unresolved ∧
      (shoutedTitle none).annotate .builtin { parameters := [("title", .optional .string)] } =
        (shoutedTitle (some .bool)).annotate .builtin
          { parameters := [("title", .optional .string)] } ∧
      ((shoutedTitle none).annotate .builtin
          { parameters := [("title", .optional .string)] }).allExpressions.map (·.resolved) =
        [some (.optional .string), some (.optional (.block .string [])), some (.optional .string),
          some .string, some (.optional .string), some .string] :=
  ⟨rfl, (annotating_again_changes_nothing .builtin
    { parameters := [("title", .optional .string)] }).2 _ _ rfl, by cbv⟩

end ObjcSwift
