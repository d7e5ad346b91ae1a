import ObjcSwift.Proofs.Typing.Equations
import Mathlib

/-!
# Annotating with a stack

The scope of an expression can be kept in one place while a body is walked: a stack of frames, the
innermost on top, and the type that is to be returned. A nested body pushes a frame and pops it, a
loop pushes one for its binding and a block expression one for its parameters, a declaration adds to
the frame on top, and a block expression replaces the type that is to be returned and puts the old
one back.

The walk that works on such a stack (`Stmt.walk`) finds what annotating finds, and **gives the stack
back as it was**, but for what declarations added to the frame on top (`Stmt.run_walk`,
`ScopeWalk.run_nested`). A statement that is no declaration therefore makes no difference to the
statements around it (`scopes_do_not_leak`).
-/

namespace ObjcSwift

/-! ### The stack -/

/-- What names mean at the place that a walk has reached. There is always a frame on top. -/
structure ScopeStack where
  /-- The known types and globals. -/
  catalog : Catalog
  /-- The surroundings of the body, and what is to be returned at this place. -/
  context : BodyContext
  /-- The locals of the frame on top, the latest first. -/
  frame : List (String × SwiftType)
  /-- The frames below. -/
  below : List (List (String × SwiftType))

namespace ScopeStack

/-- The stack at the start of a body: one frame, which holds the parameters. -/
def start (catalog : Catalog) (context : BodyContext) : ScopeStack :=
  ⟨catalog, context, context.parameters.reverse, []⟩

/-- What names mean: a name is looked up from the frame on top downwards. -/
def scope (stack : ScopeStack) : Scope :=
  ⟨stack.catalog, stack.context, (stack.frame :: stack.below).flatten⟩

/-- The stack with a new frame on top. -/
def push (stack : ScopeStack) : ScopeStack :=
  { stack with frame := [], below := stack.frame :: stack.below }

/-- The stack without the frame on top; the last frame is emptied. -/
def pop (stack : ScopeStack) : ScopeStack :=
  match stack.below with
  | [] => { stack with frame := [] }
  | frame :: below => { stack with frame, below }

/-- The stack with one more local in the frame on top. -/
def define (stack : ScopeStack) (entry : String × SwiftType) : ScopeStack :=
  { stack with frame := entry :: stack.frame }

/-- The stack with more locals in the frame on top. -/
def defineAll (stack : ScopeStack) (entries : List (String × SwiftType)) : ScopeStack :=
  entries.foldl define stack

/-- The stack at a place where something else is to be returned. -/
def returning (stack : ScopeStack) (result : Option SwiftType) : ScopeStack :=
  { stack with context.result := result }

variable (stack : ScopeStack) (entry : String × SwiftType) (entries : List (String × SwiftType))

@[simp]
theorem scope_start (c : Catalog) (context : BodyContext) :
    (start c context).scope = .start c context := by
  simp [scope, start, Scope.start]

@[simp]
theorem scope_push : stack.push.scope = stack.scope := rfl

@[simp]
theorem scope_define : (stack.define entry).scope = stack.scope.define entry := rfl

@[simp]
theorem scope_defineAll : (stack.defineAll entries).scope = stack.scope.defineAll entries := by
  induction entries generalizing stack with
  | nil => rfl
  | cons entry entries ih => exact ih (stack.define entry)

theorem frame_defineAll : stack.defineAll entries =
    { stack with frame := entries.reverse ++ stack.frame } := by
  induction entries generalizing stack with
  | nil => rfl
  | cons entry entries ih =>
    show (stack.define entry).defineAll entries = _
    rw [ih, List.reverse_cons, List.append_assoc]
    rfl

/-- Whatever was declared in a frame is gone with it. -/
@[simp]
theorem pop_defineAll_push : (stack.push.defineAll entries).pop = stack := by
  rw [frame_defineAll]
  rfl

@[simp]
theorem defineAll_defineAll (entries' : List (String × SwiftType)) :
    (stack.defineAll entries).defineAll entries' = stack.defineAll (entries ++ entries') :=
  List.foldl_append.symm

end ScopeStack

/-! ### The walk -/

/-- A step of a walk with a stack. -/
abbrev ScopeWalk (α : Type) := StateM ScopeStack α

namespace ScopeWalk

/-- The scope at the place that was reached. -/
def scope : ScopeWalk Scope := do
  return (← get).scope

/-- A step inside a frame of its own. -/
def framed {α : Type} (step : ScopeWalk α) : ScopeWalk α := do
  modify .push
  let value ← step
  modify .pop
  return value

end ScopeWalk

mutual

/-- Annotates an expression. -/
def Expr.walk (asked : Option SwiftType) : Expr → ScopeWalk Expr
  | ⟨shape, _, _, source⟩ => do
    let (shape, type) ← shape.walk asked
    return ⟨shape, some type, asked, source⟩

/-- Annotates a shape. -/
def Shape.walk (asked : Option SwiftType) : Shape → ScopeWalk (Shape × SwiftType)
  | .identifier name => do
    return (.identifier name, (← ScopeWalk.scope).typeOf name)
  | .constant value => return (.constant value, value.type asked)
  | .unary op operand => do
    let operand ← operand.walk (if op = .negate then some .bool else operand.expected)
    return (.unary op operand, op.unaryType operand.type)
  | .binary lhs op rhs =>
    if lhs.isNil then do
      let rhs ← rhs.walk (op.asks rhs)
      let lhs ← lhs.walk (some rhs.type)
      return (.binary lhs op rhs, op.binaryType lhs.type rhs.type)
    else do
      let lhs ← lhs.walk (op.asks lhs)
      let rhs ← rhs.walk (op.asksRight lhs.type rhs)
      return (.binary lhs op rhs, op.binaryType lhs.type rhs.type)
  | .ternary condition ifTrue ifFalse => do
    let condition ← condition.walk (some .bool)
    let ifTrue ← ifTrue.walk asked
    let ifFalse ← ifFalse.walk asked
    return (.ternary condition ifTrue ifFalse,
      .ofBranches ifTrue.type ifFalse.type ifTrue.isNil ifFalse.isNil)
  | .assignment lhs op rhs => do
    let lhs ← lhs.walk lhs.expected
    let rhs ← rhs.walk (if lhs.type.isUnknown then rhs.expected else some lhs.type)
    return (.assignment lhs op rhs, .void)
  | .suffixed ⟨.suffixed target memberUnwrap (.member name), _, calleeAsked, source⟩ unwrap
      (.call arguments) => do
    let target ← target.walk target.expected
    let typing := (← ScopeWalk.scope).callTyping target.type memberUnwrap name unwrap arguments
    let arguments ← argumentsWalk typing.parameters arguments
    return (.suffixed ⟨.suffixed target memberUnwrap (.member name), some typing.callee,
      calleeAsked, source⟩ unwrap (.call arguments), typing.result)
  | .suffixed receiver unwrap suffix => do
    let receiver ← receiver.walk receiver.expected
    let (base, becomes) := receiver.type.opened unwrap
    let (suffix, type) ← suffix.walk base
    return (.suffixed receiver unwrap suffix, type.chained becomes)
  | .cast expression target => do
    return (.cast (← expression.walk expression.expected) target, .optional target)
  | .sizeOfValue expression => do
    return (.sizeOfValue (← expression.walk expression.expected), .int)
  | .sizeOfType type => return (.sizeOfType type, .int)
  | .parens inner => do
    let inner ← inner.walk asked
    return (.parens inner, inner.type)
  | .arrayLiteral elements => do
    let element := asked.bind fun t => t.base.arrayElement?
    let elements ← exprsWalk element elements
    return (.arrayLiteral elements, .ofArrayLiteral (elements.map (·.type)) element)
  | .dictionaryLiteral entries => do
    let entries ← entriesWalk entries
    return (.dictionaryLiteral entries, .ofDictionaryLiteral (entries.map (·.key.type))
      (entries.map (·.value.type)) (asked.bind fun t => t.base.dictionaryTypes?))
  | .block parameters result body => do
    let outer := (← get).context.result
    modify (·.returning (some result))
    let body ← ScopeWalk.framed do
      modify (·.defineAll (parameters.map fun p => (p.name, p.type)))
      ScopeWalk.framed (bodyWalk body)
    modify (·.returning outer)
    return (.block parameters result body, .block result (parameters.map (·.type)))
  | .unknown text => return (.unknown text, .unknown)

/-- Annotates a suffix. -/
def Suffix.walk (base : SwiftType) : Suffix → ScopeWalk (Suffix × SwiftType)
  | .member name => do
    let found := (← ScopeWalk.scope).catalog.member? base name base.isMetatype
    return (.member name, (found.map Member.type).getD .unknown)
  | .call arguments => do
    let (parameters, result) := (← ScopeWalk.scope).valueCallTyping base arguments
    return (.call (← argumentsWalk parameters arguments), result)
  | .subscript index => do
    let index ← index.walk index.expected
    return (.subscript index, ((← ScopeWalk.scope).catalog.subscript? base).getD .unknown)

/-- Annotates several expressions, all asked for the same. -/
def exprsWalk (asked : Option SwiftType) : List Expr → ScopeWalk (List Expr)
  | [] => return []
  | e :: es => do
    return (← e.walk asked) :: (← exprsWalk asked es)

/-- Annotates arguments. -/
def argumentsWalk : List SwiftType → List Argument → ScopeWalk (List Argument)
  | _, [] => return []
  | parameters, ⟨label, value⟩ :: rest => do
    let value ← value.walk (parameters.head?.or value.expected)
    return ⟨label, value⟩ :: (← argumentsWalk parameters.tail rest)

/-- Annotates dictionary entries. -/
def entriesWalk : List Entry → ScopeWalk (List Entry)
  | [] => return []
  | ⟨key, value⟩ :: rest => do
    let key ← key.walk key.expected
    let value ← value.walk value.expected
    return ⟨key, value⟩ :: (← entriesWalk rest)

/-- Annotates the statements of a body, in the frame on top. -/
def bodyWalk : List Stmt → ScopeWalk (List Stmt)
  | [] => return []
  | s :: ss => do
    return (← s.walk) :: (← bodyWalk ss)

/-- Annotates variable declarations, which go into the frame on top. -/
def variablesWalk : List Variable → ScopeWalk (List Variable)
  | [] => return []
  | ⟨name, type, none, constant⟩ :: rest => do
    let declared : Variable := ⟨name, type, none, constant⟩
    modify (·.define declared.entry)
    return declared :: (← variablesWalk rest)
  | ⟨name, type, some initial, constant⟩ :: rest => do
    let initial ← initial.walk (Variable.asks type initial.expected)
    let declared : Variable := ⟨name, type, some initial, constant⟩
    modify (·.define declared.entry)
    return declared :: (← variablesWalk rest)

/-- Annotates a statement. -/
def Stmt.walk : Stmt → ScopeWalk Stmt
  | .compound body => do
    return .compound (← ScopeWalk.framed (bodyWalk body))
  | .branch condition body none => do
    let condition ← condition.walk (some .bool)
    return .branch condition (← ScopeWalk.framed (bodyWalk body)) none
  | .branch condition body (some otherwise) => do
    let condition ← condition.walk (some .bool)
    let body ← ScopeWalk.framed (bodyWalk body)
    return .branch condition body (some (← ScopeWalk.framed (bodyWalk otherwise)))
  | .whileLoop condition body => do
    let condition ← condition.walk (some .bool)
    return .whileLoop condition (← ScopeWalk.framed (bodyWalk body))
  | .repeatLoop body condition => do
    let condition ← condition.walk (some .bool)
    return .repeatLoop (← ScopeWalk.framed (bodyWalk body)) condition
  | .forIn binding sequence body => do
    let sequence ← sequence.walk sequence.expected
    let body ← ScopeWalk.framed do
      modify (·.define (binding, sequence.type.sequenceElement))
      ScopeWalk.framed (bodyWalk body)
    return .forIn binding sequence body
  | .return none => return .return none
  | .return (some value) => do
    return .return (some (← value.walk (← get).context.result))
  | .expressions values => do
    return .expressions (← ownWalk values)
  | .locals declarations => do
    return .locals (← variablesWalk declarations)
  | .break => return .break
  | .continue => return .continue
  | .unknown source => return .unknown source

/-- Annotates several expressions, each asked for what it was asked for before. -/
def ownWalk : List Expr → ScopeWalk (List Expr)
  | [] => return []
  | e :: es => do
    return (← e.walk e.expected) :: (← ownWalk es)

end

/-! ### What the walk finds -/

namespace ScopeStack

variable (stack : ScopeStack) (entry : String × SwiftType)

@[simp]
theorem pop_define_push : (stack.push.define entry).pop = stack := rfl

/-- After a block expression the type that is to be returned is the old one. -/
@[simp]
theorem returning_returning (result : Option SwiftType) :
    (stack.returning result).returning stack.context.result = stack := rfl

theorem scope_returning (result : SwiftType) (parameters : List BlockParameter) :
    (stack.returning (some result)).scope.defineAll (parameters.map fun p => (p.name, p.type)) =
      stack.scope.enterBlock parameters result := rfl

end ScopeStack

namespace ScopeWalk

variable {α β : Type} (stack : ScopeStack)

theorem run_bind (step : ScopeWalk α) (next : α → ScopeWalk β) :
    (step >>= next).run stack = (next (step.run stack).1).run (step.run stack).2 := rfl

theorem run_pure (value : α) : (pure value : ScopeWalk α).run stack = (value, stack) := rfl

theorem run_get : (get : ScopeWalk ScopeStack).run stack = (stack, stack) := rfl

theorem run_modify (f : ScopeStack → ScopeStack) :
    (modify f : ScopeWalk PUnit).run stack = (.unit, f stack) := rfl

theorem run_scope : scope.run stack = (stack.scope, stack) := rfl

theorem run_framed (step : ScopeWalk α) :
    step.framed.run stack = ((step.run stack.push).1, (step.run stack.push).2.pop) := rfl

end ScopeWalk

/-! ### The walk, one suffix at a time -/

section Suffixes

variable (asked : Option SwiftType) (unwrap : Unwrap)

/-- A method call is walked as a whole after its target. -/
theorem Shape.walk_methodCall {callee target : Expr} {memberUnwrap : Unwrap} {name : String}
    (arguments : List Argument) (h : callee.shape = .suffixed target memberUnwrap (.member name)) :
    (Shape.suffixed callee unwrap (.call arguments)).walk asked = do
      let target ← target.walk target.expected
      let typing := (← ScopeWalk.scope).callTyping target.type memberUnwrap name unwrap arguments
      let arguments ← argumentsWalk typing.parameters arguments
      return (.suffixed ⟨.suffixed target memberUnwrap (.member name), some typing.callee,
        callee.expected, callee.source⟩ unwrap (.call arguments), typing.result) := by
  obtain ⟨_, _, _, _⟩ := callee
  obtain rfl := h
  rw [Shape.walk]

/-- Every other suffix is walked after its receiver. -/
theorem Shape.walk_suffixed {receiver : Expr} {suffix : Suffix}
    (h : (¬∃ target memberUnwrap name,
        receiver.shape = .suffixed target memberUnwrap (.member name)) ∨
      ∀ arguments, suffix ≠ .call arguments) :
    (Shape.suffixed receiver unwrap suffix).walk asked = do
      let receiver ← receiver.walk receiver.expected
      let (base, becomes) := receiver.type.opened unwrap
      let (suffix, type) ← suffix.walk base
      return (.suffixed receiver unwrap suffix, type.chained becomes) := by
  rw [Shape.walk]
  rintro target memberUnwrap name resolved asked source arguments rfl rfl
  rcases h with h | h
  · exact h ⟨target, memberUnwrap, name, rfl⟩
  · exact h arguments rfl

end Suffixes

/-- A nested body is walked in a frame of its own, and what it declares goes with the frame. -/
theorem ScopeWalk.run_nested {body : List Stmt}
    (h : ∀ stack : ScopeStack, (bodyWalk body).run stack = (bodyAnnotate stack.scope body,
      stack.defineAll ((bodyAnnotate stack.scope body).flatMap Stmt.entries)))
    (stack : ScopeStack) :
    (framed (bodyWalk body)).run stack = (bodyAnnotate stack.scope body, stack) := by
  rw [run_framed, h, ScopeStack.scope_push, ScopeStack.pop_defineAll_push]

open ScopeWalk in
/-- What is found of a member access includes what is found of its target. -/
theorem Expr.run_walk_target {callee target : Expr} {unwrap : Unwrap} {name : String}
    {stack : ScopeStack} (hshape : callee.shape = .suffixed target unwrap (.member name))
    (h : (callee.walk callee.expected).run stack =
      (callee.annotate stack.scope callee.expected, stack)) :
    (target.walk target.expected).run stack =
      (target.annotate stack.scope target.expected, stack) := by
  have hafter := Expr.shape_annotate_member stack.scope callee.expected hshape
  obtain ⟨_, _, _, _⟩ := callee
  obtain rfl := hshape
  rw [Expr.walk, Shape.walk_suffixed _ _ (.inr (by simp))] at h
  simp only [run_bind, run_pure, run_scope, Suffix.walk] at h
  obtain ⟨hvalue, hstack⟩ := Prod.mk.injEq .. ▸ h
  rw [← hvalue] at hafter
  injection hafter with htarget
  exact Prod.ext htarget hstack

open ScopeWalk in
mutual

/-- **The walk finds what annotating finds**, and gives the stack back. -/
theorem Expr.run_walk (asked : Option SwiftType) :
    ∀ (e : Expr) (stack : ScopeStack),
      (e.walk asked).run stack = (e.annotate stack.scope asked, stack)
  | ⟨shape, _, _, _⟩, stack => by
    simp only [Expr.walk, run_bind, run_pure, Shape.run_walk asked shape, Expr.annotate]

theorem Shape.run_walk (asked : Option SwiftType) :
    ∀ (shape : Shape) (stack : ScopeStack),
      (shape.walk asked).run stack = (shape.annotate stack.scope asked, stack)
  | .identifier _, _ => rfl
  | .constant _, _ => rfl
  | .unary op operand, stack => by
    simp only [Shape.walk, run_bind, run_pure, operand.run_walk, Shape.annotate]
  | .binary lhs op rhs, stack => by
    cases hnil : lhs.isNil with
    | true =>
      rw [Shape.walk, if_pos hnil, Shape.annotate_binary_of_isNil _ _ hnil]
      simp only [run_bind, run_pure, lhs.run_walk, rhs.run_walk]
    | false =>
      rw [Shape.walk, if_neg (by simp [hnil]), Shape.annotate_binary _ _ hnil]
      simp only [run_bind, run_pure, lhs.run_walk, rhs.run_walk]
  | .ternary condition ifTrue ifFalse, stack => by
    simp only [Shape.walk, run_bind, run_pure, condition.run_walk, ifTrue.run_walk,
      ifFalse.run_walk, Shape.annotate]
  | .assignment lhs op rhs, stack => by
    simp only [Shape.walk, run_bind, run_pure, lhs.run_walk, rhs.run_walk, Shape.annotate]
  | .suffixed receiver unwrap (.member name), stack => by
    rw [Shape.walk_suffixed _ _ (.inr (by simp)), Shape.annotate_member]
    simp only [run_bind, run_pure, run_scope, receiver.run_walk, Suffix.walk]
  | .suffixed receiver unwrap (.call arguments), stack => by
    by_cases hmethod : ∃ target memberUnwrap name,
        receiver.shape = .suffixed target memberUnwrap (.member name)
    · -- A method is called on its target, so the access of the method itself is not walked.
      obtain ⟨target, memberUnwrap, name, hshape⟩ := hmethod
      have htarget := Expr.run_walk_target hshape (receiver.run_walk receiver.expected stack)
      rw [Shape.walk_methodCall _ _ _ hshape, Shape.annotate_methodCall _ _ hshape]
      simp only [run_bind, run_pure, run_scope, htarget, argumentsWalk_run _ arguments]
    · rw [Shape.walk_suffixed _ _ (.inl hmethod), Shape.annotate_valueCall _ _ _ _ hmethod]
      simp only [run_bind, run_pure, run_scope, receiver.run_walk, Suffix.walk,
        argumentsWalk_run _ arguments]
  | .suffixed receiver unwrap (.subscript index), stack => by
    rw [Shape.walk_suffixed _ _ (.inr (by simp)), Shape.annotate_subscript]
    simp only [run_bind, run_pure, run_scope, receiver.run_walk, index.run_walk, Suffix.walk]
  | .cast expression target, stack => by
    simp only [Shape.walk, run_bind, run_pure, expression.run_walk, Shape.annotate]
  | .sizeOfValue expression, stack => by
    simp only [Shape.walk, run_bind, run_pure, expression.run_walk, Shape.annotate]
  | .sizeOfType _, _ => rfl
  | .parens inner, stack => by
    simp only [Shape.walk, run_bind, run_pure, inner.run_walk, Shape.annotate]
  | .arrayLiteral elements, stack => by
    simp only [Shape.walk, run_bind, run_pure, exprsWalk_run _ elements, Shape.annotate]
  | .dictionaryLiteral entries, stack => by
    simp only [Shape.walk, run_bind, run_pure, entriesWalk_run entries, Shape.annotate]
  | .block parameters result body, stack => by
    -- Two frames come and go, that of the body above that of the parameters, and what is to be
    -- returned is put back when both are gone.
    simp only [Shape.walk, run_bind, run_pure, run_get, run_modify, run_framed,
      run_nested (bodyWalk_run body), ScopeStack.scope_push, ScopeStack.scope_defineAll,
      ScopeStack.pop_defineAll_push, ScopeStack.scope_returning, ScopeStack.returning_returning,
      Shape.annotate]
  | .unknown _, _ => rfl

theorem exprsWalk_run (asked : Option SwiftType) :
    ∀ (es : List Expr) (stack : ScopeStack),
      (exprsWalk asked es).run stack = (exprsAnnotate stack.scope asked es, stack)
  | [], _ => rfl
  | e :: es, stack => by
    simp only [exprsWalk, run_bind, run_pure, e.run_walk, exprsWalk_run asked es, exprsAnnotate]

theorem argumentsWalk_run :
    ∀ (parameters : List SwiftType) (arguments : List Argument) (stack : ScopeStack),
      (argumentsWalk parameters arguments).run stack =
        (argumentsAnnotate stack.scope parameters arguments, stack)
  | _, [], _ => by simp only [argumentsWalk, run_pure, argumentsAnnotate]
  | parameters, ⟨label, value⟩ :: rest, stack => by
    simp only [argumentsWalk, run_bind, run_pure, value.run_walk,
      argumentsWalk_run parameters.tail rest, argumentsAnnotate]

theorem entriesWalk_run :
    ∀ (entries : List Entry) (stack : ScopeStack),
      (entriesWalk entries).run stack = (entriesAnnotate stack.scope entries, stack)
  | [], _ => rfl
  | ⟨key, value⟩ :: rest, stack => by
    simp only [entriesWalk, run_bind, run_pure, key.run_walk, value.run_walk,
      entriesWalk_run rest, entriesAnnotate]

/-- The statements of a body leave what they declare in the frame on top. -/
theorem bodyWalk_run :
    ∀ (body : List Stmt) (stack : ScopeStack), (bodyWalk body).run stack =
      (bodyAnnotate stack.scope body,
        stack.defineAll ((bodyAnnotate stack.scope body).flatMap Stmt.entries))
  | [], _ => rfl
  | s :: ss, stack => by
    simp only [bodyWalk, run_bind, run_pure, s.run_walk, bodyWalk_run ss, bodyAnnotate,
      ScopeStack.scope_defineAll, ScopeStack.defineAll_defineAll, List.flatMap_cons]

theorem variablesWalk_run :
    ∀ (declarations : List Variable) (stack : ScopeStack), (variablesWalk declarations).run stack =
      (variablesAnnotate stack.scope declarations,
        stack.defineAll ((variablesAnnotate stack.scope declarations).map Variable.entry))
  | [], _ => rfl
  | ⟨name, type, none, constant⟩ :: rest, stack => by
    simp only [variablesWalk, run_bind, run_pure, run_modify, variablesWalk_run rest,
      variablesAnnotate, ScopeStack.scope_define, List.map_cons]
    rfl
  | ⟨name, type, some initial, constant⟩ :: rest, stack => by
    simp only [variablesWalk, run_bind, run_pure, run_modify, initial.run_walk,
      variablesWalk_run rest, variablesAnnotate, ScopeStack.scope_define, List.map_cons]
    rfl

/-- **A statement leaves on the stack what it declares**, and nothing else. -/
theorem Stmt.run_walk :
    ∀ (s : Stmt) (stack : ScopeStack), s.walk.run stack =
      (s.annotate stack.scope, stack.defineAll (s.annotate stack.scope).entries)
  | .compound body, stack => by
    simp only [Stmt.walk, run_bind, run_pure, run_nested (bodyWalk_run body), Stmt.annotate]
    rfl
  | .branch condition body none, stack => by
    simp only [Stmt.walk, run_bind, run_pure, condition.run_walk, run_nested (bodyWalk_run body),
      Stmt.annotate]
    rfl
  | .branch condition body (some otherwise), stack => by
    simp only [Stmt.walk, run_bind, run_pure, condition.run_walk, run_nested (bodyWalk_run body),
      run_nested (bodyWalk_run otherwise), Stmt.annotate]
    rfl
  | .whileLoop condition body, stack => by
    simp only [Stmt.walk, run_bind, run_pure, condition.run_walk, run_nested (bodyWalk_run body),
      Stmt.annotate]
    rfl
  | .repeatLoop body condition, stack => by
    simp only [Stmt.walk, run_bind, run_pure, condition.run_walk, run_nested (bodyWalk_run body),
      Stmt.annotate]
    rfl
  | .forIn binding sequence body, stack => by
    simp only [Stmt.walk, run_bind, run_pure, run_framed, run_modify, sequence.run_walk,
      run_nested (bodyWalk_run body), ScopeStack.scope_define, ScopeStack.scope_push,
      ScopeStack.pop_define_push, Stmt.annotate]
    rfl
  | .return none, _ => rfl
  | .return (some value), stack => by
    simp only [Stmt.walk, run_bind, run_pure, run_get, value.run_walk, Stmt.annotate]
    rfl
  | .expressions values, stack => by
    simp only [Stmt.walk, run_bind, run_pure, ownWalk_run values, Stmt.annotate]
    rfl
  | .locals declarations, stack => by
    simp only [Stmt.walk, run_bind, run_pure, variablesWalk_run declarations, Stmt.annotate,
      Stmt.entries]
  | .break, _ => rfl
  | .continue, _ => rfl
  | .unknown _, _ => rfl

theorem ownWalk_run :
    ∀ (es : List Expr) (stack : ScopeStack),
      (ownWalk es).run stack = (ownAnnotate stack.scope es, stack)
  | [], _ => rfl
  | e :: es, stack => by
    simp only [ownWalk, run_bind, run_pure, e.run_walk, ownWalk_run es, ownAnnotate]

end

/-! ### Bodies -/

/-- Annotates a body, in a frame above that of the parameters. -/
def Body.walk (body : Body) : ScopeWalk Body :=
  ScopeWalk.framed (bodyWalk body)

/-- **Annotating a body is walking it with a stack.** -/
theorem Body.run_walk (c : Catalog) (context : BodyContext) (body : Body) :
    body.walk.run (.start c context) = (body.annotate c context, .start c context) := by
  rw [Body.walk, ScopeWalk.run_nested (bodyWalk_run body), ScopeStack.scope_start]
  rfl

/-- What is no declaration declares nothing. -/
theorem Stmt.entries_annotate {s : Stmt} (hs : ∀ declarations, s ≠ .locals declarations)
    (scope : Scope) : (s.annotate scope).entries = [] := by
  cases s with
  | locals declarations => exact absurd rfl (hs declarations)
  | «return» value => cases value <;> rfl
  | _ => rfl

/-- What is no declaration gives the stack back as it was. -/
theorem Stmt.run_walk_of_ne_locals {s : Stmt} (hs : ∀ declarations, s ≠ .locals declarations)
    (stack : ScopeStack) : s.walk.run stack = (s.annotate stack.scope, stack) := by
  rw [s.run_walk, Stmt.entries_annotate hs]
  rfl

/-- The second part of a body is walked with the stack that the first part leaves. -/
theorem run_bodyWalk_append (pre post : List Stmt) (stack : ScopeStack) :
    (bodyWalk (pre ++ post)).run stack =
      (((bodyWalk pre).run stack).1 ++ ((bodyWalk post).run ((bodyWalk pre).run stack).2).1,
        ((bodyWalk post).run ((bodyWalk pre).run stack).2).2) := by
  have happend : bodyWalk (pre ++ post) = do return (← bodyWalk pre) ++ (← bodyWalk post) := by
    induction pre with
    | nil => simp [bodyWalk]
    | cons s pre ih => simp [bodyWalk, ih]
  rw [happend]
  rfl

theorem length_bodyAnnotate (scope : Scope) (body : List Stmt) :
    (bodyAnnotate scope body).length = body.length := by
  induction body generalizing scope with
  | nil => rfl
  | cons s body ih => rw [bodyAnnotate, List.length_cons, List.length_cons, ih]

/-- **Scopes do not leak.** With one stack of frames and one place for what is to be returned,
annotating a body gives the stack back, and so does every statement that is no declaration itself,
whatever is declared, bound or returned inside it. So the statements around it come out as they
would without it. -/
theorem scopes_do_not_leak {s : Stmt} (hs : ∀ declarations, s ≠ .locals declarations) (c : Catalog)
    (context : BodyContext) :
    (∀ body : Body,
      body.walk.run (.start c context) = (body.annotate c context, .start c context)) ∧
    (∀ stack : ScopeStack, (s.walk.run stack).2 = stack) ∧
    ∀ pre post : Body, ∃ (pre' post' : Body) (s' : Stmt),
      pre'.length = pre.length ∧ post'.length = post.length ∧
        Body.annotate c context (pre ++ [s] ++ post) = pre' ++ [s'] ++ post' ∧
        Body.annotate c context (pre ++ post) = pre' ++ post' := by
  refine ⟨Body.run_walk c context, fun stack => by rw [s.run_walk_of_ne_locals hs],
    fun pre post => ?_⟩
  let stack := (ScopeStack.start c context).push
  let after := ((bodyWalk pre).run stack).2
  have hannotate (body : Body) :
      Body.annotate c context body = ((bodyWalk body).run stack).1 := by
    rw [bodyWalk_run, ScopeStack.scope_push, ScopeStack.scope_start]
    rfl
  -- The part after the statement meets the stack that the part before it has left.
  have hs' : (bodyWalk [s]).run after = ([s.annotate after.scope], after) := by
    simp only [bodyWalk, ScopeWalk.run_bind, ScopeWalk.run_pure, s.run_walk_of_ne_locals hs]
  refine ⟨((bodyWalk pre).run stack).1, ((bodyWalk post).run after).1, s.annotate after.scope,
    ?_, ?_, ?_, ?_⟩
  · rw [bodyWalk_run, length_bodyAnnotate]
  · rw [bodyWalk_run, length_bodyAnnotate]
  · rw [hannotate, run_bodyWalk_append, run_bodyWalk_append, hs']
  · rw [hannotate, run_bodyWalk_append]

/-- `for title in [1] { let title = title }` -/
def shadowingLoop : Stmt :=
  .forIn "title" { shape := .arrayLiteral [{ shape := .constant (.int 1) }] }
    [.locals [⟨"title", .unknown, some (.identifier "title"), true⟩]]

/-- What stands around a loop still sees the string, whatever the loop binds to its name. -/
theorem scopes_do_not_leak_shadowingLoop :
    (∀ declarations, shadowingLoop ≠ .locals declarations) ∧
      (let context : BodyContext := { parameters := [("title", .string)] }
       let around : Body := [.expressions [.identifier "title"]]
       (∃ (pre' post' : Body) (s' : Stmt), pre'.length = 1 ∧ post'.length = 1 ∧
          Body.annotate {} context (around ++ [shadowingLoop] ++ around) =
            pre' ++ [s'] ++ post' ∧
          Body.annotate {} context (around ++ around) = pre' ++ post') ∧
        (Body.annotate {} context (around ++ [shadowingLoop] ++ around)).allExpressions.map
            (·.resolved) =
          [some .string, some (.array .int), some .int, some .int, some .string]) := by
  have hs : ∀ declarations, shadowingLoop ≠ .locals declarations := nofun
  have h := (scopes_do_not_leak hs {} { parameters := [("title", .string)] }).2.2
    [.expressions [.identifier "title"]] [.expressions [.identifier "title"]]
  exact ⟨hs, h, by cbv⟩

end ObjcSwift
