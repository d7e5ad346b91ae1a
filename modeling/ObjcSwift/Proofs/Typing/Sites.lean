import ObjcSwift.Proofs.Typing.Equations
import Mathlib

/-!
# Where expressions stand

Annotating an expression depends on the scope it stands in, and scopes change on the way down: a
block opens one with its parameters, a loop one with its binding, and a statement sees the locals of
those before it. A **site** is an expression of an annotated tree together with the scope it stands
in and the expression it was before.

The sites of a tree are found by a walk over the tree before and the tree after in step
(`Expr.sites`, `bodySites`). The walk says where scopes come from without saying what is annotated
how; that it passes over no expression, and meets them in the order of every other walk, is the
content of `Survey`, which also collects what holds of each site.

What holds of every site is proved node by node: of an expression that is annotated by itself, and
of the callee of a method call, the one node that is not (`Site.Law`). The induction over the tree
is done here once (`Expr.survey`, `Stmt.survey`).
-/

namespace ObjcSwift

/-- An expression of a tree that was annotated. -/
structure Site where
  /-- The scope in which it stands. -/
  scope : Scope
  /-- The expression before. -/
  before : Expr
  /-- The expression after. -/
  after : Expr

mutual

/-- The sites of an expression, before and after, that stands in a scope. -/
def Expr.sites (scope : Scope) : Expr → Expr → List Site
  | ⟨shape, resolved, expected, source⟩, after =>
    ⟨scope, ⟨shape, resolved, expected, source⟩, after⟩ :: shape.sites scope after.shape
termination_by structural before => before

/-- The sites below an expression. -/
def Shape.sites (scope : Scope) : Shape → Shape → List Site
  | .unary _ e, .unary _ e' => e.sites scope e'
  | .binary lhs _ rhs, .binary lhs' _ rhs' => lhs.sites scope lhs' ++ rhs.sites scope rhs'
  | .ternary condition ifTrue ifFalse, .ternary condition' ifTrue' ifFalse' =>
    condition.sites scope condition' ++ ifTrue.sites scope ifTrue' ++ ifFalse.sites scope ifFalse'
  | .assignment lhs _ rhs, .assignment lhs' _ rhs' => lhs.sites scope lhs' ++ rhs.sites scope rhs'
  | .suffixed receiver _ suffix, .suffixed receiver' _ suffix' =>
    receiver.sites scope receiver' ++ suffix.sites scope suffix'
  | .cast e _, .cast e' _ => e.sites scope e'
  | .sizeOfValue e, .sizeOfValue e' => e.sites scope e'
  | .parens e, .parens e' => e.sites scope e'
  | .arrayLiteral es, .arrayLiteral es' => exprsSites scope es es'
  | .dictionaryLiteral entries, .dictionaryLiteral entries' => entriesSites scope entries entries'
  | .block parameters result body, .block _ _ body' =>
    bodySites (scope.enterBlock parameters result) body body'
  | _, _ => []
termination_by structural before => before

/-- The sites in a suffix. -/
def Suffix.sites (scope : Scope) : Suffix → Suffix → List Site
  | .call arguments, .call arguments' => argumentsSites scope arguments arguments'
  | .subscript index, .subscript index' => index.sites scope index'
  | _, _ => []
termination_by structural before => before

/-- The sites in several expressions. -/
def exprsSites (scope : Scope) : List Expr → List Expr → List Site
  | e :: es, e' :: es' => e.sites scope e' ++ exprsSites scope es es'
  | _, _ => []
termination_by structural before => before

/-- The sites in several arguments. -/
def argumentsSites (scope : Scope) : List Argument → List Argument → List Site
  | ⟨_, value⟩ :: rest, ⟨_, value'⟩ :: rest' =>
    value.sites scope value' ++ argumentsSites scope rest rest'
  | _, _ => []
termination_by structural before => before

/-- The sites in several dictionary entries. -/
def entriesSites (scope : Scope) : List Entry → List Entry → List Site
  | ⟨key, value⟩ :: rest, ⟨key', value'⟩ :: rest' =>
    key.sites scope key' ++ value.sites scope value' ++ entriesSites scope rest rest'
  | _, _ => []
termination_by structural before => before

/-- The sites in a body; a statement sees the locals of those before it. -/
def bodySites (scope : Scope) : List Stmt → List Stmt → List Site
  | s :: ss, s' :: ss' => s.sites scope s' ++ bodySites (scope.defineAll s'.entries) ss ss'
  | _, _ => []
termination_by structural before => before

/-- The sites in several variable declarations; a declaration sees those before it. -/
def variablesSites (scope : Scope) : List Variable → List Variable → List Site
  | ⟨_, _, none, _⟩ :: rest, d' :: rest' => variablesSites (scope.define d'.entry) rest rest'
  | ⟨_, _, some e, _⟩ :: rest, ⟨name, type, some e', constant⟩ :: rest' =>
    e.sites scope e' ++
      variablesSites (scope.define (Variable.entry ⟨name, type, some e', constant⟩)) rest rest'
  | _, _ => []
termination_by structural before => before

/-- The sites in a statement. A loop binds a name in its body and not in its sequence. -/
def Stmt.sites (scope : Scope) : Stmt → Stmt → List Site
  | .compound body, .compound body' => bodySites scope body body'
  | .branch condition body none, .branch condition' body' none =>
    condition.sites scope condition' ++ bodySites scope body body'
  | .branch condition body (some otherwise), .branch condition' body' (some otherwise') =>
    condition.sites scope condition' ++ bodySites scope body body' ++
      bodySites scope otherwise otherwise'
  | .whileLoop condition body, .whileLoop condition' body' =>
    condition.sites scope condition' ++ bodySites scope body body'
  | .repeatLoop body condition, .repeatLoop body' condition' =>
    condition.sites scope condition' ++ bodySites scope body body'
  | .forIn binding sequence body, .forIn _ sequence' body' =>
    sequence.sites scope sequence' ++
      bodySites (scope.define (binding, sequence'.type.sequenceElement)) body body'
  | .return (some value), .return (some value') => value.sites scope value'
  | .expressions values, .expressions values' => exprsSites scope values values'
  | .locals declarations, .locals declarations' => variablesSites scope declarations declarations'
  | _, _ => []
termination_by structural before => before

end

theorem Expr.sites_eq (scope : Scope) (e after : Expr) :
    e.sites scope after = ⟨scope, e, after⟩ :: e.shape.sites scope after.shape := by
  obtain ⟨shape, _, _, _⟩ := e
  rw [Expr.sites]

/-! ### Surveys -/

/-- A survey of several nodes before and after: the sites are the expressions that the two walks
meet, paired in order, and each site has the property. -/
structure Survey (P : Site → Prop) (before after : List SyntaxNode) (sites : List Site) :
    Prop where
  /-- No expression before is passed over. -/
  before_eq : sites.map (·.before) = (preorder true before).filterMap SyntaxNode.expr?
  /-- No expression after is passed over. -/
  after_eq : sites.map (·.after) = (preorder true after).filterMap SyntaxNode.expr?
  /-- Each site has the property. -/
  forall_mem : ∀ site ∈ sites, P site

namespace Survey

variable {P : Site → Prop} {before before' after after' : List SyntaxNode}
  {sites sites' : List Site}

theorem nil : Survey P [] [] [] :=
  ⟨by simp [preorder], by simp [preorder], by simp⟩

theorem append (h : Survey P before after sites) (h' : Survey P before' after' sites') :
    Survey P (before ++ before') (after ++ after') (sites ++ sites') where
  before_eq := by
    rw [List.map_append, h.before_eq, h'.before_eq, preorder_append, List.filterMap_append]
  after_eq := by
    rw [List.map_append, h.after_eq, h'.after_eq, preorder_append, List.filterMap_append]
  forall_mem := by
    rw [List.forall_mem_append]
    exact ⟨h.forall_mem, h'.forall_mem⟩

/-- An expression is a site above those below it. -/
theorem expr {scope : Scope} {e e' : Expr} (hP : P ⟨scope, e, e'⟩)
    (h : Survey P e.shape.nodes e'.shape.nodes sites) :
    Survey P [.expr e] [.expr e'] (⟨scope, e, e'⟩ :: sites) where
  before_eq := by
    rw [preorder_singleton, e.children_eq_nodes, List.map_cons, h.before_eq]
    rfl
  after_eq := by
    rw [preorder_singleton, e'.children_eq_nodes, List.map_cons, h.after_eq]
    rfl
  forall_mem := List.forall_mem_cons.mpr ⟨hP, h.forall_mem⟩

/-- What is below an expression that was surveyed was surveyed. -/
theorem below {site : Site} {e e' : Expr} (h : Survey P [.expr e] [.expr e'] (site :: sites)) :
    Survey P e.shape.nodes e'.shape.nodes sites where
  before_eq := by
    have hbefore := h.before_eq
    rw [preorder_singleton, e.children_eq_nodes] at hbefore
    exact (List.cons.inj hbefore).2
  after_eq := by
    have hafter := h.after_eq
    rw [preorder_singleton, e'.children_eq_nodes] at hafter
    exact (List.cons.inj hafter).2
  forall_mem := (List.forall_mem_cons.mp h.forall_mem).2

/-- A statement is no site itself. -/
theorem stmt {s s' : Stmt}
    (h : Survey P ((SyntaxNode.stmt s).children true) ((SyntaxNode.stmt s').children true) sites) :
    Survey P [.stmt s] [.stmt s'] sites where
  before_eq := by
    rw [preorder_singleton]
    exact h.before_eq
  after_eq := by
    rw [preorder_singleton]
    exact h.after_eq
  forall_mem := h.forall_mem

end Survey

/-! ### Every site -/

@[simp]
theorem Scope.catalog_defineAll (scope : Scope) (entries : List (String × SwiftType)) :
    (scope.defineAll entries).catalog = scope.catalog := by
  induction entries generalizing scope with
  | nil => rfl
  | cons entry entries ih => exact ih (scope.define entry)

/-- What a property of sites has to respect to hold of all sites: it holds of an expression that
was annotated by itself, and of a callee, which was annotated with its call. -/
structure Site.Law (c : Catalog) (P : Site → Prop) : Prop where
  /-- The property holds of an annotated expression. -/
  annotated {scope : Scope} (hc : scope.catalog = c) (asked : Option SwiftType) (e : Expr) :
    P ⟨scope, e, e.annotate scope asked⟩
  /-- The property holds of the callee of an annotated method call. -/
  callee {scope : Scope} (hc : scope.catalog = c) {callee target : Expr}
    {memberUnwrap unwrap : Unwrap} {name : String} {arguments : List Argument} {typing : CallTyping}
    (hshape : callee.shape = .suffixed target memberUnwrap (.member name))
    (htyping : scope.callTyping (target.annotate scope target.expected).type memberUnwrap name
      unwrap arguments = typing) :
    P ⟨scope, callee, ⟨.suffixed (target.annotate scope target.expected) memberUnwrap
      (.member name), some typing.callee, callee.expected, callee.source⟩⟩

variable {c : Catalog} {P : Site → Prop}

mutual

/-- **A law holds at every site of an annotated expression**, and no expression is passed over. -/
theorem Expr.survey (hP : Site.Law c P) {scope : Scope} (hc : scope.catalog = c)
    (asked : Option SwiftType) :
    ∀ e : Expr, Survey P [.expr e] [.expr (e.annotate scope asked)]
      (e.sites scope (e.annotate scope asked))
  | ⟨shape, resolved, expected, source⟩ => by
    rw [Expr.annotate]
    exact .expr (hP.annotated hc asked ⟨shape, resolved, expected, source⟩)
      (Shape.survey hP hc asked shape)

theorem Shape.survey (hP : Site.Law c P) {scope : Scope} (hc : scope.catalog = c)
    (asked : Option SwiftType) :
    ∀ shape : Shape, Survey P shape.nodes (shape.annotate scope asked).1.nodes
      (shape.sites scope (shape.annotate scope asked).1)
  | .identifier _ => .nil
  | .constant _ => .nil
  | .unary op operand => operand.survey hP hc _
  | .binary lhs op rhs => by
    cases hnil : lhs.isNil with
    | true =>
      rw [Shape.annotate_binary_of_isNil scope asked hnil]
      exact (lhs.survey hP hc _).append (rhs.survey hP hc _)
    | false =>
      rw [Shape.annotate_binary scope asked hnil]
      exact (lhs.survey hP hc _).append (rhs.survey hP hc _)
  | .ternary condition ifTrue ifFalse =>
    ((condition.survey hP hc _).append (ifTrue.survey hP hc _)).append (ifFalse.survey hP hc _)
  | .assignment lhs op rhs => (lhs.survey hP hc _).append (rhs.survey hP hc _)
  | .suffixed receiver unwrap (.member name) => by
    rw [Shape.annotate_member]
    exact (receiver.survey hP hc _).append .nil
  | .suffixed receiver unwrap (.call arguments) => by
    have hreceiver := receiver.survey hP hc receiver.expected
    have harguments := fun parameters => argumentsSurvey hP hc parameters arguments
    by_cases hmethod : ∃ target memberUnwrap name,
        receiver.shape = .suffixed target memberUnwrap (.member name)
    · -- Below the callee stands the target, which is annotated as it would be below a member access
      -- that is not called.
      obtain ⟨target, memberUnwrap, name, hshape⟩ := hmethod
      have hcallee := hP.callee hc hshape
        (rfl : scope.callTyping _ memberUnwrap name unwrap arguments = _)
      rw [Expr.sites_eq] at hreceiver
      have hbelow := hreceiver.below
      rw [Expr.shape_annotate_member scope _ hshape] at hbelow
      rw [Shape.annotate_methodCall scope asked hshape]
      simp only [Shape.nodes, Shape.subexpressions, Suffix.subexpressions, List.append_nil,
        List.map_cons, Shape.sites, Suffix.sites, Expr.sites_eq]
      exact (Survey.expr hcallee hbelow).append (harguments _)
    · rw [Shape.annotate_valueCall scope asked unwrap arguments hmethod]
      simp only [Shape.nodes, Shape.subexpressions, Suffix.subexpressions, List.append_nil,
        List.map_cons]
      exact hreceiver.append (harguments _)
  | .suffixed receiver unwrap (.subscript index) => by
    rw [Shape.annotate_subscript]
    exact (receiver.survey hP hc _).append (index.survey hP hc _)
  | .cast expression target => expression.survey hP hc _
  | .sizeOfValue expression => expression.survey hP hc _
  | .sizeOfType _ => .nil
  | .parens inner => inner.survey hP hc _
  | .arrayLiteral elements => by
    simp only [Shape.nodes, Shape.annotate, Shape.subexpressions, List.append_nil]
    exact exprsSurvey hP hc _ elements
  | .dictionaryLiteral entries => by
    simp only [Shape.nodes, Shape.annotate, Shape.subexpressions, List.append_nil]
    exact entriesSurvey hP hc entries
  | .block parameters result body =>
    -- The block has a scope of its own, over the same catalogue.
    bodySurvey hP (by simpa [Scope.enterBlock] using hc) body
  | .unknown _ => .nil

theorem exprsSurvey (hP : Site.Law c P) {scope : Scope} (hc : scope.catalog = c)
    (asked : Option SwiftType) :
    ∀ es : List Expr, Survey P (es.map .expr) ((exprsAnnotate scope asked es).map .expr)
      (exprsSites scope es (exprsAnnotate scope asked es))
  | [] => .nil
  | e :: es => (e.survey hP hc asked).append (exprsSurvey hP hc asked es)

theorem argumentsSurvey (hP : Site.Law c P) {scope : Scope} (hc : scope.catalog = c) :
    ∀ (parameters : List SwiftType) (arguments : List Argument),
      Survey P ((arguments.map (·.value)).map .expr)
        (((argumentsAnnotate scope parameters arguments).map (·.value)).map .expr)
        (argumentsSites scope arguments (argumentsAnnotate scope parameters arguments))
  | _, [] => .nil
  | parameters, ⟨_, value⟩ :: rest =>
    (value.survey hP hc _).append (argumentsSurvey hP hc parameters.tail rest)

theorem entriesSurvey (hP : Site.Law c P) {scope : Scope} (hc : scope.catalog = c) :
    ∀ entries : List Entry,
      Survey P ((entries.flatMap fun entry => [entry.key, entry.value]).map .expr)
        (((entriesAnnotate scope entries).flatMap fun entry => [entry.key, entry.value]).map .expr)
        (entriesSites scope entries (entriesAnnotate scope entries))
  | [] => .nil
  | ⟨key, value⟩ :: rest =>
    ((key.survey hP hc _).append (value.survey hP hc _)).append (entriesSurvey hP hc rest)

theorem bodySurvey (hP : Site.Law c P) {scope : Scope} (hc : scope.catalog = c) :
    ∀ body : List Stmt, Survey P (body.map .stmt) ((bodyAnnotate scope body).map .stmt)
      (bodySites scope body (bodyAnnotate scope body))
  | [] => .nil
  | s :: ss => (s.survey hP hc).append (bodySurvey hP (by simpa using hc) ss)

theorem variablesSurvey (hP : Site.Law c P) {scope : Scope} (hc : scope.catalog = c) :
    ∀ declarations : List Variable,
      Survey P ((declarations.filterMap (·.initial)).map .expr)
        (((variablesAnnotate scope declarations).filterMap (·.initial)).map .expr)
        (variablesSites scope declarations (variablesAnnotate scope declarations))
  | [] => .nil
  | ⟨_, _, none, _⟩ :: rest => variablesSurvey hP (by exact hc) rest
  | ⟨_, _, some initial, _⟩ :: rest =>
    (initial.survey hP hc _).append (variablesSurvey hP (by exact hc) rest)

/-- **A law holds at every site of an annotated statement.** -/
theorem Stmt.survey (hP : Site.Law c P) {scope : Scope} (hc : scope.catalog = c) :
    ∀ s : Stmt, Survey P [.stmt s] [.stmt (s.annotate scope)] (s.sites scope (s.annotate scope))
  | .compound body => by
    refine .stmt ?_
    simp only [SyntaxNode.children, Stmt.annotate, Stmt.subexpressions, Stmt.bodies, List.map_nil,
      List.nil_append, List.flatten_cons, List.flatten_nil, List.append_nil]
    exact bodySurvey hP hc body
  | .branch condition body none => by
    refine .stmt ?_
    simp only [SyntaxNode.children, Stmt.annotate, Stmt.subexpressions, Stmt.bodies,
      Option.toList_none, List.flatten_cons, List.flatten_nil, List.append_nil]
    exact (condition.survey hP hc _).append (bodySurvey hP hc body)
  | .branch condition body (some otherwise) => by
    refine .stmt ?_
    simp only [SyntaxNode.children, Stmt.annotate, Stmt.subexpressions, Stmt.bodies,
      Option.toList_some, List.flatten_cons, List.flatten_nil, List.append_nil, List.map_append,
      ← List.append_assoc]
    exact ((condition.survey hP hc _).append (bodySurvey hP hc body)).append
      (bodySurvey hP hc otherwise)
  | .whileLoop condition body => by
    refine .stmt ?_
    simp only [SyntaxNode.children, Stmt.annotate, Stmt.subexpressions, Stmt.bodies,
      List.flatten_cons, List.flatten_nil, List.append_nil]
    exact (condition.survey hP hc _).append (bodySurvey hP hc body)
  | .repeatLoop body condition => by
    refine .stmt ?_
    simp only [SyntaxNode.children, Stmt.annotate, Stmt.subexpressions, Stmt.bodies,
      List.flatten_cons, List.flatten_nil, List.append_nil]
    exact (condition.survey hP hc _).append (bodySurvey hP hc body)
  | .forIn binding sequence body => by
    refine .stmt ?_
    simp only [SyntaxNode.children, Stmt.annotate, Stmt.subexpressions, Stmt.bodies,
      List.flatten_cons, List.flatten_nil, List.append_nil]
    exact (sequence.survey hP hc _).append (bodySurvey hP (by exact hc) body)
  | .return none => .stmt .nil
  | .return (some value) => .stmt (value.survey hP hc _)
  | .expressions values => by
    refine .stmt ?_
    simp only [SyntaxNode.children, Stmt.annotate, Stmt.subexpressions, Stmt.bodies,
      List.flatten_nil, List.map_nil, List.append_nil]
    exact ownSurvey hP hc values
  | .locals declarations => by
    refine .stmt ?_
    simp only [SyntaxNode.children, Stmt.annotate, Stmt.subexpressions, Stmt.bodies,
      List.flatten_nil, List.map_nil, List.append_nil]
    exact variablesSurvey hP hc declarations
  | .break => .stmt .nil
  | .continue => .stmt .nil
  | .unknown _ => .stmt .nil

theorem ownSurvey (hP : Site.Law c P) {scope : Scope} (hc : scope.catalog = c) :
    ∀ es : List Expr, Survey P (es.map .expr) ((ownAnnotate scope es).map .expr)
      (exprsSites scope es (ownAnnotate scope es))
  | [] => .nil
  | e :: es => (e.survey hP hc e.expected).append (ownSurvey hP hc es)

end

end ObjcSwift
