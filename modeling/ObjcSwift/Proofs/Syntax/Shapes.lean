import ObjcSwift.Proofs.Syntax.Expressions
import ObjcSwift.Swift.Expr.SameShape

/-!
# Expressions of the same shape

Equality of shape is what patterns compare expressions by. It is not quite an equality: literals
are compared by value, and a NaN differs from itself. Two facts about it are what patterns need.

* An expression **without a NaN** is of its own shape (`Expr.sameShape_self`).
* Expressions of the same shape have **the same number of nodes** (`Expr.size_eq_of_sameShape`), so
  nothing is of the shape of a part of itself.
-/

namespace ObjcSwift

/-! ### Expressions without a NaN -/

/-- Whether the literal is a NaN. -/
def Constant.isNaN : Constant → Bool
  | float value => value.isNaN
  | _ => false

theorem Constant.same_self {c : Constant} (h : c.isNaN = false) : c.same c = true := by
  cases c with
  | float value => simp_all [Constant.same, Constant.isNaN, Binary64.numEq]
  | _ => simp [Constant.same]

/-- Whether the expression is a NaN. -/
def Expr.isNaN (e : Expr) : Bool :=
  e.constant?.any Constant.isNaN

/-- Nothing at or below a node is a NaN, also in the bodies of block expressions. -/
def SyntaxNode.NaNFree (n : SyntaxNode) : Prop :=
  n.Everywhere fun e => e.isNaN = false

/-- Nothing in an expression is a NaN. -/
def Expr.NaNFree (e : Expr) : Prop :=
  (SyntaxNode.expr e).NaNFree

/-- Nothing in a statement is a NaN. -/
def Stmt.NaNFree (s : Stmt) : Prop :=
  (SyntaxNode.stmt s).NaNFree

theorem Expr.nanFree_mk {shape : Shape} {resolved expected : Option SwiftType}
    {source : Option SourceText} : (⟨shape, resolved, expected, source⟩ : Expr).NaNFree ↔
      (∀ c, shape = .constant c → c.isNaN = false) ∧
        (∀ e ∈ shape.subexpressions, e.NaNFree) ∧ ∀ s ∈ shape.statements, s.NaNFree := by
  have hself : (⟨shape, resolved, expected, source⟩ : Expr).isNaN = false ↔
      ∀ c, shape = .constant c → c.isNaN = false := by
    cases shape <;> simp [isNaN, constant?]
  rw [NaNFree, SyntaxNode.NaNFree, SyntaxNode.everywhere_iff, SyntaxNode.forall_mem_children_expr]
  simp only [SyntaxNode.expr.injEq, forall_eq', hself]
  exact Iff.rfl

theorem Stmt.nanFree_iff {s : Stmt} : s.NaNFree ↔
    (∀ e ∈ s.subexpressions, e.NaNFree) ∧ ∀ body ∈ s.bodies, ∀ t ∈ body, t.NaNFree := by
  rw [NaNFree, SyntaxNode.NaNFree, SyntaxNode.everywhere_iff, SyntaxNode.forall_mem_children_stmt]
  simp only [reduceCtorEq, false_imp_iff, implies_true, true_and]
  exact Iff.rfl

mutual

/-- **An expression without a NaN is of its own shape.** -/
theorem Expr.sameShape_self : ∀ e : Expr, e.NaNFree → e.sameShape e = true
  | ⟨shape, _, _, _⟩, h => by
    obtain ⟨hself, hbelow, hbody⟩ := Expr.nanFree_mk.mp h
    rw [Expr.sameShape, shape.same_self hself hbelow hbody]
termination_by structural e => e

theorem Shape.same_self : ∀ shape : Shape, (∀ c, shape = .constant c → c.isNaN = false) →
    (∀ e ∈ shape.subexpressions, e.NaNFree) → (∀ s ∈ shape.statements, s.NaNFree) →
    shape.same shape = true
  | .identifier _, _, _, _ => by simp [Shape.same]
  | .constant c, h, _, _ => by rw [Shape.same, Constant.same_self (h c rfl)]
  | .unary _ e, _, h, _ => by
    simp [Shape.same, e.sameShape_self (h e (by simp [Shape.subexpressions]))]
  | .binary lhs _ rhs, _, h, _ => by
    simp only [Shape.subexpressions, List.forall_mem_cons] at h
    simp [Shape.same, lhs.sameShape_self h.1, rhs.sameShape_self h.2.1]
  | .ternary condition ifTrue ifFalse, _, h, _ => by
    simp only [Shape.subexpressions, List.forall_mem_cons] at h
    simp [Shape.same, condition.sameShape_self h.1, ifTrue.sameShape_self h.2.1,
      ifFalse.sameShape_self h.2.2.1]
  | .assignment lhs _ rhs, _, h, _ => by
    simp only [Shape.subexpressions, List.forall_mem_cons] at h
    simp [Shape.same, lhs.sameShape_self h.1, rhs.sameShape_self h.2.1]
  | .suffixed receiver _ suffix, _, h, _ => by
    simp only [Shape.subexpressions, List.forall_mem_cons] at h
    simp [Shape.same, receiver.sameShape_self h.1, suffix.same_self h.2]
  | .cast e _, _, h, _ => by
    simp [Shape.same, e.sameShape_self (h e (by simp [Shape.subexpressions]))]
  | .sizeOfValue e, _, h, _ => by
    simp [Shape.same, e.sameShape_self (h e (by simp [Shape.subexpressions]))]
  | .sizeOfType _, _, _, _ => by simp [Shape.same]
  | .parens e, _, h, _ => by
    simp [Shape.same, e.sameShape_self (h e (by simp [Shape.subexpressions]))]
  | .arrayLiteral elements, _, h, _ => by
    rw [Shape.same, sameShapes_self elements h]
  | .dictionaryLiteral entries, _, h, _ => by
    rw [Shape.same, sameEntries_self entries h]
  | .block _ _ body, _, _, h => by
    simp [Shape.same, sameStmts_self body h]
  | .unknown _, _, _, _ => by simp [Shape.same]
termination_by structural shape => shape

theorem Suffix.same_self : ∀ suffix : Suffix, (∀ e ∈ suffix.subexpressions, e.NaNFree) →
    suffix.same suffix = true
  | .member _, _ => by simp [Suffix.same]
  | .call arguments, h => by rw [Suffix.same, sameArguments_self arguments h]
  | .subscript index, h => by
    rw [Suffix.same, index.sameShape_self (h index (by simp [Suffix.subexpressions]))]
termination_by structural suffix => suffix

theorem sameShapes_self : ∀ es : List Expr, (∀ e ∈ es, e.NaNFree) → sameShapes es es = true
  | [], _ => by rw [sameShapes]
  | e :: es, h => by
    rw [List.forall_mem_cons] at h
    simp [sameShapes, e.sameShape_self h.1, sameShapes_self es h.2]
termination_by structural es => es

theorem sameArguments_self : ∀ arguments : List Argument,
    (∀ e ∈ arguments.map (·.value), e.NaNFree) → sameArguments arguments arguments = true
  | [], _ => by rw [sameArguments]
  | ⟨_, value⟩ :: rest, h => by
    rw [List.map_cons, List.forall_mem_cons] at h
    simp [sameArguments, value.sameShape_self h.1, sameArguments_self rest h.2]
termination_by structural arguments => arguments

theorem sameEntries_self : ∀ entries : List Entry,
    (∀ e ∈ entries.flatMap fun entry => [entry.key, entry.value], e.NaNFree) →
    sameEntries entries entries = true
  | [], _ => by rw [sameEntries]
  | ⟨key, value⟩ :: rest, h => by
    rw [List.flatMap_cons, List.forall_mem_append, List.forall_mem_cons,
      List.forall_mem_singleton] at h
    simp [sameEntries, key.sameShape_self h.1.1, value.sameShape_self h.1.2,
      sameEntries_self rest h.2]
termination_by structural entries => entries

theorem sameStmts_self : ∀ body : List Stmt, (∀ s ∈ body, s.NaNFree) → sameStmts body body = true
  | [], _ => by rw [sameStmts]
  | s :: body, h => by
    rw [List.forall_mem_cons] at h
    simp [sameStmts, s.same_self h.1, sameStmts_self body h.2]
termination_by structural body => body

theorem sameVariables_self : ∀ declarations : List Variable,
    (∀ e ∈ declarations.filterMap (·.initial), e.NaNFree) →
    sameVariables declarations declarations = true
  | [], _ => by rw [sameVariables]
  | ⟨_, _, none, _⟩ :: rest, h => by
    simp [sameVariables, sameVariables_self rest h]
  | ⟨_, _, some initial, _⟩ :: rest, h => by
    simp only [List.filterMap_cons, List.forall_mem_cons] at h
    simp [sameVariables, initial.sameShape_self h.1, sameVariables_self rest h.2]
termination_by structural declarations => declarations

theorem Stmt.same_self : ∀ s : Stmt, s.NaNFree → s.same s = true
  | .compound body, h => by
    have hbody := (Stmt.nanFree_iff.mp h).2 body (by simp [Stmt.bodies])
    rw [Stmt.same, sameStmts_self body hbody]
  | .branch condition body none, h => by
    obtain ⟨he, hb⟩ := Stmt.nanFree_iff.mp h
    simp [Stmt.same, condition.sameShape_self (he _ (by simp [Stmt.subexpressions])),
      sameStmts_self body (hb _ (by simp [Stmt.bodies]))]
  | .branch condition body (some otherwise), h => by
    obtain ⟨he, hb⟩ := Stmt.nanFree_iff.mp h
    simp [Stmt.same, condition.sameShape_self (he _ (by simp [Stmt.subexpressions])),
      sameStmts_self body (hb _ (by simp [Stmt.bodies])),
      sameStmts_self otherwise (hb _ (by simp [Stmt.bodies]))]
  | .whileLoop condition body, h => by
    obtain ⟨he, hb⟩ := Stmt.nanFree_iff.mp h
    simp [Stmt.same, condition.sameShape_self (he _ (by simp [Stmt.subexpressions])),
      sameStmts_self body (hb _ (by simp [Stmt.bodies]))]
  | .repeatLoop body condition, h => by
    obtain ⟨he, hb⟩ := Stmt.nanFree_iff.mp h
    simp [Stmt.same, condition.sameShape_self (he _ (by simp [Stmt.subexpressions])),
      sameStmts_self body (hb _ (by simp [Stmt.bodies]))]
  | .forIn _ sequence body, h => by
    obtain ⟨he, hb⟩ := Stmt.nanFree_iff.mp h
    simp [Stmt.same, sequence.sameShape_self (he _ (by simp [Stmt.subexpressions])),
      sameStmts_self body (hb _ (by simp [Stmt.bodies]))]
  | .return none, _ => by rw [Stmt.same]
  | .return (some value), h => by
    obtain ⟨he, -⟩ := Stmt.nanFree_iff.mp h
    rw [Stmt.same, value.sameShape_self (he _ (by simp [Stmt.subexpressions]))]
  | .expressions values, h => by
    rw [Stmt.same, sameShapes_self values (Stmt.nanFree_iff.mp h).1]
  | .locals declarations, h => by
    rw [Stmt.same, sameVariables_self declarations (Stmt.nanFree_iff.mp h).1]
  | .break, _ => by rw [Stmt.same]
  | .continue, _ => by rw [Stmt.same]
  | .unknown _, _ => by simp [Stmt.same]
termination_by structural s => s

end

/-! ### Sizes -/

mutual

/-- **Expressions of the same shape have the same number of nodes.** -/
theorem Expr.size_eq_of_sameShape : ∀ a b : Expr, a.sameShape b = true → a.size = b.size
  | ⟨a, _, _, _⟩, ⟨b, _, _, _⟩, h => by
    rw [Expr.sameShape] at h
    rw [Expr.size, Expr.size, a.size_eq_of_same b h]
termination_by structural a => a

theorem Shape.size_eq_of_same : ∀ a b : Shape, a.same b = true → a.size = b.size
  | .identifier _, b, h => by cases b <;> simp_all [Shape.same, Shape.size]
  | .constant _, b, h => by cases b <;> simp_all [Shape.same, Shape.size]
  | .sizeOfType _, b, h => by cases b <;> simp_all [Shape.same, Shape.size]
  | .unknown _, b, h => by cases b <;> simp_all [Shape.same, Shape.size]
  | .unary _ e, b, h => by
    cases b with
    | unary _ f =>
      simp only [Shape.same, Bool.and_eq_true] at h
      rw [Shape.size, Shape.size, e.size_eq_of_sameShape f h.2]
    | _ => simp [Shape.same] at h
  | .binary lhs _ rhs, b, h => by
    cases b with
    | binary lhs' _ rhs' =>
      simp only [Shape.same, Bool.and_eq_true] at h
      rw [Shape.size, Shape.size, lhs.size_eq_of_sameShape lhs' h.1.1,
        rhs.size_eq_of_sameShape rhs' h.2]
    | _ => simp [Shape.same] at h
  | .ternary condition ifTrue ifFalse, b, h => by
    cases b with
    | ternary condition' ifTrue' ifFalse' =>
      simp only [Shape.same, Bool.and_eq_true] at h
      rw [Shape.size, Shape.size, condition.size_eq_of_sameShape condition' h.1.1,
        ifTrue.size_eq_of_sameShape ifTrue' h.1.2, ifFalse.size_eq_of_sameShape ifFalse' h.2]
    | _ => simp [Shape.same] at h
  | .assignment lhs _ rhs, b, h => by
    cases b with
    | assignment lhs' _ rhs' =>
      simp only [Shape.same, Bool.and_eq_true] at h
      rw [Shape.size, Shape.size, lhs.size_eq_of_sameShape lhs' h.1.1,
        rhs.size_eq_of_sameShape rhs' h.2]
    | _ => simp [Shape.same] at h
  | .suffixed receiver _ suffix, b, h => by
    cases b with
    | suffixed receiver' _ suffix' =>
      simp only [Shape.same, Bool.and_eq_true] at h
      rw [Shape.size, Shape.size, receiver.size_eq_of_sameShape receiver' h.1.1,
        suffix.size_eq_of_same suffix' h.1.2]
    | _ => simp [Shape.same] at h
  | .cast e _, b, h => by
    cases b with
    | cast f _ =>
      simp only [Shape.same, Bool.and_eq_true] at h
      rw [Shape.size, Shape.size, e.size_eq_of_sameShape f h.1]
    | _ => simp [Shape.same] at h
  | .sizeOfValue e, b, h => by
    cases b with
    | sizeOfValue f =>
      rw [Shape.same] at h
      rw [Shape.size, Shape.size, e.size_eq_of_sameShape f h]
    | _ => simp [Shape.same] at h
  | .parens e, b, h => by
    cases b with
    | parens f =>
      rw [Shape.same] at h
      rw [Shape.size, Shape.size, e.size_eq_of_sameShape f h]
    | _ => simp [Shape.same] at h
  | .arrayLiteral es, b, h => by
    cases b with
    | arrayLiteral fs =>
      rw [Shape.same] at h
      rw [Shape.size, Shape.size, exprsSize_eq_of_same es fs h]
    | _ => simp [Shape.same] at h
  | .dictionaryLiteral es, b, h => by
    cases b with
    | dictionaryLiteral fs =>
      rw [Shape.same] at h
      rw [Shape.size, Shape.size, entriesSize_eq_of_same es fs h]
    | _ => simp [Shape.same] at h
  | .block _ _ body, b, h => by
    cases b with
    | block _ _ body' =>
      simp only [Shape.same, Bool.and_eq_true] at h
      rw [Shape.size, Shape.size, bodySize_eq_of_same body body' h.2]
    | _ => simp [Shape.same] at h
termination_by structural a => a

theorem Suffix.size_eq_of_same : ∀ a b : Suffix, a.same b = true → a.size = b.size
  | .member _, b, h => by cases b <;> simp_all [Suffix.same, Suffix.size]
  | .call arguments, b, h => by
    cases b with
    | call arguments' =>
      rw [Suffix.same] at h
      rw [Suffix.size, Suffix.size, argumentsSize_eq_of_same arguments arguments' h]
    | _ => simp [Suffix.same] at h
  | .subscript index, b, h => by
    cases b with
    | subscript index' =>
      rw [Suffix.same] at h
      rw [Suffix.size, Suffix.size, index.size_eq_of_sameShape index' h]
    | _ => simp [Suffix.same] at h
termination_by structural a => a

theorem exprsSize_eq_of_same :
    ∀ es fs : List Expr, sameShapes es fs = true → exprsSize es = exprsSize fs
  | [], [], _ => rfl
  | [], _ :: _, h | _ :: _, [], h => by simp [sameShapes] at h
  | e :: es, f :: fs, h => by
    simp only [sameShapes, Bool.and_eq_true] at h
    rw [exprsSize, exprsSize, e.size_eq_of_sameShape f h.1, exprsSize_eq_of_same es fs h.2]
termination_by structural es => es

theorem argumentsSize_eq_of_same : ∀ as bs : List Argument,
    sameArguments as bs = true → argumentsSize as = argumentsSize bs
  | [], [], _ => rfl
  | [], _ :: _, h | _ :: _, [], h => by simp [sameArguments] at h
  | ⟨_, a⟩ :: as, ⟨_, b⟩ :: bs, h => by
    simp only [sameArguments, Bool.and_eq_true] at h
    rw [argumentsSize, argumentsSize, a.size_eq_of_sameShape b h.1.2,
      argumentsSize_eq_of_same as bs h.2]
termination_by structural as => as

theorem entriesSize_eq_of_same : ∀ as bs : List Entry,
    sameEntries as bs = true → entriesSize as = entriesSize bs
  | [], [], _ => rfl
  | [], _ :: _, h | _ :: _, [], h => by simp [sameEntries] at h
  | ⟨k, a⟩ :: as, ⟨l, b⟩ :: bs, h => by
    simp only [sameEntries, Bool.and_eq_true] at h
    rw [entriesSize, entriesSize, k.size_eq_of_sameShape l h.1.1, a.size_eq_of_sameShape b h.1.2,
      entriesSize_eq_of_same as bs h.2]
termination_by structural as => as

theorem bodySize_eq_of_same :
    ∀ as bs : List Stmt, sameStmts as bs = true → bodySize as = bodySize bs
  | [], [], _ => rfl
  | [], _ :: _, h | _ :: _, [], h => by simp [sameStmts] at h
  | a :: as, b :: bs, h => by
    simp only [sameStmts, Bool.and_eq_true] at h
    rw [bodySize, bodySize, a.size_eq_of_same b h.1, bodySize_eq_of_same as bs h.2]
termination_by structural as => as

theorem variablesSize_eq_of_same : ∀ as bs : List Variable,
    sameVariables as bs = true → variablesSize as = variablesSize bs
  | [], [], _ => rfl
  | [], _ :: _, h => by simp [sameVariables] at h
  | ⟨_, _, none, _⟩ :: _, [], h | ⟨_, _, some _, _⟩ :: _, [], h => by simp [sameVariables] at h
  | ⟨_, _, none, _⟩ :: _, ⟨_, _, some _, _⟩ :: _, h
  | ⟨_, _, some _, _⟩ :: _, ⟨_, _, none, _⟩ :: _, h => by simp [sameVariables] at h
  | ⟨_, _, none, _⟩ :: as, ⟨_, _, none, _⟩ :: bs, h => by
    simp only [sameVariables, Bool.and_eq_true] at h
    rw [variablesSize, variablesSize, variablesSize_eq_of_same as bs h.2]
  | ⟨_, _, some a, _⟩ :: as, ⟨_, _, some b, _⟩ :: bs, h => by
    simp only [sameVariables, Bool.and_eq_true] at h
    rw [variablesSize, variablesSize, a.size_eq_of_sameShape b h.1.1.2,
      variablesSize_eq_of_same as bs h.2]
termination_by structural as => as

theorem Stmt.size_eq_of_same : ∀ a b : Stmt, a.same b = true → a.size = b.size
  | .break, b, h => by cases b <;> simp_all [Stmt.same, Stmt.size]
  | .continue, b, h => by cases b <;> simp_all [Stmt.same, Stmt.size]
  | .unknown _, b, h => by cases b <;> simp_all [Stmt.same, Stmt.size]
  | .compound body, b, h => by
    cases b with
    | compound body' =>
      rw [Stmt.same] at h
      rw [Stmt.size, Stmt.size, bodySize_eq_of_same body body' h]
    | _ => simp [Stmt.same] at h
  | .branch condition body none, b, h => by
    cases b with
    | branch condition' body' otherwise' =>
      cases otherwise' with
      | none =>
        simp only [Stmt.same, Bool.and_eq_true] at h
        rw [Stmt.size, Stmt.size, condition.size_eq_of_sameShape condition' h.1,
          bodySize_eq_of_same body body' h.2]
      | some _ => simp [Stmt.same] at h
    | _ => simp [Stmt.same] at h
  | .branch condition body (some otherwise), b, h => by
    cases b with
    | branch condition' body' otherwise' =>
      cases otherwise' with
      | none => simp [Stmt.same] at h
      | some otherwise' =>
        simp only [Stmt.same, Bool.and_eq_true] at h
        rw [Stmt.size, Stmt.size, condition.size_eq_of_sameShape condition' h.1.1,
          bodySize_eq_of_same body body' h.1.2, bodySize_eq_of_same otherwise otherwise' h.2]
    | _ => simp [Stmt.same] at h
  | .whileLoop condition body, b, h => by
    cases b with
    | whileLoop condition' body' =>
      simp only [Stmt.same, Bool.and_eq_true] at h
      rw [Stmt.size, Stmt.size, condition.size_eq_of_sameShape condition' h.1,
        bodySize_eq_of_same body body' h.2]
    | _ => simp [Stmt.same] at h
  | .repeatLoop body condition, b, h => by
    cases b with
    | repeatLoop body' condition' =>
      simp only [Stmt.same, Bool.and_eq_true] at h
      rw [Stmt.size, Stmt.size, condition.size_eq_of_sameShape condition' h.2,
        bodySize_eq_of_same body body' h.1]
    | _ => simp [Stmt.same] at h
  | .forIn _ sequence body, b, h => by
    cases b with
    | forIn _ sequence' body' =>
      simp only [Stmt.same, Bool.and_eq_true] at h
      rw [Stmt.size, Stmt.size, sequence.size_eq_of_sameShape sequence' h.1.2,
        bodySize_eq_of_same body body' h.2]
    | _ => simp [Stmt.same] at h
  | .return none, b, h => by
    cases b with
    | «return» value => cases value <;> simp_all [Stmt.same, Stmt.size]
    | _ => simp [Stmt.same] at h
  | .return (some value), b, h => by
    cases b with
    | «return» value' =>
      cases value' with
      | none => simp [Stmt.same] at h
      | some value' =>
        rw [Stmt.same] at h
        rw [Stmt.size, Stmt.size, value.size_eq_of_sameShape value' h]
    | _ => simp [Stmt.same] at h
  | .expressions values, b, h => by
    cases b with
    | expressions values' =>
      rw [Stmt.same] at h
      rw [Stmt.size, Stmt.size, exprsSize_eq_of_same values values' h]
    | _ => simp [Stmt.same] at h
  | .locals declarations, b, h => by
    cases b with
    | locals declarations' =>
      rw [Stmt.same] at h
      rw [Stmt.size, Stmt.size, variablesSize_eq_of_same declarations declarations' h]
    | _ => simp [Stmt.same] at h
termination_by structural a => a

end

end ObjcSwift
