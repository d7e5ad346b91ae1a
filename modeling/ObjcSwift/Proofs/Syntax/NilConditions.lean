import ObjcSwift.Proofs.Syntax.Shapes
import ObjcSwift.Swift.Pattern

/-!
# Conditions that ask for nil

A condition says that its subject is there, or it says that its subject is missing. The two patterns
for that see through parentheses, recognise every way to say it, and **no condition is taken for
both** (`Pattern.nil_conditions_are_told_apart`).

The last point is not obvious, as the subject may be any expression: the subject alone says that it
is there, and it may be a comparison with nil or a negation itself. But a condition that says that
the subject is missing has the subject inside, so it has more nodes than the subject.
-/

namespace ObjcSwift

/-! ### Parentheses -/

/-- An expression in any number of parentheses. -/
inductive Expr.InParens (e : Expr) : Expr → Prop
  /-- In none. -/
  | none : e.InParens e
  /-- In one more pair. -/
  | more {inner : Expr} (h : e.InParens inner) (resolved expected : Option SwiftType)
    (source : Option SourceText) : e.InParens ⟨.parens inner, resolved, expected, source⟩

namespace Expr

variable {e e' : Expr}

theorem InParens.unparenthesized_eq (h : e.InParens e') :
    e'.unparenthesized = e.unparenthesized := by
  induction h with
  | none => rfl
  | more h resolved expected source ih => rw [unparenthesized, ih]

theorem unparenthesized_eq_self (h : ∀ inner, e.shape ≠ .parens inner) : e.unparenthesized = e := by
  unfold unparenthesized
  split
  · exact absurd rfl (h _)
  · rfl

theorem size_unparenthesized_le (e : Expr) : e.unparenthesized.size ≤ e.size := by
  fun_induction unparenthesized e with
  | case1 inner resolved expected source ih =>
    rw [size, Shape.size]
    omega
  | case2 => exact Nat.le_refl _

theorem size_eq (e : Expr) : e.size = e.shape.size + 1 := by
  obtain ⟨shape, _, _, _⟩ := e
  rw [size]

end Expr

/-! ### What the patterns say -/

namespace Pattern

variable {x c : Expr}

theorem binary_eq_true {p q : Pattern Expr} {op : Operator} : binary p op q c = true ↔
    ∃ a b, c.shape = .binary a op b ∧ p a = true ∧ q b = true := by
  unfold binary
  constructor
  · intro h
    split at h
    · rename_i a o b hshape
      simp only [Bool.and_eq_true, beq_iff_eq] at h
      obtain ⟨⟨rfl, ha⟩, hb⟩ := h
      exact ⟨a, b, hshape, ha, hb⟩
    · cases h
  · rintro ⟨a, b, hshape, ha, hb⟩
    simp [hshape, ha, hb]

theorem unary_eq_true {p : Pattern Expr} {op : Operator} : unary op p c = true ↔
    ∃ a, c.shape = .unary op a ∧ p a = true := by
  unfold unary
  constructor
  · intro h
    split at h
    · rename_i o a hshape
      simp only [Bool.and_eq_true, beq_iff_eq] at h
      obtain ⟨rfl, ha⟩ := h
      exact ⟨a, hshape, ha⟩
    · cases h
  · rintro ⟨a, hshape, ha⟩
    simp [hshape, ha]

/-- The condition compares the subject with nil, in one order or the other. -/
def ComparesNil (x : Expr) (op : Operator) (c : Expr) : Prop :=
  ∃ a b, c.shape = .binary a op b ∧
    (a.sameShape x = true ∧ b.isNil = true ∨ a.isNil = true ∧ b.sameShape x = true)

theorem compares_eq_true {op : Operator} :
    or (binary (equals x) op nil) (binary nil op (equals x)) c = true ↔ ComparesNil x op c := by
  simp only [or, Bool.or_eq_true, binary_eq_true, ComparesNil, equals, nil]
  constructor
  · rintro (⟨a, b, hshape, hab⟩ | ⟨a, b, hshape, hab⟩)
    · exact ⟨a, b, hshape, .inl hab⟩
    · exact ⟨a, b, hshape, .inr hab⟩
  · rintro ⟨a, b, hshape, hab | hab⟩
    · exact .inl ⟨a, b, hshape, hab⟩
    · exact .inr ⟨a, b, hshape, hab⟩

theorem nilCheck_eq_true : nilCheck (equals x) c = true ↔
    ComparesNil x .unequals c.unparenthesized ∨ c.unparenthesized.sameShape x = true := by
  rw [nilCheck, ignoringParens, or, Bool.or_eq_true, compares_eq_true, equals]

theorem nilCompare_eq_true : nilCompare (equals x) c = true ↔
    ComparesNil x .equals c.unparenthesized ∨
      ∃ a, c.unparenthesized.shape = .unary .negate a ∧ a.unparenthesized.sameShape x = true := by
  rw [nilCompare, ignoringParens, or, Bool.or_eq_true, compares_eq_true, unary_eq_true]
  simp only [ignoringParens, equals]

/-! ### No condition is both -/

/-- A comparison has more nodes than its subject. -/
theorem ComparesNil.size_lt {op : Operator} (h : ComparesNil x op c) : x.size < c.size := by
  obtain ⟨a, b, hshape, ⟨hx, -⟩ | ⟨-, hx⟩⟩ := h
  all_goals
    have hsize := Expr.size_eq_of_sameShape _ _ hx
    rw [c.size_eq, hshape, Shape.size]
    omega

/-- What `nilCompare` recognises has more nodes than the subject. -/
theorem size_lt_of_nilCompare (h : nilCompare (equals x) c = true) :
    x.size < c.unparenthesized.size := by
  obtain hcompares | ⟨a, hshape, hx⟩ := nilCompare_eq_true.mp h
  · exact hcompares.size_lt
  · have hsize := Expr.size_eq_of_sameShape _ _ hx
    have hle := a.size_unparenthesized_le
    rw [c.unparenthesized.size_eq, hshape, Shape.size]
    omega

theorem not_nilCheck_and_nilCompare (x c : Expr) :
    ¬(nilCheck (equals x) c = true ∧ nilCompare (equals x) c = true) := by
  rintro ⟨hcheck, hcompare⟩
  obtain ⟨a, b, hshape, -⟩ | hx := nilCheck_eq_true.mp hcheck
  · -- An inequality is neither an equality nor a negation.
    obtain ⟨a', b', hshape', -⟩ | ⟨a', hshape', -⟩ := nilCompare_eq_true.mp hcompare
    · cases hshape.symm.trans hshape'
    · cases hshape.symm.trans hshape'
  · have hlt := size_lt_of_nilCompare hcompare
    have hsize := Expr.size_eq_of_sameShape _ _ hx
    omega

/-! ### The ways to ask for nil -/

/-- The ways to say that an expression is there. -/
inductive SaysThere (x : Expr) : Expr → Prop
  /-- `x` -/
  | bare : SaysThere x x
  /-- `x != nil` -/
  | unequalsNil {c n : Expr} (hn : n.isNil = true) (hc : c.shape = .binary x .unequals n) :
    SaysThere x c
  /-- `nil != x` -/
  | nilUnequals {c n : Expr} (hn : n.isNil = true) (hc : c.shape = .binary n .unequals x) :
    SaysThere x c

/-- The ways to say that an expression is missing. -/
inductive SaysMissing (x : Expr) : Expr → Prop
  /-- `x == nil` -/
  | equalsNil {c n : Expr} (hn : n.isNil = true) (hc : c.shape = .binary x .equals n) :
    SaysMissing x c
  /-- `nil == x` -/
  | nilEquals {c n : Expr} (hn : n.isNil = true) (hc : c.shape = .binary n .equals x) :
    SaysMissing x c
  /-- `!x`, also with `x` in parentheses. -/
  | negated {c y : Expr} (hy : x.InParens y) (hc : c.shape = .unary .negate y) : SaysMissing x c

theorem nilCheck_of_saysThere (hparens : ∀ inner, x.shape ≠ .parens inner)
    (hx : x.sameShape x = true) (h : SaysThere x c) : nilCheck (equals x) c = true := by
  rw [nilCheck_eq_true]
  cases h with
  | bare =>
    rw [Expr.unparenthesized_eq_self hparens]
    exact .inr hx
  | unequalsNil hn hc =>
    rw [Expr.unparenthesized_eq_self (by simp [hc])]
    exact .inl ⟨_, _, hc, .inl ⟨hx, hn⟩⟩
  | nilUnequals hn hc =>
    rw [Expr.unparenthesized_eq_self (by simp [hc])]
    exact .inl ⟨_, _, hc, .inr ⟨hn, hx⟩⟩

theorem nilCompare_of_saysMissing (hparens : ∀ inner, x.shape ≠ .parens inner)
    (hx : x.sameShape x = true) (h : SaysMissing x c) : nilCompare (equals x) c = true := by
  rw [nilCompare_eq_true]
  cases h with
  | equalsNil hn hc =>
    rw [Expr.unparenthesized_eq_self (by simp [hc])]
    exact .inl ⟨_, _, hc, .inl ⟨hx, hn⟩⟩
  | nilEquals hn hc =>
    rw [Expr.unparenthesized_eq_self (by simp [hc])]
    exact .inl ⟨_, _, hc, .inr ⟨hn, hx⟩⟩
  | negated hy hc =>
    rw [Expr.unparenthesized_eq_self (by simp [hc])]
    refine .inr ⟨_, hc, ?_⟩
    rw [hy.unparenthesized_eq, Expr.unparenthesized_eq_self hparens]
    exact hx

/-- **Conditions that ask for nil are told apart.** Whatever the subject is, no condition says both
that it is there and that it is missing, and parentheses around a condition change nothing. If the
subject has no parentheses around it and no NaN inside, every way to say the one or the other is
recognised, however the condition is parenthesised. -/
theorem nil_conditions_are_told_apart (x : Expr) :
    (∀ c, ¬(nilCheck (equals x) c = true ∧ nilCompare (equals x) c = true)) ∧
    (∀ c c', c.InParens c' → nilCheck (equals x) c' = nilCheck (equals x) c ∧
      nilCompare (equals x) c' = nilCompare (equals x) c) ∧
    ((∀ inner, x.shape ≠ .parens inner) → x.NaNFree → ∀ c c', c.InParens c' →
      (SaysThere x c → nilCheck (equals x) c' = true) ∧
      (SaysMissing x c → nilCompare (equals x) c' = true)) := by
  have hparens (c c' : Expr) (h : c.InParens c') : nilCheck (equals x) c' = nilCheck (equals x) c ∧
      nilCompare (equals x) c' = nilCompare (equals x) c := by
    simp only [nilCheck, nilCompare, ignoringParens, h.unparenthesized_eq, and_self]
  refine ⟨not_nilCheck_and_nilCompare x, hparens, fun hx hfree c c' h => ?_⟩
  have hself := x.sameShape_self hfree
  rw [(hparens c c' h).1, (hparens c c' h).2]
  exact ⟨nilCheck_of_saysThere hx hself, nilCompare_of_saysMissing hx hself⟩

/-- The subject may say itself that something is missing: with `!(a == nil)` as the subject, the
condition `(!(a == nil))` says that it is there, and `!((!(a == nil)))` that it is missing. -/
theorem nil_conditions_are_told_apart_negation :
    let comparison : Expr := { shape := .binary (.identifier "a") .equals .nil }
    let x : Expr := { shape := .unary .negate { shape := .parens comparison } }
    let inParens : Expr := { shape := .parens x }
    let negated : Expr := { shape := .unary .negate inParens }
    (∀ inner, x.shape ≠ .parens inner) ∧ x.NaNFree ∧
      x.InParens inParens ∧ SaysThere x x ∧ nilCheck (equals x) inParens = true ∧
      SaysMissing x negated ∧ nilCompare (equals x) negated = true := by
  intro comparison x inParens negated
  have hx : ∀ inner, x.shape ≠ .parens inner := by simp [x]
  have hfree : x.NaNFree := by
    simp [x, comparison, Expr.nanFree_mk, Expr.identifier, Expr.nil, Shape.subexpressions,
      Shape.statements, Constant.isNaN]
  have hin : x.InParens inParens := .more .none none none none
  have hmissing : SaysMissing x negated := .negated hin rfl
  obtain ⟨-, -, hrecognised⟩ := nil_conditions_are_told_apart x
  exact ⟨hx, hfree, hin, .bare, (hrecognised hx hfree x inParens hin).1 .bare, hmissing,
    (hrecognised hx hfree negated negated .none).2 hmissing⟩

end Pattern

end ObjcSwift
