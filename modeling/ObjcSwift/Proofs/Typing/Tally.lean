import ObjcSwift.Pass.Idiom
import Mathlib

/-!
# Edits that count what they change

Folding idioms counts what it folds, and a declaration in which nothing was counted is taken to be
unchanged. This is so: an edit of a tree that counts at every node whether it changed the node
(`Editor.Counts`) counts whether it changed the tree. Counts never go down, so one that is the same
in the end was the same at every node between.
-/

namespace ObjcSwift

/-! ### Results with a count -/

/-- A result with a count, of something at a count: the count has not gone down, and if it has not
gone up, the result is what was there. -/
structure Tally {α : Type} (result : α × Nat) (a : α) (count : Nat) : Prop where
  /-- The count has not gone down. -/
  le : count ≤ result.2
  /-- If nothing was counted, nothing was changed. -/
  eq_of_eq : result.2 = count → result.1 = a

namespace Tally

variable {α β : Type} {a : α} {b : β} {r : α × Nat} {s : β × Nat} {count : Nat}

theorem refl (a : α) (count : Nat) : Tally (a, count) a count :=
  ⟨Nat.le_refl count, fun _ => rfl⟩

/-- One result after the other. -/
theorem trans {r' : α × Nat} (h : Tally r a count) (h' : Tally r' r.1 r.2) :
    Tally r' a count := by
  have hle := h.le
  have hle' := h'.le
  refine ⟨by omega, fun heq => ?_⟩
  rw [h'.eq_of_eq (by omega), h.eq_of_eq (by omega)]

theorem map (f : α → β) (h : Tally r a count) : Tally (f r.1, r.2) (f a) count :=
  ⟨h.le, fun heq => congrArg f (h.eq_of_eq heq)⟩

/-- Something made of parts, of which the last is the next to be counted. -/
theorem ap {f : α → β} {p : (α → β) × Nat} (hf : Tally p f count) (h : Tally r a p.2) :
    Tally (p.1 r.1, r.2) (f a) count := by
  have hle := hf.le
  have hle' := h.le
  refine ⟨by simp only; omega, fun heq => ?_⟩
  simp only at heq ⊢
  rw [hf.eq_of_eq (by omega), h.eq_of_eq (by omega)]

end Tally

/-! ### Trees -/

/-- The editor counts the nodes that it changes. -/
structure Editor.Counts (ed : Editor Nat) : Prop where
  /-- Entering a node counts nothing. -/
  enter_eq : ∀ n count, ed.enter n count = count
  /-- Expressions that change are counted. -/
  exitExpr : ∀ e count, Tally (ed.exitExpr e count) e count
  /-- Statements that change are counted. -/
  exitStmt : ∀ s count, Tally (ed.exitStmt s count) s count

section Trees

variable {ed : Editor Nat}

/-- Entering and leaving a statement, around an edit of what stands below it. -/
theorem Editor.Counts.tally_stmt {s : Stmt} {count : Nat} {r : Stmt × Nat} (h : ed.Counts)
    (hr : Tally r s (ed.enter (.stmt s) count)) :
    Tally (if ed.skip (.stmt s) then ed.exitStmt s (ed.enter (.stmt s) count)
      else ed.exitStmt r.1 r.2) s count := by
  rw [h.enter_eq] at hr ⊢
  split
  · exact h.exitStmt s count
  · exact hr.trans (h.exitStmt r.1 r.2)

mutual

/-- **An edit that counts nothing in an expression leaves it as it is.** -/
theorem Expr.tally_edit (h : ed.Counts) :
    ∀ (e : Expr) (count : Nat), Tally (e.edit ed count) e count
  | ⟨shape, resolved, expected, source⟩, count => by
    simp only [Expr.edit, h.enter_eq]
    split
    · exact h.exitExpr _ count
    · exact ((shape.tally_edit h count).map fun shape =>
        Expr.mk shape resolved expected source).trans (h.exitExpr _ _)

theorem Shape.tally_edit (h : ed.Counts) :
    ∀ (shape : Shape) (count : Nat), Tally (shape.edit ed count) shape count
  | .identifier _, count => .refl _ count
  | .constant _, count => .refl _ count
  | .unary op operand, count => (operand.tally_edit h count).map (Shape.unary op)
  | .binary lhs op rhs, count =>
    ((lhs.tally_edit h count).map fun lhs rhs => Shape.binary lhs op rhs).ap (rhs.tally_edit h _)
  | .ternary condition ifTrue ifFalse, count =>
    (((condition.tally_edit h count).map Shape.ternary).ap (ifTrue.tally_edit h _)).ap
      (ifFalse.tally_edit h _)
  | .assignment lhs op rhs, count =>
    ((lhs.tally_edit h count).map fun lhs rhs => Shape.assignment lhs op rhs).ap
      (rhs.tally_edit h _)
  | .suffixed receiver unwrap suffix, count =>
    ((receiver.tally_edit h count).map fun receiver => Shape.suffixed receiver unwrap).ap
      (suffix.tally_edit h _)
  | .cast expression target, count => (expression.tally_edit h count).map (Shape.cast · target)
  | .sizeOfValue expression, count => (expression.tally_edit h count).map Shape.sizeOfValue
  | .sizeOfType _, count => .refl _ count
  | .parens inner, count => (inner.tally_edit h count).map Shape.parens
  | .arrayLiteral elements, count => (tally_exprsEdit h elements count).map Shape.arrayLiteral
  | .dictionaryLiteral entries, count =>
    (tally_entriesEdit h entries count).map Shape.dictionaryLiteral
  | .block parameters result body, count =>
    (tally_bodyEdit h body count).map (Shape.block parameters result)
  | .unknown _, count => .refl _ count

theorem Suffix.tally_edit (h : ed.Counts) :
    ∀ (suffix : Suffix) (count : Nat), Tally (suffix.edit ed count) suffix count
  | .member _, count => .refl _ count
  | .call arguments, count => (tally_argumentsEdit h arguments count).map Suffix.call
  | .subscript index, count => (index.tally_edit h count).map Suffix.subscript

theorem tally_exprsEdit (h : ed.Counts) :
    ∀ (es : List Expr) (count : Nat), Tally (exprsEdit ed es count) es count
  | [], count => .refl _ count
  | e :: es, count => ((e.tally_edit h count).map List.cons).ap (tally_exprsEdit h es _)

theorem tally_argumentsEdit (h : ed.Counts) :
    ∀ (arguments : List Argument) (count : Nat),
      Tally (argumentsEdit ed arguments count) arguments count
  | [], count => .refl _ count
  | ⟨label, value⟩ :: rest, count =>
    ((value.tally_edit h count).map fun value => List.cons (Argument.mk label value)).ap
      (tally_argumentsEdit h rest _)

theorem tally_entriesEdit (h : ed.Counts) :
    ∀ (entries : List Entry) (count : Nat), Tally (entriesEdit ed entries count) entries count
  | [], count => .refl _ count
  | ⟨key, value⟩ :: rest, count =>
    (((key.tally_edit h count).map fun key value => List.cons (Entry.mk key value)).ap
      (value.tally_edit h _)).ap (tally_entriesEdit h rest _)

/-- **An edit that counts nothing in a body leaves it as it is.** -/
theorem tally_bodyEdit (h : ed.Counts) :
    ∀ (body : List Stmt) (count : Nat), Tally (bodyEdit ed body count) body count
  | [], count => .refl _ count
  | s :: ss, count => ((s.tally_edit h count).map List.cons).ap (tally_bodyEdit h ss _)

theorem tally_variablesEdit (h : ed.Counts) :
    ∀ (declarations : List Variable) (count : Nat),
      Tally (variablesEdit ed declarations count) declarations count
  | [], count => .refl _ count
  | ⟨name, type, none, constant⟩ :: rest, count =>
    (tally_variablesEdit h rest count).map (List.cons (Variable.mk name type none constant))
  | ⟨name, type, some initial, constant⟩ :: rest, count =>
    ((initial.tally_edit h count).map fun initial =>
      List.cons (Variable.mk name type (some initial) constant)).ap (tally_variablesEdit h rest _)

theorem Stmt.tally_edit (h : ed.Counts) :
    ∀ (s : Stmt) (count : Nat), Tally (s.edit ed count) s count
  | .compound body, _ =>
    h.tally_stmt ((tally_bodyEdit h body _).map Stmt.compound)
  | .branch condition body none, _ =>
    h.tally_stmt
      (((condition.tally_edit h _).map fun condition body => Stmt.branch condition body none).ap
        (tally_bodyEdit h body _))
  | .branch condition body (some otherwise), _ =>
    h.tally_stmt
      ((((condition.tally_edit h _).map fun condition body otherwise =>
        Stmt.branch condition body (some otherwise)).ap (tally_bodyEdit h body _)).ap
          (tally_bodyEdit h otherwise _))
  | .whileLoop condition body, _ =>
    h.tally_stmt
      (((condition.tally_edit h _).map Stmt.whileLoop).ap (tally_bodyEdit h body _))
  | .repeatLoop body condition, _ =>
    h.tally_stmt
      (((condition.tally_edit h _).map fun condition body => Stmt.repeatLoop body condition).ap
        (tally_bodyEdit h body _))
  | .forIn binding sequence body, _ =>
    h.tally_stmt
      (((sequence.tally_edit h _).map (Stmt.forIn binding)).ap (tally_bodyEdit h body _))
  | .return none, _ => h.tally_stmt (.refl _ _)
  | .return (some value), _ =>
    h.tally_stmt ((value.tally_edit h _).map fun value => Stmt.return (some value))
  | .expressions values, _ =>
    h.tally_stmt ((tally_exprsEdit h values _).map Stmt.expressions)
  | .locals declarations, _ =>
    h.tally_stmt ((tally_variablesEdit h declarations _).map Stmt.locals)
  | .break, _ => h.tally_stmt (.refl _ _)
  | .continue, _ => h.tally_stmt (.refl _ _)
  | .unknown _, _ => h.tally_stmt (.refl _ _)

end

end Trees

/-! ### Folding idioms -/

namespace Idiom

variable (c : Catalog)

theorem counts_folder : (folder c).Counts where
  enter_eq _ _ := rfl
  exitExpr e count := by
    simp only [folder]
    split
    · exact ⟨Nat.le_succ count, fun heq => absurd heq (Nat.succ_ne_self count)⟩
    · exact .refl e count
  exitStmt s count := by
    simp only [folder]
    split
    · exact ⟨Nat.le_succ count, fun heq => absurd heq (Nat.succ_ne_self count)⟩
    · exact .refl s count

theorem tally_foldCode (code : Code) (count : Nat) : Tally (foldCode c code count) code count :=
  (tally_bodyEdit (counts_folder c) code.body count).map fun body => { code with body }

theorem tally_foldSetter (setter : Setter) (count : Nat) :
    Tally (foldSetter c setter count) setter count :=
  (tally_foldCode c setter.code count).map fun code => { setter with code }

theorem tally_foldMode : ∀ mode : PropertyMode, Tally (foldMode c mode) mode 0
  | .field => .refl _ 0
  | .computed getter none =>
    (tally_foldCode c getter 0).map fun getter => PropertyMode.computed getter none
  | .computed getter (some setter) =>
    ((tally_foldCode c getter 0).map fun getter setter =>
      PropertyMode.computed getter (some setter)).ap (tally_foldSetter c setter _)
  | .full getter setter =>
    ((tally_foldCode c getter 0).map PropertyMode.full).ap (tally_foldSetter c setter _)

/-- **A declaration in which nothing was folded is unchanged.** -/
theorem tally_foldDecl : ∀ d : Decl, Tally (foldDecl c d) d 0
  | .method ⟨signature, some code, header⟩ =>
    (tally_foldCode c code 0).map fun code => Decl.method ⟨signature, some code, header⟩
  | .globalFunction ⟨signature, some code, header⟩ =>
    (tally_foldCode c code 0).map fun code => Decl.globalFunction ⟨signature, some code, header⟩
  | .property d => (tally_foldMode c d.mode).map fun mode => Decl.property { d with mode }
  | .globalVariable ⟨name, storage, some initial, header⟩ =>
    (initial.tally_edit (counts_folder c) 0).map fun initial =>
      Decl.globalVariable ⟨name, storage, some initial, header⟩
  | .method ⟨_, none, _⟩ => .refl _ 0
  | .globalFunction ⟨_, none, _⟩ => .refl _ 0
  | .globalVariable ⟨_, _, none, _⟩ => .refl _ 0
  | .file _ => .refl _ 0
  | .type _ => .refl _ 0
  | .ivar _ => .refl _ 0
  | .conformance _ => .refl _ 0
  | .typeAlias _ => .refl _ 0

end Idiom

end ObjcSwift
