import ObjcSwift.Proofs.Reading.Formulas
import ObjcSwift.Swift.Expr.Text

/-!
# Printed formulas are unambiguous

A reader takes the text of a formula back to the formula. It reads an operand, then the operators
after it that are of a given power or more, and after an operator it reads an operand with more
power than the operator has. So operators of the same power are grouped from the left, and what is
printed in parentheses is what would be grouped differently without them.

How much may follow the text of a formula before the reading changes depends on its power, and that
is what the induction is about (`Expr.ReadsBack`): nothing with a suffix unless the power is that of
a name, and no operator of more power than the formula has. The main statement says that two
formulas with the same text have the same shape (`Expr.formulas_print_apart`).
-/

namespace ObjcSwift

open Reading

/-! ### The reader -/

/-- What may stand between operands. -/
inductive Joint
  /-- `?` after a condition. -/
  | condition
  /-- `as?` before a type. -/
  | cast
  /-- An operator. -/
  | operator (op : Operator)
  /-- Anything else. -/
  | nothing

namespace Joint

/-- The power of the shape that the joint makes. -/
def power : Joint → Nat
  | condition => 1
  | cast => 4
  | operator op => op.precedence
  | nothing => 0

/-- The joint of a spelling. -/
def ofSymbol (symbol : String) : Joint :=
  if symbol = "?" then condition
  else if symbol = "as?" then cast
  else match Operator.ofSymbol? symbol with
    | some op => operator op
    | none => nothing

/-- The joint at the beginning of a text. -/
def startOf (s : List Char) : Joint :=
  ofSymbol (String.ofList (s.takeWhile (· != ' ')))

/-- The text after a joint and the blank behind it. -/
def after (s : List Char) : List Char :=
  (s.dropWhile (· != ' ')).tail

theorem after_length_le (s : List Char) : (after s).length ≤ s.length := by
  have := (List.dropWhile_suffix (l := s) (· != ' ')).length_le
  simp only [after, List.length_tail]
  omega

variable {symbol : String}

theorem startOf_append (h : ' ' ∉ symbol.toList) (s : List Char) :
    startOf (symbol.toList ++ ' ' :: s) = ofSymbol symbol := by
  have hall : ∀ c ∈ symbol.toList, (c != ' ') = true := by grind
  rw [startOf, List.takeWhile_append_of_pos hall]
  simp

theorem after_append (h : ' ' ∉ symbol.toList) (s : List Char) :
    after (symbol.toList ++ ' ' :: s) = s := by
  have hall : ∀ c ∈ symbol.toList, (c != ' ') = true := by grind
  rw [after, List.dropWhile_append_of_pos hall]
  simp

end Joint

namespace Operator

theorem ofSymbol_symbol (op : Operator) : Joint.ofSymbol op.symbol = .operator op := by
  cases op <;> rfl

theorem not_mem_symbol (op : Operator) : ' ' ∉ op.symbol.toList := by
  cases op <;> decide

theorem one_le_precedence (op : Operator) : 1 ≤ op.precedence := by
  cases op <;> decide

theorem precedence_le (op : Operator) : op.precedence ≤ 9 := by
  cases op <;> decide

theorem two_le_precedence {op : Operator} (h : op.category ≠ .assignment) : 2 ≤ op.precedence := by
  cases op <;> first | decide | exact absurd rfl h

/-- The operator that a character is before an operand. -/
def ofMark? : Char → Option Operator
  | '!' => some .negate
  | '-' => some .subtract
  | '+' => some .add
  | '~' => some .bitwiseNot
  | _ => none

theorem exists_mark {op : Operator} (h : op.isUnary = true) :
    ∃ c, op.symbol.toList = [c] ∧ ofMark? c = some op ∧ c ≠ '(' := by
  cases op <;> first | exact ⟨_, rfl, rfl, by decide⟩ | cases h

end Operator

namespace Expr

mutual

/-- Reads an expression whose operators have at least the given power. -/
def read (level : Nat) (s : List Char) : Option (Expr × List Char) :=
  andThen s (readOperand s) fun e rest _ => readOperators level e rest
termination_by 3 * s.length + 2

/-- Reads an operand with the operators before it and the suffixes after it. -/
def readOperand (s : List Char) : Option (Expr × List Char) :=
  match s with
  | '(' :: s => andThen s (read 1 s) fun e rest _ =>
    match rest with
    | ')' :: rest => readSuffixes e .none rest
    | _ => none
  | c :: s =>
    match Operator.ofMark? c with
    | some op => andThen s (readOperand s) fun e rest _ => some ({ shape := .unary op e }, rest)
    | none => andThen (c :: s) (readWord (c :: s)) fun name rest _ =>
      readSuffixes (identifier name) .none rest
  | [] => none
termination_by 3 * s.length + 1
decreasing_by all_goals grind

/-- Reads the suffixes of an expression. -/
def readSuffixes (e : Expr) (unwrap : Unwrap) (s : List Char) : Option (Expr × List Char) :=
  match s with
  | '?' :: s => readSuffixes e .safe s
  | '!' :: s => readSuffixes e .force s
  | '.' :: s => andThen s (readWord s) fun name rest _ =>
    readSuffixes { shape := .suffixed e unwrap (.member name) } .none rest
  | '(' :: s => andThen s (readList ')' s fun s _ => read 1 s) fun values rest _ =>
    readSuffixes { shape := .suffixed e unwrap (.call (values.map (⟨none, ·⟩))) } .none rest
  | '[' :: s => andThen s (read 1 s) fun index rest _ =>
    match rest with
    | ']' :: rest => readSuffixes { shape := .suffixed e unwrap (.subscript index) } .none rest
    | _ => none
  | rest => some (e, rest)
termination_by 3 * s.length
decreasing_by all_goals grind

/-- Reads on after an operand, as long as the operators have at least the given power. -/
def readOperators (level : Nat) (e : Expr) (s : List Char) : Option (Expr × List Char) :=
  match s with
  | ' ' :: s =>
    if (Joint.startOf s).power < level then some (e, ' ' :: s)
    else match Joint.startOf s with
      | .condition => andThen s (read 2 (Joint.after s)) fun ifTrue rest _ =>
        match rest with
        | ' ' :: ':' :: ' ' :: s => andThen s (read 1 s) fun ifFalse rest _ =>
          readOperators level { shape := .ternary e ifTrue ifFalse } rest
        | _ => none
      | .cast => andThen s (readWord (Joint.after s)) fun target rest _ =>
        readOperators level { shape := .cast e (.named target) } rest
      | .operator op => andThen s (read (op.precedence + 1) (Joint.after s)) fun rhs rest _ =>
        readOperators level { shape := .binary e op rhs } rest
      | .nothing => some (e, ' ' :: s)
  | rest => some (e, rest)
termination_by 3 * s.length
decreasing_by all_goals grind [Joint.after_length_le]

end

/-! ### What may follow an operand -/

/-- The text goes on with neither a word nor a suffix. -/
abbrev Ends (rest : List Char) : Prop :=
  GoesOn [' ', ')', ']', ','] rest

/-- The power of the operator that the text goes on with, zero if there is none. -/
def nextPower : List Char → Nat
  | ' ' :: s => (Joint.startOf s).power
  | _ => 0

variable {e : Expr} {level : Nat} {rest : List Char}

theorem Ends.wordEnds (h : Ends rest) : WordEnds rest :=
  GoesOn.wordEnds h (by simp [isWordChar])

theorem readSuffixes_of_ends (h : Ends rest) (e : Expr) (unwrap : Unwrap) :
    readSuffixes e unwrap rest = some (e, rest) := by
  rw [readSuffixes]
  all_goals
    rintro s rfl
    simpa using h _ rfl

/-- Operators of less power are left to the surroundings. -/
theorem readOperators_of_nextPower_lt (h : nextPower rest < level) (e : Expr) :
    readOperators level e rest = some (e, rest) := by
  cases rest with
  | nil => rw [readOperators]; simp
  | cons c s =>
    by_cases hc : c = ' '
    · subst hc
      rw [nextPower] at h
      rw [readOperators, if_pos h]
    · rw [readOperators]
      grind

theorem nextPower_operator (op : Operator) (s : List Char) :
    nextPower (' ' :: (op.symbol.toList ++ ' ' :: s)) = op.precedence := by
  rw [nextPower, Joint.startOf_append op.not_mem_symbol, op.ofSymbol_symbol, Joint.power]

/-- An operand is taken together with an operator and the operand after it. -/
theorem readOperators_operator {op : Operator} {rhs : Expr} {s : List Char}
    (h : level ≤ op.precedence) (hrhs : read (op.precedence + 1) s = some (rhs, rest))
    (hlength : rest.length ≤ s.length) :
    readOperators level e (' ' :: (op.symbol.toList ++ ' ' :: s)) =
      readOperators level { shape := .binary e op rhs } rest := by
  rw [readOperators, Joint.startOf_append op.not_mem_symbol, op.ofSymbol_symbol,
    Joint.after_append op.not_mem_symbol, Joint.power, if_neg (by omega)]
  change andThen _ (read (op.precedence + 1) s) _ = _
  rw [hrhs, andThen_some (by grind)]

theorem readOperators_cast {target : String} (h : level ≤ 4) (htarget : IsWord target)
    (hrest : WordEnds rest) :
    readOperators level e (' ' :: 'a' :: 's' :: '?' :: ' ' :: (target.toList ++ rest)) =
      readOperators level { shape := .cast e (.named target) } rest := by
  have hjoint : ∀ s, Joint.startOf ('a' :: 's' :: '?' :: ' ' :: s) = .cast := fun s => rfl
  rw [readOperators, hjoint, Joint.power, if_neg (by omega)]
  change andThen _ (readWord (target.toList ++ rest)) _ = _
  rw [readWord_append htarget hrest, andThen_some (by grind)]

theorem readOperators_condition {ifTrue ifFalse : Expr} {s s' : List Char} (h : level ≤ 1)
    (htrue : read 2 s = some (ifTrue, ' ' :: ':' :: ' ' :: s')) (hlength : s'.length + 3 ≤ s.length)
    (hfalse : read 1 s' = some (ifFalse, rest)) (hlength' : rest.length ≤ s'.length) :
    readOperators level e (' ' :: '?' :: ' ' :: s) =
      readOperators level { shape := .ternary e ifTrue ifFalse } rest := by
  have hjoint : ∀ s, Joint.startOf ('?' :: ' ' :: s) = .condition := fun s => rfl
  rw [readOperators, hjoint, Joint.power, if_neg (by omega)]
  change andThen _ (read 2 s) _ = _
  rw [htrue, andThen_some (by grind)]
  change andThen _ (read 1 s') _ = _
  rw [hfalse, andThen_some (by grind)]

/-! ### Prefixes and parentheses -/

theorem readOperand_unary {op : Operator} {s : List Char} (hop : op.isUnary = true)
    (h : readOperand s = some (e, rest)) (hlength : rest.length ≤ s.length) :
    readOperand (op.symbol.toList ++ s) = some ({ shape := .unary op e }, rest) := by
  obtain ⟨c, hc, hmark, hparen⟩ := Operator.exists_mark hop
  rw [hc, List.singleton_append, readOperand]
  · rw [hmark]
    change andThen _ (readOperand s) _ = _
    rw [h, andThen_some (by grind)]
  · grind

theorem readOperand_word {name : String} (hname : IsWord name) (hrest : WordEnds rest) :
    readOperand (name.toList ++ rest) = readSuffixes (identifier name) .none rest := by
  have hread := readWord_append hname hrest
  cases hs : name.toList with
  | nil => exact absurd hs hname.toList_ne_nil
  | cons c cs =>
    have hc : isWordChar c = true := hname.2 c (by simp [hs])
    -- A word does not start like a prefix operator.
    have hmark : Operator.ofMark? c = none := by
      unfold Operator.ofMark?
      split <;> first | rfl | simp [isWordChar] at hc
    rw [hs, List.cons_append] at hread
    rw [List.cons_append, readOperand, hmark]
    · change andThen _ (readWord (c :: (cs ++ rest))) _ = _
      rw [hread, andThen_some (by grind)]
    · rintro rfl
      simp [isWordChar] at hc

theorem readOperand_parens {s : List Char} (h : read 1 s = some (e, ')' :: rest))
    (hlength : rest.length + 1 ≤ s.length) :
    readOperand ('(' :: s) = readSuffixes e .none rest := by
  rw [readOperand, h, andThen_some (by grind)]
  rfl

/-- No expression is read from the end of a list. -/
theorem read_close (level : Nat) (s : List Char) : read level (')' :: s) = none := by
  have hmark : Operator.ofMark? ')' = none := rfl
  rw [read, readOperand, hmark]
  · rfl
  · simp

end Expr

/-! ### Texts -/

section Texts

variable {op : Operator} {e e' e'' : Expr} {type : SwiftType} {unwrap : Unwrap} {suffix : Suffix}
  {shape : Shape}

theorem Expr.text_mk : ({ shape := shape } : Expr).text = shape.text := rfl

theorem Shape.text_unary :
    (unary op e).text = op.symbol ++ operandText 20 e.shape e.text := rfl

theorem Shape.text_binary :
    (binary e op e').text = operandText op.precedence e.shape e.text ++ " " ++ op.symbol ++ " " ++
      operandText (op.precedence + 1) e'.shape e'.text := rfl

theorem Shape.text_ternary :
    (ternary e e' e'').text = operandText 2 e.shape e.text ++ " ? " ++
      operandText 2 e'.shape e'.text ++ " : " ++ operandText 1 e''.shape e''.text := rfl

theorem Shape.text_cast :
    (cast e type).text = operandText 5 e.shape e.text ++ " as? " ++ type.text := rfl

theorem Shape.text_suffixed :
    (suffixed e unwrap suffix).text =
      operandText 30 e.shape e.text ++ unwrap.mark ++ suffix.text := rfl

end Texts

/-! ### What is read back -/

theorem Shape.one_le_power (s : Shape) : 1 ≤ s.power := by
  cases s with
  | binary lhs op rhs => exact op.one_le_precedence
  | _ => simp [power]

namespace Expr

variable {e : Expr} {rest : List Char} {demand level : Nat}

/-- What follows does not take an operand of the given power apart: an operator may be of the same
power, but the last part of a ternary goes as far as it can. -/
def Stands (power : Nat) (rest : List Char) : Prop :=
  nextPower rest = 0 ∨ 2 ≤ power ∧ nextPower rest ≤ power

/-- The text of an expression is read back as the expression. The more tightly the text holds
together, the more may follow: suffixes after a name or a suffix, operators of any power after an
operand with an operator before it, and no operators of more power after other operators. -/
structure ReadsBack (e : Expr) : Prop where
  suffixes : 30 ≤ e.shape.power → ∀ rest, WordEnds rest →
    readOperand (e.text.toList ++ rest) = readSuffixes e.plain .none rest
  operand : 20 ≤ e.shape.power → ∀ rest, Ends rest →
    readOperand (e.text.toList ++ rest) = some (e.plain, rest)
  operators : ∀ level ≤ e.shape.power, ∀ rest, Ends rest → Stands e.shape.power rest →
    read level (e.text.toList ++ rest) = readOperators level e.plain rest

namespace ReadsBack

theorem of_operators (hpower : e.shape.power < 20)
    (h : ∀ level ≤ e.shape.power, ∀ rest, Ends rest → Stands e.shape.power rest →
      read level (e.text.toList ++ rest) = readOperators level e.plain rest) :
    e.ReadsBack :=
  ⟨fun hle => absurd hpower (by omega), fun hle => absurd hpower (by omega), h⟩

theorem of_operand (hpower : e.shape.power < 30)
    (h : ∀ rest, Ends rest → readOperand (e.text.toList ++ rest) = some (e.plain, rest)) :
    e.ReadsBack := by
  refine ⟨fun hle => absurd hpower (by omega), fun _ => h, fun level _ rest hrest _ => ?_⟩
  rw [read, h rest hrest, andThen_some (by grind)]

theorem of_suffixes
    (h : ∀ rest, WordEnds rest →
      readOperand (e.text.toList ++ rest) = readSuffixes e.plain .none rest) :
    e.ReadsBack := by
  have hoperand : ∀ rest, Ends rest →
      readOperand (e.text.toList ++ rest) = some (e.plain, rest) := by
    intro rest hrest
    rw [h rest hrest.wordEnds, readSuffixes_of_ends hrest]
  refine ⟨fun _ => h, fun _ => hoperand, fun level _ rest hrest _ => ?_⟩
  rw [read, hoperand rest hrest, andThen_some (by grind)]

/-- Where no operator follows, an expression is read back. -/
theorem read_text (h : e.ReadsBack) (hrest : Ends rest) (hnext : nextPower rest = 0) :
    read 1 (e.text.toList ++ rest) = some (e.plain, rest) := by
  rw [h.operators 1 e.shape.one_le_power rest hrest (.inl hnext),
    readOperators_of_nextPower_lt (by omega)]

theorem readOperand_parens (h : e.ReadsBack) (rest : List Char) :
    readOperand ('(' :: (e.text.toList ++ ')' :: rest)) = readSuffixes e.plain .none rest :=
  Expr.readOperand_parens (h.read_text (goesOn_cons (by decide) rest) rfl) (by grind)

theorem operandText_append (demand : Nat) (e : Expr) (rest : List Char) :
    (operandText demand e.shape e.text).toList ++ rest =
      if e.shape.power < demand then '(' :: (e.text.toList ++ ')' :: rest)
      else e.text.toList ++ rest := by
  rw [operandText]
  split <;> simp

/-- A receiver is read back before its suffix. -/
theorem readOperand_receiver (h : e.ReadsBack) (hrest : WordEnds rest) :
    readOperand ((operandText 30 e.shape e.text).toList ++ rest) =
      readSuffixes e.plain .none rest := by
  rw [operandText_append]
  split_ifs with hpower
  · exact h.readOperand_parens rest
  · exact h.suffixes (by omega) rest hrest

/-- An operand is read back after an operator that stands before it. -/
theorem readOperand_operand (h : e.ReadsBack) (hrest : Ends rest) :
    readOperand ((operandText 20 e.shape e.text).toList ++ rest) = some (e.plain, rest) := by
  rw [operandText_append]
  split_ifs with hpower
  · rw [h.readOperand_parens, readSuffixes_of_ends hrest]
  · exact h.operand (by omega) rest hrest

/-- Before an operator, an operand is read on with. -/
theorem read_before (h : e.ReadsBack) (hlevel : level ≤ demand) (hrest : Ends rest)
    (hnext : Stands demand rest) :
    read level ((operandText demand e.shape e.text).toList ++ rest) =
      readOperators level e.plain rest := by
  rw [operandText_append]
  split_ifs with hpower
  · rw [read, h.readOperand_parens, readSuffixes_of_ends hrest, andThen_some (by grind)]
  · -- Without parentheses the operand has the power that is asked for.
    refine h.operators level (by omega) rest hrest ?_
    rcases hnext with hzero | ⟨hdemand, hnext⟩
    · exact .inl hzero
    · exact .inr ⟨by omega, by omega⟩

/-- After an operator, an operand is read back. -/
theorem read_after (h : e.ReadsBack) (hrest : Ends rest) (hnext : nextPower rest < demand) :
    read demand ((operandText demand e.shape e.text).toList ++ rest) = some (e.plain, rest) := by
  have hstands : Stands demand rest := by
    unfold Stands
    omega
  rw [h.read_before le_rfl hrest hstands, readOperators_of_nextPower_lt hnext]

end ReadsBack

/-! ### Constructors -/

theorem readsBack_identifier {name : String} (hname : IsWord name) :
    ReadsBack { shape := .identifier name } :=
  .of_suffixes fun _ hrest => readOperand_word hname hrest

theorem readsBack_unary {op : Operator} (hop : op.isUnary = true) (h : e.ReadsBack) :
    ReadsBack { shape := .unary op e } := by
  refine .of_operand (by simp [Shape.power]) fun rest hrest => ?_
  rw [text_mk, Shape.text_unary, String.toList_append, List.append_assoc, plain_mk,
    Shape.plain_unary]
  exact readOperand_unary hop (h.readOperand_operand hrest) (by grind)

/-- The left operand and the operator are read before the right operand, which leaves operators of
the same power alone. -/
theorem readsBack_binary {lhs rhs : Expr} {op : Operator} (hop : op.category ≠ .assignment)
    (hlhs : lhs.ReadsBack) (hrhs : rhs.ReadsBack) :
    ReadsBack { shape := .binary lhs op rhs } := by
  have hle := op.precedence_le
  refine .of_operators (by simp only [Shape.power]; omega) fun level hlevel rest hrest hnext => ?_
  have htext : (text { shape := .binary lhs op rhs }).toList ++ rest =
      (operandText op.precedence lhs.shape lhs.text).toList ++ ' ' :: (op.symbol.toList ++ ' ' ::
        ((operandText (op.precedence + 1) rhs.shape rhs.text).toList ++ rest)) := by
    simp [text_mk, Shape.text_binary]
  have hlevel : level ≤ op.precedence := hlevel
  -- The right operand is read with more power than what follows has.
  have hright : nextPower rest < op.precedence + 1 := by
    simp only [Stands, Shape.power] at hnext
    omega
  have hstands : Stands op.precedence (' ' :: (op.symbol.toList ++ ' ' ::
      ((operandText (op.precedence + 1) rhs.shape rhs.text).toList ++ rest))) :=
    .inr ⟨Operator.two_le_precedence hop, (nextPower_operator op _).le⟩
  rw [htext, hlhs.read_before hlevel (goesOn_cons (by decide) _) hstands,
    readOperators_operator hlevel (hrhs.read_after hrest hright) (by grind),
    plain_mk, Shape.plain_binary]

theorem readsBack_cast {target : String} (h : e.ReadsBack) (htarget : IsWord target) :
    ReadsBack { shape := .cast e (.named target) } := by
  refine .of_operators (by simp [Shape.power]) fun level hlevel rest hrest hnext => ?_
  have htext : (text { shape := .cast e (.named target) }).toList ++ rest =
      (operandText 5 e.shape e.text).toList ++ ' ' :: 'a' :: 's' :: '?' :: ' ' ::
        (target.toList ++ rest) := by
    simp [text_mk, Shape.text_cast, SwiftType.text]
  -- A cast binds less tightly than what it casts, so that is read whole.
  have hstands : Stands 5 (' ' :: 'a' :: 's' :: '?' :: ' ' :: (target.toList ++ rest)) :=
    .inr ⟨by decide, by change 4 ≤ 5; decide⟩
  have hlevel : level ≤ 4 := hlevel
  rw [htext, h.read_before (by omega) (goesOn_cons (by decide) _) hstands,
    readOperators_cast hlevel htarget hrest.wordEnds, plain_mk, Shape.plain_cast]

theorem readsBack_ternary {condition ifTrue ifFalse : Expr} (hcondition : condition.ReadsBack)
    (htrue : ifTrue.ReadsBack) (hfalse : ifFalse.ReadsBack) :
    ReadsBack { shape := .ternary condition ifTrue ifFalse } := by
  refine .of_operators (by simp [Shape.power]) fun level hlevel rest hrest hnext => ?_
  have htext : (text { shape := .ternary condition ifTrue ifFalse }).toList ++ rest =
      (operandText 2 condition.shape condition.text).toList ++ ' ' :: '?' :: ' ' ::
        ((operandText 2 ifTrue.shape ifTrue.text).toList ++ ' ' :: ':' :: ' ' ::
          ((operandText 1 ifFalse.shape ifFalse.text).toList ++ rest)) := by
    simp [text_mk, Shape.text_ternary]
  have hnext : nextPower rest < 1 := by
    simp only [Stands, Shape.power] at hnext
    omega
  have hlevel : level ≤ 1 := hlevel
  -- The question mark comes after an operand of more power, and the colon has no power.
  have hstands : ∀ s, Stands 2 (' ' :: '?' :: ' ' :: s) :=
    fun s => .inr ⟨by decide, by change 1 ≤ 2; decide⟩
  have hcolon : ∀ s, nextPower (' ' :: ':' :: ' ' :: s) < 2 :=
    fun s => by change 0 < 2; decide
  rw [htext, hcondition.read_before (by omega) (goesOn_cons (by decide) _) (hstands _),
    readOperators_condition hlevel (htrue.read_after (goesOn_cons (by decide) _) (hcolon _))
      (by grind) (hfalse.read_after hrest hnext) (by grind), plain_mk, Shape.plain_ternary]

end Expr

/-! ### Suffixes -/

/-- The text of a suffix is read back after any receiver. -/
def Suffix.ReadsBack (s : Suffix) : Prop :=
  ∀ (e : Expr) unwrap rest, WordEnds rest →
    Expr.readSuffixes e unwrap (s.text.toList ++ rest) =
      Expr.readSuffixes { shape := .suffixed e unwrap s.plain } .none rest

namespace Suffix

variable {arguments : List Argument}

theorem readsBack_member {name : String} (hname : IsWord name) : (member name).ReadsBack := by
  intro e unwrap rest hrest
  have htext : (member name).text.toList ++ rest = '.' :: (name.toList ++ rest) := by
    simp [text]
  rw [htext, Expr.readSuffixes, readWord_append hname hrest, andThen_some (by grind)]
  rfl

theorem readsBack_subscript {index : Expr} (h : index.ReadsBack) : (subscript index).ReadsBack := by
  intro e unwrap rest hrest
  have htext : (subscript index).text.toList ++ rest =
      '[' :: (index.text.toList ++ ']' :: rest) := by
    simp [text]
  rw [htext, Expr.readSuffixes, h.read_text (goesOn_cons (by decide) rest) rfl,
    andThen_some (by grind), plain_subscript]
  rfl

theorem argumentTexts_eq_map (h : ∀ a ∈ arguments, a.label = none) :
    argumentTexts arguments = arguments.map (·.value.text) := by
  induction arguments with
  | nil => rfl
  | cons a rest ih =>
    obtain ⟨ha, hrest⟩ := List.forall_mem_cons.mp h
    obtain ⟨label, value⟩ := a
    cases ha
    rw [argumentTexts, ih hrest, List.map_cons]

theorem readsBack_call (hlabels : ∀ a ∈ arguments, a.label = none)
    (hvalues : ∀ a ∈ arguments, a.value.ReadsBack) : (call arguments).ReadsBack := by
  intro e unwrap rest hrest
  have htext : (call arguments).text.toList ++ rest =
      '(' :: ([',', ' '].intercalate (arguments.map (·.value.text.toList)) ++ ')' :: rest) := by
    simp [text, argumentTexts_eq_map hlabels, Function.comp_def]
  have hitem : ∀ a ∈ arguments, ∀ c ∈ [',', ')'], ∀ rest,
      Expr.read 1 (a.value.text.toList ++ c :: rest) = some (a.value.plain, c :: rest) := by
    intro a ha c hc rest
    simp only [List.mem_cons, List.not_mem_nil, or_false] at hc
    rcases hc with rfl | rfl <;>
      exact (hvalues a ha).read_text (goesOn_cons (by decide) rest) rfl
  have hlist : readList ')'
      ([',', ' '].intercalate (arguments.map (·.value.text.toList)) ++ ')' :: rest)
      (fun s _ => Expr.read 1 s) = some (arguments.map (·.value.plain), rest) :=
    readList_listed _ _ arguments rfl (by decide) (fun s _ => Expr.read_close 1 s)
      fun a ha c hc rest _ => hitem a ha c hc rest
  have hplain : (arguments.map (·.value.plain)).map (⟨none, ·⟩) =
      arguments.map fun a => (⟨a.label, a.value.plain⟩ : Argument) := by
    rw [List.map_map]
    exact List.map_congr_left fun a ha => by rw [hlabels a ha, Function.comp_apply]
  rw [htext, Expr.readSuffixes, hlist, andThen_some (by grind), hplain, plain_call]

/-- The text of a suffix, with or without the mark of an unwrapped receiver before it, does not go
on with a word. -/
theorem wordEnds_mark_append (unwrap : Unwrap) (s : Suffix) (rest : List Char) :
    WordEnds (unwrap.mark.toList ++ (s.text.toList ++ rest)) := by
  intro c hc
  cases unwrap with
  | none =>
    cases s <;> simp [Unwrap.mark, text] at hc <;> subst hc <;> decide
  | safe | force =>
    simp [Unwrap.mark] at hc
    subst hc
    decide

theorem readSuffixes_mark (e : Expr) (unwrap : Unwrap) (s : List Char) :
    Expr.readSuffixes e .none (unwrap.mark.toList ++ s) = Expr.readSuffixes e unwrap s := by
  cases unwrap with
  | none => rfl
  | safe =>
    change Expr.readSuffixes e .none ('?' :: s) = _
    rw [Expr.readSuffixes]
  | force =>
    change Expr.readSuffixes e .none ('!' :: s) = _
    rw [Expr.readSuffixes]

end Suffix

theorem Expr.readsBack_suffixed {receiver : Expr} {unwrap : Unwrap} {suffix : Suffix}
    (hreceiver : receiver.ReadsBack) (hsuffix : suffix.ReadsBack) :
    ReadsBack { shape := .suffixed receiver unwrap suffix } := by
  refine .of_suffixes fun rest hrest => ?_
  have htext : (text { shape := .suffixed receiver unwrap suffix }).toList ++ rest =
      (operandText 30 receiver.shape receiver.text).toList ++
        (unwrap.mark.toList ++ (suffix.text.toList ++ rest)) := by
    simp [text_mk, Shape.text_suffixed]
  rw [htext, hreceiver.readOperand_receiver (suffix.wordEnds_mark_append unwrap rest),
    Suffix.readSuffixes_mark, hsuffix _ _ _ hrest, plain_mk, Shape.plain_suffixed]

/-! ### Reading back -/

mutual

/-- **Formulas are read back**, by induction on the formula. -/
theorem Expr.readsBack_of_isFormula : ∀ e : Expr, e.IsFormula → e.ReadsBack
  | ⟨shape, _, _, _⟩, h => by
    have hshape := shape.readsBack_of_isFormula h
    exact ⟨hshape.suffixes, hshape.operand, hshape.operators⟩

theorem Shape.readsBack_of_isFormula :
    ∀ shape : Shape, shape.IsFormula → Expr.ReadsBack { shape }
  | .identifier _, h => Expr.readsBack_identifier h
  | .unary _ operand, h => Expr.readsBack_unary h.1 (operand.readsBack_of_isFormula h.2)
  | .binary lhs _ rhs, h =>
    Expr.readsBack_binary h.1 (lhs.readsBack_of_isFormula h.2.1) (rhs.readsBack_of_isFormula h.2.2)
  | .ternary condition ifTrue ifFalse, h =>
    Expr.readsBack_ternary (condition.readsBack_of_isFormula h.1)
      (ifTrue.readsBack_of_isFormula h.2.1) (ifFalse.readsBack_of_isFormula h.2.2)
  | .suffixed receiver _ suffix, h =>
    Expr.readsBack_suffixed (receiver.readsBack_of_isFormula h.1)
      (suffix.readsBack_of_isFormula h.2)
  | .cast expression (.named _), h =>
    Expr.readsBack_cast (expression.readsBack_of_isFormula h.1) h.2

theorem Suffix.readsBack_of_isFormula : ∀ suffix : Suffix, suffix.IsFormula → suffix.ReadsBack
  | .member _, h => Suffix.readsBack_member h
  | .call arguments, h =>
    Suffix.readsBack_call (fun a ha => (areFormulas_iff.mp h a ha).1)
      (readsBack_of_areFormulas arguments h)
  | .subscript index, h => Suffix.readsBack_subscript (index.readsBack_of_isFormula h)

theorem readsBack_of_areFormulas :
    ∀ arguments : List Argument, AreFormulas arguments → ∀ a ∈ arguments, a.value.ReadsBack
  | [], _ => by simp
  | ⟨none, value⟩ :: rest, h => by
    rw [List.forall_mem_cons]
    exact ⟨value.readsBack_of_isFormula h.1, readsBack_of_areFormulas rest h.2⟩

end

/-- **Printed formulas are unambiguous**: two formulas with the same text have the same shape, so
the parentheses of the text determine how operands group. -/
theorem Expr.formulas_print_apart (e f : Expr) (he : e.IsFormula) (hf : f.IsFormula)
    (htext : e.text = f.text) : e.sameShape f = true := by
  have hreade := (e.readsBack_of_isFormula he).read_text (goesOn_nil _) rfl
  have hreadf := (f.readsBack_of_isFormula hf).read_text (goesOn_nil _) rfl
  rw [htext, hreadf] at hreade
  exact e.sameShape_of_plain_eq f he (Prod.mk.inj (Option.some.inj hreade)).1.symm

/-- The slots of an operand do not show in the text, and the shape is the same. -/
theorem Expr.formulas_print_apart_slots :
    let formula (slot : Option SwiftType) : Expr :=
      { shape := .ternary
          { shape := .cast
              { shape := .unary .subtract
                  { shape := .suffixed
                      { shape := .binary (identifier "a") .subtract (identifier "b")
                        resolved := slot }
                      .force (.member "c") } }
              (.named "T") }
          ((identifier "f").call [⟨none, identifier "x"⟩])
          { shape := .suffixed (identifier "g") .safe (.subscript (identifier "i")) } }
    let e := formula none
    let f := formula (some (.named "Int"))
    e.IsFormula ∧ f.IsFormula ∧ e.text = "-(a - b)!.c as? T ? f(x) : g?[i]" ∧ e.text = f.text ∧
      e.sameShape f = true := by
  intro formula e f
  have hformula : ∀ slot, (formula slot).IsFormula := fun slot => by
    simp [formula, Expr.IsFormula, Shape.IsFormula, Suffix.IsFormula, AreFormulas, identifier, call,
      suffixed, Operator.isUnary, Operator.category, IsWord, isWordChar]
  exact ⟨hformula none, hformula _, by decide, rfl,
    formulas_print_apart e f (hformula none) (hformula _) rfl⟩

/-- Which operands stand in parentheses tells how a formula is grouped. -/
example :
    let grouped (lhs rhs : Expr) : Expr := { shape := .binary lhs .subtract rhs }
    let a := Expr.identifier "a"
    let b := Expr.identifier "b"
    let c := Expr.identifier "c"
    (grouped (grouped a b) c).text = "a - b - c" ∧ (grouped a (grouped b c)).text = "a - (b - c)" :=
  ⟨rfl, rfl⟩

end ObjcSwift
