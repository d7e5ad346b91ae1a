import ObjcSwift.Json.Value

/-!
# Reading JSON text

Strict JSON: one value, blanks around it, nothing else.

The value of a number with fraction or exponent is found in two roundings. Digits are gathered while
they fit a 64-bit word, the word is rounded to a float, and the float is multiplied or divided by
one power of ten, itself rounded.

Some values are well written but cannot be held: numbers that are too large for a float, strings
with half of a surrogate pair, containers inside more than 127 others. `Json.read?` puts
`Json.unheld` in their place, so that they do no harm where nobody asks for them; `Json.parse?`
refuses a text with such a value.
-/

namespace ObjcSwift.Json

/-- The deepest nesting of containers that is held. -/
def maxDepth : Nat :=
  127

/-- The text after the blanks JSON allows between tokens. -/
def skipBlanks (cs : List Char) : List Char :=
  cs.dropWhile fun c => c == ' ' || c == '\n' || c == '\t' || c == '\r'

/-! ### Numbers -/

/-- The value of a digit. -/
def digitValue (c : Char) : Nat :=
  c.toNat - '0'.toNat

/-- Gathers digits into a word while they fit; also counts the digits gathered and those left. -/
def gather : (word gathered : Nat) → List Char → Nat × Nat × Nat
  | word, gathered, [] => (word, gathered, 0)
  | word, gathered, c :: cs =>
    let next := word * 10 + digitValue c
    if next < UInt64.size then gather next (gathered + 1) cs else (word, gathered, cs.length + 1)

/-- The float nearest to `10 ^ n`. -/
def tenPower (n : Nat) : Binary64 :=
  Binary64.ofRatio false (Nat.pow 10 n) 1

/-- `x · 10 ^ e` for a negative exponent beyond the range of one power: divided by `10 ^ 308` until
the exponent is in range or the number is zero, which takes two steps for a word. -/
def scaleDown : (steps : Nat) → (negative : Bool) → Binary64 → (e : Nat) → Binary64
  | 0, negative, _, _ => Binary64.ofRatio negative 0 1
  | steps + 1, negative, x, e =>
    if e ≤ 308 then Binary64.divMagnitudes negative x (tenPower e)
    else if x.isZero then Binary64.ofRatio negative 0 1
    else scaleDown steps negative (Binary64.divMagnitudes false x (tenPower 308)) (e - 308)

/-- A word times a power of ten; nothing when the result is too large. -/
def scaled (negative : Bool) (word : Nat) (e : Int) : Option Binary64 :=
  let x := Binary64.ofInt word
  match e with
  | .ofNat n =>
    if 308 < n then if word = 0 then some (Binary64.ofRatio negative 0 1) else none
    else
      let y := Binary64.mulMagnitudes negative x (tenPower n)
      if y.isFinite then some y else none
  | .negSucc n => some (scaleDown 4 negative x (n + 1))

/-- The exponent part of a number, if there is one, with the text after it: whether it is negative,
and its digits. The outer `none` stands for a part without digits. -/
def exponentPart : List Char → Option (Option (Bool × Nat) × List Char)
  | c :: cs =>
    if c == 'e' || c == 'E' then
      let (negative, cs) := match cs with
        | '-' :: cs => (true, cs)
        | '+' :: cs => (false, cs)
        | cs => (false, cs)
      let digits := cs.takeWhile Char.isDigit
      if digits.isEmpty then none
      else some (some (negative, digits.foldl (fun n d => n * 10 + digitValue d) 0),
        cs.dropWhile Char.isDigit)
    else some (none, c :: cs)
  | [] => some (none, [])

/-- A number with fraction or exponent from its parts. An exponent beyond 31 bits makes the number
zero or too large. -/
def floatNumber (negative : Bool) (word : Nat) (e : Int) : Option (Bool × Nat) → Option Binary64
  | none => scaled negative word e
  | some (expNegative, exp) =>
    if exp < Nat.pow 2 31 then scaled negative word (if expNegative then e - exp else e + exp)
    else if word ≠ 0 ∧ !expNegative then none
    else some (Binary64.ofRatio negative 0 1)

/-- A float, if there is one. -/
def ofFloat? : Option Binary64 → Json
  | some x => float x
  | none => unheld

/-- A number without fraction and exponent: an integer if it fits a word, else a float; so is
negative zero. -/
def integerNumber (negative : Bool) (word dropped : Nat) : Json :=
  if dropped ≠ 0 then ofFloat? (scaled negative word dropped)
  else if !negative then int word
  else if word = 0 ∨ Nat.pow 2 63 < word then float (Binary64.ofRatio true word 1)
  else int (-(word : Int))

/-- A number after its sign, and the text after it. -/
def number (negative : Bool) (cs : List Char) : Option (Json × List Char) := do
  let whole := cs.takeWhile Char.isDigit
  let rest := cs.dropWhile Char.isDigit
  guard (!whole.isEmpty && (whole.length == 1 || whole.head? != some '0'))
  let (word, _, dropped) := gather 0 0 whole
  match rest with
  | '.' :: rest =>
    let places := rest.takeWhile Char.isDigit
    guard (!places.isEmpty)
    -- Places that no longer fit the word do not count.
    let (word, gathered, _) := gather word 0 places
    let (exp, rest) ← exponentPart (rest.dropWhile Char.isDigit)
    some (ofFloat? (floatNumber negative word ((dropped : Int) - gathered) exp), rest)
  | rest =>
    match ← exponentPart rest with
    | (none, rest) => some (integerNumber negative word dropped, rest)
    | (exp, rest) => some (ofFloat? (floatNumber negative word dropped exp), rest)

/-! ### Strings -/

/-- The value of a hexadecimal digit. -/
def hexValue (c : Char) : Option Nat :=
  if c.isDigit then some (c.toNat - '0'.toNat)
  else if 'a' ≤ c ∧ c ≤ 'f' then some (c.toNat - 'a'.toNat + 10)
  else if 'A' ≤ c ∧ c ≤ 'F' then some (c.toNat - 'A'.toNat + 10)
  else none

/-- The number that four hexadecimal digits write. -/
def hexUnit (a b c d : Char) : Option Nat := do
  return (((← hexValue a) * 16 + (← hexValue b)) * 16 + (← hexValue c)) * 16 + (← hexValue d)

/-- The character a short escape stands for. -/
def shortEscape : Char → Option Char
  | '"' => some '"'
  | '\\' => some '\\'
  | '/' => some '/'
  | 'b' => some '\x08'
  | 'f' => some '\x0c'
  | 'n' => some '\n'
  | 'r' => some '\r'
  | 't' => some '\t'
  | _ => none

/-- The part of a string that was read. -/
structure StringStart where
  /-- Its characters, the last first; none when a unit stood alone. -/
  reversed : Option (List Char) := some []
  /-- The first unit of a pair, whose second unit has to follow. -/
  pending : Option Nat := none

namespace StringStart

/-- The part after one more character. -/
def push (s : StringStart) (c : Char) : StringStart :=
  ⟨if s.pending.isSome then none else s.reversed.map (c :: ·), none⟩

/-- The part after one more unit. A character outside the basic plane is written as two units. -/
def pushUnit (s : StringStart) (unit : Nat) : StringStart :=
  if 0xDC00 ≤ unit ∧ unit ≤ 0xDFFF then
    match s.pending with
    | some high =>
      push { s with pending := none }
        (Char.ofNat (0x10000 + (high - 0xD800) * 0x400 + (unit - 0xDC00)))
    | none => ⟨none, none⟩
  else if 0xD800 ≤ unit ∧ unit ≤ 0xDBFF then
    ⟨if s.pending.isSome then none else s.reversed, some unit⟩
  else s.push (Char.ofNat unit)

/-- The string, if no unit in it stands alone. -/
def string? (s : StringStart) : Option String :=
  if s.pending.isSome then none else s.reversed.map fun cs => String.ofList cs.reverse

end StringStart

/-- The rest of a string after its opening quote and the given part, and the text after its closing
quote. -/
def stringTail (start : StringStart) : List Char → Option (Option String × List Char)
  | [] => none
  | '"' :: cs => some (start.string?, cs)
  | '\\' :: 'u' :: a :: b :: c :: d :: cs =>
    match hexUnit a b c d with
    | some unit => stringTail (start.pushUnit unit) cs
    | none => none
  | '\\' :: c :: cs =>
    match shortEscape c with
    | some c => stringTail (start.push c) cs
    | none => none
  | c :: cs => if c.toNat < 0x20 || c == '\\' then none else stringTail (start.push c) cs

/-! ### Values -/

/-- A string, if it is held. -/
def ofHeld? : Option String → Json
  | some s => str s
  | none => unheld

/-- A value that is no container, and the text after it. -/
def scalar : List Char → Option (Json × List Char)
  | 'n' :: 'u' :: 'l' :: 'l' :: cs => some (null, cs)
  | 't' :: 'r' :: 'u' :: 'e' :: cs => some (bool true, cs)
  | 'f' :: 'a' :: 'l' :: 's' :: 'e' :: cs => some (bool false, cs)
  | '"' :: cs => (stringTail {} cs).map fun (s, cs) => (ofHeld? s, cs)
  | '-' :: cs => number true cs
  | cs => number false cs

/-- The name of a member with the colon after it, and the text after them. -/
def memberName (cs : List Char) : Option (Option String × List Char) :=
  match skipBlanks cs with
  | '"' :: cs =>
    match stringTail {} cs with
    | some (name, cs) =>
      match skipBlanks cs with
      | ':' :: cs => some (name, cs)
      | _ => none
    | none => none
  | _ => none

/-- The characters that close the containers a text stands in, the innermost first. -/
abbrev Closers := List Char

/-- The text after the containers it stands in, which are passed over. It stands at the start of the
innermost one, or else after a value in it. -/
def passOver : (fuel : Nat) → (atStart : Bool) → Closers → List Char → Option (List Char)
  | 0, _, _, _ => none
  | _, _, [], cs => some cs
  | fuel + 1, atStart, closer :: outer, cs =>
    match skipBlanks cs with
    | [] => none
    | c :: rest =>
      if c = closer then passOver fuel false outer rest
      else
        match if atStart then some (c :: rest) else if c = ',' then some rest else none with
        | none => none
        | some cs =>
          match if closer = '\x7d' then (memberName cs).map (·.2) else some cs with
          | none => none
          | some cs =>
            match skipBlanks cs with
            | '[' :: cs => passOver fuel true (']' :: closer :: outer) cs
            | '\x7b' :: cs => passOver fuel true ('\x7d' :: closer :: outer) cs
            | cs =>
              match scalar cs with
              | some (_, cs) => passOver fuel false (closer :: outer) cs
              | none => none

/-- An object, if the names of its members are held. -/
def ofMembers (members : List (Option String × Json)) : Json :=
  match members.mapM fun (name, item) => name.map (·, item) with
  | some members => obj members
  | none => unheld

mutual

/-- A value at the start of a text, and the text after it; at most `depth` containers in it are
held inside one another. -/
def value : (fuel depth : Nat) → List Char → Option (Json × List Char)
  | 0, _, _ => none
  | fuel + 1, depth, cs =>
    match skipBlanks cs with
    -- A container that is too deep is not held, but what follows it is still read.
    | '[' :: cs =>
      match depth, skipBlanks cs with
      | 0, cs => (passOver fuel true [']'] cs).map (unheld, ·)
      | _, ']' :: cs => some (arr [], cs)
      | depth + 1, cs => items fuel depth [] cs
    | '\x7b' :: cs =>
      match depth, skipBlanks cs with
      | 0, cs => (passOver fuel true ['\x7d'] cs).map (unheld, ·)
      | _, '\x7d' :: cs => some (obj [], cs)
      | depth + 1, cs => members fuel depth [] cs
    | cs => scalar cs

/-- The items of an array from one on, those before it held in reverse. -/
def items : (fuel depth : Nat) → List Json → List Char → Option (Json × List Char)
  | 0, _, _, _ => none
  | fuel + 1, depth, done, cs =>
    match value fuel depth cs with
    | none => none
    | some (item, cs) =>
      match skipBlanks cs with
      | ',' :: cs => items fuel depth (item :: done) cs
      | ']' :: cs => some (arr (item :: done).reverse, cs)
      | _ => none

/-- The members of an object from one on, those before it held in reverse. -/
def members : (fuel depth : Nat) → List (Option String × Json) → List Char →
    Option (Json × List Char)
  | 0, _, _, _ => none
  | fuel + 1, depth, done, cs =>
    match memberName cs with
    | none => none
    | some (name, cs) =>
      match value fuel depth cs with
      | none => none
      | some (item, cs) =>
        match skipBlanks cs with
        | ',' :: cs => members fuel depth ((name, item) :: done) cs
        | '\x7d' :: cs => some (ofMembers ((name, item) :: done).reverse, cs)
        | _ => none

end

/-- The value that a text writes, with gaps for what cannot be held. -/
def read? (text : String) : Option Json :=
  let cs := text.toList
  match value (2 * cs.length + 2) maxDepth cs with
  | some (result, rest) => if (skipBlanks rest).isEmpty then some result else none
  | none => none

/-- The value that a text writes, if all of it can be held. -/
def parse? (text : String) : Option Json :=
  (read? text).filter isHeld

end ObjcSwift.Json
