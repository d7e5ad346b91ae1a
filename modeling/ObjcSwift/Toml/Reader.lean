import ObjcSwift.Toml.Value

/-!
# Reading TOML

A reader takes the characters ahead and gives a value with the characters after it, or nothing when
the text is not well formed.

Two limits go beyond the grammar. Arrays and inline tables nest fewer than `nestingLimit` deep, and
a dotted key has fewer parts than that. A number with a fraction or an exponent is no larger than
the largest float, though a negative one may be as small as it likes.
-/

namespace ObjcSwift.Toml

/-- Fewer containers than this stand inside one another, and a key has fewer parts than this. -/
def nestingLimit : Nat :=
  80

/-! ### Blanks, comments and line ends -/

/-- A blank inside a line. -/
def isInlineBlank (c : Char) : Bool :=
  c = ' ' || c = '\t'

/-- A character that may stand in a comment or a literal string. -/
def isPlain (c : Char) : Bool :=
  c = '\t' || (0x20 ≤ c.toNat && c.toNat ≠ 0x7F)

/-- The characters after the blanks ahead. -/
def skipBlanks (cs : List Char) : List Char :=
  cs.dropWhile isInlineBlank

/-- The characters after the blanks and the comment ahead. -/
def skipComment (cs : List Char) : List Char :=
  match skipBlanks cs with
  | '#' :: rest => rest.dropWhile isPlain
  | rest => rest

/-- The characters after the end of a line, which blanks and a comment may come before. -/
def lineEnd? (cs : List Char) : Option (List Char) :=
  match skipComment cs with
  | [] => some []
  | '\n' :: rest => some rest
  | '\r' :: '\n' :: rest => some rest
  | _ => none

/-- The characters after blanks, comments and line ends, as many as the fuel allows. -/
def skipLines : (fuel : Nat) → List Char → List Char
  | 0, cs => cs
  | fuel + 1, cs =>
    match skipComment cs with
    | '\n' :: rest => skipLines fuel rest
    | '\r' :: '\n' :: rest => skipLines fuel rest
    | rest => rest

/-! ### Strings -/

/-- The value of a hexadecimal digit. -/
def hexDigit? (c : Char) : Option Nat :=
  if c.isDigit then some (c.toNat - '0'.toNat)
  else if 'a' ≤ c && c ≤ 'f' then some (c.toNat - 'a'.toNat + 10)
  else if 'A' ≤ c && c ≤ 'F' then some (c.toNat - 'A'.toNat + 10)
  else none

/-- The character of a number in hexadecimal digits. -/
def hexChar? (digits : List Char) : Option Char := do
  let n ← digits.foldlM (fun n c => return 16 * n + (← hexDigit? c)) 0
  if n.isValidChar then some (Char.ofNat n) else none

/-- A character in front of a string that was read, with the characters after it. -/
def consed (c : Char) (read : Option (List Char × List Char)) : Option (List Char × List Char) :=
  read.map fun (s, rest) => (c :: s, rest)

/-- The rest of a string in double quotes. -/
def basicString? : List Char → Option (List Char × List Char)
  | '"' :: rest => some ([], rest)
  | '\\' :: 'u' :: a :: b :: c :: d :: rest => do
    consed (← hexChar? [a, b, c, d]) (basicString? rest)
  | '\\' :: 'U' :: a :: b :: c :: d :: e :: f :: g :: h :: rest => do
    consed (← hexChar? [a, b, c, d, e, f, g, h]) (basicString? rest)
  | '\\' :: c :: rest => do
    consed (← [('b', '\x08'), ('t', '\t'), ('n', '\n'), ('f', '\x0c'), ('r', '\r'), ('"', '"'),
      ('\\', '\\')].lookup c) (basicString? rest)
  | c :: rest => if isPlain c && c != '\\' then consed c (basicString? rest) else none
  | [] => none

/-- The rest of a string in single quotes. -/
def literalString? : List Char → Option (List Char × List Char)
  | '\'' :: rest => some ([], rest)
  | c :: rest => if isPlain c then consed c (literalString? rest) else none
  | [] => none

/-- Whether a line ends here, up to blanks. -/
def endsLine (cs : List Char) : Bool :=
  match skipBlanks cs with
  | '\n' :: _ | '\r' :: '\n' :: _ => true
  | _ => false

/-- The rest of a string in three double quotes. A backslash at the end of a line takes the blanks
and line ends after it with it. -/
def basicText? (folding : Bool) : List Char → Option (List Char × List Char)
  | '"' :: '"' :: '"' :: '"' :: '"' :: rest => some (['"', '"'], rest)
  | '"' :: '"' :: '"' :: '"' :: rest => some (['"'], rest)
  | '"' :: '"' :: '"' :: rest => some ([], rest)
  | '"' :: rest => consed '"' (basicText? false rest)
  | '\r' :: '\n' :: rest =>
    if folding then basicText? true rest else consed '\n' (basicText? false rest)
  | '\n' :: rest => if folding then basicText? true rest else consed '\n' (basicText? false rest)
  | '\\' :: 'u' :: a :: b :: c :: d :: rest => do
    consed (← hexChar? [a, b, c, d]) (basicText? false rest)
  | '\\' :: 'U' :: a :: b :: c :: d :: e :: f :: g :: h :: rest => do
    consed (← hexChar? [a, b, c, d, e, f, g, h]) (basicText? false rest)
  | '\\' :: c :: rest =>
    if endsLine (c :: rest) then basicText? true (c :: rest)
    else do
      consed (← [('b', '\x08'), ('t', '\t'), ('n', '\n'), ('f', '\x0c'), ('r', '\r'), ('"', '"'),
        ('\\', '\\')].lookup c) (basicText? false rest)
  | c :: rest =>
    if folding && isInlineBlank c then basicText? true rest
    else if isPlain c && c != '\\' then consed c (basicText? false rest)
    else none
  | [] => none

/-- The rest of a string in three single quotes. -/
def literalText? : List Char → Option (List Char × List Char)
  | '\'' :: '\'' :: '\'' :: '\'' :: '\'' :: rest => some (['\'', '\''], rest)
  | '\'' :: '\'' :: '\'' :: '\'' :: rest => some (['\''], rest)
  | '\'' :: '\'' :: '\'' :: rest => some ([], rest)
  | '\r' :: '\n' :: rest => consed '\n' (literalText? rest)
  | c :: rest => if isPlain c || c = '\n' then consed c (literalText? rest) else none
  | [] => none

/-- The characters after a line end ahead, which is no part of a text in three quotes. -/
def dropLineEnd : List Char → List Char
  | '\r' :: '\n' :: rest => rest
  | '\n' :: rest => rest
  | cs => cs

/-- A string, of any of the four forms. -/
def string? : List Char → Option (String × List Char)
  | '"' :: '"' :: '"' :: rest => text (basicText? false (dropLineEnd rest))
  | '"' :: rest => text (basicString? rest)
  | '\'' :: '\'' :: '\'' :: rest => text (literalText? (dropLineEnd rest))
  | '\'' :: rest => text (literalString? rest)
  | _ => none
where
  /-- The characters of a string as a text. -/
  text (read : Option (List Char × List Char)) : Option (String × List Char) :=
    read.map fun (s, rest) => (String.ofList s, rest)

/-! ### Keys -/

/-- A character of a bare key. -/
def isKeyChar (c : Char) : Bool :=
  c.isAlphanum || c = '_' || c = '-'

/-- A key without dots. -/
def simpleKey? (cs : List Char) : Option (String × List Char) :=
  match cs with
  | '"' :: rest => (basicString? rest).map fun (s, rest) => (String.ofList s, rest)
  | '\'' :: rest => (literalString? rest).map fun (s, rest) => (String.ofList s, rest)
  | _ =>
    if (cs.takeWhile isKeyChar).isEmpty then none
    else some (String.ofList (cs.takeWhile isKeyChar), cs.dropWhile isKeyChar)

/-- A key with dots in it, as its path and its last part. It has no more parts than the fuel. -/
def dottedKey? : (fuel : Nat) → List Char → Option ((List String × String) × List Char)
  | 0, _ => none
  | fuel + 1, cs => do
    let (first, rest) ← simpleKey? (skipBlanks cs)
    match skipBlanks rest with
    | '.' :: rest =>
      let ((path, last), rest) ← dottedKey? fuel rest
      some ((first :: path, last), rest)
    | rest => some (([], first), rest)

/-- A key, as its path and its last part. -/
def key? (cs : List Char) : Option ((List String × String) × List Char) :=
  dottedKey? (nestingLimit - 1) cs

/-! ### Numbers and words -/

/-- A character of a number or a word. -/
def isWordChar (c : Char) : Bool :=
  c.isAlphanum || c = '_' || c = '+' || c = '-' || c = '.'

/-- Digits without the underscores between them: an underscore stands between two digits. -/
def digits? (isDigit : Char → Bool) : List Char → Option (List Char)
  | [] => none
  | [c] => if isDigit c then some [c] else none
  | c :: '_' :: rest => if isDigit c then (digits? isDigit rest).map (c :: ·) else none
  | c :: rest => if isDigit c then (digits? isDigit rest).map (c :: ·) else none

/-- A text without its sign, and whether it is negative. -/
def signed : List Char → Bool × List Char
  | '-' :: rest => (true, rest)
  | '+' :: rest => (false, rest)
  | cs => (false, cs)

/-- The digits of a decimal integer; a zero stands alone. -/
def decimal? (cs : List Char) : Option (List Char) :=
  match digits? Char.isDigit cs with
  | some ('0' :: _ :: _) => none
  | ds => ds

/-- The number that digits of some base write. -/
def number (base : Nat) (ds : List Char) : Nat :=
  ds.foldl (fun n c => base * n + (hexDigit? c).getD 0) 0

/-- An integer, if it fits into 64 bits. -/
def integer? (i : Int) : Option TomlValue :=
  if Int64.minValue.toInt ≤ i ∧ i ≤ Int64.maxValue.toInt then some (.integer i) else none

/-- An integer of base 2, 8, 10 or 16. -/
def integerWord? : List Char → Option TomlValue
  | '0' :: 'x' :: ds => do
    integer? (number 16 (← digits? (fun c => (hexDigit? c).isSome) ds))
  | '0' :: 'o' :: ds => do integer? (number 8 (← digits? (fun c => '0' ≤ c && c ≤ '7') ds))
  | '0' :: 'b' :: ds => do integer? (number 2 (← digits? (fun c => c = '0' || c = '1') ds))
  | cs => do
    let (negative, cs) := signed cs
    let n : Int := number 10 (← decimal? cs)
    integer? (if negative then -n else n)

/-- The number that an exponent with its mark writes; an empty text is no exponent, and zero. -/
def exponent? : List Char → Option Int
  | [] => some 0
  | e :: rest => do
    let (negative, rest) := signed rest
    let n : Int := number 10 (← digits? Char.isDigit rest)
    if e = 'e' || e = 'E' then some (if negative then -n else n) else none

/-- The digits of a floating-point number without its sign, and the power of ten that the last of
them counts. -/
def floatParts? (cs : List Char) : Option (List Char × Int) := do
  let whole ← decimal? (cs.takeWhile fun c => c.isDigit || c = '_')
  match cs.dropWhile fun c => c.isDigit || c = '_' with
  | '.' :: rest =>
    let places ← digits? Char.isDigit (rest.takeWhile fun c => c.isDigit || c = '_')
    let e ← exponent? (rest.dropWhile fun c => c.isDigit || c = '_')
    some (whole ++ places, e - places.length)
  | [] => none
  | rest => some (whole, ← exponent? rest)

/-- The least number that is rounded to infinity: it lies half a unit of the last place above the
largest float. -/
def floatBound : Nat :=
  Nat.pow 2 1024 - Nat.pow 2 970

/-- Whether a number is too large for a float. The powers of ten that are not near the bound decide
by their size alone. -/
def isTooLarge (digits : List Char) (e : Int) : Bool :=
  let digits := digits.dropWhile (· = '0')
  let places := digits.length + e
  !digits.isEmpty && (309 < places || (places = 309 &&
    floatBound * Nat.pow 10 (-e).toNat ≤ number 10 digits * Nat.pow 10 e.toNat))

/-- Whether a text is a floating-point number. -/
def isFloat (cs : List Char) : Bool :=
  let (negative, cs) := signed cs
  cs = "inf".toList || cs = "nan".toList ||
    match floatParts? cs with
    | some (digits, e) => negative || !isTooLarge digits e
    | none => false

/-- A Boolean or a number. -/
def word? (cs : List Char) : Option TomlValue :=
  if cs = "true".toList then some (.boolean true)
  else if cs = "false".toList then some (.boolean false)
  else (integerWord? cs).or (if isFloat cs then some (.float (String.ofList cs)) else none)

/-! ### Dates and times -/

/-- The number that two digits ahead write, if it lies between the bounds. -/
def twoDigits? (low high : Nat) : List Char → Option (Nat × List Char)
  | a :: b :: rest =>
    let n := number 10 [a, b]
    if a.isDigit && b.isDigit && low ≤ n && n ≤ high then some (n, rest) else none
  | _ => none

/-- The characters after a given one. -/
def after? (c : Char) : List Char → Option (List Char)
  | d :: rest => if c = d then some rest else none
  | [] => none

/-- The number of days of a month. -/
def daysOfMonth (year month : Nat) : Nat :=
  if month = 2 then
    if year % 4 = 0 ∧ (year % 100 ≠ 0 ∨ year % 400 = 0) then 29 else 28
  else if month = 4 ∨ month = 6 ∨ month = 9 ∨ month = 11 then 30
  else 31

/-- The characters after a date. -/
def date? (cs : List Char) : Option (List Char) := do
  let (century, rest) ← twoDigits? 0 99 cs
  let (year, rest) ← twoDigits? 0 99 rest
  let (month, rest) ← twoDigits? 1 12 (← after? '-' rest)
  let (_, rest) ← twoDigits? 1 (daysOfMonth (100 * century + year) month) (← after? '-' rest)
  some rest

/-- The characters after a fraction of a second, if there is one. -/
def skipFraction : List Char → List Char
  | '.' :: d :: rest => if d.isDigit then rest.dropWhile Char.isDigit else '.' :: d :: rest
  | rest => rest

/-- The characters after a time of day. There are leap seconds. -/
def time? (cs : List Char) : Option (List Char) := do
  let (_, rest) ← twoDigits? 0 23 cs
  let (_, rest) ← twoDigits? 0 59 (← after? ':' rest)
  let (_, rest) ← twoDigits? 0 60 (← after? ':' rest)
  some (skipFraction rest)

/-- The characters after a distance from universal time with its sign. -/
def numericOffset? : List Char → Option (List Char)
  | c :: rest => do
    guard (c = '+' || c = '-')
    let (_, rest) ← twoDigits? 0 23 rest
    let (_, rest) ← twoDigits? 0 59 (← after? ':' rest)
    some rest
  | [] => none

/-- The characters after a distance from universal time, if there is one. -/
def skipOffset (cs : List Char) : List Char :=
  ((after? 'Z' cs).or ((after? 'z' cs).or (numericOffset? cs))).getD cs

/-- The characters after a time of day behind a date, if there is one. -/
def skipTimeOfDate (cs : List Char) : List Char :=
  match cs with
  | c :: rest =>
    if c = 'T' || c = 't' || c = ' ' then ((time? rest).map skipOffset).getD cs else cs
  | [] => cs

/-- A date, a time of day or both. -/
def moment? (cs : List Char) : Option (TomlValue × List Char) := do
  let rest ← ((date? cs).map skipTimeOfDate).or (time? cs)
  some (.moment (String.ofList (cs.take (cs.length - rest.length))), rest)

/-! ### Values -/

mutual

/-- A value, in which at most `room` containers stand inside one another. -/
def value? : (fuel room : Nat) → List Char → Option (TomlValue × List Char)
  | 0, _, _ => none
  | fuel + 1, room, cs =>
    match cs, room with
    | '[' :: rest, room + 1 =>
      (items? fuel room (skipLines fuel rest)).map fun (vs, rest) => (.array vs, rest)
    | '\x7b' :: rest, room + 1 =>
      match skipBlanks rest with
      | '\x7d' :: rest => some (.table .inlined [], rest)
      | rest => (pairs? fuel room [] rest).map fun (t, rest) => (.table .inlined t, rest)
    | '"' :: _, _ | '\'' :: _, _ => (string? cs).map fun (s, rest) => (.string s, rest)
    | _, _ =>
      (moment? cs).or
        ((word? (cs.takeWhile isWordChar)).map fun v => (v, cs.dropWhile isWordChar))

/-- The items of an array, up to its end. -/
def items? : (fuel room : Nat) → List Char → Option (List TomlValue × List Char)
  | 0, _, _ => none
  | fuel + 1, room, cs =>
    match cs with
    | ']' :: rest => some ([], rest)
    | _ => do
      let (v, rest) ← value? fuel room cs
      match skipLines fuel rest with
      | ',' :: rest =>
        let (vs, rest) ← items? fuel room (skipLines fuel rest)
        some (v :: vs, rest)
      | ']' :: rest => some ([v], rest)
      | _ => none

/-- The entries of an inline table, up to its end, after those before them. -/
def pairs? : (fuel room : Nat) → TomlTable → List Char → Option (TomlTable × List Char)
  | 0, _, _, _ => none
  | fuel + 1, room, table, cs => do
    let ((path, key), rest) ← key? cs
    match rest with
    | '=' :: rest =>
      let (v, rest) ← value? fuel room (skipBlanks rest)
      let table ← table.insert? true key v path
      match skipBlanks rest with
      | ',' :: rest => pairs? fuel room table rest
      | '\x7d' :: rest => some (table, rest)
      | _ => none
    | _ => none

end

/-! ### Documents -/

/-- A document so far: its table, and the header under which keys stand. -/
structure Document where
  /-- The table. -/
  table : TomlTable := []
  /-- The path of the last header. -/
  header : List String := []

/-- The path of a header, up to its closing bracket. -/
def header? (cs : List Char) : Option (List String × List Char) := do
  let ((path, last), rest) ← key? cs
  match rest with
  | ']' :: rest => some (path ++ [last], rest)
  | _ => none

/-- A document with one more header, or one more key, and the characters after it. -/
def expression? (fuel : Nat) (d : Document) (cs : List Char) : Option (Document × List Char) :=
  match cs with
  | '[' :: '[' :: rest => do
    match ← header? rest with
    | (path, ']' :: rest) => some (⟨← d.table.openItem? path, path⟩, rest)
    | _ => none
  | '[' :: rest => do
    let (path, rest) ← header? rest
    some (⟨← d.table.open? path, path⟩, rest)
  | _ => do
    let ((path, key), rest) ← key? cs
    match rest with
    | '=' :: rest =>
      let (v, rest) ← value? fuel (nestingLimit - 1) (skipBlanks rest)
      let table ← d.table.within? (TomlTable.insert? false key v path) d.header
      some ({ d with table }, rest)
    | _ => none

/-- The document that the lines ahead complete. -/
def lines? : (fuel : Nat) → Document → List Char → Option Document
  | 0, _, _ => none
  | fuel + 1, d, cs =>
    match skipLines (fuel + 1) cs with
    | [] => some d
    | rest => do
      let (d, rest) ← expression? (fuel + 1) d rest
      lines? fuel d (← lineEnd? rest)

/-- The table of a document; a byte order mark at its start is skipped. -/
def parse? (text : String) : Option TomlTable :=
  let cs := match text.toList with
    | '\uFEFF' :: rest => rest
    | cs => cs
  (lines? (cs.length + 2) {} cs).map (·.table)

end ObjcSwift.Toml
