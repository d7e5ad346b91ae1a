/-!
# Lines of a text

A line feed ends a line, a carriage return right before it belongs to the line's end, and what
stands after the last line feed is a line only when it is not empty.
-/

namespace ObjcSwift.Text

/-- The characters of a finished line, held in reverse: without the carriage return at its end. -/
def closeLine : List Char → String
  | '\r' :: cs => String.ofList cs.reverse
  | cs => String.ofList cs.reverse

/-- The lines of `cs`, the first of which starts with the characters `current`, held in reverse. -/
def linesFrom (current : List Char) : List Char → List String
  | [] => if current.isEmpty then [] else [String.ofList current.reverse]
  | '\n' :: cs => closeLine current :: linesFrom [] cs
  | c :: cs => linesFrom (c :: current) cs

/-- The lines of a text, without their ends. -/
def lines (s : String) : List String :=
  linesFrom [] s.toList

/-- The part of a text before its first line feed. -/
def firstLine (s : String) : String :=
  (lines s).headD ""

end ObjcSwift.Text
