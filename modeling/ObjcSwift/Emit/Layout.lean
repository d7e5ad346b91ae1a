import ObjcSwift.Text.Blank

/-!
# Laying out lines

What is printed is a list of **lines**, each with the depth at which it stands. How wide a level of
depth is, is decided when the lines are written; an empty line is written without indentation.

A `Target` is a text that grows by lines. It has a current level, which is added to the depth of
what is written.
-/

namespace ObjcSwift

/-- A line at some depth. -/
structure Line where
  /-- The depth. -/
  depth : Nat := 0
  /-- The text, without indentation and end. -/
  text : String
deriving DecidableEq

namespace Line

/-- The empty line. -/
def blank : Line :=
  { text := "" }

/-- A line some levels deeper. -/
def deeper (levels : Nat) (l : Line) : Line :=
  { l with depth := l.depth + levels }

/-- The text of so many levels of indentation. -/
def indentation (unit : String) (depth : Nat) : String :=
  String.join (List.replicate depth unit)

/-- A line as it is written, its end included. -/
def render (unit : String) (l : Line) : String :=
  if l.text.isEmpty then "\n" else indentation unit l.depth ++ l.text ++ "\n"

end Line

namespace Layout

/-- Lines one level deeper. -/
def indented (ls : List Line) : List Line :=
  ls.map (·.deeper 1)

/-- A line that opens a brace, and lines inside it. -/
def opened (opening : String) (inside : List Line) : List Line :=
  { text := opening ++ " \x7b" } :: indented inside

/-- Lines inside a pair of braces. -/
def block (opening : String) (inside : List Line) : List Line :=
  opened opening inside ++ [{ text := "\x7d" }]

/-- Sections with an empty line between each two. -/
def sections (parts : List (List Line)) : List Line :=
  [Line.blank].intercalate parts

/-- Lines as they are written. -/
def render (unit : String) (ls : List Line) : String :=
  String.join (ls.map (Line.render unit))

end Layout

/-- A text that grows by lines. -/
structure Target where
  /-- What stands for one level of indentation. -/
  unit : String
  /-- The current level. -/
  level : Nat := 0
  /-- The text so far. -/
  text : String := ""
deriving DecidableEq

namespace Target

/-- Writes a line at the current level. -/
def line (t : Target) (text : String) : Target :=
  { t with text := t.text ++ Line.render t.unit ⟨t.level, text⟩ }

/-- Goes one level deeper. -/
def indent (t : Target) : Target :=
  { t with level := t.level + 1 }

/-- Goes one level back; at the outermost level nothing happens. -/
def dedent (t : Target) : Target :=
  { t with level := t.level - 1 }

/-- Writes lines, each at the current level and its own depth. -/
def lines (t : Target) (ls : List Line) : Target :=
  { t with text := t.text ++ Layout.render t.unit (ls.map (·.deeper t.level)) }

/-- Whether nothing but blanks was written. -/
def isBlank (t : Target) : Bool :=
  t.text.toList.all Text.isBlank

end Target

end ObjcSwift
