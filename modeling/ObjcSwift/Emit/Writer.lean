import ObjcSwift.Decl.Graph
import ObjcSwift.Emit.Layout

/-!
# Writing to a target

Text is written line by line to a target, which is changed in place. A writer may fail halfway, when
something that should be printed is missing; what was written before stays.

Whoever goes a level deeper comes back, also after a failure (`Writer.indented`).
-/

namespace ObjcSwift

/-- A computation that writes to a target and may fail. -/
abbrev Writer (α : Type) := EStateM GraphError Target α

namespace Writer

/-- Writes a line at the current level. -/
def line (text : String) : Writer Unit :=
  modify (·.line text)

/-- The answer of a lookup. -/
def look {α : Type} (found : Except GraphError α) : Writer α :=
  match found with
  | .ok a => return a
  | .error e => throw e

/-- Writes something one level deeper. However that ends, the level is left again. -/
def indented {α : Type} (inside : Writer α) : Writer α := fun t =>
  match inside t.indent with
  | .ok a t => .ok a t.dedent
  | .error e t => .error e t.dedent

/-- Writes a line that opens a brace, and something inside it. -/
def opened (opening : String) (inside : Writer Unit) : Writer Unit := do
  line (opening ++ " \x7b")
  indented inside

/-- Writes something inside a pair of braces. -/
def block (opening : String) (inside : Writer Unit) : Writer Unit := do
  opened opening inside
  line "\x7d"

/-- Writes an empty line if sections were written before. Then a section is going to be written. -/
def space (written : Bool) : Writer Bool := do
  if written then line ""
  return true

/-- Writes one section with all items, if there are any. -/
def group {α : Type} (items : List α) (write : α → Writer Unit) (written : Bool) : Writer Bool := do
  if items.isEmpty then return written
  let written ← space written
  items.forM write
  return written

/-- Writes each item as a section, with an empty line between each two. Each is looked up before the
empty line. -/
def sections {α β : Type} (items : List α) (find : α → Except GraphError β)
    (write : β → Writer Unit) (written : Bool) : Writer Bool :=
  items.foldlM (fun written x => do
    let found ← look (find x)
    let written ← space written
    write found
    return written) written

end Writer

end ObjcSwift
