import ObjcSwift.Json.Reader
import ObjcSwift.Objc.Diagnostic
import ObjcSwift.Objc.Node.Codec

/-!
# Reading a source file

The text of a source file is the JSON of its tree. A text that cannot be read is reported once, and
stands in the tree as one node that was not understood, so that there always is a tree to go on
with.
-/

namespace ObjcSwift.ObjcNode

/-- The problem of a text that is no tree. -/
def malformed (name : String) : Diagnostic :=
  ⟨.error, "malformed syntax tree", ⟨some name, 0, 0⟩⟩

/-- The tree of a file with no declarations in it but a text that was not understood. -/
def ofUnreadable (text : String) : ObjcNode :=
  { kind := .globalContext, children := [{ kind := .unknown text }] }

/-- The tree of a source file, and the problems with it. -/
def read (name text : String) : ObjcNode × List Diagnostic :=
  match (Json.read? text).bind ofJson? with
  | some tree => (tree, [])
  | none => (ofUnreadable text, [malformed name])

end ObjcSwift.ObjcNode
