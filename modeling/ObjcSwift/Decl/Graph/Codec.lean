import ObjcSwift.Decl.Graph
import ObjcSwift.Decl.Payload.Codec

/-!
# Graphs of declarations in JSON

A graph is a record of its slots, an empty one written as `null`, and its files.
-/

namespace ObjcSwift

/-- A node as JSON. -/
def GraphNode.toJson (n : GraphNode) : Json :=
  .obj [("parent", .option DeclId.toJson n.parent), ("intention", n.decl.toJson)]

/-- Reads a node. -/
def GraphNode.ofJson? (j : Json) : Option GraphNode := do
  let members ← j.record? ["parent", "intention"]
  let parent ← Json.field? members "parent" DeclId.ofJson?
  let decl ← Json.field members "intention" Decl.ofJson?
  some ⟨parent, decl⟩

/-- A graph as JSON. -/
def Graph.toJson (g : Graph) : Json :=
  .obj [("nodes", .list (.option GraphNode.toJson) g.slots), ("files", DeclId.listJson g.files)]

/-- Reads a graph. -/
def Graph.ofJson? (j : Json) : Option Graph := do
  let members ← j.record? ["nodes", "files"]
  let slots ← Json.field members "nodes" (Json.listOf (Json.nullable GraphNode.ofJson?))
  let files ← Json.field members "files" declIds?
  some ⟨slots, files⟩

end ObjcSwift
