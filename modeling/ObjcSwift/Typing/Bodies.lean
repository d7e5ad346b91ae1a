import ObjcSwift.Decl.Graph.Edit
import ObjcSwift.Typing.Annotate
import ObjcSwift.Typing.Snapshot

/-!
# Annotating the bodies of a graph

Each body of a graph is annotated in the context of the declaration that owns it: a method sees the
type it stands in and its own parameters, a getter returns the type of its property, a setter takes
it, and the initial value of a global variable is asked for the type of the variable.
-/

namespace ObjcSwift

/-- The context of a function body, given the context of the place where the function stands. -/
def Signature.context (base : BodyContext) (s : Signature) : BodyContext :=
  { base with parameters := s.parameters.map fun p => (p.name, p.type), result := some s.result }

namespace PropertyDecl

/-- The context of a getter. -/
def getterContext (base : BodyContext) (p : PropertyDecl) : BodyContext :=
  { base with result := some p.storage.type }

/-- The context of a setter. -/
def setterContext (base : BodyContext) (p : PropertyDecl) (valueName : String) : BodyContext :=
  { base with parameters := [(valueName, p.storage.type)], result := some .void }

end PropertyDecl

/-- A body with types. -/
def Code.annotate (c : Catalog) (context : BodyContext) (code : Code) : Code :=
  { code with body := code.body.annotate c context }

/-- A setter with types, given the context of the place where the property stands. -/
def Setter.annotate (c : Catalog) (base : BodyContext) (p : PropertyDecl) (s : Setter) : Setter :=
  { s with code := s.code.annotate c (p.setterContext base s.valueName) }

/-- The accessors of a property with types. -/
def PropertyDecl.annotateMode (c : Catalog) (base : BodyContext) (p : PropertyDecl) :
    PropertyMode :=
  match p.mode with
  | .field => .field
  | .computed getter setter =>
    .computed (getter.annotate c (p.getterContext base)) (setter.map (·.annotate c base p))
  | .full getter setter =>
    .full (getter.annotate c (p.getterContext base)) (setter.annotate c base p)

namespace Graph

/-- The context of the place where a declaration stands: the type around it, or the type that it is
itself. -/
def placeContext (g : Graph) (id : DeclId) (isStatic : Bool) : BodyContext :=
  let own := (g.get? id).bind Decl.type?
  match ((g.enclosingType? id).bind fun t => (g.get? t).bind Decl.type?).or own with
  | some d => { selfType := some (.named d.name), superclass := d.superclass?.map .named, isStatic }
  | none => {}

/-- The context of the body of a declaration, of a property that of its getter. A declaration
without body has the context of its place. -/
def bodyContext (g : Graph) (id : DeclId) : Decl → BodyContext
  | .method d => d.signature.context (g.placeContext id d.signature.isStatic)
  | .globalFunction d => d.signature.context {}
  | .property d =>
    if d.mode.isField then g.placeContext id false
    else d.getterContext (g.placeContext id d.isStatic)
  | _ => g.placeContext id false

/-- A declaration with types in its bodies. -/
def annotateDecl (c : Catalog) (g : Graph) (id : DeclId) : Decl → Decl
  | .method d =>
    .method { d with code := d.code.map (·.annotate c (g.bodyContext id (.method d))) }
  | .globalFunction d =>
    .globalFunction
      { d with code := d.code.map (·.annotate c (g.bodyContext id (.globalFunction d))) }
  | .property d =>
    .property { d with mode := d.annotateMode c (g.placeContext id d.isStatic) }
  | .globalVariable d =>
    .globalVariable { d with initial := d.initial.map (·.annotateIn c {} (some d.storage.type)) }
  | d => d

/-- A graph with one declaration annotated; a number without declaration changes nothing. -/
def annotated (c : Catalog) (g : Graph) (id : DeclId) : Graph :=
  match g.node? id with
  | some node => g.setNode id { node with decl := annotateDecl c g id node.decl }
  | none => g

/-- Annotates the bodies of one declaration. -/
def annotate (c : Catalog) (id : DeclId) : Edit Unit := do
  let _ ← node id
  modify (annotated c · id)

/-- Annotates an expression as if it stood in the body of a declaration. -/
def annotateExpr (c : Catalog) (g : Graph) (id : DeclId) (e : Expr) : Except GraphError Expr :=
  match g.get? id with
  | some d => .ok (e.annotateIn c (g.bodyContext id d) e.expected)
  | none => .error (.missing id)

/-- A graph with all bodies annotated. -/
def annotateAll (c : Catalog) (g : Graph) : Graph :=
  g.codeOwners.foldl (annotated c) g

end Graph

end ObjcSwift
