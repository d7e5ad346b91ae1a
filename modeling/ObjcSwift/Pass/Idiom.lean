import ObjcSwift.Decl.InitializerName
import ObjcSwift.Swift.Pattern
import ObjcSwift.Typing.Bodies

/-!
# Folding idioms

Two Objective-C idioms have a shorter form in Swift.

* `Foo.alloc().initWithX(a, y: b)` makes an object: `Foo(x: a, y: b)`.
* `if block != nil { block(a) }` calls a block that may be missing: `block?(a)`.

Bodies are walked from the leaves up, and the bodies in which something was folded are annotated
again.
-/

namespace ObjcSwift

namespace Idiom

/-! ### Making objects -/

/-- The names that may be types: all but `self` and `super`. -/
def typeName : Pattern Expr :=
  fun e => e.identifier?.any fun name => name != "self" && name != "super"

/-- `Type.alloc().init…(…)` -/
def allocInit : Pattern Expr :=
  .chain (.and (.and (.and (.root typeName) (.entryCount 2)) (.entry 1 (.method "alloc" [])))
    (.entry 2 (.methodWhere isInitializerName)))

/-- Arguments with a label before the first, if it has none: the word after `initWith` in the name
of the initializer. -/
def labelFirst (initializer : String) : List Argument → List Argument
  | ⟨none, value⟩ :: rest => ⟨(afterInitWith? initializer).map Text.lowerFirst, value⟩ :: rest
  | arguments => arguments

/-- The object made by an expression of the form `allocInit`. -/
def construction? (e : Expr) : Option Expr := do
  let chain := SuffixChain.ofExpr e
  let type ← chain.root.identifier?
  let last ← chain.entryAt? 2
  let initializer ← last.memberName?
  let arguments ← last.arguments?
  return { (Expr.identifier type).call (labelFirst initializer arguments) with source := e.source }

/-- What an expression folds to, if it makes an object. -/
def foldExpr? (e : Expr) : Option Expr :=
  if allocInit e then construction? e else none

/-! ### Calling blocks that may be missing -/

/-- Whether something called is a method of its receiver. Methods have closure types too, but they
are never missing. -/
def namesMethod (catalog : Catalog) (callee : Expr) : Bool :=
  match callee.shape with
  | .suffixed target _ (.member name) =>
    match target.resolved with
    | some type =>
      !type.isUnknown && (catalog.member? type name false).any fun m => m.signature?.isSome
    | none => false
  | _ => false

/-- Whether something called may be a block. What has no known type may be one if it is no result of
a call or subscript. -/
def mayBeBlock (catalog : Catalog) (callee : Expr) : Bool :=
  !namesMethod catalog callee &&
    match callee.resolved.filter (!·.isUnknown) with
    | some type => type.base.isBlock
    | none => callee.suffix?.all fun (_, _, suffix) => suffix.member?.isSome

/-- The call that an `if` statement folds to, if it only calls the block it checks. -/
def foldBranch? (catalog : Catalog) : Stmt → Option Expr
  | .branch condition [.expressions [call]] none =>
    match call.shape with
    | .suffixed callee _ (.call arguments) =>
      if mayBeBlock catalog callee && Pattern.nilCheck (.equals callee) condition then
        some { shape := .suffixed callee .safe (.call arguments), source := call.source }
      else none
    | _ => none
  | _ => none

/-! ### Bodies -/

/-- Folds idioms when nodes are left, and counts them. -/
def folder (catalog : Catalog) : Editor Nat where
  exitExpr e count :=
    match foldExpr? e with
    | some folded => (folded, count + 1)
    | none => (e, count)
  exitStmt s count :=
    match foldBranch? catalog s with
    | some call => (.expressions [call], count + 1)
    | none => (s, count)

/-- A body with its idioms folded, and the count. -/
def foldBody (catalog : Catalog) (body : Body) (count : Nat) : Body × Nat :=
  bodyEdit (folder catalog) body count

/-- A function body with its idioms folded, and the count. -/
def foldCode (catalog : Catalog) (code : Code) (count : Nat) : Code × Nat :=
  let (body, count) := foldBody catalog code.body count
  ({ code with body }, count)

/-- A setter with the idioms in it folded, and the count. -/
def foldSetter (catalog : Catalog) (setter : Setter) (count : Nat) : Setter × Nat :=
  let (code, count) := foldCode catalog setter.code count
  ({ setter with code }, count)

/-- The accessors of a property with their idioms folded, and the count. -/
def foldMode (catalog : Catalog) : PropertyMode → PropertyMode × Nat
  | .field => (.field, 0)
  | .computed getter none =>
    let (getter, count) := foldCode catalog getter 0
    (.computed getter none, count)
  | .computed getter (some setter) =>
    let (getter, count) := foldCode catalog getter 0
    let (setter, count) := foldSetter catalog setter count
    (.computed getter (some setter), count)
  | .full getter setter =>
    let (getter, count) := foldCode catalog getter 0
    let (setter, count) := foldSetter catalog setter count
    (.full getter setter, count)

/-- A declaration with the idioms in it folded, and the count. -/
def foldDecl (catalog : Catalog) : Decl → Decl × Nat
  | .method ⟨signature, some code, header⟩ =>
    let (code, count) := foldCode catalog code 0
    (.method ⟨signature, some code, header⟩, count)
  | .globalFunction ⟨signature, some code, header⟩ =>
    let (code, count) := foldCode catalog code 0
    (.globalFunction ⟨signature, some code, header⟩, count)
  | .property d =>
    let (mode, count) := foldMode catalog d.mode
    (.property { d with mode }, count)
  | .globalVariable ⟨name, storage, some initial, header⟩ =>
    let (initial, count) := initial.edit (folder catalog) 0
    (.globalVariable ⟨name, storage, some initial, header⟩, count)
  | d => (d, 0)

/-! ### Graphs -/

/-- Folds the idioms in a declaration, and says whether there were any. -/
def foldIn (catalog : Catalog) (id : DeclId) : Graph.Edit Bool := do
  let node ← Graph.node id
  let (decl, count) := foldDecl catalog node.decl
  Graph.setDecl id decl
  return 0 < count

/-- Folds idioms everywhere, and annotates the bodies in which there were any. -/
def foldAll (catalog : Catalog) : Graph.Edit Unit := do
  let touched ← (← get).codeOwners.filterM (foldIn catalog)
  touched.forM (Graph.annotate catalog)

end Idiom

end ObjcSwift
