import ObjcSwift.Decl.InitializerName
import ObjcSwift.Objc.Node
import ObjcSwift.Typing.Mapping

/-!
# Signatures of Objective-C methods and functions

* `- (R)name` is `name() -> R`.
* `- (void)insert:(T)x atIndex:(U)i` is `insert(_ x: T, atIndex i: U)`.
* `- (id)initWithFrame:(CGRect)frame` is `init(frame: CGRect)`.
* A class method is static, and the parameters of a function have no labels.
-/

namespace ObjcSwift

/-- The types in the declaration of a method: that of its result, and those of its parameters. -/
def MethodDefinition.types (method : MethodDefinition) : List ObjcType :=
  method.result :: match method.selector with
    | .simple _ => []
    | .keywords parts => parts.map (·.type)

/-- Where a signature stands. -/
structure SignaturePlace where
  /-- Whether pointers are nonnull by default there. -/
  nonnull : Bool := false
  /-- The type that `instancetype` stands for. -/
  owner : Option String := none

namespace SignaturePlace

/-- The Swift type of a parameter or result. -/
def swiftType (place : SignaturePlace) (type : ObjcType) : SwiftType :=
  type.toSwift { nonnull := place.nonnull }

/-- The Swift type of a result; `instancetype` is the owner under the layers it would have had. -/
def resultType (place : SignaturePlace) (type : ObjcType) : SwiftType :=
  let mapped := place.swiftType type
  match place.owner with
  | some owner =>
    if type.plainName? == some "instancetype" then (SwiftType.named owner).withLayersOf mapped
    else mapped
  | none => mapped

/-- The label of the argument for a keyword after the first. -/
def keywordLabel? (part : KeywordPart) : Option String :=
  part.keyword.filter fun keyword => !keyword.isEmpty

/-- The parameter of a part of a selector under the given label. -/
def parameter (place : SignaturePlace) (label : Option String) (part : KeywordPart) : Parameter :=
  ⟨label, part.name, place.swiftType part.type⟩

/-- The name of a method and the label of its first argument, from its first keyword. -/
def firstKeyword (keyword : String) : String × Option String :=
  if isInitializerName keyword then ("init", initializerLabel? keyword) else (keyword, none)

/-- The signature of a method. -/
def ofMethod (place : SignaturePlace) (method : MethodDefinition) : Signature :=
  let result := place.resultType method.result
  match method.selector with
  | .simple name =>
    ⟨(if isInitializerName name then "init" else name), [], result, method.isClassMethod⟩
  | .keywords [] => ⟨"", [], result, method.isClassMethod⟩
  | .keywords (first :: rest) =>
    let (name, label) := firstKeyword (first.keyword.getD "")
    let others := rest.map fun part => place.parameter (keywordLabel? part) part
    ⟨name, place.parameter label first :: others, result, method.isClassMethod⟩

/-- The signature of a method, if there is room for the arrays in its types. -/
def ofMethod? (place : SignaturePlace) (method : MethodDefinition) : Option Signature :=
  if method.types.any ObjcType.overflows then none else some (place.ofMethod method)

theorem ofMethod?_eq_some_iff {place : SignaturePlace} {method : MethodDefinition}
    {signature : Signature} : place.ofMethod? method = some signature ↔
      method.types.any ObjcType.overflows = false ∧ place.ofMethod method = signature := by
  unfold ofMethod?
  cases method.types.any ObjcType.overflows <;> simp

@[simp] theorem isSome_ofMethod? (place : SignaturePlace) (method : MethodDefinition) :
    (place.ofMethod? method).isSome = !method.types.any ObjcType.overflows := by
  unfold ofMethod?
  cases method.types.any ObjcType.overflows <;> rfl

/-- The signature of a function; a parameter of type `void` stands for none. -/
def ofFunction (place : SignaturePlace) (name : String) (result : ObjcType)
    (parameters : List FunctionParameter) : Signature :=
  ⟨name, (parameters.filter fun p => !p.type.isVoid).map fun p =>
    ⟨none, p.name, place.swiftType p.type⟩, place.swiftType result, false⟩

/-- The signature of a function, if there is room for the arrays in its types. -/
def ofFunction? (place : SignaturePlace) (name : String) (result : ObjcType)
    (parameters : List FunctionParameter) : Option Signature :=
  if (result :: parameters.map (·.type)).any ObjcType.overflows then none
  else some (place.ofFunction name result parameters)

@[simp] theorem isSome_ofFunction? (place : SignaturePlace) (name : String) (result : ObjcType)
    (parameters : List FunctionParameter) :
    (place.ofFunction? name result parameters).isSome =
      !(result :: parameters.map (·.type)).any ObjcType.overflows := by
  unfold ofFunction?
  cases (result :: parameters.map (·.type)).any ObjcType.overflows <;> rfl

end SignaturePlace

end ObjcSwift
