import ObjcSwift.Typing.Catalog

/-!
# The built-in catalogue

The types and globals of the standard library, Foundation and UIKit that names can refer to without
a declaration.
-/

namespace ObjcSwift

namespace Builtin

/-- A parameter without label. -/
def unlabeled (name : String) (type : SwiftType) : Parameter :=
  ⟨none, name, type⟩

/-- A parameter with a label. -/
def labeled (label name : String) (type : SwiftType) : Parameter :=
  ⟨some label, name, type⟩

/-- A property of instances. -/
def property (name : String) (type : SwiftType) : Member :=
  .property name type false

/-- A method of instances. -/
def method (name : String) (parameters : List Parameter) (result : SwiftType) : Member :=
  .method ⟨name, parameters, result, false⟩

/-- An initializer of a type. -/
def initializer (type : String) (parameters : List Parameter) : Member :=
  .method ⟨"init", parameters, .named type, true⟩

/-- A structure that is made without arguments. -/
def value (name : String) (members : List Member) (conformances : List String := []) : KnownType :=
  { name, kind := .structType, conformances, members := initializer name [] :: members }

/-- A class. -/
def object (name : String) (supertype : Option String) (members : List Member) : KnownType :=
  { name, kind := .classType, supertype, members }

/-- The numeric types. -/
def numbers : List KnownType :=
  ["Int", "UInt", "Int8", "Int16", "Int32", "Int64", "UInt8", "UInt16", "UInt32", "UInt64", "Float",
    "Double", "CGFloat", "TimeInterval"].map fun name =>
      value name [property "description" .string] ["Numeric"]

/-- The type of the elements of a generic collection. -/
def element : SwiftType :=
  .named "Element"

/-- The other types of the standard library. -/
def standard : List KnownType :=
  [value "Bool" [],
    { name := "Numeric", kind := .protocolType },
    value "String"
      [property "count" .int, property "isEmpty" .bool,
        method "appending" [unlabeled "other" .string] .string,
        method "hasPrefix" [unlabeled "prefix" .string] .bool,
        method "hasSuffix" [unlabeled "suffix" .string] .bool,
        method "lowercased" [] .string, method "uppercased" [] .string],
    { name := "Array", kind := .structType, genericParameters := ["Element"]
      members :=
        [property "count" .int, property "isEmpty" .bool, property "first" (.optional element),
          property "last" (.optional element),
          method "append" [unlabeled "newElement" element] .void,
          method "contains" [unlabeled "element" element] .bool,
          method "remove" [labeled "at" "index" .int] element]
      subscript := some ⟨.int, element⟩ },
    { name := "Dictionary", kind := .structType, genericParameters := ["Key", "Value"]
      members :=
        [property "count" .int, property "isEmpty" .bool,
          property "keys" (.array (.named "Key")), property "values" (.array (.named "Value"))] },
    { name := "Set", kind := .structType, genericParameters := ["Element"]
      members := [property "count" .int, method "contains" [unlabeled "member" element] .bool] }]

/-- The types of Foundation. -/
def foundation : List KnownType :=
  [{ name := "NSObjectProtocol", kind := .protocolType
     members :=
       [method "isEqual" [unlabeled "object" (.optional .any)] .bool,
         method "responds" [labeled "to" "selector" .selector] .bool,
         property "description" .string] },
    { name := "NSObject", kind := .classType, conformances := ["NSObjectProtocol"]
      members :=
        [initializer "NSObject" [], property "hash" .int, method "copy" [] .any,
          method "mutableCopy" [] .any] },
    object "NSNumber" "NSObject"
      [property "intValue" (.named "Int32"), property "integerValue" .int,
        property "doubleValue" .double, property "boolValue" .bool],
    object "NSError" "NSObject"
      [property "code" .int, property "domain" .string, property "localizedDescription" .string],
    { object "NSArray" "NSObject"
        [property "count" .int, method "object" [labeled "at" "index" .int] .any] with
      subscript := some ⟨.int, .any⟩ },
    object "NSMutableArray" "NSArray" [method "add" [unlabeled "anObject" .any] .void],
    { object "NSDictionary" "NSObject" [property "count" .int] with
      subscript := some ⟨.any, .optional .any⟩ },
    object "NSMutableDictionary" "NSDictionary" [method "removeAllObjects" [] .void],
    value "Date" [], value "Data" [], value "URL" []]

/-- The types of UIKit. -/
def interface : List KnownType :=
  [object "UIView" "UIResponder"
      [property "frame" (.named "CGRect"), property "bounds" (.named "CGRect"),
        property "superview" (.optional (.named "UIView")),
        property "subviews" (.array (.named "UIView")),
        method "addSubview" [unlabeled "view" (.named "UIView")] .void,
        initializer "UIView" [labeled "frame" "frame" (.named "CGRect")]],
    object "UIResponder" "NSObject" [],
    value "CGRect" [property "origin" (.named "CGPoint"), property "size" (.named "CGSize")],
    value "CGPoint" [property "x" (.named "CGFloat"), property "y" (.named "CGFloat")],
    value "CGSize" [property "width" (.named "CGFloat"), property "height" (.named "CGFloat")]]

/-- A global function of two values of any type. -/
def ofTwo (name : String) : KnownGlobal :=
  .function ⟨name, [unlabeled "a" .any, unlabeled "b" .any], .any, false⟩

/-- The globals. -/
def globals : List KnownGlobal :=
  [.function ⟨"NSLog", [unlabeled "format" .string], .void, false⟩,
    .value "CGRectZero" (.named "CGRect"), .value "NSNotFound" .int, ofTwo "MAX", ofTwo "MIN"]

end Builtin

/-- What names refer to when nothing is declared. -/
def Catalog.builtin : Catalog where
  types := Builtin.numbers ++ Builtin.standard ++ Builtin.foundation ++ Builtin.interface
  globals := Builtin.globals

end ObjcSwift
