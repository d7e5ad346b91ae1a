import ObjcSwift.Decl.Payload
import ObjcSwift.Objc.ObjcType

/-!
# Mapping Objective-C types to Swift types

Every Objective-C type has a Swift type; a name that is not known is kept. A reference type becomes
optional or not by its **nullability**: a keyword on the type wins over one on the declaration, and
without either, the region the declaration stands in decides.

The mapping has two parts. `ObjcType.core` maps what the type is, below its own modifiers, given
only whether pointers in it are nonnull by default; `ObjcType.placed` then puts the optional layer
on that the place of the type asks for.

An array becomes a tuple with a member for each of its elements, and a list can only be so long. A
type with a longer array **overflows** (`ObjcType.overflows`): `ObjcType.toSwift` says what its
Swift type would be, but making it stops the program, so `ObjcType.toSwift?` gives none.
-/

namespace ObjcSwift

/-- What is said about whether a reference may be missing. -/
inductive Nullability
  /-- It is always there. -/
  | nonnull
  /-- It may be missing. -/
  | nullable
  /-- It may be set to nothing but is always there when read. -/
  | nullResettable
  /-- Nothing is promised. -/
  | unspecified
deriving DecidableEq

namespace Nullability

/-- The nullability that a keyword writes, as an attribute of a property or around a type. -/
def ofKeyword? : String → Option Nullability
  | "nonnull" | "_Nonnull" | "__nonnull" => some nonnull
  | "nullable" | "_Nullable" | "__nullable" => some nullable
  | "null_resettable" => some nullResettable
  | "null_unspecified" | "_Null_unspecified" | "__null_unspecified" => some unspecified
  | _ => none

/-- The case name. -/
def caseName : Nullability → String
  | nonnull => "Nonnull"
  | nullable => "Nullable"
  | nullResettable => "NullResettable"
  | unspecified => "Unspecified"

/-- Reads a nullability. -/
def ofJson? (j : Json) : Option Nullability :=
  Json.enumOf ([nonnull, nullable, nullResettable, unspecified].map fun n => (n.caseName, n)) j

end Nullability

/-- What the place of a type says about it. -/
structure TypePlace where
  /-- The nullability written on the declaration. -/
  nullability : Option Nullability := none
  /-- Whether pointers are nonnull by default here. -/
  nonnull : Bool := false
  /-- Whether the declaration is weak. -/
  isWeak : Bool := false
deriving DecidableEq

/-- The place that the attributes of a property describe; the last nullability counts. -/
def TypePlace.ofAttributes (attributes : List String) (nonnull : Bool) : TypePlace where
  nullability := attributes.reverse.findSome? Nullability.ofKeyword?
  nonnull := nonnull
  isWeak := attributes.contains "weak"

/-! ### Names -/

/-- The Swift names of the primitive types. -/
def primitives : List (String × String) :=
  [("NSInteger", "Int"), ("NSUInteger", "UInt"), ("BOOL", "Bool"), ("bool", "Bool"),
    ("_Bool", "Bool"), ("CGFloat", "CGFloat"), ("NSTimeInterval", "TimeInterval"),
    ("SEL", "Selector"), ("char", "CChar"), ("signed char", "CChar"), ("unsigned char", "UInt8"),
    ("short", "Int16"), ("unsigned short", "UInt16"), ("int", "Int32"), ("signed", "Int32"),
    ("unsigned", "UInt32"), ("unsigned int", "UInt32"), ("long", "Int"), ("unsigned long", "UInt"),
    ("long long", "Int64"), ("unsigned long long", "UInt64"), ("float", "Float"),
    ("double", "Double"), ("int8_t", "Int8"), ("int16_t", "Int16"), ("int32_t", "Int32"),
    ("int64_t", "Int64"), ("uint8_t", "UInt8"), ("uint16_t", "UInt16"), ("uint32_t", "UInt32"),
    ("uint64_t", "UInt64"), ("size_t", "Int")]

/-- The Swift value types that stand for Foundation classes. -/
def bridgedClasses : List (String × String) :=
  [("NSString", "String"), ("NSMutableString", "String"), ("NSDate", "Date"), ("NSData", "Data"),
    ("NSURL", "URL")]

/-- Whether a name is that of a primitive type. -/
def isPrimitiveName (name : String) : Bool :=
  (primitives.lookup name).isSome

/-- The Swift type of a plain name. -/
def namedType (name : String) : SwiftType :=
  match primitives.lookup name with
  | some swift => .named swift
  | none => if name == "id" || name == "instancetype" then .anyObject else .named name

/-- The Swift type of an object of any class that has the given protocols. -/
def objectType : List String → SwiftType
  | [] => .anyObject
  | [single] => .generic "AnyObject" [.named single]
  | many => .generic "AnyObject" [.composition (many.map .named)]

namespace ObjcType

/-- The name of the type below its modifiers, if it is a plain name. -/
def plainName? (type : ObjcType) : Option String :=
  match type.base with
  | plain name => some name
  | _ => none

/-- A class with arguments that are no element types: the class, and the protocols among the
arguments. -/
def classWithProtocols (name : String) (parameters : List ObjcType) : SwiftType :=
  match parameters.filterMap plainName? with
  | [] => namedType name
  | protocols => .composition (namedType name :: protocols.map .named)

/-- The nullability of a type at a place: of its own keywords the innermost, else the one of the
place. -/
def nullabilityAt (place : TypePlace) (type : ObjcType) : Option Nullability :=
  (type.modifiers.reverse.findSome? Nullability.ofKeyword?).or place.nullability

/-- Whether a type is weak at a place. -/
def isWeakAt (place : TypePlace) (type : ObjcType) : Bool :=
  place.isWeak || type.modifiers.contains "__weak"

/-- The Swift type of a type at a place, from its mapping given whether pointers in it are nonnull
by default. -/
def placed (place : TypePlace) (type : ObjcType) (core : Bool → SwiftType) : SwiftType :=
  let nullability := type.nullabilityAt place
  let mapped := core (place.nonnull || nullability == some .nonnull)
  if !type.isPointerLike then mapped
  else if type.isWeakAt place then .optional mapped
  else
    match nullability with
    | some .nullable => .optional mapped
    | some .nonnull => mapped
    | some .nullResettable | some .unspecified => .implicitlyUnwrapped mapped
    | none =>
      if place.nonnull || type.isCallable then mapped else .implicitlyUnwrapped mapped

mutual

/-- The Swift type of a type below its modifiers, given whether pointers in it are nonnull by
default. It is made only if the type does not overflow. -/
def core : ObjcType → (nonnull : Bool) → SwiftType
  | void, _ => .void
  | plain name, _ => namedType name
  | id protocols, _ => objectType protocols
  | generic name [], _ => namedType name
  | generic name [value], _ =>
    if name == "NSArray" then .array (placed { nullability := some .nonnull } value (core value))
    else if name == "NSSet" then
      .generic "Set" [placed { nullability := some .nonnull } value (core value)]
    else if "NSMutable".toList.isPrefixOf name.toList then .named name
    else classWithProtocols name [value]
  | generic name [key, value], _ =>
    if name == "NSDictionary" then
      .dictionary (placed { nullability := some .nonnull } key (core key))
        (placed { nullability := some .nonnull } value (core value))
    else if "NSMutable".toList.isPrefixOf name.toList then .named name
    else classWithProtocols name [key, value]
  | generic name parameters, _ =>
    if "NSMutable".toList.isPrefixOf name.toList then .named name
    else classWithProtocols name parameters
  | pointer pointee, _ =>
    match pointee.base with
    | plain name =>
      if isPrimitiveName name then .generic "UnsafeMutablePointer" [namedType name]
      else
        match bridgedClasses.lookup name with
        | some bridged => .named bridged
        | none => namedType name
    | void => .named "UnsafeMutableRawPointer"
    | pointer _ | id _ =>
      .generic "UnsafeMutablePointer"
        [placed { nullability := some .nullable } pointee (core pointee)]
    -- The region does not reach what a pointer points to.
    | _ => core pointee false
  | specified _ type, nonnull => core type nonnull
  | qualified type _, nonnull => core type nonnull
  | block _ result parameters, nonnull =>
    .block (placed { nonnull := nonnull } result (core result)) (coreParameters parameters nonnull)
  | functionPointer _ result parameters, nonnull =>
    .block (placed { nonnull := nonnull } result (core result)) (coreParameters parameters nonnull)
  | fixedArray element length, nonnull =>
    let mapped := placed { nonnull := nonnull } element (core element)
    if length = 0 then .void
    else if length = 1 then mapped
    else .tuple (List.replicate length.toNat mapped)

/-- The Swift types of the parameters of a callable type; `void` stands for no parameter. -/
def coreParameters : List ObjcType → (nonnull : Bool) → List SwiftType
  | [], _ => []
  | t :: ts, nonnull =>
    if t.isVoid then coreParameters ts nonnull
    else placed { nonnull := nonnull } t (core t) :: coreParameters ts nonnull

end

/-- The Swift type of a type at a place. -/
def toSwift (place : TypePlace) (type : ObjcType) : SwiftType :=
  placed place type type.core

/-! ### Room for arrays -/

/-- The most members that a tuple can have. They stand one after the other in half of the addresses
of a machine with words of 64 bits, and each of them takes up 48. -/
def maxTupleLength : Nat :=
  0x7FFFFFFFFFFFFFFF / 48

mutual

/-- Whether the mapping of a type comes to an array that is too long for a tuple. Arguments are
mapped only if they are the elements of a collection. -/
def overflows : ObjcType → Bool
  | void | plain _ | id _ => false
  | generic name [value] => (name == "NSArray" || name == "NSSet") && overflows value
  | generic name [key, value] => name == "NSDictionary" && (overflows key || overflows value)
  | generic _ _ => false
  | pointer type | specified _ type | qualified type _ => overflows type
  | block _ result parameters | functionPointer _ result parameters =>
    overflows result || overflowsIn parameters
  | fixedArray element length => overflows element || decide (maxTupleLength < length.toNat)

/-- Whether the mapping of one of several types comes to such an array. -/
def overflowsIn : List ObjcType → Bool
  | [] => false
  | t :: ts => overflows t || overflowsIn ts

end

/-- The Swift type of a type at a place, if there is room for its arrays. -/
def toSwift? (place : TypePlace) (type : ObjcType) : Option SwiftType :=
  if type.overflows then none else some (type.toSwift place)

theorem toSwift?_eq_some_iff {place : TypePlace} {type : ObjcType} {swift : SwiftType} :
    type.toSwift? place = some swift ↔ type.overflows = false ∧ type.toSwift place = swift := by
  unfold toSwift?
  cases type.overflows <;> simp

@[simp] theorem isSome_toSwift? (place : TypePlace) (type : ObjcType) :
    (type.toSwift? place).isSome = !type.overflows := by
  unfold toSwift?
  cases type.overflows <;> rfl

/-- How a variable holds its value, by the attributes of its declaration and the modifiers of its
type. -/
def ownership (attributes : List String) (type : ObjcType) : Ownership :=
  let keywords := attributes ++ type.modifiers
  if keywords.any fun k => k == "weak" || k == "__weak" then .weak
  else if keywords.any fun k => k == "unsafe_unretained" || k == "__unsafe_unretained" ||
      (k == "assign" && type.isPointerLike) then .unownedUnsafe
  else .strong

end ObjcType

end ObjcSwift
