/-!
# Swift types

The closed model of the Swift types that can be written. Arrays and dictionaries are ordinary
generic types named `Array` and `Dictionary`; only their text is special. The empty tuple is `Void`.

Optionality is read off a type as its **layers**, outermost first, above a **base** that is not
optional. Layers and base determine the type, and one type can be given the layers of another
(`SwiftType.withLayersOf`).
-/

namespace ObjcSwift

/-- A Swift type. -/
inductive SwiftType
  /-- A plain nominal type: `Int`. -/
  | named (name : String)
  /-- A nominal type with arguments: `Set<Int>`. -/
  | generic (name : String) (parameters : List SwiftType)
  /-- A protocol composition: `A & B`. -/
  | composition (members : List SwiftType)
  /-- A tuple: `(A, B)`. -/
  | tuple (members : List SwiftType)
  /-- A closure type: `(A, B) -> C`. -/
  | block (result : SwiftType) (parameters : List SwiftType)
  /-- An optional: `A?`. -/
  | optional (inner : SwiftType)
  /-- An implicitly unwrapped optional: `A!`. -/
  | implicitlyUnwrapped (inner : SwiftType)
  /-- A metatype: `A.Type`. -/
  | metatype (inner : SwiftType)
  /-- A type inside another: `A.B`. -/
  | nested (parts : List SwiftType)
deriving Inhabited

/-- One layer of optionality. -/
inductive OptionalLayer
  /-- `?` -/
  | optional
  /-- `!` -/
  | implicitlyUnwrapped
deriving DecidableEq

namespace SwiftType

/-! ### Equality -/

mutual

/-- Whether two types are equal. -/
def beq : SwiftType → SwiftType → Bool
  | named a, named b => a == b
  | generic a ps, generic b qs => a == b && beqs ps qs
  | composition ps, composition qs => beqs ps qs
  | tuple ps, tuple qs => beqs ps qs
  | block r ps, block s qs => beq r s && beqs ps qs
  | optional a, optional b => beq a b
  | implicitlyUnwrapped a, implicitlyUnwrapped b => beq a b
  | metatype a, metatype b => beq a b
  | nested ps, nested qs => beqs ps qs
  | _, _ => false

/-- Whether two lists of types are equal. -/
def beqs : List SwiftType → List SwiftType → Bool
  | [], [] => true
  | p :: ps, q :: qs => beq p q && beqs ps qs
  | _, _ => false

end

mutual

/-- A type is equal to itself. -/
theorem beq_self : (a : SwiftType) → beq a a = true
  | named _ => by simp [beq]
  | generic _ ps => by simp [beq, beqs_self ps]
  | composition ps => by simp [beq, beqs_self ps]
  | tuple ps => by simp [beq, beqs_self ps]
  | block r ps => by simp [beq, beq_self r, beqs_self ps]
  | optional a => by simp [beq, beq_self a]
  | implicitlyUnwrapped a => by simp [beq, beq_self a]
  | metatype a => by simp [beq, beq_self a]
  | nested ps => by simp [beq, beqs_self ps]

/-- A list of types is equal to itself. -/
theorem beqs_self : (ps : List SwiftType) → beqs ps ps = true
  | [] => rfl
  | p :: ps => by simp [beqs, beq_self p, beqs_self ps]

end

mutual

/-- Types that compare equal are the same type. -/
theorem eq_of_beq_true : (a b : SwiftType) → beq a b = true → a = b
  | named _, b, h => by cases b <;> simp_all [beq]
  | generic _ ps, b, h => by
    cases b with
    | generic _ qs => simp only [beq, Bool.and_eq_true, beq_iff_eq] at h
                      rw [h.1, eq_of_beqs_true ps qs h.2]
    | _ => simp [beq] at h
  | composition ps, b, h => by
    cases b with
    | composition qs => rw [eq_of_beqs_true ps qs (by simpa [beq] using h)]
    | _ => simp [beq] at h
  | tuple ps, b, h => by
    cases b with
    | tuple qs => rw [eq_of_beqs_true ps qs (by simpa [beq] using h)]
    | _ => simp [beq] at h
  | block r ps, b, h => by
    cases b with
    | block s qs => simp only [beq, Bool.and_eq_true] at h
                    rw [eq_of_beq_true r s h.1, eq_of_beqs_true ps qs h.2]
    | _ => simp [beq] at h
  | optional a, b, h => by
    cases b with
    | optional b => rw [eq_of_beq_true a b (by simpa [beq] using h)]
    | _ => simp [beq] at h
  | implicitlyUnwrapped a, b, h => by
    cases b with
    | implicitlyUnwrapped b => rw [eq_of_beq_true a b (by simpa [beq] using h)]
    | _ => simp [beq] at h
  | metatype a, b, h => by
    cases b with
    | metatype b => rw [eq_of_beq_true a b (by simpa [beq] using h)]
    | _ => simp [beq] at h
  | nested ps, b, h => by
    cases b with
    | nested qs => rw [eq_of_beqs_true ps qs (by simpa [beq] using h)]
    | _ => simp [beq] at h

/-- Lists of types that compare equal are the same list. -/
theorem eq_of_beqs_true : (ps qs : List SwiftType) → beqs ps qs = true → ps = qs
  | [], qs, h => by cases qs <;> simp_all [beqs]
  | p :: ps, qs, h => by
    cases qs with
    | nil => simp [beqs] at h
    | cons q qs => simp only [beqs, Bool.and_eq_true] at h
                   rw [eq_of_beq_true p q h.1, eq_of_beqs_true ps qs h.2]

end

instance : DecidableEq SwiftType := fun a b =>
  if h : beq a b = true then isTrue (eq_of_beq_true a b h)
  else isFalse fun e => h (e ▸ beq_self a)

/-! ### Common types -/

/-- `Void`, the empty tuple. -/
def void : SwiftType := tuple []

/-- `[element]` -/
def array (element : SwiftType) : SwiftType := generic "Array" [element]

/-- `[key: value]` -/
def dictionary (key value : SwiftType) : SwiftType := generic "Dictionary" [key, value]

/-- `Int` -/
def int : SwiftType := named "Int"

/-- `Bool` -/
def bool : SwiftType := named "Bool"

/-- `Double` -/
def double : SwiftType := named "Double"

/-- `String` -/
def string : SwiftType := named "String"

/-- `Any` -/
def any : SwiftType := named "Any"

/-- `AnyObject` -/
def anyObject : SwiftType := named "AnyObject"

/-- `Selector` -/
def selector : SwiftType := named "Selector"

/-- The name that stands for a type that could not be found. -/
def unknownName : String := "<<unknown>>"

/-- The type of an expression for which no type could be found. -/
def unknown : SwiftType := named unknownName

/-! ### Questions about a type -/

/-- Whether this is the unknown type. -/
def isUnknown : SwiftType → Bool
  | named name => name == unknownName
  | _ => false

/-- Whether this is `Void`, as the empty tuple or by name. -/
def isVoid : SwiftType → Bool
  | tuple members => members.isEmpty
  | named name => name == "Void"
  | _ => false

/-- Whether the outermost layer is `?` or `!`. -/
def isOptional : SwiftType → Bool
  | optional _ | implicitlyUnwrapped _ => true
  | _ => false

/-- Whether the outermost layer is `!`. -/
def isImplicitlyUnwrapped : SwiftType → Bool
  | implicitlyUnwrapped _ => true
  | _ => false

/-- Whether this is a closure type. -/
def isBlock : SwiftType → Bool
  | block _ _ => true
  | _ => false

/-- Whether this is a metatype. -/
def isMetatype : SwiftType → Bool
  | metatype _ => true
  | _ => false

/-- The name of a nominal type, plain or generic. -/
def name? : SwiftType → Option String
  | named name | generic name _ => some name
  | _ => none

/-- Whether the type is nominal. -/
def isNominal (t : SwiftType) : Bool :=
  t.name?.isSome

/-- The arguments of a generic type. -/
def genericParameters : SwiftType → List SwiftType
  | generic _ parameters => parameters
  | _ => []

/-- The element type of an array. -/
def arrayElement? : SwiftType → Option SwiftType
  | generic name [element] => if name == "Array" then some element else none
  | _ => none

/-- The key and value types of a dictionary. -/
def dictionaryTypes? : SwiftType → Option (SwiftType × SwiftType)
  | generic name [key, value] => if name == "Dictionary" then some (key, value) else none
  | _ => none

/-- The result and parameter types of a closure type. -/
def blockSignature? : SwiftType → Option (SwiftType × List SwiftType)
  | block result parameters => some (result, parameters)
  | _ => none

/-! ### Optional layers -/

/-- The type without its outermost optional layer. -/
def unwrapped : SwiftType → SwiftType
  | optional inner | implicitlyUnwrapped inner => inner
  | t => t

/-- The type without its optional layers. -/
def base : SwiftType → SwiftType
  | optional inner | implicitlyUnwrapped inner => inner.base
  | t => t

/-- The optional layers, outermost first. -/
def layers : SwiftType → List OptionalLayer
  | optional inner => .optional :: inner.layers
  | implicitlyUnwrapped inner => .implicitlyUnwrapped :: inner.layers
  | _ => []

/-- A type under one more layer. -/
def wrap : OptionalLayer → SwiftType → SwiftType
  | .optional, t => optional t
  | .implicitlyUnwrapped, t => implicitlyUnwrapped t

/-- The base of one type under the optional layers of another. -/
def withLayersOf (t other : SwiftType) : SwiftType :=
  other.layers.foldr wrap t.base

end SwiftType

end ObjcSwift
