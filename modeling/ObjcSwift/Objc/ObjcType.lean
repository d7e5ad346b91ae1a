import ObjcSwift.Text.Numeral

/-!
# Objective-C types

Type expressions as they are written in Objective-C. Words such as `const`, `__weak` or `_Nullable`
may stand before a type or after it; the type below all of them is its **base**, and the words
themselves are its **modifiers**.
-/

namespace ObjcSwift

/-- An Objective-C type expression. -/
inductive ObjcType
  /-- `void` -/
  | void
  /-- A plain name: a struct, a typedef, a primitive, `instancetype`. -/
  | plain (name : String)
  /-- `id`, possibly with protocols. -/
  | id (protocols : List String)
  /-- A name with arguments: `NSArray<NSString *>`. -/
  | generic (name : String) (parameters : List ObjcType)
  /-- A pointer. -/
  | pointer (pointee : ObjcType)
  /-- A type after words such as `const` or `__weak`. -/
  | specified (specifiers : List String) (type : ObjcType)
  /-- A type before words such as `_Nullable`. -/
  | qualified (type : ObjcType) (qualifiers : List String)
  /-- A block type, possibly with a name in it. -/
  | block (name : Option String) (result : ObjcType) (parameters : List ObjcType)
  /-- A function pointer type, possibly with a name in it. -/
  | functionPointer (name : Option String) (result : ObjcType) (parameters : List ObjcType)
  /-- An array of fixed length. -/
  | fixedArray (element : ObjcType) (length : UInt64)
deriving Inhabited

namespace ObjcType

/-! ### Equality -/

mutual

/-- Whether two types are equal. -/
def beq : ObjcType → ObjcType → Bool
  | void, void => true
  | plain a, plain b => a == b
  | id ps, id qs => ps == qs
  | generic a ps, generic b qs => a == b && beqs ps qs
  | pointer a, pointer b => beq a b
  | specified s a, specified t b => s == t && beq a b
  | qualified a s, qualified b t => beq a b && s == t
  | block n r ps, block m s qs => n == m && beq r s && beqs ps qs
  | functionPointer n r ps, functionPointer m s qs => n == m && beq r s && beqs ps qs
  | fixedArray a n, fixedArray b m => beq a b && n == m
  | _, _ => false

/-- Whether two lists of types are equal. -/
def beqs : List ObjcType → List ObjcType → Bool
  | [], [] => true
  | p :: ps, q :: qs => beq p q && beqs ps qs
  | _, _ => false

end

mutual

/-- A type is equal to itself. -/
theorem beq_self : (a : ObjcType) → beq a a = true
  | void => rfl
  | plain _ => by simp [beq]
  | id _ => by simp [beq]
  | generic _ ps => by simp [beq, beqs_self ps]
  | pointer a => by simp [beq, beq_self a]
  | specified _ a => by simp [beq, beq_self a]
  | qualified a _ => by simp [beq, beq_self a]
  | block _ r ps => by simp [beq, beq_self r, beqs_self ps]
  | functionPointer _ r ps => by simp [beq, beq_self r, beqs_self ps]
  | fixedArray a _ => by simp [beq, beq_self a]

/-- A list of types is equal to itself. -/
theorem beqs_self : (ps : List ObjcType) → beqs ps ps = true
  | [] => rfl
  | p :: ps => by simp [beqs, beq_self p, beqs_self ps]

end

mutual

/-- Types that compare equal are the same type. -/
theorem eq_of_beq_true : (a b : ObjcType) → beq a b = true → a = b
  | void, b, h => by cases b <;> simp_all [beq]
  | plain _, b, h => by cases b <;> simp_all [beq]
  | id _, b, h => by cases b <;> simp_all [beq]
  | generic _ ps, b, h => by
    cases b with
    | generic _ qs => simp only [beq, Bool.and_eq_true, beq_iff_eq] at h
                      rw [h.1, eq_of_beqs_true ps qs h.2]
    | _ => simp [beq] at h
  | pointer a, b, h => by
    cases b with
    | pointer b => rw [eq_of_beq_true a b (by simpa [beq] using h)]
    | _ => simp [beq] at h
  | specified _ a, b, h => by
    cases b with
    | specified _ b => simp only [beq, Bool.and_eq_true, beq_iff_eq] at h
                       rw [h.1, eq_of_beq_true a b h.2]
    | _ => simp [beq] at h
  | qualified a _, b, h => by
    cases b with
    | qualified b _ => simp only [beq, Bool.and_eq_true, beq_iff_eq] at h
                       rw [eq_of_beq_true a b h.1, h.2]
    | _ => simp [beq] at h
  | block _ r ps, b, h => by
    cases b with
    | block _ s qs => simp only [beq, Bool.and_eq_true, beq_iff_eq] at h
                      rw [h.1.1, eq_of_beq_true r s h.1.2, eq_of_beqs_true ps qs h.2]
    | _ => simp [beq] at h
  | functionPointer _ r ps, b, h => by
    cases b with
    | functionPointer _ s qs => simp only [beq, Bool.and_eq_true, beq_iff_eq] at h
                                rw [h.1.1, eq_of_beq_true r s h.1.2, eq_of_beqs_true ps qs h.2]
    | _ => simp [beq] at h
  | fixedArray a _, b, h => by
    cases b with
    | fixedArray b _ => simp only [beq, Bool.and_eq_true, beq_iff_eq] at h
                        rw [eq_of_beq_true a b h.1, h.2]
    | _ => simp [beq] at h

/-- Lists of types that compare equal are the same list. -/
theorem eq_of_beqs_true : (ps qs : List ObjcType) → beqs ps qs = true → ps = qs
  | [], qs, h => by cases qs <;> simp_all [beqs]
  | p :: ps, qs, h => by
    cases qs with
    | nil => simp [beqs] at h
    | cons q qs => simp only [beqs, Bool.and_eq_true] at h
                   rw [eq_of_beq_true p q h.1, eq_of_beqs_true ps qs h.2]

end

instance : DecidableEq ObjcType := fun a b =>
  if h : beq a b = true then isTrue (eq_of_beq_true a b h)
  else isFalse fun e => h (e ▸ beq_self a)

/-! ### Base and modifiers -/

/-- The type below all specifiers and qualifiers. -/
def base : ObjcType → ObjcType
  | specified _ type | qualified type _ => type.base
  | type => type

/-- The specifiers and qualifiers around a type, from the outside in. -/
def modifiers : ObjcType → List String
  | specified words type | qualified type words => words ++ type.modifiers
  | _ => []

/-- Whether this is `void` below its modifiers. -/
def isVoid (type : ObjcType) : Bool :=
  match type.base with
  | void => true
  | _ => false

/-- Whether values of the type are references, which may be missing. -/
def isPointerLike (type : ObjcType) : Bool :=
  match type.base with
  | pointer _ | id _ | block _ _ _ | functionPointer _ _ _ => true
  | plain name => name == "instancetype" || name == "id"
  | _ => false

/-- Whether values of the type can be called. -/
def isCallable (type : ObjcType) : Bool :=
  match type.base with
  | block _ _ _ | functionPointer _ _ _ => true
  | _ => false

/-! ### Text -/

mutual

/-- A type as it is written in Objective-C. -/
def text : ObjcType → String
  | void => "void"
  | plain name => name
  | id [] => "id"
  | id protocols => "id<" ++ String.intercalate ", " protocols ++ ">"
  | generic name parameters => name ++ "<" ++ String.intercalate ", " (texts parameters) ++ ">"
  | pointer pointee => text pointee ++ "*"
  | specified specifiers type => String.intercalate " " specifiers ++ " " ++ text type
  | qualified type qualifiers => text type ++ " " ++ String.intercalate " " qualifiers
  | block name result parameters =>
    text result ++ " (^" ++ name.getD "" ++ ")(" ++
      String.intercalate ", " (texts parameters) ++ ")"
  | functionPointer name result parameters =>
    text result ++ " (*" ++ name.getD "" ++ ")(" ++
      String.intercalate ", " (texts parameters) ++ ")"
  | fixedArray element length => text element ++ "[" ++ Text.decimal length.toNat ++ "]"

/-- The texts of several types. -/
def texts : List ObjcType → List String
  | [] => []
  | t :: ts => text t :: texts ts

end

end ObjcType

end ObjcSwift
