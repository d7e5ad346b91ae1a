import ObjcSwift.Json.Record
import ObjcSwift.Objc.ObjcType

/-!
# Objective-C types in JSON

A type is a tagged value; `ObjcType.ofJson?` reads what `ObjcType.toJson` writes.
-/

namespace ObjcSwift.ObjcType

mutual

/-- A type as JSON. -/
def toJson : ObjcType → Json
  | void => .str "Void"
  | plain name => .obj [("Struct", .str name)]
  | id protocols => .obj [("Id", .obj [("protocols", .strs protocols)])]
  | generic name parameters =>
    .obj [("Generic", .obj [("name", .str name), ("parameters", .arr (toJsons parameters))])]
  | pointer pointee => .obj [("Pointer", toJson pointee)]
  | specified specifiers type =>
    .obj [("Specified", .obj [("specifiers", .strs specifiers), ("ty", toJson type)])]
  | qualified type qualifiers =>
    .obj [("Qualified", .obj [("ty", toJson type), ("qualifiers", .strs qualifiers)])]
  | block name result parameters =>
    .obj [("BlockType", .obj [("name", .ofString? name), ("return_type", toJson result),
      ("parameters", .arr (toJsons parameters))])]
  | functionPointer name result parameters =>
    .obj [("FunctionPointer", .obj [("name", .ofString? name), ("return_type", toJson result),
      ("parameters", .arr (toJsons parameters))])]
  | fixedArray element length =>
    .obj [("FixedArray", .obj [("ty", toJson element), ("length", .nat length.toNat)])]

/-- Several types as JSON. -/
def toJsons : List ObjcType → List Json
  | [] => []
  | t :: ts => toJson t :: toJsons ts

end

/-- Several types as JSON are each as JSON. -/
@[simp]
theorem toJsons_eq_map (ts : List ObjcType) : toJsons ts = ts.map toJson := by
  induction ts with
  | nil => rfl
  | cons t ts ih => simp [toJsons, ih]

/-- Reads a list of strings. -/
def strings? (j : Json) : Option (List String) :=
  Json.listOf Json.toString? j

/-- Reads a type of bounded nesting from a given form. -/
def decode (form : Json.PayloadForm) : (fuel : Nat) → Json → Option ObjcType
  | 0, _ => none
  | fuel + 1, j => do
    if j.bareTag form = some "Void" then some void
    else
      let (tag, payload?) ← j.tagged
      let payload ← payload?
      match tag with
      | "Struct" => payload.toString?.map plain
      | "Id" =>
        let members ← Json.payloadFields? form ["protocols"] payload
        (Json.field members "protocols" strings?).map id
      | "Generic" =>
        let members ← Json.payloadFields? form ["name", "parameters"] payload
        let name ← Json.field members "name" Json.toString?
        let parameters ← Json.field members "parameters" (Json.listOf (decode form fuel))
        some (generic name parameters)
      | "Pointer" => (decode form fuel payload).map pointer
      | "Specified" =>
        let members ← Json.payloadFields? form ["specifiers", "ty"] payload
        let specifiers ← Json.field members "specifiers" strings?
        let type ← Json.field members "ty" (decode form fuel)
        some (specified specifiers type)
      | "Qualified" =>
        let members ← Json.payloadFields? form ["ty", "qualifiers"] payload
        let type ← Json.field members "ty" (decode form fuel)
        let qualifiers ← Json.field members "qualifiers" strings?
        some (qualified type qualifiers)
      | "BlockType" =>
        let members ← Json.payloadFields? form ["name", "return_type", "parameters"] payload
        let name ← Json.field? members "name" Json.toString?
        let result ← Json.field members "return_type" (decode form fuel)
        let parameters ← Json.field members "parameters" (Json.listOf (decode form fuel))
        some (block name result parameters)
      | "FunctionPointer" =>
        let members ← Json.payloadFields? form ["name", "return_type", "parameters"] payload
        let name ← Json.field? members "name" Json.toString?
        let result ← Json.field members "return_type" (decode form fuel)
        let parameters ← Json.field members "parameters" (Json.listOf (decode form fuel))
        some (functionPointer name result parameters)
      | "FixedArray" =>
        let members ← Json.payloadFields? form ["ty", "length"] payload
        let element ← Json.field members "ty" (decode form fuel)
        let length ← Json.field members "length" Json.toUInt64?
        some (fixedArray element length)
      | _ => none

/-- Reads a type from a given form. -/
def ofJsonIn? (form : Json.PayloadForm) (j : Json) : Option ObjcType :=
  decode form j.size j

/-- Reads a type. -/
def ofJson? (j : Json) : Option ObjcType :=
  ofJsonIn? .strict j

end ObjcSwift.ObjcType
