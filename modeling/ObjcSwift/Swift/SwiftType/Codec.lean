import ObjcSwift.Json.Record
import ObjcSwift.Swift.SwiftType

/-!
# Types in JSON

A type is a tagged value; `SwiftType.ofJson?` reads what `SwiftType.toJson` writes.
-/

namespace ObjcSwift.SwiftType

mutual

/-- A type as JSON. -/
def toJson : SwiftType → Json
  | named name => .obj [("Named", .str name)]
  | generic name parameters =>
    .obj [("Generic", .obj [("name", .str name), ("parameters", .arr (toJsons parameters))])]
  | composition members => .obj [("ProtocolComposition", .arr (toJsons members))]
  | tuple members => .obj [("Tuple", .arr (toJsons members))]
  | block result parameters =>
    .obj [("Block",
      .obj [("return_type", toJson result), ("parameters", .arr (toJsons parameters))])]
  | optional inner => .obj [("Optional", toJson inner)]
  | implicitlyUnwrapped inner => .obj [("ImplicitlyUnwrappedOptional", toJson inner)]
  | metatype inner => .obj [("Metatype", toJson inner)]
  | nested parts => .obj [("Nested", .arr (toJsons parts))]

/-- Several types as JSON. -/
def toJsons : List SwiftType → List Json
  | [] => []
  | t :: ts => toJson t :: toJsons ts

end

/-- Several types as JSON are each as JSON. -/
@[simp]
theorem toJsons_eq_map (ts : List SwiftType) : toJsons ts = ts.map toJson := by
  induction ts with
  | nil => rfl
  | cons t ts ih => simp [toJsons, ih]

/-- Reads a type of bounded nesting from a given form. -/
def decode (form : Json.PayloadForm) : (fuel : Nat) → Json → Option SwiftType
  | 0, _ => none
  | fuel + 1, j => do
    let (tag, payload?) ← j.tagged
    let payload ← payload?
    match tag with
    | "Named" => payload.toString?.map named
    | "Generic" =>
      let members ← Json.payloadFields? form ["name", "parameters"] payload
      let name ← Json.field members "name" Json.toString?
      let parameters ← Json.field members "parameters" (Json.listOf (decode form fuel))
      some (generic name parameters)
    | "ProtocolComposition" => (Json.listOf (decode form fuel) payload).map composition
    | "Tuple" => (Json.listOf (decode form fuel) payload).map tuple
    | "Block" =>
      let members ← Json.payloadFields? form ["return_type", "parameters"] payload
      let result ← Json.field members "return_type" (decode form fuel)
      let parameters ← Json.field members "parameters" (Json.listOf (decode form fuel))
      some (block result parameters)
    | "Optional" => (decode form fuel payload).map optional
    | "ImplicitlyUnwrappedOptional" => (decode form fuel payload).map implicitlyUnwrapped
    | "Metatype" => (decode form fuel payload).map metatype
    | "Nested" => (Json.listOf (decode form fuel) payload).map nested
    | _ => none

/-- Reads a type from a given form. -/
def ofJsonIn? (form : Json.PayloadForm) (j : Json) : Option SwiftType :=
  decode form j.size j

/-- Reads a type. -/
def ofJson? (j : Json) : Option SwiftType :=
  ofJsonIn? .strict j

end ObjcSwift.SwiftType
