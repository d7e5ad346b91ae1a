import ObjcSwift.Objc.ObjcType.Codec
import ObjcSwift.Proofs.Json.Records
import ObjcSwift.Proofs.Syntax.TypeParts
import ObjcSwift.Swift.SwiftType.Codec
import Mathlib

/-!
# Types are read back as they were written

For the types of both languages, reading what was written gives the type back, in both forms of
payloads. The **parts** of a type are the types directly inside it; a type is read back if its parts
are, one level deeper, and its parts are written in less space than the type.
-/

namespace ObjcSwift

namespace SwiftType

attribute [local simp] parts toJson

theorem sum_size_parts_lt (t : SwiftType) :
    (t.parts.map fun p => p.toJson.size).sum < t.toJson.size := by
  cases t <;> simp [Function.comp_def] <;> omega

theorem decode_succ (form : Json.PayloadForm) (fuel : Nat) (t : SwiftType)
    (h : ∀ p ∈ t.parts, decode form fuel p.toJson = some p) :
    decode form (fuel + 1) t.toJson = some t := by
  cases t
  all_goals
    rw [toJson, decode, Json.tagged_obj]
    dsimp only [Option.bind_eq_bind, Option.bind_some]
    dsimp only [parts] at h
  case named name => simp
  case block result parameters =>
    have hparameters := Json.listOf_map fun p hp => h p (List.mem_cons_of_mem result hp)
    simp [h result List.mem_cons_self, hparameters]
  case optional inner | implicitlyUnwrapped inner | metatype inner =>
    simp [h inner List.mem_cons_self]
  case generic name types => simp [Json.listOf_map h]
  case composition types | tuple types | nested types => simp [Json.listOf_map h]

/-- **A type is read back as it was written.** -/
@[simp]
theorem ofJsonIn?_toJson (form : Json.PayloadForm) (t : SwiftType) :
    ofJsonIn? form t.toJson = some t :=
  Json.parts_induction sum_size_parts_lt (decode_succ form) _ t (Nat.le_refl _)

@[simp]
theorem ofJson?_toJson (t : SwiftType) : ofJson? t.toJson = some t :=
  t.ofJsonIn?_toJson .strict

@[simp]
theorem isHeld_toJson (t : SwiftType) : t.toJson.isHeld = true := by
  refine Json.parts_induction (P := fun _ t => t.toJson.isHeld = true) sum_size_parts_lt ?_ _ t
    (Nat.le_refl _)
  intro _ t h
  cases t <;> simp_all

@[simp]
theorem toJson_ne_null (t : SwiftType) : t.toJson ≠ .null := by
  cases t <;> simp

end SwiftType

namespace ObjcType

/-- The types directly inside a type. -/
def parts : ObjcType → List ObjcType
  | void | plain _ | id _ => []
  | generic _ types => types
  | pointer type | specified _ type | qualified type _ | fixedArray type _ => [type]
  | block _ result parameters | functionPointer _ result parameters => result :: parameters

attribute [local simp] parts toJson

theorem sum_size_parts_lt (t : ObjcType) :
    (t.parts.map fun p => p.toJson.size).sum < t.toJson.size := by
  cases t <;> simp [Function.comp_def] <;> omega

theorem decode_succ (form : Json.PayloadForm) (fuel : Nat) (t : ObjcType)
    (h : ∀ p ∈ t.parts, decode form fuel p.toJson = some p) :
    decode form (fuel + 1) t.toJson = some t := by
  cases t
  case void => simp [decode]
  all_goals
    rw [toJson, decode, if_neg (Json.bareTag_obj_ne (by decide) _ form), Json.tagged_obj]
    dsimp only [Option.bind_eq_bind, Option.bind_some]
    dsimp only [parts] at h
  case plain name => simp
  case id protocols => simp [strings?]
  case generic name types => simp [Json.listOf_map h]
  case pointer type | fixedArray type length => simp [h type List.mem_cons_self]
  case specified words type | qualified type words =>
    simp [h type List.mem_cons_self, strings?]
  case block name result parameters | functionPointer name result parameters =>
    have hparameters := Json.listOf_map fun p hp => h p (List.mem_cons_of_mem result hp)
    simp [h result List.mem_cons_self, hparameters]

/-- **A type is read back as it was written.** -/
@[simp]
theorem ofJsonIn?_toJson (form : Json.PayloadForm) (t : ObjcType) :
    ofJsonIn? form t.toJson = some t :=
  Json.parts_induction sum_size_parts_lt (decode_succ form) _ t (Nat.le_refl _)

@[simp]
theorem ofJson?_toJson (t : ObjcType) : ofJson? t.toJson = some t :=
  t.ofJsonIn?_toJson .strict

@[simp]
theorem isHeld_toJson (t : ObjcType) : t.toJson.isHeld = true := by
  refine Json.parts_induction (P := fun _ t => t.toJson.isHeld = true) sum_size_parts_lt ?_ _ t
    (Nat.le_refl _)
  intro _ t h
  cases t <;> simp_all

end ObjcType

end ObjcSwift
