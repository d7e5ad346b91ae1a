import ObjcSwift.Proofs.Syntax.TypeParts
import ObjcSwift.Typing.Mapping

/-!
# Mapped types can be written

A composition of fewer than two types and a tuple of one type cannot be written in Swift. The
mapping makes compositions from lists of protocols and tuples from arrays of any length, and keeps
clear of both, at every depth (`mapping_makes_representable_types`).
-/

namespace ObjcSwift

/-- A composition has two members or more, and a tuple none, or two or more. -/
def SwiftType.Representable : SwiftType → Prop
  | composition members => 2 ≤ members.length
  | tuple members => members = [] ∨ 2 ≤ members.length
  | _ => True

open SwiftType (Representable)

namespace ObjcType

theorem everywhere_named (names : List String) :
    ∀ t ∈ names.map SwiftType.named, t.Everywhere Representable := by
  simp [Representable]

theorem everywhere_namedType (name : String) : (namedType name).Everywhere Representable := by
  unfold namedType
  split
  · simp [Representable]
  · split <;> simp [Representable, SwiftType.anyObject]

theorem everywhere_objectType (names : List String) :
    (objectType names).Everywhere Representable := by
  unfold objectType
  split
  · simp [Representable, SwiftType.anyObject]
  · simp [Representable]
  · rename_i hnil hsingle
    -- What is left are two protocols or more, and all of them go into the composition.
    have hlength : 2 ≤ names.length := by
      match names with
      | [] => exact absurd rfl hnil
      | [name] => exact absurd rfl (hsingle name)
      | _ :: _ :: _ => simp
    simp [Representable, hlength]

theorem everywhere_classWithProtocols (name : String) (ts : List ObjcType) :
    (classWithProtocols name ts).Everywhere Representable := by
  unfold classWithProtocols
  split
  · exact everywhere_namedType name
  · rename_i hne
    -- The class itself is a member, beside one protocol at least.
    have hprotocols : 1 ≤ (ts.filterMap plainName?).length := List.length_pos_iff.mpr hne
    rw [SwiftType.everywhere_composition, List.forall_mem_cons]
    refine ⟨?_, everywhere_namedType name, everywhere_named _⟩
    simpa [Representable] using hprotocols

/-- The layer that a place asks for makes no composition and no tuple. -/
theorem everywhere_placed {f : Bool → SwiftType} (hf : ∀ b, (f b).Everywhere Representable)
    (place : TypePlace) (t : ObjcType) : (placed place t f).Everywhere Representable := by
  unfold placed
  simp only
  repeat' split
  all_goals simp [Representable, hf]

mutual

/-- Below its modifiers, a type is mapped to one that can be written. -/
theorem everywhere_core : ∀ (t : ObjcType) (nonnull : Bool),
    (t.core nonnull).Everywhere Representable
  | void, _ => by simp [core, SwiftType.void, Representable]
  | plain name, _ => everywhere_namedType name
  | id names, _ => everywhere_objectType names
  | generic name [], _ => everywhere_namedType name
  | generic name [value], _ => by
    have hvalue := everywhere_placed (everywhere_core value)
    have hclass := everywhere_classWithProtocols name [value]
    simp only [core]
    repeat' split
    all_goals simp [SwiftType.array, Representable, hvalue, hclass]
  | generic name [key, value], _ => by
    have hkey := everywhere_placed (everywhere_core key)
    have hvalue := everywhere_placed (everywhere_core value)
    have hclass := everywhere_classWithProtocols name [key, value]
    simp only [core]
    repeat' split
    all_goals simp [SwiftType.dictionary, Representable, hkey, hvalue, hclass]
  | generic name (t :: u :: v :: ts), _ => by
    have hclass := everywhere_classWithProtocols name (t :: u :: v :: ts)
    simp only [core]
    split
    · simp [Representable]
    · exact hclass
  | pointer t, _ => by
    have ht := everywhere_core t
    have hname := everywhere_namedType
    simp only [core]
    repeat' split
    all_goals simp [Representable, ht, hname, everywhere_placed ht]
  | specified _ t, nonnull | qualified t _, nonnull => by
    simpa only [core] using everywhere_core t nonnull
  | block _ result ts, nonnull | functionPointer _ result ts, nonnull => by
    have hresult := everywhere_placed (everywhere_core result)
    have hts := everywhere_coreParameters ts nonnull
    simp only [core, SwiftType.everywhere_block]
    exact ⟨trivial, hresult _ _, hts⟩
  | fixedArray t length, nonnull => by
    have ht := everywhere_placed (everywhere_core t)
    simp only [core]
    split
    · simp [SwiftType.void, Representable]
    · split
      · exact ht _ _
      · rename_i hzero hone
        -- An array becomes a tuple only if its length is neither zero nor one.
        have hlength : 2 ≤ length.toNat := by
          have h₀ : length.toNat ≠ 0 := fun h => hzero (UInt64.toNat_inj.mp (by simpa using h))
          have h₁ : length.toNat ≠ 1 := fun h => hone (UInt64.toNat_inj.mp (by simpa using h))
          omega
        simp [Representable, hlength, List.mem_replicate, ht]

theorem everywhere_coreParameters : ∀ (ts : List ObjcType) (nonnull : Bool),
    ∀ t ∈ coreParameters ts nonnull, t.Everywhere Representable
  | [], _ => by simp [coreParameters]
  | t :: ts, nonnull => by
    have ht := everywhere_placed (everywhere_core t)
    have hts := everywhere_coreParameters ts nonnull
    simp only [coreParameters]
    split
    · exact hts
    · exact List.forall_mem_cons.mpr ⟨ht _ _, hts⟩

end

/-- **The mapping makes only types that can be written**: in the Swift type of any type at any
place, each composition has two members or more, and no tuple has one member, at any depth. -/
theorem mapping_makes_representable_types (place : TypePlace) (t : ObjcType) :
    (t.toSwift place).Everywhere Representable :=
  everywhere_placed (everywhere_core t) place t

end ObjcType

end ObjcSwift
