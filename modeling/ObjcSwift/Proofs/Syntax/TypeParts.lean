import ObjcSwift.Swift.SwiftType

/-!
# What holds everywhere in a type

The **parts** of a type are the types directly inside it. A property holds **everywhere** in a type
if the type has it and all that stands in it at any depth; it can be checked level by level
(`SwiftType.everywhere_iff`).
-/

namespace ObjcSwift.SwiftType

/-- The types directly inside a type. -/
def parts : SwiftType → List SwiftType
  | named _ => []
  | generic _ types | composition types | tuple types | nested types => types
  | block result parameters => result :: parameters
  | optional inner | implicitlyUnwrapped inner | metatype inner => [inner]

mutual

/-- The types in a type at any depth, itself first. -/
def allParts : SwiftType → List SwiftType
  | named name => [named name]
  | generic name ts => generic name ts :: allPartsIn ts
  | composition ts => composition ts :: allPartsIn ts
  | tuple ts => tuple ts :: allPartsIn ts
  | nested ts => nested ts :: allPartsIn ts
  | block result ts => block result ts :: (allParts result ++ allPartsIn ts)
  | optional t => optional t :: allParts t
  | implicitlyUnwrapped t => implicitlyUnwrapped t :: allParts t
  | metatype t => metatype t :: allParts t

/-- The types in several types at any depth. -/
def allPartsIn : List SwiftType → List SwiftType
  | [] => []
  | t :: ts => allParts t ++ allPartsIn ts

end

theorem allPartsIn_eq_flatMap (ts : List SwiftType) : allPartsIn ts = ts.flatMap allParts := by
  induction ts with
  | nil => rfl
  | cons t ts ih => rw [allPartsIn, ih, List.flatMap_cons]

theorem allParts_eq_cons (t : SwiftType) : t.allParts = t :: t.parts.flatMap allParts := by
  cases t <;> simp [allParts, parts, allPartsIn_eq_flatMap]

variable {P : SwiftType → Prop}

/-- The property holds of a type and of all that stands in it. -/
def Everywhere (P : SwiftType → Prop) (t : SwiftType) : Prop :=
  ∀ u ∈ t.allParts, P u

instance [DecidablePred P] (t : SwiftType) : Decidable (t.Everywhere P) :=
  inferInstanceAs (Decidable (∀ u ∈ t.allParts, P u))

/-- A property holds everywhere in a type if it holds of the type and everywhere in its parts. -/
theorem everywhere_iff {t : SwiftType} :
    t.Everywhere P ↔ P t ∧ ∀ u ∈ t.parts, u.Everywhere P := by
  simp only [Everywhere, t.allParts_eq_cons, List.forall_mem_cons, List.forall_mem_flatMap]

theorem Everywhere.self {t : SwiftType} (h : t.Everywhere P) : P t :=
  (everywhere_iff.mp h).1

section

variable {name : String} {ts : List SwiftType} {t : SwiftType}

@[simp] theorem everywhere_named : (named name).Everywhere P ↔ P (named name) := by
  rw [everywhere_iff]; simp [parts]

@[simp] theorem everywhere_generic :
    (generic name ts).Everywhere P ↔ P (generic name ts) ∧ ∀ t ∈ ts, t.Everywhere P :=
  everywhere_iff

@[simp] theorem everywhere_composition :
    (composition ts).Everywhere P ↔ P (composition ts) ∧ ∀ t ∈ ts, t.Everywhere P :=
  everywhere_iff

@[simp] theorem everywhere_tuple :
    (tuple ts).Everywhere P ↔ P (tuple ts) ∧ ∀ t ∈ ts, t.Everywhere P :=
  everywhere_iff

@[simp] theorem everywhere_nested :
    (nested ts).Everywhere P ↔ P (nested ts) ∧ ∀ t ∈ ts, t.Everywhere P :=
  everywhere_iff

@[simp] theorem everywhere_block :
    (block t ts).Everywhere P ↔ P (block t ts) ∧ t.Everywhere P ∧ ∀ t ∈ ts, t.Everywhere P := by
  rw [everywhere_iff, parts, List.forall_mem_cons]

@[simp] theorem everywhere_optional :
    (optional t).Everywhere P ↔ P (optional t) ∧ t.Everywhere P := by
  rw [everywhere_iff, parts, List.forall_mem_singleton]

@[simp] theorem everywhere_implicitlyUnwrapped :
    (implicitlyUnwrapped t).Everywhere P ↔ P (implicitlyUnwrapped t) ∧ t.Everywhere P := by
  rw [everywhere_iff, parts, List.forall_mem_singleton]

@[simp] theorem everywhere_metatype :
    (metatype t).Everywhere P ↔ P (metatype t) ∧ t.Everywhere P := by
  rw [everywhere_iff, parts, List.forall_mem_singleton]

end

end ObjcSwift.SwiftType
