import ObjcSwift.Typing.Mapping

/-!
# Implicitly unwrapped types in nonnull regions

Where pointers are nonnull by default, a type that says nothing about missing values should have
no `!` in its Swift type, at any depth. Closures and arrays carry the region on to what they are
made of, and the elements of a collection are nonnull wherever they stand.

One step forgets it: a closure type or an array that a pointer points to is mapped as if it stood
outside every region. These are the **pointed parts** of a type. `hasImplicit_toSwift_nonnull`
says that they are the only source of `!`: the Swift type of an unannotated type has one exactly
if the Swift type that one of its pointed parts has outside a region has one.
-/

namespace ObjcSwift

namespace SwiftType

mutual

/-- Whether an implicitly unwrapped type stands in a type, at any depth. -/
def hasImplicit : SwiftType → Bool
  | named _ => false
  | generic _ ts | composition ts | tuple ts | nested ts => hasImplicitIn ts
  | block result ts => hasImplicit result || hasImplicitIn ts
  | optional t | metatype t => hasImplicit t
  | implicitlyUnwrapped _ => true

/-- Whether an implicitly unwrapped type stands in one of several types. -/
def hasImplicitIn : List SwiftType → Bool
  | [] => false
  | t :: ts => hasImplicit t || hasImplicitIn ts

end

theorem hasImplicitIn_eq_any (ts : List SwiftType) : hasImplicitIn ts = ts.any hasImplicit := by
  induction ts with
  | nil => rfl
  | cons t ts ih => rw [hasImplicitIn, ih, List.any_cons]

theorem hasImplicitIn_replicate {n : Nat} (hn : n ≠ 0) (t : SwiftType) :
    hasImplicitIn (List.replicate n t) = t.hasImplicit := by
  rw [hasImplicitIn_eq_any, Bool.eq_iff_iff, List.any_eq_true]
  simp [List.mem_replicate, hn]

theorem hasImplicitIn_map_named (names : List String) :
    hasImplicitIn (names.map named) = false := by
  induction names with
  | nil => rfl
  | cons _ _ ih => simpa [hasImplicitIn, hasImplicit] using ih

end SwiftType

namespace ObjcType

open SwiftType (hasImplicit hasImplicitIn)

/-! ### Words and pointed parts -/

mutual

/-- The specifiers and qualifiers in a type, at any depth. -/
def words : ObjcType → List String
  | void | plain _ | id _ => []
  | generic _ ts => wordsIn ts
  | pointer t | fixedArray t _ => words t
  | specified ws t | qualified t ws => ws ++ words t
  | block _ result ts | functionPointer _ result ts => words result ++ wordsIn ts

/-- The specifiers and qualifiers in several types. -/
def wordsIn : List ObjcType → List String
  | [] => []
  | t :: ts => words t ++ wordsIn ts

end

/-- No word, at any depth, says that a value may be missing or may not. -/
def Unannotated (t : ObjcType) : Prop :=
  ∀ w ∈ t.words, Nullability.ofKeyword? w = none ∧ w ≠ "__weak"

instance (t : ObjcType) : Decidable t.Unannotated :=
  inferInstanceAs (Decidable (∀ w ∈ t.words, _))

/-- Whether this is an array below its modifiers. -/
def isFixedArray (t : ObjcType) : Bool :=
  match t.base with
  | fixedArray _ _ => true
  | _ => false

mutual

/-- The closure types and arrays that pointers in a type point to, outermost ones only, where the
Swift type has a place for them: not in an array of length zero, and among arguments only as the
elements of a collection. -/
def pointedParts : ObjcType → List ObjcType
  | void | plain _ | id _ => []
  | generic name [value] =>
    if name == "NSArray" || name == "NSSet" then pointedParts value else []
  | generic name [key, value] =>
    if name == "NSDictionary" then pointedParts key ++ pointedParts value else []
  | generic _ _ => []
  | pointer t => if t.isCallable || t.isFixedArray then [t] else pointedParts t
  | specified _ t | qualified t _ => pointedParts t
  | block _ result ts | functionPointer _ result ts => pointedParts result ++ pointedPartsIn ts
  | fixedArray t length => if length = 0 then [] else pointedParts t

/-- The pointed parts of several types. -/
def pointedPartsIn : List ObjcType → List ObjcType
  | [] => []
  | t :: ts => pointedParts t ++ pointedPartsIn ts

end

/-! ### Reading below modifiers -/

variable {t : ObjcType}

theorem words_eq_modifiers_append (t : ObjcType) : t.words = t.modifiers ++ t.base.words := by
  induction t using ObjcType.base.induct with
  | case1 ws t ih | case2 t ws ih => simp only [words, modifiers, base, ih, List.append_assoc]
  | case3 t h₁ h₂ =>
    cases t with
    | specified ws t => exact absurd rfl (h₁ ws t)
    | qualified t ws => exact absurd rfl (h₂ t ws)
    | _ => rfl

theorem core_base (t : ObjcType) (nonnull : Bool) : t.core nonnull = t.base.core nonnull := by
  induction t using ObjcType.base.induct with
  | case1 ws t ih | case2 t ws ih => simpa only [core, base] using ih
  | case3 t h₁ h₂ => rw [base] <;> assumption

theorem pointedParts_base (t : ObjcType) : t.pointedParts = t.base.pointedParts := by
  induction t using ObjcType.base.induct with
  | case1 ws t ih | case2 t ws ih => simpa only [pointedParts, base] using ih
  | case3 t h₁ h₂ => rw [base] <;> assumption

theorem base_ne_modified (t : ObjcType) :
    (∀ ws u, t.base ≠ specified ws u) ∧ ∀ u ws, t.base ≠ qualified u ws := by
  induction t using ObjcType.base.induct with
  | case1 ws t ih | case2 t ws ih => simpa only [base] using ih
  | case3 t h₁ h₂ => rw [base] <;> first | assumption | exact ⟨h₁, h₂⟩

/-- Elements of a collection do not depend on where the collection stands. -/
theorem core_generic (name : String) (ts : List ObjcType) (a b : Bool) :
    (generic name ts).core a = (generic name ts).core b := by
  match ts with
  | [] | [_] | [_, _] | _ :: _ :: _ :: _ => simp only [core]

theorem base_of_isVoid (h : t.isVoid = true) : t.base = void := by
  unfold isVoid at h
  split at h
  · assumption
  · cases h

/-! ### Unannotated types -/

namespace Unannotated

theorem base (h : t.Unannotated) : t.base.Unannotated := fun w hw =>
  h w (by rw [words_eq_modifiers_append]; exact List.mem_append_right _ hw)

theorem nullabilityAt (h : t.Unannotated) (place : TypePlace) :
    t.nullabilityAt place = place.nullability := by
  have hnone : t.modifiers.reverse.findSome? Nullability.ofKeyword? = none := by
    refine List.findSome?_eq_none_iff.mpr fun w hw => (h w ?_).1
    rw [words_eq_modifiers_append]
    exact List.mem_append_left _ (List.mem_reverse.mp hw)
  rw [ObjcType.nullabilityAt, hnone, Option.none_or]

theorem isWeakAt (h : t.Unannotated) (place : TypePlace) : t.isWeakAt place = place.isWeak := by
  have hweak : t.modifiers.contains "__weak" = false := by
    refine Bool.eq_false_iff.mpr fun hw => (h "__weak" ?_).2 rfl
    rw [words_eq_modifiers_append]
    exact List.mem_append_left _ (List.contains_iff_mem.mp hw)
  rw [ObjcType.isWeakAt, hweak, Bool.or_false]

/-- In a region an unannotated type gets no layer of its own. -/
theorem placed_region (h : t.Unannotated) (f : Bool → SwiftType) :
    placed { nonnull := true } t f = f true := by
  simp [placed, h.nullabilityAt, h.isWeakAt]

/-- Neither does the element of a collection. -/
theorem placed_element (h : t.Unannotated) (f : Bool → SwiftType) :
    placed { nullability := some .nonnull } t f = f true := by
  simp [placed, h.nullabilityAt, h.isWeakAt]

/-- A pointer below a pointer gets the layer of a value that may be missing. -/
theorem placed_pointee (h : t.Unannotated) (ht : t.isPointerLike = true) (f : Bool → SwiftType) :
    placed { nullability := some .nullable } t f = .optional (f false) := by
  simp [placed, h.nullabilityAt, h.isWeakAt, ht, show (Nullability.nullable == .nonnull) = false by
    rfl]

/-- A closure type or an array gets no layer outside regions either. -/
theorem toSwift_part (h : t.Unannotated) (ht : t.isCallable = true ∨ t.isFixedArray = true) :
    t.toSwift {} = t.core false := by
  rcases ht with ht | ht
  · simp [toSwift, placed, h.nullabilityAt, h.isWeakAt, ht]
  · have hp : t.isPointerLike = false := by
      revert ht
      unfold isFixedArray isPointerLike
      cases t.base <;> simp
    simp [toSwift, placed, h.nullabilityAt, hp]

end Unannotated

/-! ### Where the `!` comes from -/

@[simp] theorem hasImplicit_namedType (name : String) : (namedType name).hasImplicit = false := by
  unfold namedType
  split
  · rfl
  · split <;> rfl

@[simp] theorem hasImplicit_objectType (names : List String) :
    (objectType names).hasImplicit = false := by
  unfold objectType
  split
  · rfl
  · rfl
  · simp [hasImplicit, hasImplicitIn, SwiftType.hasImplicitIn_map_named]

@[simp] theorem hasImplicit_classWithProtocols (name : String) (ts : List ObjcType) :
    (classWithProtocols name ts).hasImplicit = false := by
  unfold classWithProtocols
  split
  · simp
  · simp [hasImplicit, hasImplicitIn, SwiftType.hasImplicitIn_map_named]

/-- Whether one of several types has a `!` in its Swift type outside regions. -/
def anyImplicit (ts : List ObjcType) : Bool :=
  ts.any fun t => (t.toSwift {}).hasImplicit

@[simp] theorem anyImplicit_nil : anyImplicit [] = false := rfl

@[simp] theorem anyImplicit_append (ts us : List ObjcType) :
    anyImplicit (ts ++ us) = (anyImplicit ts || anyImplicit us) := List.any_append

/-- A pointer to a closure type or an array is mapped outside the region. -/
theorem hasImplicit_pointer_of_part (h : t.Unannotated)
    (ht : t.isCallable = true ∨ t.isFixedArray = true)
    (hcore : (pointer t).core true = t.core false) :
    ((pointer t).core true).hasImplicit = anyImplicit (pointer t).pointedParts := by
  rw [hcore, pointedParts, if_pos (by simpa using ht)]
  simp [anyImplicit, h.toSwift_part ht]

/-- A pointer to anything else has the pointed parts of what it points to. -/
theorem hasImplicit_pointer_of_other (hc : t.isCallable = false) (ha : t.isFixedArray = false)
    (ih : (t.core true).hasImplicit = anyImplicit t.pointedParts)
    (hsame : ((pointer t).core true).hasImplicit = (t.core true).hasImplicit) :
    ((pointer t).core true).hasImplicit = anyImplicit (pointer t).pointedParts := by
  rw [hsame, ih, pointedParts, if_neg (by simp [hc, ha])]

/-- A pointer to a pointer adds no `!` to that of the pointer. -/
theorem hasImplicit_pointer_of_isPointerLike (h : t.Unannotated) (ht : t.isPointerLike = true)
    (hsame : t.core false = t.core true)
    (hcore : (pointer t).core true = .generic "UnsafeMutablePointer"
      [placed { nullability := some .nullable } t t.core]) :
    ((pointer t).core true).hasImplicit = (t.core true).hasImplicit := by
  rw [hcore, h.placed_pointee ht, hsame]
  simp [hasImplicit, hasImplicitIn]

/-- **A pointer forgets the region** for a closure type or an array that it points to, and for
nothing else. -/
theorem hasImplicit_core_pointer (h : t.Unannotated)
    (ih : (t.core true).hasImplicit = anyImplicit t.pointedParts) :
    ((pointer t).core true).hasImplicit = anyImplicit (pointer t).pointedParts := by
  have hcore := t.core_base
  have other (hc : t.isCallable = false) (ha : t.isFixedArray = false) :=
    hasImplicit_pointer_of_other hc ha ih
  -- Specifiers and qualifiers do not matter, so the cases are those of the base.
  cases hb : t.base with
  | void =>
    refine other (by simp [isCallable, hb]) (by simp [isFixedArray, hb]) ?_
    simp [hcore, core, hb, hasImplicit, SwiftType.void, hasImplicitIn]
  | plain name =>
    refine other (by simp [isCallable, hb]) (by simp [isFixedArray, hb]) ?_
    simp only [hcore, core, hb, hasImplicit_namedType]
    split
    · simp [hasImplicit, hasImplicitIn]
    · split <;> simp [hasImplicit]
  | pointer u =>
    refine other (by simp [isCallable, hb]) (by simp [isFixedArray, hb])
      (hasImplicit_pointer_of_isPointerLike h ?_ ?_ ?_)
    · simp [isPointerLike, hb]
    · simp [hcore, hb, core]
    · simp [core, hb]
  | id names =>
    refine other (by simp [isCallable, hb]) (by simp [isFixedArray, hb])
      (hasImplicit_pointer_of_isPointerLike h ?_ ?_ ?_)
    · simp [isPointerLike, hb]
    · simp [hcore, hb, core]
    · simp [core, hb]
  | generic name ts =>
    refine other (by simp [isCallable, hb]) (by simp [isFixedArray, hb]) ?_
    rw [show (pointer t).core true = t.core false by simp [core, hb]]
    rw [hcore true, hcore false, hb, core_generic name ts false true]
  | block name result ts =>
    exact hasImplicit_pointer_of_part h (.inl (by simp [isCallable, hb])) (by simp [core, hb])
  | functionPointer name result ts =>
    exact hasImplicit_pointer_of_part h (.inl (by simp [isCallable, hb])) (by simp [core, hb])
  | fixedArray u length =>
    exact hasImplicit_pointer_of_part h (.inr (by simp [isFixedArray, hb])) (by simp [core, hb])
  | specified ws u => exact absurd hb (t.base_ne_modified.1 ws u)
  | qualified u ws => exact absurd hb (t.base_ne_modified.2 u ws)

mutual

/-- In a region, the core of an unannotated type has a `!` exactly if one of its pointed parts
has one outside regions. -/
theorem hasImplicit_core : ∀ t : ObjcType, t.Unannotated →
    (t.core true).hasImplicit = anyImplicit t.pointedParts
  | void, _ => rfl
  | plain name, _ => by simp [core, pointedParts]
  | id names, _ => by simp [core, pointedParts]
  | generic name [], _ => by simp [core, pointedParts]
  | generic name [value], h => by
    have hv : value.Unannotated := fun w hw => h w (by simpa [words, wordsIn] using hw)
    have ih := hasImplicit_core value hv
    simp only [core, pointedParts, hv.placed_element]
    by_cases harray : name = "NSArray"
    · simpa [harray, SwiftType.array, hasImplicit, hasImplicitIn] using ih
    by_cases hset : name = "NSSet"
    · simpa [hset, hasImplicit, hasImplicitIn] using ih
    simp only [harray, hset, beq_iff_eq, if_false]
    split <;> simp [hasImplicit, harray, hset]
  | generic name [key, value], h => by
    have hk : key.Unannotated := fun w hw => h w (by simp [words, wordsIn, hw])
    have hv : value.Unannotated := fun w hw => h w (by simp [words, wordsIn, hw])
    simp only [core, pointedParts, hk.placed_element, hv.placed_element]
    split
    · simp [SwiftType.dictionary, hasImplicit, hasImplicitIn, hasImplicit_core key hk,
        hasImplicit_core value hv]
    · split <;> simp [hasImplicit]
  | generic name (_ :: _ :: _ :: _), _ => by
    simp only [core, pointedParts]
    split <;> simp [hasImplicit]
  | pointer t, h =>
    have ht : t.Unannotated := fun w hw => h w (by simpa [words] using hw)
    hasImplicit_core_pointer ht (hasImplicit_core t ht)
  | specified ws t, h => by
    have ht : t.Unannotated := fun w hw => h w (by simp [words, hw])
    simpa only [core, pointedParts] using hasImplicit_core t ht
  | qualified t ws, h => by
    have ht : t.Unannotated := fun w hw => h w (by simp [words, hw])
    simpa only [core, pointedParts] using hasImplicit_core t ht
  | block _ result ts, h => by
    have hr : result.Unannotated := fun w hw => h w (by simp [words, hw])
    have hts := hasImplicitIn_coreParameters ts fun w hw => h w (by simp [words, hw])
    simp only [core, pointedParts, hasImplicit, hr.placed_region, anyImplicit_append]
    rw [hasImplicit_core result hr, hts]
  | functionPointer _ result ts, h => by
    have hr : result.Unannotated := fun w hw => h w (by simp [words, hw])
    have hts := hasImplicitIn_coreParameters ts fun w hw => h w (by simp [words, hw])
    simp only [core, pointedParts, hasImplicit, hr.placed_region, anyImplicit_append]
    rw [hasImplicit_core result hr, hts]
  | fixedArray t length, h => by
    have ht : t.Unannotated := fun w hw => h w (by simpa [words] using hw)
    have ih := hasImplicit_core t ht
    simp only [core, pointedParts, ht.placed_region]
    split
    · rfl
    · split
      · exact ih
      · rename_i hzero _
        have hlength : length.toNat ≠ 0 := fun e => hzero (UInt64.toNat_inj.mp (by simpa using e))
        rw [hasImplicit, SwiftType.hasImplicitIn_replicate hlength, ih]

theorem hasImplicitIn_coreParameters : ∀ ts : List ObjcType,
    (∀ w ∈ wordsIn ts, Nullability.ofKeyword? w = none ∧ w ≠ "__weak") →
    hasImplicitIn (coreParameters ts true) = anyImplicit (pointedPartsIn ts)
  | [], _ => rfl
  | t :: ts, h => by
    have ht : t.Unannotated := fun w hw => h w (by simp [wordsIn, hw])
    have ih := hasImplicitIn_coreParameters ts fun w hw => h w (by simp [wordsIn, hw])
    simp only [coreParameters, pointedPartsIn, anyImplicit_append, ht.placed_region]
    split
    · -- What is spelled `void` is no parameter, and no part of it is pointed to.
      rename_i hvoid
      rw [ih, pointedParts_base, base_of_isVoid hvoid]
      rfl
    · rw [hasImplicitIn, hasImplicit_core t ht, ih]

end

/-! ### Types in regions -/

/-- **The mapping forgets a nonnull region below pointers to closures and arrays, and only there**:
in a region, the Swift type of an unannotated type has a `!` exactly if one of its pointed parts
has one outside regions. So a type in which no pointer points to a closure type or an array has
none. -/
theorem hasImplicit_toSwift_nonnull (t : ObjcType) (h : t.Unannotated) :
    (t.toSwift { nonnull := true }).hasImplicit = true ↔
      ∃ part ∈ t.pointedParts, (part.toSwift {}).hasImplicit = true := by
  rw [toSwift, h.placed_region, hasImplicit_core t h, anyImplicit, List.any_eq_true]

/-- The blocks in a dictionary, and the strings in an array that a block takes, are nonnull. -/
theorem hasImplicit_handlers :
    let strings := generic "NSArray" [pointer (plain "NSString")]
    let handlers := pointer (generic "NSDictionary"
      [pointer (plain "NSString"), block none void [pointer strings, id []]])
    handlers.Unannotated ∧ handlers.pointedParts = [] ∧
      ¬ (handlers.toSwift { nonnull := true }).hasImplicit = true := by
  refine ⟨by decide, by decide, fun h => ?_⟩
  obtain ⟨part, hpart, -⟩ := (hasImplicit_toSwift_nonnull _ (by decide)).mp h
  revert hpart
  exact List.not_mem_nil

/-- In a region, the parameter of a block is nonnull, but behind a pointer to the same block it is
implicitly unwrapped. -/
theorem region_is_forgotten :
    let handler := block none void [pointer (plain "NSString")]
    (pointer handler).Unannotated ∧
      handler.toSwift { nonnull := true } = .block .void [.string] ∧
      (pointer handler).toSwift { nonnull := true } =
        .block .void [.implicitlyUnwrapped .string] ∧
      ((pointer handler).toSwift { nonnull := true }).hasImplicit = true := by
  decide +kernel

end ObjcType

end ObjcSwift
