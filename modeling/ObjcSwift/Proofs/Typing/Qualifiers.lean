import ObjcSwift.Proofs.Typing.Regions

/-!
# Words that say nothing

Of the words that may stand around a type, only few say something about missing values: those that
write a nullability, and `__weak`. The others, such as `const` or `static`, have no counterpart in
Swift.

The **stripped** form of a type keeps the telling words alone, at every depth, and no wrapper
without words. Below its modifiers a type is what it was (`base_stripped`), and around it the same
telling words stand in the same order (`modifiers_stripped`), so a place sees no difference
(`placed_stripped`). `mapping_reads_telling_words` says that the mapping sees none anywhere.
-/

namespace ObjcSwift.ObjcType

/-! ### Stripping -/

/-- Whether a word around a type says something about missing values. -/
def isTelling (word : String) : Bool :=
  (Nullability.ofKeyword? word).isSome || word == "__weak"

/-- A type after words, if there are any. -/
def specifiedBy : List String → ObjcType → ObjcType
  | [], t => t
  | w :: ws, t => specified (w :: ws) t

/-- A type before words, if there are any. -/
def qualifiedBy : ObjcType → List String → ObjcType
  | t, [] => t
  | t, w :: ws => qualified t (w :: ws)

mutual

/-- A type without the words, at any depth, that say nothing about missing values. -/
def stripped : ObjcType → ObjcType
  | void => void
  | plain name => plain name
  | id protocols => id protocols
  | generic name ts => generic name (strippedIn ts)
  | pointer t => pointer (stripped t)
  | specified ws t => specifiedBy (ws.filter isTelling) (stripped t)
  | qualified t ws => qualifiedBy (stripped t) (ws.filter isTelling)
  | block name result ts => block name (stripped result) (strippedIn ts)
  | functionPointer name result ts => functionPointer name (stripped result) (strippedIn ts)
  | fixedArray t length => fixedArray (stripped t) length

/-- Several types without the words that say nothing. -/
def strippedIn : List ObjcType → List ObjcType
  | [] => []
  | t :: ts => stripped t :: strippedIn ts

end

/-! ### Around a type -/

variable {ws : List String} {t : ObjcType}

@[simp] theorem base_specifiedBy : (specifiedBy ws t).base = t.base := by
  cases ws <;> rfl

@[simp] theorem base_qualifiedBy : (qualifiedBy t ws).base = t.base := by
  cases ws <;> rfl

@[simp] theorem modifiers_specifiedBy : (specifiedBy ws t).modifiers = ws ++ t.modifiers := by
  cases ws <;> rfl

@[simp] theorem modifiers_qualifiedBy : (qualifiedBy t ws).modifiers = ws ++ t.modifiers := by
  cases ws <;> rfl

@[simp] theorem words_specifiedBy : (specifiedBy ws t).words = ws ++ t.words := by
  cases ws <;> rfl

@[simp] theorem words_qualifiedBy : (qualifiedBy t ws).words = ws ++ t.words := by
  cases ws <;> rfl

theorem base_stripped (t : ObjcType) : t.stripped.base = t.base.stripped := by
  induction t using ObjcType.base.induct with
  | case1 ws t ih | case2 t ws ih => simpa [stripped, base] using ih
  | case3 t h₁ h₂ =>
    cases t with
    | specified ws t => exact absurd rfl (h₁ ws t)
    | qualified t ws => exact absurd rfl (h₂ t ws)
    | _ => rfl

theorem modifiers_stripped (t : ObjcType) :
    t.stripped.modifiers = t.modifiers.filter isTelling := by
  induction t using ObjcType.base.induct with
  | case1 ws t ih | case2 t ws ih => simp [stripped, modifiers, ih]
  | case3 t h₁ h₂ =>
    cases t with
    | specified ws t => exact absurd rfl (h₁ ws t)
    | qualified t ws => exact absurd rfl (h₂ t ws)
    | _ => rfl

/-- Stripping keeps the form of a type: what it is below its modifiers. -/
theorem form_stripped (t : ObjcType) :
    t.stripped.isVoid = t.isVoid ∧ t.stripped.isPointerLike = t.isPointerLike ∧
      t.stripped.isCallable = t.isCallable ∧ t.stripped.plainName? = t.plainName? := by
  simp only [isVoid, isPointerLike, isCallable, plainName?, base_stripped]
  cases hb : t.base with
  | specified ws u => exact absurd hb (t.base_ne_modified.1 ws u)
  | qualified u ws => exact absurd hb (t.base_ne_modified.2 u ws)
  | _ => exact ⟨rfl, rfl, rfl, rfl⟩

/-- A word that says nothing writes no nullability, so it is passed over. -/
theorem findSome?_filter_isTelling (ws : List String) :
    (ws.filter isTelling).findSome? Nullability.ofKeyword? =
      ws.findSome? Nullability.ofKeyword? := by
  induction ws with
  | nil => rfl
  | cons w ws ih =>
    cases hw : Nullability.ofKeyword? w with
    | some n => rw [List.filter_cons_of_pos (by simp [isTelling, hw])]; simp [hw]
    | none =>
      rw [List.findSome?_cons, hw, List.filter_cons]
      split <;> simp [hw, ih]

theorem nullabilityAt_stripped (place : TypePlace) (t : ObjcType) :
    t.stripped.nullabilityAt place = t.nullabilityAt place := by
  rw [nullabilityAt, modifiers_stripped, ← List.filter_reverse, findSome?_filter_isTelling,
    nullabilityAt]

theorem isWeakAt_stripped (place : TypePlace) (t : ObjcType) :
    t.stripped.isWeakAt place = t.isWeakAt place := by
  have hweak : isTelling "__weak" = true := by decide
  rw [isWeakAt, isWeakAt, modifiers_stripped, Bool.eq_iff_iff]
  simp [List.mem_filter, hweak]

/-- A place asks the same layer for a type and for its stripped form. -/
theorem placed_stripped (place : TypePlace) (t : ObjcType) (f : Bool → SwiftType) :
    placed place t.stripped f = placed place t f := by
  obtain ⟨-, hpointer, hcallable, -⟩ := form_stripped t
  simp only [placed, nullabilityAt_stripped, isWeakAt_stripped, hpointer, hcallable]

/-! ### At every depth -/

theorem filterMap_plainName?_strippedIn (ts : List ObjcType) :
    (strippedIn ts).filterMap plainName? = ts.filterMap plainName? := by
  induction ts with
  | nil => rfl
  | cons t ts ih => rw [strippedIn, List.filterMap_cons, (form_stripped t).2.2.2, ih]; rfl

theorem classWithProtocols_strippedIn (name : String) (ts : List ObjcType) :
    classWithProtocols name (strippedIn ts) = classWithProtocols name ts := by
  rw [classWithProtocols, filterMap_plainName?_strippedIn, classWithProtocols]

mutual

/-- Below its modifiers, a type is mapped like its stripped form. -/
theorem core_stripped : ∀ (t : ObjcType) (nonnull : Bool), t.stripped.core nonnull = t.core nonnull
  | void, _ | plain _, _ | id _, _ => rfl
  | generic name [], _ => rfl
  | generic name [value], _ => by
    have hclass := classWithProtocols_strippedIn name [value]
    simp only [strippedIn] at hclass
    simp only [stripped, strippedIn, core, placed_stripped, funext (core_stripped value), hclass]
  | generic name [key, value], _ => by
    have hclass := classWithProtocols_strippedIn name [key, value]
    simp only [strippedIn] at hclass
    simp only [stripped, strippedIn, core, placed_stripped, funext (core_stripped key),
      funext (core_stripped value), hclass]
  | generic name (t :: u :: v :: ts), _ => by
    have hclass := classWithProtocols_strippedIn name (t :: u :: v :: ts)
    simp only [strippedIn] at hclass
    simp only [stripped, strippedIn, core, hclass]
  | pointer t, nonnull => by
    -- What a pointer becomes hangs on the base of the pointee, and stripping keeps its form.
    have ht := core_stripped t
    simp only [stripped, core, base_stripped, placed_stripped, funext ht]
    cases hb : t.base with
    | specified ws u => exact absurd hb (t.base_ne_modified.1 ws u)
    | qualified u ws => exact absurd hb (t.base_ne_modified.2 u ws)
    | _ => simp only [stripped]
  | specified ws t, nonnull => by
    rw [stripped, core_base, base_specifiedBy, ← core_base, core_stripped t, core]
  | qualified t ws, nonnull => by
    rw [stripped, core_base, base_qualifiedBy, ← core_base, core_stripped t, core]
  | block name result ts, nonnull => by
    rw [stripped, core, core, placed_stripped, funext (core_stripped result),
      coreParameters_stripped ts]
  | functionPointer name result ts, nonnull => by
    rw [stripped, core, core, placed_stripped, funext (core_stripped result),
      coreParameters_stripped ts]
  | fixedArray t length, nonnull => by
    rw [stripped, core, core, placed_stripped, funext (core_stripped t)]

theorem coreParameters_stripped : ∀ (ts : List ObjcType) (nonnull : Bool),
    coreParameters (strippedIn ts) nonnull = coreParameters ts nonnull
  | [], _ => rfl
  | t :: ts, nonnull => by
    simp only [strippedIn, coreParameters, (form_stripped t).1, placed_stripped,
      funext (core_stripped t), coreParameters_stripped ts]

end

mutual

/-- Stripping keeps exactly the telling words. -/
theorem words_stripped : ∀ t : ObjcType, t.stripped.words = t.words.filter isTelling
  | void | plain _ | id _ => rfl
  | generic _ ts => by rw [stripped, words, wordsIn_stripped ts, words]
  | pointer t | fixedArray t _ => by rw [stripped, words, words_stripped t, words]
  | specified ws t => by
    rw [stripped, words_specifiedBy, words_stripped t, words, List.filter_append]
  | qualified t ws => by
    rw [stripped, words_qualifiedBy, words_stripped t, words, List.filter_append]
  | block _ result ts | functionPointer _ result ts => by
    rw [stripped, words, words_stripped result, wordsIn_stripped ts, words, List.filter_append]

theorem wordsIn_stripped : ∀ ts : List ObjcType,
    wordsIn (strippedIn ts) = (wordsIn ts).filter isTelling
  | [] => rfl
  | t :: ts => by
    rw [strippedIn, wordsIn, words_stripped t, wordsIn_stripped ts, wordsIn, List.filter_append]

end

/-- **Only telling words have an effect on the Swift type**: without all other words, at any depth,
a type is mapped as before, wherever it stands. -/
theorem mapping_reads_telling_words (t : ObjcType) :
    t.stripped.words = t.words.filter isTelling ∧
      ∀ place : TypePlace, t.stripped.toSwift place = t.toSwift place := by
  refine ⟨words_stripped t, fun place => ?_⟩
  rw [toSwift, placed_stripped, funext (core_stripped t), toSwift]

/-- In a block that takes a `const` string that may be missing, `const` and `static` go and
`_Nullable` stays. -/
example :
    let text := qualified (specified ["const"] (pointer (plain "NSString"))) ["const", "_Nullable"]
    (specified ["static"] (block none void [text])).stripped =
      block none void [qualified (pointer (plain "NSString")) ["_Nullable"]] := by
  decide +kernel

end ObjcSwift.ObjcType
