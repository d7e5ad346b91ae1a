import ObjcSwift.Json.Record
import Mathlib

/-!
# Reading records and tagged values back

What the readers of records, tagged values and plain values do on what the writers produce. A record
is written with each field once, so a field is found by passing over the members before it
(`Json.field_cons_of_ne`) and taking the one that has its name (`Json.field_cons_self`).

Readers of trees are bounded by the size of what they read; the size of a value is the sum of the
sizes of its parts, and one more (`Json.size_arr`, `Json.size_obj`).
-/

namespace ObjcSwift.Json

variable {α : Type}

/-! ### Fields -/

section Fields

variable {name other : String} {j : Json} {members : List (String × Json)}

theorem member?_cons_of_ne (h : other ≠ name) :
    member? name ((other, j) :: members) = member? name members := by
  rw [member?, member?, List.filter_cons_of_neg (by simpa using h)]

theorem member?_cons_self (h : ∀ m ∈ members, m.1 ≠ name) :
    member? name ((name, j) :: members) = some (some j) := by
  have hrest : members.filter (·.1 == name) = [] := by
    simpa [List.filter_eq_nil_iff] using h
  rw [member?, List.filter_cons_of_pos (by simp), hrest]

variable {decode : Json → Option α} {default : α}

@[simp]
theorem field_cons_of_ne (h : other ≠ name) :
    field ((other, j) :: members) name decode = field members name decode := by
  rw [field, field, member?_cons_of_ne h]

@[simp]
theorem field_cons_self (h : ∀ m ∈ members, m.1 ≠ name) :
    field ((name, j) :: members) name decode = decode j := by
  rw [field, member?_cons_self h]
  rfl

@[simp]
theorem field?_nil : field? [] name decode = some none := rfl

@[simp]
theorem field?_cons_of_ne (h : other ≠ name) :
    field? ((other, j) :: members) name decode = field? members name decode := by
  rw [field?, field?, member?_cons_of_ne h]

@[simp]
theorem field?_cons_self (h : ∀ m ∈ members, m.1 ≠ name) :
    field? ((name, j) :: members) name decode = nullable decode j := by
  rw [field?, member?_cons_self h]
  cases j <;> rfl

@[simp]
theorem fieldD_nil : fieldD [] name default decode = some default := rfl

@[simp]
theorem fieldD_cons_of_ne (h : other ≠ name) :
    fieldD ((other, j) :: members) name default decode = fieldD members name default decode := by
  rw [fieldD, fieldD, member?_cons_of_ne h]

@[simp]
theorem fieldD_cons_self (h : ∀ m ∈ members, m.1 ≠ name) :
    fieldD ((name, j) :: members) name default decode = decode j := by
  rw [fieldD, member?_cons_self h]
  rfl

@[simp]
theorem record?_obj (fields : List String) (required : Nat) :
    record? fields (obj members) required = some members := rfl

@[simp]
theorem payloadFields?_obj (form : PayloadForm) (fields : List String) (required : Nat) :
    payloadFields? form fields (obj members) required = some members := by
  cases form <;> rfl

@[simp]
theorem members?_obj : members? (obj members) = some members := rfl

end Fields

/-! ### Tags -/

@[simp]
theorem tagged_obj (name : String) (payload : Json) :
    tagged (obj [(name, payload)]) = some (name, some payload) := rfl

@[simp]
theorem bareTag_str (name : String) (form : PayloadForm) : bareTag (str name) form = some name :=
  rfl

/-- A tag with a payload is read as a bare tag, if at all, by its own name. -/
theorem bareTag_obj_ne {name tag : String} (h : name ≠ tag) (payload : Json) (form : PayloadForm) :
    bareTag (obj [(name, payload)]) form ≠ some tag := by
  rw [bareTag, tagged_obj]
  split <;> simp_all

/-- An enumeration is read by looking the case name up; names that occur once are read back. -/
theorem enumOf_caseName {cases : List α} {caseName : α → String} {a : α} (ha : a ∈ cases)
    (hinj : ∀ b ∈ cases, caseName b = caseName a → b = a) (form : PayloadForm) :
    enumOf (cases.map fun b => (caseName b, b)) (str (caseName a)) form = some a := by
  rw [enumOf, bareTag_str, Option.bind_eq_bind, Option.bind_some]
  induction cases with
  | nil => exact absurd ha List.not_mem_nil
  | cons b cases ih =>
    rw [List.map_cons, List.lookup_cons]
    by_cases hb : caseName b = caseName a
    · have := hinj b List.mem_cons_self hb
      simp [this]
    · have hne : a ≠ b := fun h => hb (h ▸ rfl)
      have hmem : a ∈ cases := (List.mem_cons.mp ha).resolve_left hne
      have := ih hmem fun c hc => hinj c (List.mem_cons_of_mem b hc)
      rw [this, show (caseName a == caseName b) = false by simpa using fun h => hb h.symm]

/-! ### Lists and values that may be absent -/

/-- A list is read back if each of its items is. -/
theorem listOf_map {encode : α → Json} {decode : Json → Option α} {items : List α}
    (h : ∀ a ∈ items, decode (encode a) = some a) :
    listOf decode (arr (items.map encode)) = some items := by
  rw [listOf, items?, Option.bind_eq_bind, Option.bind_some]
  induction items with
  | nil => rfl
  | cons a items ih =>
    rw [List.map_cons, List.mapM_cons, h a List.mem_cons_self,
      ih fun b hb => h b (List.mem_cons_of_mem a hb)]
    rfl

@[simp]
theorem listOf_strs (texts : List String) : listOf toString? (strs texts) = some texts :=
  listOf_map fun _ _ => rfl

@[simp]
theorem nullable_null (decode : Json → Option α) : nullable decode null = some none := rfl

theorem nullable_of_ne {j : Json} (h : j ≠ null) (decode : Json → Option α) :
    nullable decode j = (decode j).map some := by
  rw [nullable]
  exact h

/-- What may be absent is read back if what is there is, and is not written like nothing. -/
theorem nullable_option {encode : α → Json} {decode : Json → Option α} {value : Option α}
    (h : ∀ a, value = some a → encode a ≠ null ∧ decode (encode a) = some a) :
    nullable decode (option encode value) = some value := by
  cases value with
  | none => rfl
  | some a =>
    obtain ⟨hne, hdecode⟩ := h a rfl
    rw [option, nullable_of_ne hne, hdecode, Option.map_some]

@[simp]
theorem nullable_ofString? (text : Option String) :
    nullable toString? (ofString? text) = some text := by
  cases text <;> rfl

/-! ### Plain values -/

@[simp]
theorem toString?_str (s : String) : toString? (str s) = some s := rfl

@[simp]
theorem toBool?_bool (b : Bool) : toBool? (bool b) = some b := rfl

@[simp]
theorem toInt64?_int (value : Int64) : toInt64? (int value.toInt) = some value := by
  rw [toInt64?, if_pos ⟨value.minValue_le_toInt, value.toInt_le⟩, Int64.ofInt_toInt]

@[simp]
theorem toUInt64?_nat (value : UInt64) : toUInt64? (nat value.toNat) = some value := by
  rw [nat, toUInt64?, if_pos ⟨Int.natCast_nonneg _, value.toNat_lt⟩]
  simp

@[simp]
theorem toUInt32?_nat (value : UInt32) : toUInt32? (nat value.toNat) = some value := by
  rw [nat, toUInt32?, if_pos ⟨Int.natCast_nonneg _, value.toNat_lt⟩]
  simp

/-- A finite number is read back. -/
theorem toBinary64?_ofBinary64 {x : Binary64} (h : x.isFinite = true) :
    toBinary64? (ofBinary64 x) = some x := by
  rw [ofBinary64, if_pos h]
  rfl

/-! ### Sizes -/

theorem itemsSize_eq_sum (items : List Json) : itemsSize items = (items.map size).sum := by
  induction items with
  | nil => rfl
  | cons j items ih => simp [itemsSize, ih]

theorem membersSize_eq_sum (members : List (String × Json)) :
    membersSize members = (members.map fun m => m.2.size).sum := by
  induction members with
  | nil => rfl
  | cons m members ih => simp [membersSize, ih]

@[simp]
theorem size_arr (items : List Json) : (arr items).size = (items.map size).sum + 1 := by
  rw [size, itemsSize_eq_sum]

@[simp]
theorem size_obj (members : List (String × Json)) :
    (obj members).size = (members.map fun m => m.2.size).sum + 1 := by
  rw [size, membersSize_eq_sum]

@[simp]
theorem size_pos (j : Json) : 0 < j.size := by
  cases j <;> simp [size]

/-- Induction over what is written of a tree, for readers that go one level deeper with each unit of
fuel: if the parts of a value are written in less space than the value, fuel for all of that space
is enough. -/
theorem parts_induction {encode : α → Json} {parts : α → List α}
    (hsize : ∀ a, ((parts a).map fun p => (encode p).size).sum < (encode a).size)
    {P : Nat → α → Prop} (hstep : ∀ fuel a, (∀ p ∈ parts a, P fuel p) → P (fuel + 1) a) :
    ∀ (fuel : Nat) (a : α), (encode a).size ≤ fuel → P fuel a := by
  intro fuel
  induction fuel with
  | zero =>
    intro a h
    have hpos := (encode a).size_pos
    omega
  | succ fuel ih =>
    intro a h
    refine hstep fuel a fun p hp => ih p ?_
    have hp := List.le_sum_of_mem (List.mem_map_of_mem (f := fun p => (encode p).size) hp)
    have ha := hsize a
    omega

/-! ### Held values -/

theorem itemsHeld_eq_all (items : List Json) : itemsHeld items = items.all isHeld := by
  induction items with
  | nil => rfl
  | cons j items ih => simp [itemsHeld, ih]

theorem membersHeld_eq_all (members : List (String × Json)) :
    membersHeld members = members.all fun m => m.2.isHeld := by
  induction members with
  | nil => rfl
  | cons m members ih => simp [membersHeld, ih]

@[simp]
theorem isHeld_arr (items : List Json) : (arr items).isHeld = items.all isHeld := by
  rw [isHeld, itemsHeld_eq_all]

@[simp]
theorem isHeld_obj (members : List (String × Json)) :
    (obj members).isHeld = members.all fun m => m.2.isHeld := by
  rw [isHeld, membersHeld_eq_all]

@[simp]
theorem isHeld_null : null.isHeld = true := rfl

@[simp]
theorem isHeld_bool (b : Bool) : (bool b).isHeld = true := rfl

@[simp]
theorem isHeld_int (i : Int) : (int i).isHeld = true := rfl

@[simp]
theorem isHeld_nat (n : Nat) : (nat n).isHeld = true := rfl

@[simp]
theorem isHeld_ofBinary64 (x : Binary64) : (ofBinary64 x).isHeld = true := by
  rw [ofBinary64]
  split <;> rfl

@[simp]
theorem isHeld_str (s : String) : (str s).isHeld = true := rfl

@[simp]
theorem isHeld_strs (texts : List String) : (strs texts).isHeld = true := by
  simp [strs]

@[simp]
theorem isHeld_ofString? (text : Option String) : (ofString? text).isHeld = true := by
  cases text <;> rfl

@[simp]
theorem isHeld_option {encode : α → Json} (h : ∀ a, (encode a).isHeld = true) (value : Option α) :
    (option encode value).isHeld = true := by
  cases value with
  | none => rfl
  | some a => exact h a

@[simp]
theorem isHeld_list {encode : α → Json} (h : ∀ a, (encode a).isHeld = true) (items : List α) :
    (list encode items).isHeld = true := by
  simp [list, h]

end ObjcSwift.Json
