import ObjcSwift.Lowering.Signature
import ObjcSwift.Typing.Rule
import Mathlib.Tactic.SplitIfs

/-!
# Layers over a base

A type is its optional layers over its base (`SwiftType.foldr_wrap_base`), and it can be taken apart
in this way and in no other (`SwiftType.layers_foldr_wrap`, `SwiftType.base_foldr_wrap`). So a type
that takes the layers of another keeps its base and has the layers of the other, whatever it had
before.

Where layers are taken over, this is all there is to it. The result of a method that returns
`instancetype` has the layers that it would have otherwise (`SignaturePlace.layers_resultType`), and
`??` gives the type of its right operand or none at all (`Operator.coalescedType_eq`).
-/

namespace ObjcSwift

namespace SwiftType

/-! ### Taking a type apart -/

/-- What is neither `?` nor `!` on the outside is not optional. -/
theorem isOptional_eq_false {t : SwiftType} (hopt : ∀ inner, t ≠ optional inner)
    (himp : ∀ inner, t ≠ implicitlyUnwrapped inner) : t.isOptional = false := by
  cases t <;> simp_all [isOptional]

theorem layers_eq_nil {t : SwiftType} (h : t.isOptional = false) : t.layers = [] := by
  cases t <;> simp_all [isOptional, layers]

theorem base_eq_self {t : SwiftType} (h : t.isOptional = false) : t.base = t := by
  cases t <;> simp_all [isOptional, base]

/-- A base has no layers. -/
theorem isOptional_base (t : SwiftType) : t.base.isOptional = false := by
  fun_induction base t with
  | case1 inner ih => exact ih
  | case2 inner ih => exact ih
  | case3 t hopt himp => exact isOptional_eq_false hopt himp

@[simp]
theorem layers_base (t : SwiftType) : t.base.layers = [] :=
  layers_eq_nil t.isOptional_base

@[simp]
theorem base_base (t : SwiftType) : t.base.base = t.base :=
  base_eq_self t.isOptional_base

/-- **A type is its layers over its base.** -/
theorem foldr_wrap_base (t : SwiftType) : t.layers.foldr wrap t.base = t := by
  fun_induction base t with
  | case1 inner ih => rw [layers, List.foldr_cons, ih, wrap]
  | case2 inner ih => rw [layers, List.foldr_cons, ih, wrap]
  | case3 t hopt himp => rw [layers_eq_nil (isOptional_eq_false hopt himp), List.foldr_nil]

/-! ### Putting a type together -/

@[simp]
theorem layers_wrap (l : OptionalLayer) (t : SwiftType) : (t.wrap l).layers = l :: t.layers := by
  cases l <;> rfl

@[simp]
theorem base_wrap (l : OptionalLayer) (t : SwiftType) : (t.wrap l).base = t.base := by
  cases l <;> rfl

/-- Layers that are put over a type stand over its own, in their order. -/
theorem layers_foldr_wrap (ls : List OptionalLayer) (t : SwiftType) :
    (ls.foldr wrap t).layers = ls ++ t.layers := by
  induction ls with
  | nil => rfl
  | cons l ls ih => rw [List.foldr_cons, layers_wrap, ih, List.cons_append]

/-- Layers that are put over a type leave its base. -/
theorem base_foldr_wrap (ls : List OptionalLayer) (t : SwiftType) :
    (ls.foldr wrap t).base = t.base := by
  induction ls with
  | nil => rfl
  | cons l ls ih => rw [List.foldr_cons, base_wrap, ih]

/-! ### Taking layers over -/

@[simp]
theorem layers_withLayersOf (t other : SwiftType) :
    (t.withLayersOf other).layers = other.layers := by
  rw [withLayersOf, layers_foldr_wrap, layers_base, List.append_nil]

@[simp]
theorem base_withLayersOf (t other : SwiftType) : (t.withLayersOf other).base = t.base := by
  rw [withLayersOf, base_foldr_wrap, base_base]

/-- Over a common base, the layers of a type make the type. -/
theorem withLayersOf_eq {t other : SwiftType} (h : t.base = other.base) :
    t.withLayersOf other = other := by
  rw [withLayersOf, h, foldr_wrap_base]

/-- **Layers overwrite layers.** A type that takes the layers of another has these layers, in their
order, over its own base. It takes its own layers back as it was, what it took before is forgotten,
and it is known by its layers and its base. -/
theorem layers_overwrite_layers (x y z : SwiftType) :
    (x.withLayersOf y).layers = y.layers ∧ (x.withLayersOf y).base = x.base ∧
      x.withLayersOf x = x ∧ (x.withLayersOf y).withLayersOf z = x.withLayersOf z ∧
      (x = y ↔ x.layers = y.layers ∧ x.base = y.base) := by
  refine ⟨layers_withLayersOf x y, base_withLayersOf x y, withLayersOf_eq rfl, ?_,
    fun h => h ▸ ⟨rfl, rfl⟩, fun ⟨hlayers, hbase⟩ => ?_⟩
  · rw [withLayersOf, base_withLayersOf, withLayersOf]
  · calc
      x = x.layers.foldr wrap x.base := x.foldr_wrap_base.symm
      _ = y.layers.foldr wrap y.base := by rw [hlayers, hbase]
      _ = y := y.foldr_wrap_base

example : (implicitlyUnwrapped string).withLayersOf (optional (implicitlyUnwrapped int)) =
    optional (implicitlyUnwrapped string) :=
  rfl

end SwiftType

/-! ### Where layers are taken over -/

/-- Between operands of one base, `??` gives the type of the right one. -/
theorem Operator.coalescedType_eq (lhs rhs : SwiftType) :
    Operator.coalescedType lhs rhs =
      if lhs.isUnknown || rhs.isUnknown || lhs.base != rhs.base then .unknown else rhs := by
  unfold coalescedType
  split_ifs with h
  · rfl
  · exact SwiftType.withLayersOf_eq (by simp_all)

/-- `instancetype` has the layers that any other name would have in its place. -/
theorem SignaturePlace.layers_resultType (place : SignaturePlace) (type : ObjcType) :
    (place.resultType type).layers = (place.swiftType type).layers := by
  unfold resultType
  cases place.owner with
  | none => rfl
  | some owner =>
    dsimp only
    split_ifs
    · exact SwiftType.layers_withLayersOf _ _
    · rfl

end ObjcSwift
