import ObjcSwift.Pass.AccessorMerge
import ObjcSwift.Pass.Idiom
import ObjcSwift.Pass.Nullability
import ObjcSwift.Proofs.Graph.Resigning
import ObjcSwift.Proofs.Pass.Accessors

/-!
# Passes that look through optional layers

Two signatures are **close** when they differ in the optional layers of their types only, and when
both return nothing or neither does (`Signature.Close`). Taking nullability over from another
signature gives a close one, with one exception: a method whose result is nothing under optional
layers may come to return nothing (`Signature.close_takeNullability`).

Merging accessors compares types below their optional layers, and folding idioms does not look at
signatures at all. So both follow every resigning of a graph with close signatures.
-/

namespace ObjcSwift

/-! ### Close signatures -/

/-- The parameter without the optional layers of its type. -/
def Parameter.plain (p : Parameter) : Parameter :=
  { p with type := p.type.base }

/-- Two signatures differ in optional layers only, and both return nothing or neither does. -/
structure Signature.Close (s t : Signature) : Prop where
  /-- The names are the same. -/
  name_eq : s.name = t.name
  /-- Both are static or neither is. -/
  isStatic_eq : s.isStatic = t.isStatic
  /-- The parameters are the same below their optional layers. -/
  parameters_eq : s.parameters.map Parameter.plain = t.parameters.map Parameter.plain
  /-- The results are the same below their optional layers. -/
  base_result_eq : s.result.base = t.result.base
  /-- Both return nothing or neither does. -/
  isVoid_eq : s.result.isVoid = t.result.isVoid

/-- The result of a method is nothing, under one or more optional layers. -/
def Signature.HidesVoid (s : Signature) : Prop :=
  s.result.isOptional = true ∧ s.result.base.isVoid = true

instance (s : Signature) : Decidable s.HidesVoid :=
  inferInstanceAs (Decidable (_ ∧ _))

theorem Signature.Close.refl (s : Signature) : s.Close s :=
  ⟨rfl, rfl, rfl, rfl, rfl⟩

namespace SwiftType

/-- What returns nothing has no optional layers. -/
theorem base_of_isVoid {t : SwiftType} (h : t.isVoid = true) : t.base = t := by
  cases t <;> simp_all [isVoid, base]

theorem base_takeNullability (t other : SwiftType) : (t.takeNullability other).base = t.base := by
  unfold takeNullability
  split_ifs with h
  · simp only [Bool.and_eq_true, beq_iff_eq] at h
    exact h.2.symm
  · rfl

theorem isVoid_takeNullability {t : SwiftType} (h : ¬(t.isOptional = true ∧ t.base.isVoid = true))
    (other : SwiftType) : (t.takeNullability other).isVoid = t.isVoid := by
  have hbase := base_takeNullability t other
  unfold takeNullability at hbase ⊢
  split_ifs with htake
  · rw [if_pos htake] at hbase
    obtain ⟨inner, rfl⟩ : ∃ inner, t = .implicitlyUnwrapped inner := by
      cases t <;> simp_all [isImplicitlyUnwrapped]
    rw [Bool.eq_iff_iff]
    refine ⟨fun hvoid => absurd ⟨rfl, ?_⟩ h, fun hvoid => absurd hvoid (by simp [isVoid])⟩
    rw [← hbase, base_of_isVoid hvoid]
    exact hvoid
  · rfl

end SwiftType

theorem takeParameters_plain (ps qs : List Parameter) :
    (takeParameters ps qs).map Parameter.plain = ps.map Parameter.plain := by
  fun_induction takeParameters ps qs with
  | case1 p ps q qs ih =>
    simp only [List.map_cons, ih, Parameter.plain, SwiftType.base_takeNullability]
  | case2 => rfl

/-- **Taking nullability over gives a close signature**, unless the result hides that there is
none. -/
theorem Signature.close_takeNullability {s : Signature} (h : ¬s.HidesVoid) (other : Signature) :
    (s.takeNullability other).Close s where
  name_eq := rfl
  isStatic_eq := rfl
  parameters_eq := takeParameters_plain s.parameters other.parameters
  base_result_eq := SwiftType.base_takeNullability s.result other.result
  isVoid_eq := SwiftType.isVoid_takeNullability h other.result

namespace MethodDecl

variable {m : MethodDecl} {s : Signature}

theorem isGetter_of_close (h : s.Close m.signature) (name : String) :
    MethodDecl.isGetter { m with signature := s } name = m.isGetter name := by
  have hempty := congrArg List.isEmpty h.parameters_eq
  rw [List.isEmpty_map, List.isEmpty_map] at hempty
  rw [isGetter, isGetter, h.name_eq, hempty]

theorem isSetter_of_close (h : s.Close m.signature) (name : String) (type : SwiftType) :
    MethodDecl.isSetter { m with signature := s } name type = m.isSetter name type := by
  have hparameters := h.parameters_eq
  unfold isSetter
  dsimp only
  rw [h.name_eq, h.isVoid_eq]
  -- Only a single parameter counts, and it has the same label and the same type below its layers.
  rcases hs : s.parameters with _ | ⟨p, _ | ⟨p', ps⟩⟩ <;>
    rcases hm : m.signature.parameters with _ | ⟨q, _ | ⟨q', qs⟩⟩ <;>
    simp_all [Parameter.plain]

end MethodDecl

/-! ### Merging accessors -/

open ObjcSwift.Graph ObjcSwift.Graph.Edit

/-- Several lookups give corresponding answers if each of them does. -/
theorem mapM_map_answers {ε α β γ : Type} {f : α → Except ε β} {f' : α → Except ε γ} {φ : β → γ}
    (h : ∀ x, f' x = (f x).map φ) (xs : List α) : xs.mapM f' = (xs.mapM f).map (List.map φ) := by
  induction xs with
  | nil => rfl
  | cons x xs ih =>
    rw [List.mapM_cons, List.mapM_cons, h x, ih]
    cases f x with
    | error e => rfl
    | ok y => cases xs.mapM f <;> rfl

variable {u : DeclId → Signature → Signature}

namespace AccessorMerge

variable {type method property : DeclId} {inExtension : Bool} {methods used : List DeclId}

theorem follows_takeBody :
    Follows (resign u) (fun a => a) (takeBody type method) (takeBody type method) := by
  refine follows_removeChild.bind fun d => ?_
  cases d with
  | method m => exact follows_pure (m.code.getD {})
  | _ => exact follows_throw _

theorem follows_look_property :
    Follows (resign u) (fun a => a) (look (·.property property)) (look (·.property property)) :=
  follows_look_typed fun f d => by cases d <;> rfl

theorem follows_setMode {α : Type} (mode : PropertyMode) (answer : α) :
    Follows (resign u) (fun a => a) (setMode property mode answer) (setMode property mode answer) :=
  follows_look_property.bind fun _ => (follows_setDecl rfl).bind fun _ => follows_pure answer

section

variable (hu : ∀ id s, (u id s).Close s)
include hu

/-- A setter keeps the name of its parameter. -/
theorem follows_takeSetter :
    Follows (resign u) (fun a => a) (takeSetter type method) (takeSetter type method) := by
  refine follows_look_method.bind fun m => follows_takeBody.bind fun code => ?_
  have hname : (u method m.signature).parameters.head?.map (·.name) =
      m.signature.parameters.head?.map (·.name) := by
    have hhead := congrArg (fun ps => ps.head?.map Parameter.name)
      (hu method m.signature).parameters_eq
    rw [List.head?_map, List.head?_map, Option.map_map, Option.map_map] at hhead
    exact hhead
  dsimp only
  rw [hname]
  exact follows_pure _

/-- **The accessors of a property are the same methods after a resigning.** -/
theorem findAccessors_resign (g : Graph) (p : PropertyDecl) (methods : List DeclId) :
    findAccessors (g.resign u) p methods = findAccessors g p methods := by
  have hread : methods.mapM (fun id => return (id, ← (g.resign u).method id)) =
      (methods.mapM (fun id => return (id, ← g.method id)) : Except GraphError _).map
        (List.map fun x => (x.1, { x.2 with signature := u x.1 x.2.signature })) := by
    refine mapM_map_answers (fun id => ?_) methods
    rw [method_resign]
    cases g.method id <;> rfl
  unfold findAccessors
  rw [hread]
  cases methods.mapM fun id => (return (id, ← g.method id) : Except GraphError _) with
  | error x => rfl
  | ok read =>
    -- Signatures that are close make the same getters and setters.
    have hgetter : ∀ (x : DeclId × MethodDecl) (name : String),
        MethodDecl.isGetter { x.2 with signature := u x.1 x.2.signature } name =
          x.2.isGetter name :=
      fun x => MethodDecl.isGetter_of_close (hu x.1 x.2.signature)
    have hsetter : ∀ (x : DeclId × MethodDecl) (name : String) (type : SwiftType),
        MethodDecl.isSetter { x.2 with signature := u x.1 x.2.signature } name type =
          x.2.isSetter name type :=
      fun x => MethodDecl.isSetter_of_close (hu x.1 x.2.signature)
    have hstatic : ∀ x : DeclId × MethodDecl,
        (u x.1 x.2.signature).isStatic = x.2.signature.isStatic :=
      fun x => (hu x.1 x.2.signature).isStatic_eq
    refine congrArg Except.ok ?_
    simp only [List.filter_map, List.find?_map, Function.comp_def, hgetter, hsetter, hstatic,
      Option.map_map]
    split_ifs
    · rfl
    · simp only [Option.map_map, Function.comp_def]

theorem follows_takeAccessors {α : Type} (a : Accessors) (answer : α) :
    Follows (resign u) (fun a => a) (takeAccessors type property inExtension a answer)
      (takeAccessors type property inExtension a answer) := by
  refine follows_takeBody.bind fun getter => ?_
  cases a.setter with
  | none => exact follows_setMode _ answer
  | some id => exact (follows_takeSetter hu).map.bind fun setter => follows_setMode _ answer

theorem follows_mergeInto :
    Follows (resign u) (fun a => a) (mergeInto type inExtension methods used property)
      (mergeInto type inExtension methods used property) := by
  rw [mergeInto_eq]
  refine follows_look_property.bind fun p => ?_
  split_ifs
  · exact follows_pure (used, none)
  · refine (follows_look_same fun g => findAccessors_resign hu g p _).bind fun found => ?_
    cases found with
    | none => exact follows_pure (used, none)
    | some a => exact follows_takeAccessors hu a _

theorem follows_mergeEach (properties : List DeclId) : ∀ used : List DeclId,
    Follows (resign u) (fun a => a) (mergeEach type inExtension methods used properties)
      (mergeEach type inExtension methods used properties) := by
  induction properties with
  | nil => exact fun _ => follows_pure []
  | cons property rest ih =>
    intro used
    refine (follows_mergeInto hu).bind fun r => (ih r.1).bind fun changes => ?_
    exact follows_pure (r.2.toList ++ changes)

/-- **Merging accessors in a type follows a resigning with close signatures.** -/
theorem follows_mergeInType (type : DeclId) :
    Follows (resign u) (fun a => a) (mergeInType type) (mergeInType type) := by
  refine (follows_look_typed fun f d => by cases d <;> rfl).bind fun d => ?_
  split_ifs
  · exact follows_pure []
  · exact follows_mergeEach hu d.properties []

end

end AccessorMerge

/-! ### Folding idioms -/

namespace Idiom

theorem foldDecl_resign (c : Catalog) (f : Signature → Signature) (d : Decl) :
    foldDecl c (d.resign f) = ((foldDecl c d).1.resign f, (foldDecl c d).2) := by
  cases d with
  | method d =>
    obtain ⟨signature, code, header⟩ := d
    cases code <;> rfl
  | globalFunction d =>
    obtain ⟨signature, code, header⟩ := d
    cases code <;> rfl
  | globalVariable d =>
    obtain ⟨name, storage, initial, header⟩ := d
    cases initial <;> rfl
  | _ => rfl

/-- **Folding idioms in a declaration follows every resigning.** -/
theorem follows_foldIn (c : Catalog) (id : DeclId) :
    Follows (resign u) (fun a => a) (foldIn c id) (foldIn c id) := by
  refine follows_node.bind fun n => ?_
  rw [show (n.resign (u id)).decl = n.decl.resign (u id) from rfl, foldDecl_resign]
  exact (follows_setDecl rfl).bind fun _ => follows_pure _

end Idiom

end ObjcSwift
