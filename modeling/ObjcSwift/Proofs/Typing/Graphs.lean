import ObjcSwift.Proofs.Pass.Steps
import ObjcSwift.Proofs.Typing.Coverage

/-!
# Fully typed graphs

A graph is **fully typed** if every expression in it has a type: in the bodies of methods,
functions, getters and setters, and in the initial values of global variables. Annotating makes
every graph fully typed (`Graph.fullyTyped_annotateAll`), as what it passes over carries no
expression.

What an edit has to do to keep a graph so is said by `Graph.Edit.KeepsTypes`, together with what it
promises of its answer: a declaration that was taken out of a fully typed graph is typed itself, and
may be put back in another place. Nothing is said of edits that fail.
-/

namespace ObjcSwift

/-! ### Declarations -/

/-- Every expression in a function body has a type. -/
def Code.Typed (code : Code) : Prop :=
  ∀ s ∈ code.body, s.Typed

/-- Every expression in the accessors of a property has a type. -/
def PropertyMode.Typed : PropertyMode → Prop
  | .field => True
  | .computed getter setter => getter.Typed ∧ ∀ s, setter = some s → s.code.Typed
  | .full getter setter => getter.Typed ∧ setter.code.Typed

namespace Decl

/-- Every expression of a declaration has a type. -/
def Typed (d : Decl) : Prop :=
  ∀ e ∈ d.expressions, e.resolved.isSome = true

theorem typed_method {d : MethodDecl} :
    (method d).Typed ↔ ∀ code, d.code = some code → code.Typed :=
  forall_mem_method_iff

theorem typed_globalFunction {d : FunctionDecl} :
    (globalFunction d).Typed ↔ ∀ code, d.code = some code → code.Typed :=
  forall_mem_globalFunction_iff

theorem typed_property {d : PropertyDecl} : (property d).Typed ↔ d.mode.Typed := by
  refine forall_mem_property_iff.trans ?_
  cases d.mode <;> rfl

theorem typed_globalVariable {d : VariableDecl} :
    (globalVariable d).Typed ↔ ∀ e, d.initial = some e → e.Typed :=
  forall_mem_globalVariable_iff

/-- What carries no code has no expression that could lack a type. -/
theorem typed_of_not_ownsCode {d : Decl} (h : d.ownsCode = false) : d.Typed := by
  cases d with
  | method d => exact typed_method.mpr (by simp_all [ownsCode])
  | globalFunction d => exact typed_globalFunction.mpr (by simp_all [ownsCode])
  | globalVariable d => exact typed_globalVariable.mpr (by simp_all [ownsCode])
  | property d =>
    rw [typed_property]
    cases hd : d.mode with
    | field => trivial
    | computed getter setter => simp [ownsCode, hd, PropertyMode.isField] at h
    | full getter setter => simp [ownsCode, hd, PropertyMode.isField] at h
  | _ => simp [Typed, expressions, bodies]

/-- Only declarations without code have lists. -/
theorem ownsCode_of_updateList? {list : ChildList} {f : List DeclId → List DeclId} {d d' : Decl}
    (h : d.updateList? list f = some d') : d'.ownsCode = false := by
  cases d <;> cases list <;> simp [updateList?] at h <;> subst h <;> rfl

theorem ownsCode_of_eraseChild? {id : DeclId} {d d' : Decl} (h : d.eraseChild? id = some d') :
    d'.ownsCode = false := by
  cases d with
  | file d =>
    simp only [eraseChild?] at h
    split_ifs at h <;> cases h <;> rfl
  | type d =>
    simp only [eraseChild?] at h
    split_ifs at h <;> cases h <;> rfl
  | _ => exact absurd h (by simp [eraseChild?])

theorem Typed.childless {d : Decl} (h : d.Typed) : d.childless.Typed := by
  cases d with
  | file d => exact typed_of_not_ownsCode rfl
  | type d => exact typed_of_not_ownsCode rfl
  | _ => exact h

end Decl

/-! ### Annotating -/

theorem Code.typed_annotate (c : Catalog) (context : BodyContext) (code : Code) :
    (code.annotate c context).Typed :=
  Body.typed_annotate c context code.body

namespace Graph

open Edit

variable {α β : Type} {g g' : Graph} {id : DeclId} {n : GraphNode} {ids : List DeclId}
  {c : Catalog}

/-- **An annotated declaration is typed**, whatever it was before. -/
theorem typed_annotateDecl (c : Catalog) (g : Graph) (id : DeclId) (d : Decl) :
    (annotateDecl c g id d).Typed := by
  cases d with
  | method d =>
    rw [annotateDecl, Decl.typed_method]
    intro code hcode
    obtain ⟨code', -, rfl⟩ := Option.map_eq_some_iff.mp hcode
    exact code'.typed_annotate c _
  | globalFunction d =>
    rw [annotateDecl, Decl.typed_globalFunction]
    intro code hcode
    obtain ⟨code', -, rfl⟩ := Option.map_eq_some_iff.mp hcode
    exact code'.typed_annotate c _
  | property d =>
    rw [annotateDecl, Decl.typed_property]
    unfold PropertyDecl.annotateMode
    cases d.mode with
    | field => trivial
    | computed getter setter =>
      refine ⟨getter.typed_annotate c _, fun s hs => ?_⟩
      obtain ⟨s', -, rfl⟩ := Option.map_eq_some_iff.mp hs
      exact s'.code.typed_annotate c _
    | full getter setter =>
      exact ⟨getter.typed_annotate c _, setter.code.typed_annotate c _⟩
  | globalVariable d =>
    rw [annotateDecl, Decl.typed_globalVariable]
    intro e he
    obtain ⟨e', -, rfl⟩ := Option.map_eq_some_iff.mp he
    exact e'.typed_annotate _ _
  | _ => exact Decl.typed_of_not_ownsCode rfl

/-- **Every expression of a graph has a type**: in every body and every initial value of every
declaration that is there. -/
def FullyTyped (g : Graph) : Prop :=
  ∀ id d, g.get? id = some d → ∀ e ∈ d.expressions, e.resolved.isSome = true

/-- Every expression of a graph has a type, except in some declarations. -/
def TypedExcept (ids : List DeclId) (g : Graph) : Prop :=
  ∀ id n, g.node? id = some n → id ∉ ids → n.decl.Typed

theorem fullyTyped_iff : g.FullyTyped ↔ g.TypedExcept [] := by
  constructor
  · intro h id n hn _
    exact h id n.decl (by rw [get?, hn, Option.map_some])
  · intro h id d hd
    obtain ⟨n, hn, rfl⟩ := Option.map_eq_some_iff.mp hd
    exact h id n hn List.not_mem_nil

theorem FullyTyped.of_node? (h : g.FullyTyped) (hn : g.node? id = some n) : n.decl.Typed :=
  fullyTyped_iff.mp h id n hn List.not_mem_nil

/-- Filling a slot with something typed. -/
theorem FullyTyped.setNode (h : g.FullyTyped) {m : GraphNode} (hm : m.decl.Typed) :
    (g.setNode id m).FullyTyped := by
  rw [fullyTyped_iff]
  intro j n hn _
  rw [node?, Graph.setNode, Option.join_eq_some_iff, List.getElem?_set] at hn
  split_ifs at hn
  · obtain rfl : m = n := by simpa using hn
    exact hm
  · exact h.of_node? (Option.join_eq_some_iff.mpr hn)

/-- Annotating a declaration makes it one that needs no exception. -/
theorem TypedExcept.annotated (h : g.TypedExcept (id :: ids)) :
    (annotated c g id).TypedExcept ids := by
  unfold Graph.annotated
  cases hn : g.node? id with
  | none =>
    -- Where nothing is there, nothing lacks a type.
    intro j n' hn' hj
    refine h j n' hn' ?_
    rw [List.mem_cons, not_or]
    refine ⟨?_, hj⟩
    rintro rfl
    rw [hn] at hn'
    exact absurd hn' (by simp)
  | some n =>
    intro j n' hn' hj
    rw [node?_setNode hn] at hn'
    split_ifs at hn' with hid
    · obtain rfl := Option.some.inj hn'
      exact typed_annotateDecl c g id n.decl
    · exact h j n' hn' (by simpa [hid] using hj)

theorem TypedExcept.foldl_annotated (h : g.TypedExcept ids) :
    (ids.foldl (Graph.annotated c) g).FullyTyped := by
  induction ids generalizing g with
  | nil => exact fullyTyped_iff.mpr h
  | cons id ids ih => exact ih h.annotated

/-- Every declaration with code is among those that are annotated. -/
theorem mem_codeOwners (hn : g.node? id = some n) (hcode : n.decl.ownsCode = true) :
    id ∈ g.codeOwners := by
  have hslot : (some n, id.toNat) ∈ g.slots.zipIdx := by
    rw [List.mem_zipIdx_iff_getElem?]
    exact Option.join_eq_some_iff.mp hn
  have hlive : (id, n.decl) ∈ g.live := by
    refine List.mem_filterMap.mpr ⟨(some n, id.toNat), hslot, ?_⟩
    simp only [Option.map_some, DeclId.ofNat_toNat]
  exact List.mem_map.mpr ⟨(id, n.decl), List.mem_filter.mpr ⟨hlive, hcode⟩, rfl⟩

/-- **Annotating makes every graph fully typed.** -/
theorem fullyTyped_annotateAll (c : Catalog) (g : Graph) : (g.annotateAll c).FullyTyped := by
  refine TypedExcept.foldl_annotated fun id n hn hid => ?_
  -- What is passed over has no code, and so no expression.
  refine Decl.typed_of_not_ownsCode ?_
  rw [Bool.eq_false_iff]
  exact fun hcode => hid (mem_codeOwners hn hcode)

/-! ### Edits that keep types -/

/-- If it runs to its end, the edit leaves a fully typed graph fully typed, with an answer that
satisfies `P`. -/
def Edit.KeepsTypes (e : Edit α) (P : α → Prop) : Prop :=
  ∀ g : Graph, g.FullyTyped → e.Outcome g (fun a g' => P a ∧ g'.FullyTyped) fun _ _ => True

section Rules

variable {P : α → Prop} {Q : β → Prop} {e : Edit α}

theorem keepsTypes_pure {a : α} (h : P a) : (pure a : Edit α).KeepsTypes P :=
  fun _ hg => ⟨h, hg⟩

theorem keepsTypes_throw {x : GraphError} : (throw x : Edit α).KeepsTypes P :=
  fun _ _ => trivial

theorem Edit.KeepsTypes.bind {f : α → Edit β} (h : e.KeepsTypes P)
    (hf : ∀ a, P a → (f a).KeepsTypes Q) : (e >>= f).KeepsTypes Q := by
  intro g hg
  rw [outcome_bind]
  exact (h g hg).mono (fun a g' ha => hf a ha.1 g' ha.2) fun _ _ _ => trivial

theorem Edit.KeepsTypes.map {f : α → β} (h : e.KeepsTypes P) (hf : ∀ a, P a → Q (f a)) :
    (f <$> e).KeepsTypes Q := by
  intro g hg
  rw [outcome_map]
  exact (h g hg).mono (fun a _ ha => ⟨hf a ha.1, ha.2⟩) fun _ _ _ => trivial

theorem Edit.KeepsTypes.discard (h : e.KeepsTypes P) : (discard e).KeepsTypes fun _ => True :=
  h.map fun _ _ => trivial

theorem keepsTypes_get : (get : Edit Graph).KeepsTypes fun _ => True :=
  fun _ hg => ⟨trivial, hg⟩

theorem keepsTypes_look (f : Graph → Except GraphError α) : (look f).KeepsTypes fun _ => True := by
  intro g hg
  rw [outcome_look]
  cases f g with
  | ok a => exact ⟨trivial, hg⟩
  | error x => trivial

/-- What is looked up in a fully typed graph is typed. -/
theorem keepsTypes_look_typed {view : Decl → Option α} {make : α → Decl} {kind : Option ChildList}
    {expected : String} (hv : Decl.View view make kind) :
    (look fun g => g.typed id expected view).KeepsTypes fun a => (make a).Typed := by
  intro g hg
  rw [outcome_look]
  cases hok : g.typed id expected view with
  | ok a =>
    obtain ⟨n, hn, ha⟩ := node?_of_typed hv hok
    have hd := hg.of_node? hn
    rw [ha] at hd
    exact ⟨hd, hg⟩
  | error x => trivial

theorem keepsTypes_node : (node id).KeepsTypes fun n => n.decl.Typed := by
  intro g hg
  rw [outcome_node]
  cases hn : g.node? id with
  | none => trivial
  | some n => exact ⟨hg.of_node? hn, hg⟩

/-- A loop keeps types if each of its turns does. -/
theorem keepsTypes_forM {f : α → Edit PUnit} (h : ∀ a, (f a).KeepsTypes fun _ => True)
    (xs : List α) : (xs.forM f).KeepsTypes fun _ => True := by
  intro g hg
  refine (outcome_forM (fun _ g' => g'.FullyTyped) (fun x _ g' hg' => ?_) xs hg).mono
    (fun _ _ h' => ⟨trivial, h'⟩) fun _ _ hx => hx
  exact (h x g' hg').mono (fun _ _ ha => ha.2) fun _ _ hx => hx

theorem keepsTypes_mapM {f : α → Edit β} (h : ∀ a, (f a).KeepsTypes fun _ => True)
    (xs : List α) : (xs.mapM f).KeepsTypes fun _ => True := by
  intro g hg
  refine (outcome_mapM (fun _ _ g' => g'.FullyTyped) (fun _ x _ g' hg' => ?_) hg).mono
    (fun _ _ h' => ⟨trivial, h'⟩) fun _ _ hx => hx
  exact (h x g' hg').mono (fun _ _ ha => ha.2) fun _ _ hx => hx

end Rules

/-! ### The edits of a graph -/

theorem keepsTypes_setNode {m : GraphNode} (hm : m.decl.Typed) :
    (modify (·.setNode id m) : Edit PUnit).KeepsTypes fun _ => True :=
  fun _ hg => ⟨trivial, hg.setNode hm⟩

theorem keepsTypes_modifyNode {f : GraphNode → GraphNode}
    (hf : ∀ n, n.decl.Typed → (f n).decl.Typed) : (modifyNode id f).KeepsTypes fun _ => True :=
  keepsTypes_node.bind fun n hn => keepsTypes_setNode (hf n hn)

/-- Putting something typed in the place of a declaration. -/
theorem keepsTypes_setDecl {d : Decl} (hd : d.Typed) :
    (setDecl id d).KeepsTypes fun _ => True :=
  keepsTypes_modifyNode fun _ _ => hd

theorem keepsTypes_listUnder {d : Decl} : (listUnder id d).KeepsTypes fun _ => True := by
  refine keepsTypes_node.bind fun owner _ => ?_
  cases d.ownList? with
  | none => exact keepsTypes_throw
  | some list =>
    dsimp only
    split_ifs
    · exact keepsTypes_pure trivial
    · exact keepsTypes_throw

theorem keepsTypes_pushInto {list : ChildList} {child : DeclId} :
    (pushInto id list child).KeepsTypes fun _ => True := by
  refine keepsTypes_node.bind fun owner _ => ?_
  cases hd : owner.decl.updateList? list (· ++ [child]) with
  | none => exact keepsTypes_throw
  | some d =>
    exact keepsTypes_setNode (Decl.typed_of_not_ownsCode (Decl.ownsCode_of_updateList? hd))

theorem keepsTypes_unlink : (unlink id).KeepsTypes fun _ => True := by
  have hlast : (modifyNode id fun n => { n with parent := none }).KeepsTypes fun _ => True :=
    keepsTypes_modifyNode fun _ hn => hn
  refine keepsTypes_node.bind fun n _ => ?_
  cases n.parent with
  | some p =>
    refine keepsTypes_node.bind fun owner _ => ?_
    cases hd : owner.decl.eraseChild? id with
    | none => exact (keepsTypes_throw (P := fun _ => True)).bind fun _ _ => hlast
    | some d =>
      have hd' := Decl.typed_of_not_ownsCode (Decl.ownsCode_of_eraseChild? hd)
      exact (keepsTypes_setNode hd').bind fun _ _ => hlast
  | none =>
    intro g hg
    rw [outcome_bind, outcome_get]
    split_ifs
    · exact hlast _ hg
    · trivial

/-- **Removing** gives back something typed. -/
theorem keepsTypes_remove : (remove id).KeepsTypes Decl.Typed := by
  refine keepsTypes_unlink.bind fun _ _ => keepsTypes_node.bind fun n hn => ?_
  intro g hg
  refine ⟨hn.childless, fullyTyped_iff.mpr fun j m hm _ => ?_⟩
  rcases nodeAt_free g.slots [id] j with h | h
  · exact absurd (hm.symm.trans h) (by simp)
  · exact hg.of_node? (h.symm.trans hm)

theorem keepsTypes_removeChild {child : DeclId} : (removeChild id child).KeepsTypes Decl.Typed := by
  refine keepsTypes_get.bind fun g _ => ?_
  split_ifs
  · exact keepsTypes_remove
  · exact keepsTypes_throw

theorem keepsTypes_moveTo {q : DeclId} : (moveTo id q).KeepsTypes fun _ => True := by
  refine keepsTypes_node.bind fun n _ => keepsTypes_listUnder.bind fun list _ => ?_
  refine keepsTypes_unlink.bind fun _ _ => keepsTypes_pushInto.bind fun _ _ => ?_
  exact keepsTypes_modifyNode fun _ hm => hm

/-- **Annotating** several declarations leaves none of them untyped. -/
theorem outcome_forM_annotate (h : g.TypedExcept ids) :
    (ids.forM (annotate c)).Outcome g (fun _ g' => g'.FullyTyped) fun _ _ => True := by
  refine (outcome_forM (fun rest g' => g'.TypedExcept rest) (fun id rest g' hg' => ?_) ids h).mono
    (fun _ _ h' => fullyTyped_iff.mpr h') fun _ _ hx => hx
  rw [annotate, outcome_bind, outcome_node]
  cases g'.node? id with
  | none => trivial
  | some n => exact hg'.annotated

theorem keepsTypes_forM_annotate : (ids.forM (annotate c)).KeepsTypes fun _ => True := by
  intro g hg
  have hexcept : g.TypedExcept ids := fun _ _ hn _ => hg.of_node? hn
  exact (outcome_forM_annotate hexcept).mono (fun _ _ h => ⟨trivial, h⟩) fun _ _ hx => hx

end Graph

end ObjcSwift
