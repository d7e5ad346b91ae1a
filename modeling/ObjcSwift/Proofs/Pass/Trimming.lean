import ObjcSwift.Proofs.Graph.Lookups
import ObjcSwift.Proofs.Graph.WellFormed
import ObjcSwift.Proofs.Pass.Accessors
import ObjcSwift.Proofs.Typing.Faces

/-!
# What merging accessors leaves alone

Merging accessors takes methods out of classes and extensions and changes code. Everything else
stays: a declaration that is still there has its owner and its face, its lists hold nothing new, and
what is gone is a method of a type that is no protocol. Such a graph is a **trimmed** one
(`Graph.Trims`), and all that is said here holds of every graph.

In consistent graphs more follows: a list of which nothing is gone is the same as before
(`Graph.Trims.listOf_eq`).
-/

namespace ObjcSwift

/-- The second declaration says what the first says, apart from code, and lists nothing new. -/
structure Decl.Trims (d d' : Decl) : Prop where
  /-- Apart from code and lists, both say the same. -/
  face_eq : d'.face.childless = d.face.childless
  /-- Nothing new is listed. -/
  sublist : ∀ list, (d'.listOf list).Sublist (d.listOf list)

namespace Decl

variable {d d' d'' : Decl}

@[simp]
theorem listOf_face {list : ChildList} : d.face.listOf list = d.listOf list := by
  cases d <;> rfl

@[simp]
theorem ownList?_face : d.face.ownList? = d.ownList? := by
  cases d <;> rfl

theorem Trims.of_face (h : d'.face = d.face) : d.Trims d' where
  face_eq := by rw [h]
  sublist list := by rw [← listOf_face, h, listOf_face]

theorem Trims.trans (h : d.Trims d') (h' : d'.Trims d'') : d.Trims d'' :=
  ⟨h'.face_eq.trans h.face_eq, fun list => (h'.sublist list).trans (h.sublist list)⟩

theorem Trims.ownList?_eq (h : d.Trims d') : d'.ownList? = d.ownList? := by
  simpa using congrArg ownList? h.face_eq

/-- What is read off from a declaration, whatever its code and its lists are, stays. -/
theorem Trims.read_eq {β : Type} (h : d.Trims d') {f : Decl → β}
    (hf : ∀ d, f d.face.childless = f d) : f d' = f d := by
  rw [← hf d', h.face_eq, hf]

theorem Trims.type?_eq (h : d.Trims d') :
    d'.type?.map (fun t => (t.name, t.kind)) = d.type?.map fun t => (t.name, t.kind) :=
  h.read_eq (f := fun d => d.type?.map fun t => (t.name, t.kind)) fun d => by cases d <;> rfl

theorem Trims.method?_eq (h : d.Trims d') :
    d'.method?.map (·.signature) = d.method?.map (·.signature) :=
  h.read_eq (f := fun d => d.method?.map (·.signature)) fun d => by cases d <;> rfl

theorem Trims.conformance?_eq (h : d.Trims d') :
    d'.conformance?.map (·.name) = d.conformance?.map (·.name) :=
  h.read_eq (f := fun d => d.conformance?.map (·.name)) fun d => by cases d <;> rfl

theorem face_childless : d.childless.face = d.face.childless := by
  cases d <;> rfl

/-- Erasing a number from a declaration trims it. -/
theorem trims_of_eraseChild? {id : DeclId} (h : d.eraseChild? id = some d') : d.Trims d' where
  face_eq := by rw [← face_childless, ← face_childless, childless_of_eraseChild? h]
  sublist l := by
    obtain ⟨list, -, hr⟩ := eraseChild?_relists h
    by_cases hl : l = list
    · rw [hl, hr.listOf_self]
      exact List.erase_sublist
    · rw [hr.listOf_other l hl]

end Decl

namespace Graph

open Edit

variable {g g' g'' : Graph} {id : DeclId} {n : GraphNode}

/-- A number is that of a type that is no protocol. -/
def Implements (g : Graph) (id : DeclId) : Prop :=
  ∃ d, g.get? id = some (.type d) ∧ d.isProtocol = false

/-- The second graph is the first with other code, and without some methods of types that are no
protocols. -/
structure Trims (g g' : Graph) : Prop where
  /-- The files are the same. -/
  files_eq : g'.files = g.files
  /-- What is still there says what it said. -/
  kept : ∀ id n', g'.node? id = some n' →
    ∃ n, g.node? id = some n ∧ n'.parent = n.parent ∧ n.decl.Trims n'.decl
  /-- What is gone is a method of a type that is no protocol. -/
  gone : ∀ id n, g.node? id = some n → g'.node? id = none →
    n.decl.ownList? = some .methods ∧ ∃ t, n.parent = some t ∧ g.Implements t

theorem Trims.refl (g : Graph) : g.Trims g where
  files_eq := rfl
  kept _ n hn := ⟨n, hn, rfl, .of_face rfl⟩
  gone id n hn hnone := absurd (hn.symm.trans hnone) (by simp)

theorem Trims.kept_of_kind (h : g.Trims g') (hn : g.node? id = some n)
    (hkind : n.decl.ownList? ≠ some .methods) :
    ∃ n', g'.node? id = some n' ∧ n'.parent = n.parent ∧ n.decl.Trims n'.decl := by
  cases hn' : g'.node? id with
  | none => exact absurd (h.gone id n hn hn').1 hkind
  | some n' =>
    obtain ⟨m, hm, hp, ht⟩ := h.kept id n' hn'
    obtain rfl : m = n := Option.some.inj (hm.symm.trans hn)
    exact ⟨n', rfl, hp, ht⟩

/-- A type that is there after trimming was there before, with its name and its kind. -/
theorem Trims.type_back (h : g.Trims g') {d' : TypeDecl} (hd : g'.get? id = some (.type d')) :
    ∃ d, g.get? id = some (.type d) ∧ d.name = d'.name ∧ d.kind = d'.kind := by
  obtain ⟨n', hn', hdecl⟩ := exists_node?_of_get? hd
  obtain ⟨n, hn, -, ht⟩ := h.kept id n' hn'
  have htype := ht.type?_eq
  rw [hdecl] at htype
  obtain ⟨d, hd, heq⟩ := Option.map_eq_some_iff.mp htype.symm
  refine ⟨d, ?_, congrArg Prod.fst heq, congrArg Prod.snd heq⟩
  rw [get?, hn, Option.map_some, (Decl.view_type.eq_some_iff n.decl d).mp hd]

theorem Trims.implements_back (h : g.Trims g') (hid : g'.Implements id) : g.Implements id := by
  obtain ⟨d', hd', hprotocol⟩ := hid
  obtain ⟨d, hd, -, hkind⟩ := h.type_back hd'
  exact ⟨d, hd, by rwa [TypeDecl.isProtocol, hkind]⟩

/-- A type that is there before trimming is there after it, with its name and its kind. -/
theorem Trims.type_forth (h : g.Trims g') {d : TypeDecl} (hd : g.get? id = some (.type d)) :
    ∃ d', g'.get? id = some (.type d') ∧ d'.name = d.name ∧ d'.kind = d.kind := by
  obtain ⟨n, hn, hdecl⟩ := exists_node?_of_get? hd
  obtain ⟨n', hn', -, ht⟩ := h.kept_of_kind hn (by rw [hdecl]; simp [Decl.ownList?])
  have htype := ht.type?_eq
  rw [hdecl] at htype
  obtain ⟨d', hd', heq⟩ := Option.map_eq_some_iff.mp htype
  refine ⟨d', ?_, congrArg Prod.fst heq, congrArg Prod.snd heq⟩
  rw [get?, hn', Option.map_some, (Decl.view_type.eq_some_iff n'.decl d').mp hd']

theorem Trims.implements (h : g.Trims g') (hid : g.Implements id) : g'.Implements id := by
  obtain ⟨d, hd, hprotocol⟩ := hid
  obtain ⟨d', hd', -, hkind⟩ := h.type_forth hd
  exact ⟨d', hd', by rwa [TypeDecl.isProtocol, hkind]⟩

theorem Trims.trans (h : g.Trims g') (h' : g'.Trims g'') : g.Trims g'' where
  files_eq := h'.files_eq.trans h.files_eq
  kept id n'' hn'' := by
    obtain ⟨n', hn', hp', ht'⟩ := h'.kept id n'' hn''
    obtain ⟨n, hn, hp, ht⟩ := h.kept id n' hn'
    exact ⟨n, hn, hp'.trans hp, ht.trans ht'⟩
  gone id n hn hnone := by
    cases hn' : g'.node? id with
    | none => exact h.gone id n hn hn'
    | some n' =>
      obtain ⟨hkind, t, hp, himpl⟩ := h'.gone id n' hn' hnone
      obtain ⟨m, hm, hpm, htm⟩ := h.kept id n' hn'
      obtain rfl : m = n := Option.some.inj (hm.symm.trans hn)
      exact ⟨htm.ownList?_eq ▸ hkind, t, hpm ▸ hp, h.implements_back himpl⟩

/-- What is looked up in a declaration that is still there is what it was before. -/
theorem Trims.typed_eq {α β : Type} {view : Decl → Option α} {read : α → β} {expected : String}
    (h : g.Trims g') (hid : g'.node? id ≠ none)
    (hread : ∀ d d', Decl.Trims d d' → (view d').map read = (view d).map read) :
    (do return read (← g'.typed id expected view) : Except GraphError β) =
      do return read (← g.typed id expected view) := by
  obtain ⟨n', hn'⟩ := Option.ne_none_iff_exists'.mp hid
  obtain ⟨n, hn, -, ht⟩ := h.kept id n' hn'
  have hview := hread n.decl n'.decl ht
  have hkind : n'.decl.kindName = n.decl.kindName := ht.read_eq fun d => by cases d <;> rfl
  simp only [typed, get?, hn, hn', Option.map_some]
  cases hv : view n.decl with
  | none =>
    rw [hv, Option.map_none, Option.map_eq_none_iff] at hview
    rw [hview, hkind]
  | some a =>
    rw [hv, Option.map_some, Option.map_eq_some_iff] at hview
    obtain ⟨a', ha', hread'⟩ := hview
    rw [ha']
    exact congrArg Except.ok hread'

theorem node?_face : g.face.node? id = (g.node? id).map GraphNode.face := by
  unfold node? face
  rw [List.getElem?_map]
  cases g.slots[id.toNat]? <;> rfl

/-- A graph with the same face is trimmed of nothing. -/
theorem Trims.of_face (h : g'.face = g.face) : g.Trims g' := by
  have hface : ∀ id, (g'.node? id).map GraphNode.face = (g.node? id).map GraphNode.face := by
    intro id
    rw [← node?_face, h, node?_face]
  refine ⟨(congrArg Graph.files h : g'.face.files = g.face.files), fun id n' hn' => ?_,
    fun id n hn hnone => ?_⟩
  · obtain ⟨n, hn, heq⟩ := Option.map_eq_some_iff.mp (hn' ▸ (hface id).symm)
    exact ⟨n, hn, (congrArg GraphNode.parent heq).symm, .of_face (congrArg GraphNode.decl heq).symm⟩
  · have hsome := hface id
    rw [hn, hnone] at hsome
    exact absurd hsome (by simp)

/-- **Removing a method of a type that is no protocol trims a graph.** -/
theorem outcome_removeChild_trims {t : DeclId} (ht : g.Implements t) :
    (removeChild t id).Outcome g
      (fun d g' => d.ownList? = some .methods → g.Trims g') fun _ _ => True := by
  obtain ⟨td, htd, -⟩ := (show g.Implements t from ht)
  obtain ⟨owner, ho, howner⟩ := exists_node?_of_get? htd
  rw [removeChild, outcome_bind, outcome_get]
  split_ifs with hcond
  · obtain ⟨n, hn, hp⟩ := Option.bind_eq_some_iff.mp hcond.1
    refine (outcome_remove_owned hn hp ho).mono (fun d g' h => fun hkind => ?_) fun _ _ hx => hx
    obtain ⟨d', m, hd', hm, rfl, rfl⟩ := h
    rw [Decl.ownList?_childless] at hkind
    -- What was removed is a method, so it is not the type itself.
    have hne : id ≠ t := by
      rintro rfl
      rw [node?_setNode ho, if_pos rfl] at hm
      obtain rfl := Option.some.inj hm
      obtain ⟨_, -, hr⟩ := Decl.eraseChild?_relists hd'
      rw [hr.ownList?_eq, howner] at hkind
      exact absurd hkind (by simp [Decl.ownList?])
    obtain rfl : n = m := by
      rw [node?_setNode ho, if_neg hne, hn] at hm
      exact Option.some.inj hm
    have hleaf : n.decl.children = [] := by
      obtain ⟨method, hmethod⟩ := Decl.view_method.exists_make n.decl hkind
      rw [hmethod]
      rfl
    have hnode := node?_free_leaf ho hm hleaf
    refine ⟨rfl, fun j n' hn' => ?_, fun j n' hn' hnone => ?_⟩
    · rw [hnode] at hn'
      split_ifs at hn' with hj hjt
      · obtain rfl := Option.some.inj hn'
        exact ⟨owner, hjt ▸ ho, rfl, Decl.trims_of_eraseChild? hd'⟩
      · exact ⟨n', hn', rfl, .of_face rfl⟩
    · rw [hnode] at hnone
      split_ifs at hnone with hj hjt
      · obtain rfl : n' = n := Option.some.inj (hn'.symm.trans (hj ▸ hn))
        exact ⟨hkind, t, hp, ht⟩
      · exact absurd (hn'.symm.trans hnone) (by simp)
  · trivial

end Graph

/-! ### Merging accessors -/

namespace AccessorMerge

open ObjcSwift.Graph ObjcSwift.Graph.Edit

variable {g g₀ : Graph} {type method property : DeclId} {inExtension : Bool}
  {methods used : List DeclId}

theorem outcome_takeBody_trims (htype : g.Implements type) :
    (takeBody type method).Outcome g (fun _ g' => g.Trims g') fun _ _ => True := by
  rw [takeBody, outcome_bind]
  refine (outcome_removeChild_trims htype).mono (fun d g' h => ?_) fun _ _ hx => hx
  cases d with
  | method m => exact h rfl
  | _ => trivial

theorem outcome_takeSetter_trims (htype : g.Implements type) :
    (takeSetter type method).Outcome g (fun _ g' => g.Trims g') fun _ _ => True := by
  rw [takeSetter, outcome_bind, outcome_look]
  split
  · rw [outcome_bind]
    exact (outcome_takeBody_trims htype).mono (fun _ _ h => h) fun _ _ hx => hx
  · trivial

/-- Giving a property other code trims nothing. -/
theorem outcome_setMode_trims {α : Type} (mode : PropertyMode) (answer : α) :
    (setMode property mode answer).Outcome g (fun _ g' => g.Trims g') fun _ _ => True := by
  rw [setMode, outcome_bind, outcome_look]
  split
  · rename_i p hp
    obtain ⟨n, hn, hdecl⟩ := node?_of_typed Decl.view_property hp
    rw [outcome_bind, setDecl, outcome_modifyNode_some hn]
    refine Graph.Trims.of_face (face_setNode hn ?_)
    rw [GraphNode.face, GraphNode.face, hdecl]
    rfl
  · trivial

theorem outcome_takeAccessors_trims {α : Type} (htype : g.Implements type) (a : Accessors)
    (answer : α) : (takeAccessors type property inExtension a answer).Outcome g
      (fun _ g' => g.Trims g') fun _ _ => True := by
  rw [takeAccessors, outcome_bind]
  refine (outcome_takeBody_trims htype).mono (fun getter g₁ h₁ => ?_) fun _ _ hx => hx
  cases a.setter with
  | none => exact (outcome_setMode_trims _ _).mono (fun _ _ h₂ => h₁.trans h₂) fun _ _ hx => hx
  | some setter =>
    rw [outcome_bind, outcome_map]
    refine (outcome_takeSetter_trims (h₁.implements htype)).mono (fun _ g₂ h₂ => ?_)
      fun _ _ hx => hx
    exact (outcome_setMode_trims _ _).mono (fun _ _ h₃ => h₁.trans (h₂.trans h₃)) fun _ _ hx => hx

theorem outcome_mergeInto_trims (htype : g.Implements type) :
    (mergeInto type inExtension methods used property).Outcome g (fun _ g' => g.Trims g')
      fun _ _ => True := by
  rw [mergeInto_eq, outcome_bind, outcome_look]
  split
  · rename_i p _
    split_ifs
    · exact .refl g
    · rw [outcome_bind, outcome_look]
      split
      · rename_i found _
        cases found with
        | none => exact .refl g
        | some a => exact outcome_takeAccessors_trims htype a _
      · trivial
  · trivial

theorem outcome_mergeEach_trims {properties : List DeclId} (htype : g.Implements type) :
    (mergeEach type inExtension methods used properties).Outcome g (fun _ g' => g.Trims g')
      fun _ _ => True := by
  induction properties generalizing g used with
  | nil => exact .refl g
  | cons property rest ih =>
    rw [mergeEach, outcome_bind]
    refine (outcome_mergeInto_trims htype).mono (fun answer g₁ h₁ => ?_) fun _ _ hx => hx
    rw [outcome_bind]
    exact (ih (h₁.implements htype)).mono (fun _ _ h₂ => h₁.trans h₂) fun _ _ hx => hx

theorem outcome_mergeInType_trims :
    (mergeInType type).Outcome g (fun _ g' => g.Trims g') fun _ _ => True := by
  rw [mergeInType, outcome_bind, outcome_look]
  split
  · rename_i d hd
    split_ifs with hprotocol
    · exact .refl g
    · exact outcome_mergeEach_trims ⟨d, (typed_eq_ok_iff Decl.view_type).mp hd,
        by simpa using hprotocol⟩
  · trivial

/-- **Merging accessors in types trims a graph.** -/
theorem outcome_mapM_mergeInType_trims (types : List DeclId) :
    (types.mapM mergeInType).Outcome g (fun _ g' => g.Trims g') fun _ _ => True := by
  refine outcome_mapM (fun _ _ g' => g.Trims g') (fun _ _ _ g₁ h₁ => ?_) (.refl g)
  exact outcome_mergeInType_trims.mono (fun _ _ h₂ => h₁.trans h₂) fun _ _ hx => hx

end AccessorMerge

/-! ### Lists of consistent graphs -/

namespace Graph

variable {g g' : Graph} {id p : DeclId} {list : ChildList}

/-- **In consistent graphs, a list of which nothing is gone is the same as before.** -/
theorem Trims.listOf_eq (h : g.Trims g') (hc : g.outline.Consistent none)
    (hc' : g'.outline.Consistent none) (hkept : ∀ id ∈ g.listOf p list, g'.node? id ≠ none) :
    g'.listOf p list = g.listOf p list := by
  have hsub : (g'.listOf p list).Sublist (g.listOf p list) := by
    cases hp : g'.node? p with
    | none => simp [listOf, hp]
    | some n' =>
      obtain ⟨n, hn, -, ht⟩ := h.kept p n' hp
      rw [listOf_of_node? hp, listOf_of_node? hn]
      exact ht.sublist list
  have hall : g.listOf p list ⊆ g'.listOf p list := by
    intro id hid
    obtain ⟨n', hn'⟩ := Option.ne_none_iff_exists'.mp (hkept id hid)
    obtain ⟨n, hn, hparent, ht⟩ := h.kept id n' hn'
    have hplace := (place?_of_node? hn).symm.trans (hc.mem_listOf_iff.mp hid)
    refine hc'.mem_listOf_iff.mpr ((place?_of_node? hn').trans ?_)
    rw [← hplace, GraphNode.place, GraphNode.place, hparent, ht.ownList?_eq]
  exact hsub.eq_of_length_le ((hc.nodup_listOf p list).subperm hall).length_le

end Graph

end ObjcSwift
