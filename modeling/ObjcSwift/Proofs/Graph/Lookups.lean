import ObjcSwift.Proofs.Graph.Editing

/-!
# Lookups by kind

A lookup asks for a declaration of one kind. In a graph it succeeds exactly where a declaration of
that kind is, and this is a matter of the outline, so lookups that succeed before an edit succeed
after it if the edit keeps kinds. The nine kinds are treated at once: a kind is a **view** of
declarations (`Decl.View`), the way to make one and the list in which it stands.
-/

namespace ObjcSwift

namespace Decl

variable {α : Type}

/-- The declarations of one kind: how they are recognised, how they are made, and in which list they
stand. -/
structure View (view : Decl → Option α) (make : α → Decl) (kind : Option ChildList) : Prop where
  /-- What is recognised is what was made. -/
  eq_some_iff : ∀ d a, view d = some a ↔ d = make a
  /-- What stands in the list was made so. -/
  exists_make : ∀ d, d.ownList? = kind → ∃ a, d = make a

theorem view_file : View file? file none :=
  ⟨fun d a => by cases d <;> simp [file?], fun d => by cases d <;> simp [ownList?]⟩

theorem view_type : View type? type (some .types) :=
  ⟨fun d a => by cases d <;> simp [type?], fun d => by cases d <;> simp [ownList?]⟩

theorem view_typeAlias : View typeAlias? typeAlias (some .aliases) :=
  ⟨fun d a => by cases d <;> simp [typeAlias?], fun d => by cases d <;> simp [ownList?]⟩

theorem view_globalFunction : View globalFunction? globalFunction (some .functions) :=
  ⟨fun d a => by cases d <;> simp [globalFunction?], fun d => by cases d <;> simp [ownList?]⟩

theorem view_globalVariable : View globalVariable? globalVariable (some .globals) :=
  ⟨fun d a => by cases d <;> simp [globalVariable?], fun d => by cases d <;> simp [ownList?]⟩

theorem view_property : View property? property (some .properties) :=
  ⟨fun d a => by cases d <;> simp [property?], fun d => by cases d <;> simp [ownList?]⟩

theorem view_method : View method? method (some .methods) :=
  ⟨fun d a => by cases d <;> simp [method?], fun d => by cases d <;> simp [ownList?]⟩

theorem view_ivar : View ivar? ivar (some .ivars) :=
  ⟨fun d a => by cases d <;> simp [ivar?], fun d => by cases d <;> simp [ownList?]⟩

theorem view_conformance : View conformance? conformance (some .conformances) :=
  ⟨fun d a => by cases d <;> simp [conformance?], fun d => by cases d <;> simp [ownList?]⟩

end Decl

namespace Graph

open Edit

variable {α β : Type} {g g' : Graph} {id : DeclId} {view : Decl → Option α} {make : α → Decl}
  {kind : Option ChildList} {expected : String}

/-- **A lookup succeeds where a declaration of the kind is.** -/
theorem finds_typed (hv : Decl.View view make kind) (h : g.kind? id = some kind) :
    Finds (g.typed id expected view) fun a => ∃ n, g.node? id = some n ∧ n.decl = make a := by
  obtain ⟨n, hn, hk⟩ := exists_node?_of_kind? h
  obtain ⟨a, ha⟩ := hv.exists_make n.decl hk
  refine ⟨a, ?_, n, hn, ha⟩
  rw [typed, get?, hn, Option.map_some]
  simp only [(hv.eq_some_iff n.decl a).mpr ha]

/-- What a lookup gives is there. -/
theorem typed_eq_ok_iff (hv : Decl.View view make kind) {a : α} :
    g.typed id expected view = .ok a ↔ g.get? id = some (make a) := by
  unfold typed
  cases g.get? id with
  | none => simp
  | some d =>
    rw [Option.some_inj, ← hv.eq_some_iff d a]
    cases hview : view d <;> simp [hview]

theorem node?_of_typed (hv : Decl.View view make kind) {a : α}
    (h : g.typed id expected view = .ok a) : ∃ n, g.node? id = some n ∧ n.decl = make a :=
  Option.map_eq_some_iff.mp ((typed_eq_ok_iff hv).mp h)

/-- The declarations of one kind among those of several numbers. -/
def among (g : Graph) (view : Decl → Option α) (ids : List DeclId) : List α :=
  ids.filterMap fun id => (g.get? id).bind view

/-- Lookups that have succeeded gave the declarations among the numbers. -/
theorem eq_among_of_mapM_typed (hv : Decl.View view make kind) {f : α → β} {ids : List DeclId}
    {bs : List β}
    (h : ids.mapM (fun id => (do return f (← g.typed id expected view) : Except GraphError β)) =
      .ok bs) : bs = (g.among view ids).map f := by
  induction ids generalizing bs with
  | nil => exact (Except.ok.inj h).symm
  | cons id ids ih =>
    rw [List.mapM_cons] at h
    obtain ⟨b, hb, h⟩ := bind_eq_ok.mp h
    obtain ⟨bs', hbs, h⟩ := bind_eq_ok.mp h
    obtain ⟨a, ha, hb⟩ := bind_eq_ok.mp hb
    have hview : (g.get? id).bind view = some a := by
      rw [(typed_eq_ok_iff hv).mp ha, Option.bind_some, (hv.eq_some_iff (make a) a).mpr rfl]
    rw [among, List.filterMap_cons, hview, List.map_cons, Except.ok.inj hb, ← among, ← ih hbs]
    exact (Except.ok.inj h).symm

/-- Lookups that all succeed give the declarations among the numbers. -/
theorem mapM_typed_eq (expected : String) (hv : Decl.View view make kind) (f : α → β)
    {ids : List DeclId} (h : ∀ id ∈ ids, g.kind? id = some kind) :
    ids.mapM (fun id => (do return f (← g.typed id expected view) : Except GraphError β)) =
      .ok ((g.among view ids).map f) := by
  have hfinds : ∀ id ∈ ids,
      Finds (do return f (← g.typed id expected view) : Except GraphError β) fun _ => True :=
    fun id hid => (finds_typed hv (h id hid)).bind fun _ _ => finds_pure trivial
  obtain ⟨bs, hok, -⟩ := finds_mapM_all hfinds
  rw [hok, eq_among_of_mapM_typed hv hok]

/-- Looking a declaration up goes on with it, where one of the kind is. -/
theorem outcome_look_typed (hv : Decl.View view make kind) (h : g.kind? id = some kind)
    {done : α → Graph → Prop} {failed : GraphError → Graph → Prop}
    (hdone : ∀ n a, g.node? id = some n → n.decl = make a → done a g) :
    (look fun g => g.typed id expected view).Outcome g done failed := by
  obtain ⟨a, hok, n, hn, ha⟩ : Finds (g.typed id expected view) _ := finds_typed hv h
  rw [outcome_look_ok hok]
  exact hdone n a hn ha

/-- Looking a declaration up goes on with it, where it is. -/
theorem outcome_look_of_node? (hv : Decl.View view make kind) {parent : Option DeclId} {a : α}
    (h : g.node? id = some ⟨parent, make a⟩) {done : α → Graph → Prop}
    {failed : GraphError → Graph → Prop} :
    (look fun g => g.typed id expected view).Outcome g done failed ↔ done a g := by
  refine outcome_look_ok ?_
  rw [typed, get?, h, Option.map_some]
  simp only [(hv.eq_some_iff (make a) a).mpr rfl]

end Graph

end ObjcSwift
