import ObjcSwift.Proofs.Graph.Scripts
import ObjcSwift.Proofs.Graph.WellFormed
import ObjcSwift.Proofs.Pass.Steps
import ObjcSwift.Proofs.Typing.Erasure
import Mathlib

/-!
# Annotating one declaration

Annotating a declaration of a graph reaches every body of the declaration and nothing else
(`annotating_fills_slots_of_owner`).

* **Nothing else is touched** (`Graph.FilledAt`): outside of the declaration the graph is the same,
  and the declaration is the same up to the slots of its expressions.
* **No body is passed over.** A declaration has as many roles as bodies (`Decl.roles`), and each
  body is annotated in the context of its own role, at the place where the declaration stands. In a
  well-formed graph this place is known without going through the graph: it is the type that owns
  the declaration, or none for what belongs to a file.
-/

namespace ObjcSwift

/-! ### Roles -/

/-- What a body does for its declaration, which decides what it sees. -/
inductive BodyRole
  /-- It is the body of a method or function. -/
  | function (signature : Signature)
  /-- It gets a property of some type. -/
  | getter (type : SwiftType)
  /-- It sets a property of some type to a value of some name. -/
  | setter (valueName : String) (type : SwiftType)

/-- The context of a body, given that of the place where its declaration stands. -/
def BodyRole.context (place : BodyContext) : BodyRole → BodyContext
  | function s =>
    { place with parameters := s.parameters.map fun p => (p.name, p.type), result := some s.result }
  | getter type => { place with result := some type }
  | setter valueName type =>
    { place with parameters := [(valueName, type)], result := some .void }

namespace Decl

/-- The roles of the bodies that a declaration carries. -/
def roles : Decl → List BodyRole
  | method d => d.code.toList.map fun _ => .function d.signature
  | globalFunction d => d.code.toList.map fun _ => .function d.signature
  | property d =>
    match d.mode with
    | .field => []
    | .computed _ setter =>
      .getter d.storage.type :: setter.toList.map fun s => .setter s.valueName d.storage.type
    | .full _ setter => [.getter d.storage.type, .setter setter.valueName d.storage.type]
  | _ => []

/-- Every body has a role, and every role a body. -/
theorem length_roles (d : Decl) : d.roles.length = d.bodies.length := by
  cases d with
  | property d =>
    obtain ⟨name, storage, mode, attributes, isStatic, header⟩ := d
    rcases mode with _ | ⟨getter, _ | setter⟩ | ⟨getter, setter⟩ <;> rfl
  | _ => simp [roles, bodies]

/-- Whether a member of a type belongs to the type or to its instances; other declarations are no
members that carry bodies. -/
def memberStatic? : Decl → Option Bool
  | method d => some d.signature.isStatic
  | property d => some d.isStatic
  | _ => none

end Decl

/-! ### Places -/

/-- The context of a place in a type. -/
def TypeDecl.placeContext (t : TypeDecl) (isStatic : Bool) : BodyContext :=
  { selfType := some (.named t.name), superclass := t.superclass?.map .named, isStatic }

namespace Graph

variable {g : Graph} {id owner : DeclId} {d : Decl} {t : TypeDecl}

/-- The context of the place where a declaration stands: a method or property stands in the type
that owns it, everything else in none. -/
def StandsAt (g : Graph) (id : DeclId) (d : Decl) (place : BodyContext) : Prop :=
  match d.memberStatic? with
  | some isStatic => ∃ owner t, g.parent? id = some owner ∧ g.get? owner = some (.type t) ∧
      place = t.placeContext isStatic
  | none => place = {}

/-- What is owned by a type stands in that type. -/
theorem placeContext_of_parent? (hparent : g.parent? id = some owner)
    (howner : g.get? owner = some (.type t)) (isStatic : Bool) :
    g.placeContext id isStatic = t.placeContext isStatic := by
  have henclosing : g.enclosingType? id = some owner := by
    rw [enclosingType?, ancestors, hparent, ancestorsFrom, List.find?_cons_of_pos]
    rw [howner]
    rfl
  rw [placeContext, henclosing]
  dsimp only [Option.bind_some]
  rw [howner]
  rfl

/-- In a well-formed graph the members of types that carry bodies are owned by types. -/
theorem WellFormed.exists_type_of_member (hg : g.WellFormed) (hd : g.get? id = some d)
    (hmember : d.memberStatic? ≠ none) :
    ∃ owner t, g.parent? id = some owner ∧ g.get? owner = some (.type t) := by
  have hfile : id ∉ g.files := by
    intro hid
    obtain ⟨file, hfile⟩ := (hg.mem_files_iff id).mp hid
    rw [hd, Option.some.injEq] at hfile
    subst hfile
    exact hmember rfl
  obtain ⟨owner, o, list, hparent, howner, hlist, hmem⟩ := hg.listed_by_owner id d hd hfile
  -- Methods and properties are listed where only types list anything.
  have hhome : o.ownList? = some .types := by
    rw [Decl.ownList?_of_mem_listOf hmem]
    cases d <;> simp_all [Decl.memberStatic?, Decl.ownList?] <;> subst hlist <;> rfl
  cases o with
  | type t => exact ⟨owner, t, hparent, howner⟩
  | _ => exact absurd hhome (by simp [Decl.ownList?])

/-- In a well-formed graph every declaration stands at some place, and that is the place in whose
context its bodies are annotated. -/
theorem WellFormed.exists_standsAt (hg : g.WellFormed) (hd : g.get? id = some d) :
    ∃ place, g.StandsAt id d place ∧
      ∀ isStatic, d.memberStatic? = some isStatic → g.placeContext id isStatic = place := by
  cases hmember : d.memberStatic? with
  | none =>
    refine ⟨{}, ?_, nofun⟩
    rw [StandsAt, hmember]
  | some isStatic =>
    obtain ⟨owner, t, hparent, howner⟩ := hg.exists_type_of_member hd (by simp [hmember])
    refine ⟨t.placeContext isStatic, ?_, ?_⟩
    · rw [StandsAt, hmember]
      exact ⟨owner, t, hparent, howner, rfl⟩
    · intro _ h
      rw [← Option.some.inj h]
      exact placeContext_of_parent? hparent howner isStatic

/-! ### What is annotated -/

/-- **Every body is annotated in the context of its role.** -/
theorem bodies_annotateDecl (c : Catalog) {place : BodyContext} (hstands : g.StandsAt id d place)
    (hplace : ∀ isStatic, d.memberStatic? = some isStatic → g.placeContext id isStatic = place) :
    (annotateDecl c g id d).bodies =
      List.zipWith (fun body role => body.annotate c (role.context place)) d.bodies d.roles := by
  cases d with
  | method d =>
    have hcontext : g.bodyContext id (.method d) = d.signature.context place := by
      rw [bodyContext, hplace _ rfl]
    rw [annotateDecl, hcontext]
    obtain ⟨signature, _ | code, header⟩ := d <;> rfl
  | globalFunction d =>
    obtain rfl : place = {} := hstands
    obtain ⟨signature, _ | code, header⟩ := d <;> rfl
  | property d =>
    rw [annotateDecl, hplace _ rfl]
    obtain ⟨name, storage, mode, attributes, isStatic, header⟩ := d
    rcases mode with _ | ⟨getter, _ | setter⟩ | ⟨getter, setter⟩ <;> rfl
  | _ => rfl

/-! ### What is left alone -/

/-- The second graph differs from the first at most in the slots of the expressions of one
declaration. -/
structure FilledAt (id : DeclId) (g g' : Graph) : Prop where
  /-- The files are the same. -/
  files_eq : g'.files = g.files
  /-- No slot was added or dropped. -/
  length_eq : g'.slots.length = g.slots.length
  /-- Every other slot is the same. -/
  slot_eq : ∀ i, i ≠ id.toNat → g'.slots[i]? = g.slots[i]?
  /-- The owner of the declaration is the same. -/
  parent_eq : g'.parent? id = g.parent? id
  /-- The declaration is the same without its slots. -/
  bare_eq : (g'.get? id).map Decl.bare = (g.get? id).map Decl.bare

theorem filledAt_annotated (c : Catalog) (g : Graph) (id : DeclId) :
    FilledAt id g (annotated c g id) := by
  unfold annotated
  cases hn : g.node? id with
  | none => exact ⟨rfl, rfl, fun _ _ => rfl, rfl, rfl⟩
  | some n =>
    have hnode := node?_setNode (m := { n with decl := annotateDecl c g id n.decl }) hn id
    rw [if_pos rfl] at hnode
    refine ⟨rfl, List.length_set, fun i hi => List.getElem?_set_ne hi.symm, ?_, ?_⟩
    · rw [parent?, parent?, hnode, hn]
      rfl
    · rw [get?, get?, hnode, hn]
      exact congrArg some (bare_annotateDecl c g id n.decl)

/-- Annotating a declaration that is there succeeds. -/
theorem annotate_eq_ok (c : Catalog) (hd : g.get? id = some d) :
    annotate c id g = .ok () (annotated c g id) := by
  obtain ⟨n, hn, -⟩ := exists_node?_of_get? hd
  obtain ⟨_, _, hok, rfl⟩ := (succeeds_annotate hn).exists_ok
  exact hok

/-- The declaration after annotating it. -/
theorem get?_annotated (c : Catalog) (hd : g.get? id = some d) :
    (annotated c g id).get? id = some (annotateDecl c g id d) := by
  obtain ⟨n, hn, rfl⟩ := exists_node?_of_get? hd
  rw [annotated, hn, get?, node?_setNode hn, if_pos rfl]
  rfl

end Graph

/-- **Annotating a declaration fills the slots of its expressions**, and touches nothing else. In a
well-formed graph it succeeds for every declaration there is; it leaves out no body, and annotates
each in the context of its role; and the initial value of a variable is annotated outside of all
types and asked for the type of the variable. -/
theorem annotating_fills_slots_of_owner (c : Catalog) {g : Graph} (hg : g.WellFormed) {id : DeclId}
    {d : Decl} (hd : g.get? id = some d) :
    ∃ g' d' place, Graph.annotate c id g = .ok () g' ∧ Graph.FilledAt id g g' ∧
      g'.get? id = some d' ∧ d'.bodies.length = d.bodies.length ∧
      d.roles.length = d.bodies.length ∧ g.StandsAt id d place ∧
      d'.bodies =
        List.zipWith (fun body role => body.annotate c (role.context place)) d.bodies d.roles ∧
      ∀ v, d = .globalVariable v → d' = .globalVariable
        { v with initial := v.initial.map fun e => e.annotateIn c {} (some v.storage.type) } := by
  obtain ⟨place, hstands, hplace⟩ := hg.exists_standsAt hd
  have hbodies := Graph.bodies_annotateDecl c hstands hplace
  refine ⟨_, _, place, Graph.annotate_eq_ok c hd, Graph.filledAt_annotated c g id,
    Graph.get?_annotated c hd, ?_, d.length_roles, hstands, hbodies, ?_⟩
  · rw [hbodies, List.length_zipWith, d.length_roles, Nat.min_self]
  · rintro v rfl
    rfl

/-- A property whose getter returns `self` and whose setter names the new value. -/
def nickname : PropertyDecl where
  name := "nickname"
  storage := { type := .string }
  mode := .full { body := [.return (some (.identifier "self"))] }
    ⟨"newName", { body := [.expressions [.identifier "newName"]] }⟩

/-- Builds a class with that property. -/
def personScript : List Graph.Command :=
  [.addFile ⟨"Person.m", "Person.swift", {}, [], [], [], [], []⟩,
    .addChild ⟨0⟩ (.type { name := "Person", kind := .classDecl none }),
    .addChild ⟨1⟩ (.property nickname)]

/-- The graph that the script builds. -/
def personGraph : Graph :=
  Graph.runScript personScript {}

/-- The getter sees the class as `self` and is asked for a string, the setter sees the new value as
a string and is asked for nothing. -/
theorem annotating_fills_slots_of_owner_nickname :
    personGraph.WellFormed ∧ personGraph.get? ⟨2⟩ = some (.property nickname) ∧
      ∃ g' d', Graph.annotate {} ⟨2⟩ personGraph = .ok () g' ∧
        Graph.FilledAt ⟨2⟩ personGraph g' ∧ g'.get? ⟨2⟩ = some d' ∧
        d'.bodies.map (fun body => (Body.allExpressions body).map fun e =>
            (e.resolved, e.expected)) =
          [[(some (.named "Person"), some .string)], [(some .string, none)]] := by
  have hle : personGraph.slots.length ≤ 2 ^ 32 := by decide_cbv
  obtain ⟨hwf, -⟩ := Graph.wellFormed_runScript hle
  have hd : personGraph.get? ⟨2⟩ = some (.property nickname) := by cbv
  refine ⟨hwf, hd, ?_⟩
  obtain ⟨g', d', place, hok, hfilled, hd', -, -, hstands, hbodies, -⟩ :=
    annotating_fills_slots_of_owner {} hwf hd
  refine ⟨g', d', hok, hfilled, hd', ?_⟩
  obtain ⟨owner, t, hparent, howner, rfl⟩ := hstands
  have hone : personGraph.parent? ⟨2⟩ = some ⟨1⟩ := by cbv
  have hperson : personGraph.get? ⟨1⟩ =
      some (.type { name := "Person", kind := .classDecl none, properties := [⟨2⟩] }) := by cbv
  obtain rfl := Option.some.inj (hone.symm.trans hparent)
  obtain rfl := Decl.type.inj (Option.some.inj (hperson.symm.trans howner))
  rw [hbodies]
  cbv

end ObjcSwift
