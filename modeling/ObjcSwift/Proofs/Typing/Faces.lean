import ObjcSwift.Pass.Idiom
import ObjcSwift.Proofs.Graph.Outcome
import ObjcSwift.Proofs.Graph.Outline

/-!
# What a catalogue reads of a graph

A catalogue is made from names, signatures and types; what stands in bodies and initial values does
not matter to it. So a declaration has a **face**, itself without the code in it, and the catalogue
of a graph is that of its face (`Catalog.ofGraph_face`).

Annotating and folding change code and nothing else. They keep every face, and with them the
catalogue.
-/

namespace ObjcSwift

/-- The declaration without the code in it. -/
def Decl.face : Decl → Decl
  | method d => method { d with code := none }
  | globalFunction d => globalFunction { d with code := none }
  | property d => property { d with mode := .field }
  | globalVariable d => globalVariable { d with initial := none }
  | d => d

/-- A declaration without the code in it, and its owner. -/
def GraphNode.face (n : GraphNode) : GraphNode :=
  { n with decl := n.decl.face }

/-- The graph without the code in it. -/
def Graph.face (g : Graph) : Graph :=
  { g with slots := g.slots.map (Option.map GraphNode.face) }

/-! ### Reading the face -/

namespace Graph

variable (g : Graph) (id : DeclId)

theorem get?_face : g.face.get? id = (g.get? id).map Decl.face := by
  unfold get? node? face
  rw [List.getElem?_map]
  cases g.slots[id.toNat]? with
  | none => rfl
  | some slot => cases slot <;> rfl

/-- A view of declarations that sees no code but what `f` takes away. -/
theorem bind_get?_face {α : Type} (view : Decl → Option α) (f : α → α)
    (h : ∀ d : Decl, view d.face = (view d).map f) :
    (g.face.get? id).bind view = ((g.get? id).bind view).map f := by
  rw [get?_face]
  cases g.get? id with
  | none => rfl
  | some d => exact h d

theorem live_face : g.face.live = g.live.map fun entry => (entry.1, entry.2.face) := by
  unfold live face
  rw [List.zipIdx_map, List.filterMap_map, List.map_filterMap]
  refine List.filterMap_congr fun entry _ => ?_
  obtain ⟨slot, i⟩ := entry
  cases slot <;> rfl

end Graph

theorem TypeDecl.known_face (g : Graph) (d : TypeDecl) : d.known g.face = d.known g := by
  have hproperty (id : DeclId) := g.bind_get?_face id Decl.property?
    (fun p => { p with mode := .field }) (by rintro (_ | _) <;> rfl)
  have hmethod (id : DeclId) := g.bind_get?_face id Decl.method?
    (fun m => { m with code := none }) (by rintro (_ | _) <;> rfl)
  have hivar (id : DeclId) := g.bind_get?_face id Decl.ivar? (fun i => i)
    (by rintro (_ | _) <;> rfl)
  have hconformance (id : DeclId) := g.bind_get?_face id Decl.conformance? (fun c => c)
    (by rintro (_ | _) <;> rfl)
  unfold known knownMembers
  simp only [hproperty, hmethod, hivar, hconformance, Option.bind_eq_bind, Option.bind_map,
    Option.map_id']
  rfl

namespace Catalog

theorem declare_face (g : Graph) (c : Catalog) (d : Decl) :
    c.declare g.face d.face = c.declare g d := by
  cases d with
  | type d => simp only [Decl.face, declare, TypeDecl.known_face]
  | _ => rfl

/-- **A catalogue does not see code.** -/
theorem ofGraph_face (g : Graph) : ofGraph g.face = ofGraph g := by
  have hstep : (fun (c : Catalog) (entry : DeclId × Decl) => c.declare g.face entry.2.face) =
      fun c entry => c.declare g entry.2 := by
    funext c entry
    exact declare_face g c entry.2
  unfold ofGraph declared
  rw [Graph.live_face, List.foldl_map, hstep]

theorem ofGraph_eq_of_face {g g' : Graph} (h : g'.face = g.face) : ofGraph g' = ofGraph g := by
  rw [← ofGraph_face g', h, ofGraph_face]

end Catalog

/-! ### Keeping the face -/

namespace Graph

open Edit

variable {g g' : Graph} {id : DeclId} {n : GraphNode}

theorem face_setNode {m : GraphNode} (h : g.node? id = some n) (hm : m.face = n.face) :
    (g.setNode id m).face = g.face := by
  unfold face
  rw [map_slots_setNode h hm]
  rfl

theorem face_annotated (c : Catalog) (g : Graph) (id : DeclId) :
    (annotated c g id).face = g.face := by
  unfold annotated
  cases hn : g.node? id with
  | none => rfl
  | some n =>
    refine face_setNode hn ?_
    unfold GraphNode.face
    cases n.decl <;> rfl

theorem outcome_annotate_face (c : Catalog) (id : DeclId) :
    (annotate c id).Outcome g (fun _ g' => g'.face = g.face) fun _ _ => True := by
  rw [annotate, outcome_bind, outcome_node]
  split
  · exact face_annotated c g id
  · trivial

/-- Annotating bodies keeps the face of a graph. -/
theorem outcome_forM_annotate_face (c : Catalog) (ids : List DeclId) :
    (ids.forM (annotate c)).Outcome g (fun _ g' => g'.face = g.face) fun _ _ => True := by
  refine outcome_forM (fun _ g' => g'.face = g.face) (fun id rest g' h => ?_) ids rfl
  exact (outcome_annotate_face c id).mono (fun _ _ h' => h'.trans h) fun _ _ _ => trivial

end Graph

namespace Idiom

open ObjcSwift.Graph ObjcSwift.Graph.Edit

variable {g : Graph}

theorem face_foldDecl (c : Catalog) (d : Decl) : (foldDecl c d).1.face = d.face := by
  cases d with
  | method d =>
    obtain ⟨signature, code, header⟩ := d
    cases code <;> rfl
  | globalFunction d =>
    obtain ⟨signature, code, header⟩ := d
    cases code <;> rfl
  | globalVariable d =>
    obtain ⟨name, storage, initial, header⟩ := d
    cases initial <;> rfl
  | _ => rfl

theorem outcome_foldIn_face (c : Catalog) (id : DeclId) :
    (foldIn c id).Outcome g (fun _ g' => g'.face = g.face) fun _ _ => True := by
  rw [foldIn, outcome_bind, outcome_node]
  split
  · rename_i n hn
    rw [outcome_bind, setDecl, outcome_modifyNode_some hn, outcome_pure]
    refine face_setNode hn ?_
    rw [GraphNode.face, GraphNode.face, face_foldDecl]
  · trivial

/-- **Folding idioms keeps the face of a graph.** -/
theorem outcome_foldAll_face (c : Catalog) :
    (foldAll c).Outcome g (fun _ g' => g'.face = g.face) fun _ _ => True := by
  rw [foldAll, outcome_bind, outcome_get, outcome_bind]
  have hfold : (g.codeOwners.filterM (foldIn c)).Outcome g (fun _ g' => g'.face = g.face)
      fun _ _ => True := by
    refine outcome_filterM (fun _ _ g' => g'.face = g.face) (fun kept id rest g' h => ?_) rfl
    exact (outcome_foldIn_face c id).mono (fun _ _ h' => h'.trans h) fun _ _ _ => trivial
  refine hfold.mono (fun touched g' h => ?_) fun _ _ _ => trivial
  exact (outcome_forM_annotate_face c touched).mono (fun _ _ h' => h'.trans h) fun _ _ _ => trivial

end Idiom

end ObjcSwift
