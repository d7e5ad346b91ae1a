import ObjcSwift.Proofs.Graph.WellFormed

/-!
# Edits and signatures

A graph can be **resigned**: every method gets another signature, which may depend on the number of
the method and on the signature it had (`Graph.resign`). Owners, lists, kinds and bodies stay.

An edit **follows** a change of graphs when it makes no difference whether the graph is changed
first and then edited, or edited first and then changed (`Graph.Edit.Follows`). In general it takes
two edits to say so, one for the graph and one for the changed graph, since an edit may write what
an edit before it has read. The rules for one step after the other and for loops hold for every
change of graphs; that the edits of a graph follow a resigning holds because none of them looks at
signatures.
-/

namespace ObjcSwift

/-! ### Following a change -/

namespace Graph.Edit

variable {α β γ δ : Type} {F : Graph → Graph} {φ : α → β} {ψ : γ → δ}

/-- On a changed graph the second edit does what the first one does on the graph: it ends with the
changed graph, and with an answer or an error that corresponds. -/
def Follows (F : Graph → Graph) (φ : α → β) (e : Edit α) (e' : Edit β) : Prop :=
  ∀ g, e' (F g) = match e g with
    | .ok a g' => .ok (φ a) (F g')
    | .error x g' => .error x (F g')

theorem Follows.of_ok {e : Edit α} {e' : Edit β} (h : Follows F φ e e') {g g' : Graph} {a : α}
    (he : e g = .ok a g') : e' (F g) = .ok (φ a) (F g') := by
  rw [h g, he]

theorem follows_pure (a : α) : Follows F φ (pure a) (pure (φ a)) :=
  fun _ => rfl

theorem follows_throw (x : GraphError) : Follows F φ (throw x) (throw x) :=
  fun _ => rfl

/-- One step after the other follows if both do, the second whatever the first has answered. -/
theorem Follows.bind {e : Edit α} {e' : Edit β} {f : α → Edit γ} {f' : β → Edit δ}
    (h : Follows F φ e e') (hf : ∀ a, Follows F ψ (f a) (f' (φ a))) :
    Follows F ψ (e >>= f) (e' >>= f') := by
  intro g
  change EStateM.bind e' f' (F g) = match EStateM.bind e f g with
    | .ok a g' => .ok (ψ a) (F g')
    | .error x g' => .error x (F g')
  unfold EStateM.bind
  rw [h g]
  cases e g with
  | ok a g' => exact hf a g'
  | error x g' => rfl

theorem Follows.map {e : Edit α} {e' : Edit α} {f : α → γ} (h : Follows F (fun a => a) e e') :
    Follows F (fun a => a) (f <$> e) (f <$> e') := by
  rw [← bind_pure_comp, ← bind_pure_comp]
  exact h.bind fun a => follows_pure (f a)

theorem follows_get : Follows F F get get :=
  fun _ => rfl

theorem follows_set {g g' : Graph} (h : g' = F g) :
    Follows F (fun a => a) (set g : Edit PUnit) (set g') := by
  rw [h]
  exact fun _ => rfl

theorem follows_modify {f f' : Graph → Graph} (h : ∀ g, f' (F g) = F (f g)) :
    Follows F (fun a => a) (modify f : Edit PUnit) (modify f') :=
  fun g => congrArg (EStateM.Result.ok PUnit.unit) (h g)

theorem follows_look {f : Graph → Except GraphError α} {f' : Graph → Except GraphError β}
    (h : ∀ g, f' (F g) = (f g).map φ) : Follows F φ (look f) (look f') := by
  refine follows_get.bind fun g => ?_
  rw [h g]
  cases f g with
  | ok a => exact follows_pure a
  | error x => exact follows_throw x

theorem follows_look_same {f : Graph → Except GraphError α} (h : ∀ g, f (F g) = f g) :
    Follows F (fun a => a) (look f) (look f) := by
  refine follows_look fun g => ?_
  rw [h g]
  cases f g <;> rfl

/-- A loop with answers follows if each of its turns does. -/
theorem follows_mapM {f : α → Edit γ} (h : ∀ a, Follows F (fun a => a) (f a) (f a)) (xs : List α) :
    Follows F (fun a => a) (xs.mapM f) (xs.mapM f) := by
  induction xs with
  | nil => exact follows_pure []
  | cons x xs ih =>
    rw [List.mapM_cons]
    exact (h x).bind fun b => ih.bind fun bs => follows_pure (b :: bs)

theorem follows_filterAuxM {f : α → Edit Bool} (h : ∀ a, Follows F (fun a => a) (f a) (f a))
    (xs : List α) : ∀ kept : List α,
      Follows F (fun a => a) (List.filterAuxM f xs kept) (List.filterAuxM f xs kept) := by
  induction xs with
  | nil => exact fun kept => follows_pure kept
  | cons x xs ih =>
    intro kept
    exact (h x).bind fun b => ih (cond b (x :: kept) kept)

/-- A loop that selects follows if each of its turns does. -/
theorem follows_filterM {f : α → Edit Bool} (h : ∀ a, Follows F (fun a => a) (f a) (f a))
    (xs : List α) : Follows F (fun a => a) (xs.filterM f) (xs.filterM f) :=
  (follows_filterAuxM h xs []).bind fun ys => follows_pure ys.reverse

end Graph.Edit

/-! ### Resigning -/

/-- The declaration with another signature, if it is a method. -/
def Decl.resign (f : Signature → Signature) : Decl → Decl
  | method m => method { m with signature := f m.signature }
  | d => d

/-- A declaration with another signature, if it is a method, and its owner. -/
def GraphNode.resign (f : Signature → Signature) (n : GraphNode) : GraphNode :=
  { n with decl := n.decl.resign f }

/-- Slots with other signatures for the methods in them. -/
def resignSlots (u : DeclId → Signature → Signature) (slots : List (Option GraphNode)) :
    List (Option GraphNode) :=
  slots.mapIdx fun i slot => slot.map (GraphNode.resign (u (.ofNat i)))

/-- The graph with other signatures for its methods. -/
def Graph.resign (u : DeclId → Signature → Signature) (g : Graph) : Graph :=
  { g with slots := resignSlots u g.slots }

namespace Decl

variable {f : Signature → Signature} {d : Decl}

@[simp]
theorem children_resign : (d.resign f).children = d.children := by
  cases d <;> rfl

@[simp]
theorem kindName_resign : (d.resign f).kindName = d.kindName := by
  cases d <;> rfl

theorem childless_resign : (d.resign f).childless = d.childless.resign f := by
  cases d <;> rfl

theorem eraseChild?_resign {id : DeclId} :
    (d.resign f).eraseChild? id = (d.eraseChild? id).map (resign f) := by
  cases d with
  | file d =>
    simp only [resign, eraseChild?]
    split_ifs <;> rfl
  | type d =>
    simp only [resign, eraseChild?]
    split_ifs <;> rfl
  | _ => rfl

end Decl

namespace Graph

open Edit

variable {u : DeclId → Signature → Signature} {g : Graph} {id : DeclId}

theorem getElem?_resignSlots {slots : List (Option GraphNode)} :
    (resignSlots u slots)[id.toNat]? =
      (slots[id.toNat]?).map (Option.map (GraphNode.resign (u id))) := by
  simp only [resignSlots, List.getElem?_mapIdx, DeclId.ofNat_toNat]

theorem set_resignSlots {slots : List (Option GraphNode)} {slot : Option GraphNode} :
    (resignSlots u slots).set id.toNat (slot.map (GraphNode.resign (u id))) =
      resignSlots u (slots.set id.toNat slot) := by
  simp only [resignSlots, List.mapIdx_set, DeclId.ofNat_toNat]

@[simp]
theorem length_resign : (g.resign u).slots.length = g.slots.length := by
  simp [resign, resignSlots]

theorem node?_resign : (g.resign u).node? id = (g.node? id).map (GraphNode.resign (u id)) := by
  simp only [node?, resign, getElem?_resignSlots]
  cases g.slots[id.toNat]? <;> rfl

theorem get?_resign : (g.resign u).get? id = (g.get? id).map (Decl.resign (u id)) := by
  simp only [get?, node?_resign, Option.map_map]
  rfl

theorem parent?_resign : (g.resign u).parent? id = g.parent? id := by
  simp only [parent?, node?_resign, Option.bind_map]
  rfl

theorem setNode_resign {n : GraphNode} :
    (g.resign u).setNode id (n.resign (u id)) = (g.setNode id n).resign u := by
  simp only [setNode, resign, ← set_resignSlots, Option.map_some]

/-- Emptying slots does not look at signatures. -/
theorem free_resignSlots (slots : List (Option GraphNode)) (pending : List DeclId) :
    free (resignSlots u slots) pending = resignSlots u (free slots pending) := by
  fun_induction free slots pending with
  | case1 slots => rw [free]
  | case2 slots id pending node h ih =>
    have hslot : (resignSlots u slots)[id.toNat]? = some (some (node.resign (u id))) := by
      rw [getElem?_resignSlots, h]
      rfl
    rw [free, ← ih]
    split
    · rename_i node' hnode
      obtain rfl : node.resign (u id) = node' := by simpa using hslot.symm.trans hnode
      rw [← set_resignSlots]
      simp only [GraphNode.resign, Decl.children_resign, Option.map_none]
    · rename_i hne
      exact absurd hslot (hne _)
  | case3 slots id pending hne ih =>
    rw [free, ← ih]
    split
    · rename_i node hnode
      rw [getElem?_resignSlots] at hnode
      obtain ⟨slot, hslot, hmap⟩ := Option.map_eq_some_iff.mp hnode
      obtain ⟨n, rfl, -⟩ := Option.map_eq_some_iff.mp hmap
      exact absurd hslot (hne n)
    · rfl

/-- A lookup for a kind that has no signature finds the same. -/
theorem typed_resign {α : Type} {expected : String} {view : Decl → Option α}
    (hview : ∀ f d, view (Decl.resign f d) = view d) :
    (g.resign u).typed id expected view = g.typed id expected view := by
  simp only [typed, get?_resign]
  cases g.get? id with
  | none => rfl
  | some d =>
    simp only [Option.map_some, hview, Decl.kindName_resign]

theorem method_resign :
    (g.resign u).method id =
      (g.method id).map fun m => { m with signature := u id m.signature } := by
  simp only [method, typed, get?_resign]
  cases g.get? id with
  | none => rfl
  | some d => cases d <;> rfl

/-- Only the signatures of the methods that are there matter. -/
theorem resign_congr {v : DeclId → Signature → Signature} (hle : g.slots.length ≤ 2 ^ 32)
    (h : ∀ id, g.node? id ≠ none → u id = v id) : g.resign u = g.resign v := by
  refine ext_node? rfl (length_resign.trans length_resign.symm) (length_resign.symm ▸ hle)
    fun id => ?_
  rw [node?_resign, node?_resign]
  cases hn : g.node? id with
  | none => rfl
  | some n => rw [h id (by simp [hn])]

theorem typeIds_resign : (g.resign u).typeIds = g.typeIds := by
  unfold typeIds
  refine List.flatMap_congr fun f _ => ?_
  rw [file, file, typed_resign fun f d => by cases d <;> rfl]

theorem live_resign :
    (g.resign u).live = g.live.map fun entry => (entry.1, entry.2.resign (u entry.1)) := by
  have hslots : (resignSlots u g.slots).zipIdx = g.slots.zipIdx.map fun entry =>
      (entry.1.map (GraphNode.resign (u (.ofNat entry.2))), entry.2) := by
    refine List.ext_getElem (by simp [resignSlots]) fun i hi hi' => ?_
    simp [resignSlots]
  unfold live resign
  rw [hslots, List.filterMap_map, List.map_filterMap]
  refine List.filterMap_congr fun entry _ => ?_
  obtain ⟨slot, i⟩ := entry
  cases slot <;> rfl

theorem codeOwners_resign : (g.resign u).codeOwners = g.codeOwners := by
  have howns : ∀ f (d : Decl), (d.resign f).ownsCode = d.ownsCode := fun f d => by cases d <;> rfl
  unfold codeOwners
  rw [live_resign, List.filter_map, List.map_map]
  simp only [Function.comp_def, howns]

/-! ### The edits of a graph -/

theorem follows_node : Follows (resign u) (GraphNode.resign (u id)) (node id) (node id) := by
  refine follows_get.bind fun g => ?_
  rw [node?_resign]
  cases g.node? id with
  | none => exact follows_throw _
  | some n => exact follows_pure n

theorem follows_look_typed {α : Type} {expected : String} {view : Decl → Option α}
    (hview : ∀ f d, view (Decl.resign f d) = view d) :
    Follows (resign u) (fun a => a) (look fun g => g.typed id expected view)
      (look fun g => g.typed id expected view) :=
  follows_look_same fun _ => typed_resign hview

theorem follows_look_method :
    Follows (resign u) (fun m => { m with signature := u id m.signature })
      (look fun g => g.method id) (look fun g => g.method id) :=
  follows_look fun _ => method_resign

theorem follows_modifyNode {f f' : GraphNode → GraphNode}
    (h : ∀ n, f' (GraphNode.resign (u id) n) = (f n).resign (u id)) :
    Follows (resign u) (fun a => a) (modifyNode id f) (modifyNode id f') := by
  refine follows_node.bind fun n => follows_modify fun g => ?_
  rw [h, setNode_resign]

theorem follows_setDecl {d d' : Decl} (h : d' = d.resign (u id)) :
    Follows (resign u) (fun a => a) (setDecl id d) (setDecl id d') :=
  follows_modifyNode fun n => by rw [h]; rfl

theorem follows_unlink : Follows (resign u) (fun a => a) (unlink id) (unlink id) := by
  have hlast : Follows (resign u) (fun a => a) (modifyNode id fun n => { n with parent := none })
      (modifyNode id fun n => { n with parent := none }) := follows_modifyNode fun _ => rfl
  refine follows_node.bind fun n => ?_
  rw [show (n.resign (u id)).parent = n.parent from rfl]
  cases n.parent with
  | some p =>
    refine follows_node.bind fun owner => ?_
    rw [show (owner.resign (u p)).decl = owner.decl.resign (u p) from rfl, Decl.eraseChild?_resign]
    cases owner.decl.eraseChild? id with
    | none => exact follows_throw (.notAChild id p)
    | some d =>
      refine (follows_modify fun g => ?_).bind fun _ => hlast
      exact setNode_resign (n := { owner with decl := d })
  | none =>
    refine follows_get.bind fun g => ?_
    rw [show (g.resign u).files = g.files from rfl]
    dsimp only
    split_ifs
    · exact (follows_set rfl).bind fun _ => hlast
    · exact follows_throw (.orphaned id)

/-- **Removing** does not look at signatures. -/
theorem follows_remove : Follows (resign u) (Decl.resign (u id)) (remove id) (remove id) := by
  refine follows_unlink.bind fun _ => follows_node.bind fun n => ?_
  refine (follows_modify fun g => ?_).bind fun _ => ?_
  · rw [resign, resign, free_resignSlots]
  · rw [show (n.resign (u id)).decl = n.decl.resign (u id) from rfl, Decl.childless_resign]
    exact follows_pure n.decl.childless

theorem follows_removeChild {child : DeclId} :
    Follows (resign u) (Decl.resign (u child)) (removeChild id child) (removeChild id child) := by
  refine follows_get.bind fun g => ?_
  have hchildren : ((g.resign u).get? id).any (fun d => d.children.contains child) =
      (g.get? id).any fun d => d.children.contains child := by
    rw [get?_resign]
    cases g.get? id <;> simp
  rw [parent?_resign, hchildren]
  split_ifs
  · exact follows_remove
  · exact follows_throw _

end Graph

end ObjcSwift
