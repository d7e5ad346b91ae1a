import ObjcSwift.Proofs.Graph.Lookups
import ObjcSwift.Proofs.Graph.WellFormed

/-!
# Graphs without some of their methods

A graph is **reduced** (`Graph.reduce`) when some methods are gone from it, with the places at which
their types list them, and when some properties got other accessors. What is left of a declaration
depends on what it was and on what is gone, so a reduced graph is described by the graph it was made
from, by a list of methods and by a table of accessors.

One more method that is removed from its type makes that list one longer
(`outcome_remove_reduce`), and one more property that gets accessors the table
(`outcome_setMode_reduce`). So an edit that does many such steps reduces the graph it started from,
and what it has done can be read off from the list and from the table.
-/

namespace ObjcSwift

/-! ### Reducing -/

/-- The declaration without methods that are gone, and with other accessors if it is a property and
there are any. -/
def Decl.reduce (gone : List DeclId) (mode? : Option PropertyMode) : Decl → Decl
  | type d => type { d with methods := d.methods.filter fun id => id ∉ gone }
  | property p => property { p with mode := mode?.getD p.mode }
  | d => d

/-- What is left of a node. -/
def GraphNode.reduce (gone : List DeclId) (mode? : Option PropertyMode) (n : GraphNode) :
    GraphNode :=
  { n with decl := n.decl.reduce gone mode? }

/-- The graph without some methods, and with other accessors for some properties. -/
def Graph.reduce (g : Graph) (gone : List DeclId) (modes : List (DeclId × PropertyMode)) : Graph :=
  { g with
    slots := g.slots.mapIdx fun i slot =>
      if DeclId.ofNat i ∈ gone then none
      else slot.map (GraphNode.reduce gone (modes.lookup (.ofNat i))) }

namespace Graph

open Edit

variable {g : Graph} {id : DeclId} {gone : List DeclId} {modes : List (DeclId × PropertyMode)}

theorem node?_reduce : (g.reduce gone modes).node? id =
    if id ∈ gone then none else (g.node? id).map (GraphNode.reduce gone (modes.lookup id)) := by
  simp only [node?, reduce, List.getElem?_mapIdx, DeclId.ofNat_toNat]
  cases g.slots[id.toNat]? with
  | none => split_ifs <;> rfl
  | some slot => split_ifs <;> rfl

@[simp]
theorem length_reduce : (g.reduce gone modes).slots.length = g.slots.length := by
  simp [reduce]

/-- It does not matter in which order methods went. -/
theorem reduce_congr {gone' : List DeclId} (h : ∀ id, id ∈ gone ↔ id ∈ gone') :
    g.reduce gone modes = g.reduce gone' modes := by
  have hnode : GraphNode.reduce gone = GraphNode.reduce gone' := by
    funext mode? n
    obtain ⟨parent, d⟩ := n
    cases d <;> simp only [GraphNode.reduce, Decl.reduce, h]
  simp only [reduce, hnode, h]

theorem reduce_nil : g.reduce [] [] = g := by
  have hnode : GraphNode.reduce [] none = id := by
    funext n
    obtain ⟨parent, d⟩ := n
    cases d <;> simp [GraphNode.reduce, Decl.reduce]
  refine congrArg (Graph.mk · g.files) (List.ext_getElem (by simp) fun i hi hi' => ?_)
  simp [hnode]

/-- What is no type and no property, and is not gone, is left as it is. -/
theorem node?_reduce_of_kind (hid : id ∉ gone) {kind : Option ChildList}
    (h : g.kind? id = some kind) (htype : kind ≠ some .types)
    (hproperty : kind ≠ some .properties) :
    (g.reduce gone modes).node? id = g.node? id := by
  obtain ⟨⟨parent, d⟩, hn, rfl⟩ := exists_node?_of_kind? h
  rw [node?_reduce, if_neg hid, hn]
  cases d with
  | type d => exact absurd rfl htype
  | property p => exact absurd rfl hproperty
  | _ => rfl

/-- A method that is not gone is left as it is. -/
theorem method_reduce (hid : id ∉ gone) {m : MethodDecl} (h : g.get? id = some (.method m)) :
    (g.reduce gone modes).method id = .ok m := by
  obtain ⟨n, hn, hd⟩ := exists_node?_of_get? h
  have hkind : g.kind? id = some (some .methods) := by
    rw [kind?_of_node? hn, hd]
    rfl
  rw [method, typed, get?, node?_reduce_of_kind hid hkind (by simp) (by simp), hn, Option.map_some,
    hd]
  rfl

/-! ### One more step -/

/-- The type of a method that is removed from it lists the other methods. -/
theorem eraseChild?_reduce {d : TypeDecl} {mode? : Option PropertyMode} (hnodup : d.methods.Nodup)
    (hmem : id ∈ d.methods) (hproperty : id ∉ d.properties) (hid : id ∉ gone) :
    ((Decl.type d).reduce gone mode?).eraseChild? id =
      some ((Decl.type d).reduce (id :: gone) mode?) := by
  have hfilter : (d.methods.filter fun j => j ∉ gone).erase id =
      d.methods.filter fun j => j ∉ id :: gone := by
    rw [(hnodup.filter _).erase_eq_filter, List.filter_filter]
    refine List.filter_congr fun j _ => ?_
    by_cases hj : j = id <;> simp [hj]
  have hcontains : (d.methods.filter fun j => j ∉ gone).contains id = true := by
    simpa using ⟨hmem, hid⟩
  simp only [Decl.reduce, Decl.eraseChild?, List.contains_eq_mem, hproperty, decide_false, hfilter]
  rw [if_neg (by simp), if_pos (by simpa using hcontains)]

/-- In the other types a method is not listed, so it is not missed there. -/
theorem node?_reduce_cons (hc : g.outline.Consistent none) {t j : DeclId} {m : MethodDecl}
    (hn : g.node? id = some ⟨some t, .method m⟩) (hj : j ≠ id) (hjt : j ≠ t) :
    (g.reduce (id :: gone) modes).node? j = (g.reduce gone modes).node? j := by
  have hmem : j ∈ id :: gone ↔ j ∈ gone := by simp [hj]
  simp only [node?_reduce, hmem]
  split_ifs
  · rfl
  · cases hnode : g.node? j with
    | none => rfl
    | some n =>
      obtain ⟨parent, decl⟩ := n
      cases decl with
      | type d =>
        -- Its owner is `t`, so this type does not list it.
        have hother : id ∉ d.methods := by
          intro hid
          have hlist : id ∈ g.listOf j .methods := by rwa [listOf_of_node? hnode]
          have hplace := (place?_of_node? hn).symm.trans (hc.mem_listOf_iff.mp hlist)
          exact hjt (by simpa [GraphNode.place] using (congrArg (·.map Place.owner) hplace).symm)
        have hfilter : (d.methods.filter fun k => k ∉ id :: gone) =
            d.methods.filter fun k => k ∉ gone := by
          refine List.filter_congr fun k hk => ?_
          have hne : k ≠ id := fun he => hother (he ▸ hk)
          simp [hne]
        simp only [Option.map_some, GraphNode.reduce, Decl.reduce, hfilter]
      | _ => rfl

/-- **Removing one more method** from its type. -/
theorem outcome_remove_reduce (hc : g.outline.Consistent none) (hle : g.slots.length ≤ 2 ^ 32)
    {t : DeclId} {m : MethodDecl} (hn : g.node? id = some ⟨some t, .method m⟩) (hid : id ∉ gone)
    (ht : t ∉ gone) :
    (remove id).Outcome (g.reduce gone modes)
      (fun d g' => d = .method m ∧ g' = g.reduce (id :: gone) modes) fun _ _ => True := by
  obtain ⟨owner, list, ho, hlist, hne, hmem⟩ := exists_owner hc hn rfl
  obtain rfl : list = .methods := (Option.some.inj hlist).symm
  have hlisted : id ∈ owner.decl.listOf .methods := (hmem .methods).mpr rfl
  obtain ⟨d, hd⟩ := Decl.view_type.exists_make owner.decl (Decl.ownList?_of_mem_listOf hlisted)
  -- The owner lists it once, among the methods, and it is not gone yet.
  have herase : (owner.decl.reduce gone (modes.lookup t)).eraseChild? id =
      some (owner.decl.reduce (id :: gone) (modes.lookup t)) := by
    have hnodup : (g.listOf t .methods).Nodup := hc.nodup_listOf t .methods
    rw [listOf_of_node? ho, hd] at hnodup
    rw [hd] at hmem ⊢
    exact eraseChild?_reduce hnodup ((hmem .methods).mpr rfl)
      (fun h => absurd ((hmem .properties).mp h) (by simp)) hid
  have hn' : (g.reduce gone modes).node? id = some ⟨some t, .method m⟩ := by
    rw [node?_reduce, if_neg hid, hn]
    rfl
  have ho' : (g.reduce gone modes).node? t = some (owner.reduce gone (modes.lookup t)) := by
    rw [node?_reduce, if_neg ht, ho]
    rfl
  refine (outcome_remove_owned hn' rfl ho').mono (fun d' g' h => ?_) fun _ _ hx => hx
  obtain ⟨owner', n', howner, hm, rfl, rfl⟩ := h
  obtain rfl := Option.some.inj (herase.symm.trans howner)
  obtain rfl : n' = ⟨some t, .method m⟩ := by
    rw [node?_setNode ho', if_neg hne.symm, hn'] at hm
    exact (Option.some.inj hm).symm
  refine ⟨rfl, ext_node? rfl ?_ ?_ fun j => ?_⟩
  · simp [length_free, setNode]
  · simpa [length_free, setNode] using hle
  · rw [node?_free_leaf ho' hm rfl]
    split_ifs with hj hjt
    · rw [node?_reduce, if_pos (by simp [hj])]
    · rw [hjt, node?_reduce, if_neg (by simp [hne, ht]), ho]
      rfl
    · exact (node?_reduce_cons hc hn hj hjt).symm

/-- **Giving one more property accessors.** -/
theorem outcome_setMode_reduce {α : Type} (hle : g.slots.length ≤ 2 ^ 32) {p : PropertyDecl}
    (hp : g.get? id = some (.property p)) (hid : id ∉ gone) (hfresh : modes.lookup id = none)
    (mode : PropertyMode) (answer : α) :
    (do
      let p ← Graph.look (·.property id)
      Graph.setDecl id (.property { p with mode })
      return answer : Edit α).Outcome (g.reduce gone modes)
        (fun a g' => a = answer ∧ g' = g.reduce gone (modes ++ [(id, mode)])) fun _ _ => True := by
  obtain ⟨n, hn, hd⟩ := exists_node?_of_get? hp
  have hn' : (g.reduce gone modes).node? id = some { n with decl := .property p } := by
    rw [node?_reduce, if_neg hid, hn, hfresh, Option.map_some, GraphNode.reduce, hd]
    rfl
  have hlook : (g.reduce gone modes).property id = .ok p := by
    rw [property, typed, get?, hn']
    rfl
  rw [outcome_bind, outcome_look_ok hlook, outcome_bind, setDecl, outcome_modifyNode_some hn']
  refine ⟨rfl, ext_node? rfl (by simp [setNode]) (by simpa [setNode] using hle) fun j => ?_⟩
  rw [node?_setNode hn', node?_reduce, node?_reduce, List.lookup_append]
  by_cases hj : j = id
  · subst hj
    simp [hid, hn, hfresh, GraphNode.reduce, hd, Decl.reduce]
  · have hne : (j == id) = false := by simpa using hj
    simp [hj, List.lookup, hne]

end Graph

end ObjcSwift
