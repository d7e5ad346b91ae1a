import ObjcSwift.Proofs.Conversion
import ObjcSwift.Proofs.Graph.Reducing
import ObjcSwift.Proofs.Graph.Scripts
import ObjcSwift.Proofs.Pass.Commutation
import ObjcSwift.Proofs.Pass.Requirements
import Mathlib

/-!
# What properties take over

Merging accessors goes through the properties of each type and removes methods while it does. Which
methods it removes can be said beforehand, from the graph as it was: a **taking** (`Taking`) is a
property with the methods that it takes over, and the takings of a type are found by going through
its properties once, with a list of the methods that are taken already (`Graph.takingsFrom`). A
graph in which properties have taken over methods (`Graph.takeOver`) lacks these methods, and the
properties carry their bodies.

In a graph where owners and lists agree, a taking stands in its type (`Graph.Placed`), so takings of
different types have nothing to do with each other, and no method is in two takings
(`Graph.nodup_methods_takings`). When all is taken, there are no takings left
(`Graph.takings_eq_nil`): a getter that is left was there when its property had its turn.
-/

namespace ObjcSwift

open ObjcSwift.Graph ObjcSwift.Graph.Edit

/-! ### Takings -/

/-- A property of a type, with the methods that it takes over. -/
structure Taking where
  /-- The type. -/
  type : DeclId
  /-- The property. -/
  property : DeclId
  /-- The method that gets it. -/
  getter : DeclId
  /-- The method that sets it. -/
  setter : Option DeclId

/-- The methods that are taken over. -/
def Taking.methods (a : Taking) : List DeclId :=
  a.getter :: a.setter.toList

namespace PropertyDecl

/-- The method is named like the getter of the property, takes nothing, and is static if the
property is. -/
def isGotBy (p : PropertyDecl) (m : MethodDecl) : Bool :=
  m.signature.name == p.getterName && m.signature.parameters.isEmpty &&
    m.signature.isStatic == p.isStatic

/-- The method is named like the setter of the property, is static if the property is, returns
nothing, and takes one value without label, of the type of the property up to optional layers. -/
def isSetBy (p : PropertyDecl) (m : MethodDecl) : Bool :=
  m.signature.name == p.setterName && m.signature.isStatic == p.isStatic &&
    m.signature.result.isVoid &&
      match m.signature.parameters with
      | [value] => value.label.isNone && value.type.base == p.storage.type.base
      | _ => false

end PropertyDecl

namespace Graph

variable (g : Graph)

/-- The first method of a list that is not taken and is as asked for. -/
def firstMethod? (methods taken : List DeclId) (q : MethodDecl → Bool) : Option DeclId :=
  methods.find? fun id => id ∉ taken && ((g.get? id).bind Decl.method?).any q

/-- What a property takes over, given what is taken already: nothing unless it is a field and there
is a getter, and a setter only together with a getter and if it may be set. -/
def taking? (type : DeclId) (methods taken : List DeclId) (id : DeclId) : Option Taking :=
  match (g.get? id).bind Decl.property? with
  | some p =>
    if p.mode.isField then
      (g.firstMethod? methods taken p.isGotBy).map fun getter =>
        ⟨type, id, getter,
          if p.isReadonly then none else g.firstMethod? methods taken p.isSetBy⟩
    else none
  | none => none

/-- What some properties of a type take over, one after the other. -/
def takingsFrom (type : DeclId) (methods : List DeclId) :
    (taken properties : List DeclId) → List Taking
  | _, [] => []
  | taken, id :: rest =>
    let a := g.taking? type methods taken id
    a.toList ++ takingsFrom type methods (a.elim taken (·.methods ++ taken)) rest

/-- What the properties of a class or extension take over. -/
def takingsIn (type : DeclId) : List Taking :=
  match g.get? type with
  | some (.type d) => if d.isProtocol then [] else g.takingsFrom type d.methods [] d.properties
  | _ => []

/-- What all properties take over. -/
def takings : List Taking :=
  g.typeIds.flatMap g.takingsIn

/-- The body of a method; a method without body has an empty one. -/
def codeOf (id : DeclId) : Code :=
  (((g.get? id).bind Decl.method?).bind (·.code)).getD {}

/-- A method as a setter: the name of what it takes, and its body. -/
def setterOf? (id : DeclId) : Option Setter := do
  let m ← (g.get? id).bind Decl.method?
  let value ← m.signature.parameters.head?
  return ⟨value.name, g.codeOf id⟩

end Graph

/-- The accessors of a property that has taken over methods. A property of an extension is never
stored. -/
def Taking.mode (g : Graph) (a : Taking) : PropertyMode :=
  match a.setter.bind g.setterOf? with
  | some setter =>
    if ((g.get? a.type).bind Decl.type?).any (·.isExtension) then
      .computed (g.codeOf a.getter) (some setter)
    else .full (g.codeOf a.getter) setter
  | none => .computed (g.codeOf a.getter) none

/-- The graph in which properties have taken over methods. -/
def Graph.takeOver (g : Graph) (takes : List Taking) : Graph :=
  g.reduce (takes.flatMap Taking.methods) (takes.map fun a => (a.property, a.mode g))

/-! ### Where takings stand -/

namespace Graph

variable {g : Graph} {t id : DeclId} {methods taken : List DeclId} {a : Taking}

theorem firstMethod?_eq_some {q : MethodDecl → Bool}
    (h : g.firstMethod? methods taken q = some id) :
    id ∈ methods ∧ id ∉ taken ∧ ∃ m, g.get? id = some (.method m) ∧ q m = true := by
  have hfound := List.find?_some h
  simp only [Bool.and_eq_true, decide_eq_true_eq, Option.any_eq_true] at hfound
  obtain ⟨htaken, m, hm, hq⟩ := hfound
  refine ⟨List.mem_of_find?_eq_some h, htaken, m, ?_, hq⟩
  obtain ⟨d, hd, hview⟩ := Option.bind_eq_some_iff.mp hm
  rw [hd, (Decl.view_method.eq_some_iff d m).mp hview]

/-- What is known of a taking: the property is a field, the getter is one of the methods that were
not taken, and so is the setter, which is another one. -/
theorem taking?_eq_some (h : g.taking? t methods taken id = some a) :
    a.type = t ∧ a.property = id ∧
      (∃ p, g.get? id = some (.property p) ∧ p.mode.isField = true ∧
        g.firstMethod? methods taken p.isGotBy = some a.getter ∧
        a.setter = if p.isReadonly then none else g.firstMethod? methods taken p.isSetBy) := by
  unfold taking? at h
  split at h
  · rename_i p hp
    by_cases hfield : p.mode.isField = true
    · rw [if_pos hfield] at h
      obtain ⟨getter, hgetter, rfl⟩ := Option.map_eq_some_iff.mp h
      obtain ⟨d, hd, hview⟩ := Option.bind_eq_some_iff.mp hp
      refine ⟨rfl, rfl, p, ?_, hfield, hgetter, rfl⟩
      rw [hd, (Decl.view_property.eq_some_iff d p).mp hview]
    · rw [if_neg hfield] at h
      exact absurd h (by simp)
  · exact absurd h (by simp)

theorem mem_methods_of_taking? (h : g.taking? t methods taken id = some a) :
    ∀ m ∈ a.methods, m ∈ methods ∧ m ∉ taken := by
  obtain ⟨-, -, p, -, -, hgetter, hsetter⟩ := taking?_eq_some h
  intro m hm
  rcases List.mem_cons.mp hm with rfl | hm
  · exact ⟨(firstMethod?_eq_some hgetter).1, (firstMethod?_eq_some hgetter).2.1⟩
  · rw [Option.mem_toList, hsetter, Option.ite_none_left_eq_some] at hm
    exact ⟨(firstMethod?_eq_some hm.2).1, (firstMethod?_eq_some hm.2).2.1⟩

/-- A setter takes a value and a getter takes none, so they are not the same method. -/
theorem nodup_methods_of_taking? (h : g.taking? t methods taken id = some a) :
    a.methods.Nodup := by
  obtain ⟨-, -, p, -, -, hgetter, hsetter⟩ := taking?_eq_some h
  unfold Taking.methods
  cases hs : a.setter with
  | none => simp
  | some setter =>
    rw [hs, eq_comm, Option.ite_none_left_eq_some] at hsetter
    obtain ⟨-, -, m, hm, hgets⟩ := firstMethod?_eq_some hgetter
    obtain ⟨-, -, m', hm', hsets⟩ := firstMethod?_eq_some hsetter.2
    suffices a.getter ≠ setter by simpa using this
    rintro rfl
    obtain rfl : m = m' := by simpa [hm] using hm'
    have hempty : m.signature.parameters = [] := by
      simp only [PropertyDecl.isGotBy, Bool.and_eq_true, List.isEmpty_iff] at hgets
      exact hgets.1.2
    simp [PropertyDecl.isSetBy, hempty] at hsets

/-- A setter takes one value. -/
theorem exists_value_of_taking? (h : g.taking? t methods taken id = some a) :
    ∀ setter ∈ a.setter, ∃ m value, g.get? setter = some (.method m) ∧
      m.signature.parameters = [value] := by
  obtain ⟨-, -, p, -, -, -, hsetter⟩ := taking?_eq_some h
  intro setter hs
  rw [hsetter, Option.mem_def, Option.ite_none_left_eq_some] at hs
  obtain ⟨-, -, m, hm, hsets⟩ := firstMethod?_eq_some hs.2
  refine ⟨m, ?_⟩
  unfold PropertyDecl.isSetBy at hsets
  split at hsets
  · rename_i value hvalue
    exact ⟨value, hm, hvalue⟩
  · exact absurd hsets (by simp)

/-- Takings come from the properties and the methods they were looked for in, and a method that is
taken was not taken before. -/
theorem mem_takingsFrom {properties : List DeclId}
    (h : a ∈ g.takingsFrom t methods taken properties) :
    ∃ taken', taken ⊆ taken' ∧ a.property ∈ properties ∧
      g.taking? t methods taken' a.property = some a := by
  induction properties generalizing taken with
  | nil => exact absurd h (by simp [takingsFrom])
  | cons id rest ih =>
    rcases List.mem_append.mp h with h | h
    · have ha := Option.mem_toList.mp h
      have hid := (taking?_eq_some ha).2.1
      exact ⟨taken, fun _ hm => hm, hid ▸ List.mem_cons_self, hid ▸ ha⟩
    · obtain ⟨taken', hsub, hmem, ha⟩ := ih h
      -- What the first property takes is taken too when the others have their turn.
      refine ⟨taken', fun m hm => hsub ?_, List.mem_cons_of_mem id hmem, ha⟩
      cases g.taking? t methods taken id with
      | none => exact hm
      | some b => exact List.mem_append_right _ hm

/-- **No method is taken twice.** -/
theorem nodup_takingsFrom {properties : List DeclId} :
    ((g.takingsFrom t methods taken properties).flatMap Taking.methods).Nodup := by
  induction properties generalizing taken with
  | nil => exact List.nodup_nil
  | cons id rest ih =>
    rw [takingsFrom, List.flatMap_append]
    cases ha : g.taking? t methods taken id with
    | none => exact ih
    | some a =>
      have hsingle : (some a).toList.flatMap Taking.methods = a.methods := by simp
      rw [hsingle]
      -- When the others have their turn, the methods of the first are taken already.
      refine (nodup_methods_of_taking? ha).append ih fun m hm hrest => ?_
      obtain ⟨b, hb, hmb⟩ := List.mem_flatMap.mp hrest
      obtain ⟨taken', hsub, -, hb'⟩ := mem_takingsFrom hb
      exact (mem_methods_of_taking? hb' m hmb).2 (hsub (List.mem_append_left taken hm))

/-- No property takes over methods twice. -/
theorem nodup_property_takingsFrom {properties : List DeclId} (h : properties.Nodup) :
    ((g.takingsFrom t methods taken properties).map (·.property)).Nodup := by
  induction properties generalizing taken with
  | nil => exact List.nodup_nil
  | cons id rest ih =>
    obtain ⟨hid, hrest⟩ := List.nodup_cons.mp h
    rw [takingsFrom, List.map_append]
    cases ha : g.taking? t methods taken id with
    | none => exact ih hrest
    | some a =>
      refine List.nodup_cons.mpr ⟨fun hm => hid ?_, ih hrest⟩
      obtain ⟨b, hb, hproperty⟩ := List.mem_map.mp hm
      obtain ⟨-, -, hmem, -⟩ := mem_takingsFrom hb
      have hproperty : b.property = a.property := hproperty
      rwa [hproperty, (taking?_eq_some ha).2.1] at hmem

theorem mem_takingsIn (h : a ∈ g.takingsIn t) :
    a.type = t ∧ ∃ d taken, g.get? t = some (.type d) ∧ d.isProtocol = false ∧
      a.property ∈ d.properties ∧ g.taking? t d.methods taken a.property = some a := by
  unfold takingsIn at h
  split at h
  · rename_i d hd
    split_ifs at h with hprotocol
    · exact absurd h (by simp)
    · obtain ⟨taken, -, hmem, ha⟩ := mem_takingsFrom h
      exact ⟨(taking?_eq_some ha).1, d, taken, hd, by simpa using hprotocol, hmem, ha⟩
  · exact absurd h (by simp)

/-- In a graph where owners and lists agree, the property and the methods of a taking stand in its
type. -/
structure Placed (g : Graph) (a : Taking) : Prop where
  /-- The property. -/
  property : g.place? a.property = some ⟨some a.type, some .properties⟩
  /-- The methods. -/
  methods : ∀ m ∈ a.methods, g.place? m = some ⟨some a.type, some .methods⟩

theorem exists_method_of_place? (h : g.place? id = some ⟨some t, some .methods⟩) :
    ∃ m, g.node? id = some ⟨some t, .method m⟩ := by
  obtain ⟨⟨parent, decl⟩, hn, hparent, hlist⟩ := exists_node?_of_place? h
  obtain rfl : parent = some t := hparent
  obtain ⟨m, rfl⟩ := Decl.view_method.exists_make decl hlist
  exact ⟨m, hn⟩

theorem exists_property_of_place? (h : g.place? id = some ⟨some t, some .properties⟩) :
    ∃ p, g.node? id = some ⟨some t, .property p⟩ := by
  obtain ⟨⟨parent, decl⟩, hn, hparent, hlist⟩ := exists_node?_of_place? h
  obtain rfl : parent = some t := hparent
  obtain ⟨p, rfl⟩ := Decl.view_property.exists_make decl hlist
  exact ⟨p, hn⟩

/-- The members of a type stand in it. -/
theorem place?_of_mem (hc : g.outline.Consistent none) {d : TypeDecl}
    (hd : g.get? t = some (.type d)) (list : ChildList) (hid : id ∈ (Decl.type d).listOf list) :
    g.place? id = some ⟨some t, some list⟩ := by
  obtain ⟨n, hn, hdecl⟩ := exists_node?_of_get? hd
  refine hc.mem_listOf_iff.mp (show id ∈ g.listOf t list from ?_)
  rwa [listOf_of_node? hn, hdecl]

theorem placed_of_taking? (hc : g.outline.Consistent none) {d : TypeDecl}
    (hd : g.get? t = some (.type d)) (hid : id ∈ d.properties)
    (ha : g.taking? t d.methods taken id = some a) : g.Placed a := by
  obtain ⟨htype, hproperty, -⟩ := taking?_eq_some ha
  refine ⟨?_, fun m hm => ?_⟩
  · rw [htype, hproperty]
    exact place?_of_mem hc hd .properties hid
  · rw [htype]
    exact place?_of_mem hc hd .methods (mem_methods_of_taking? ha m hm).1

theorem placed_takings (hc : g.outline.Consistent none) : ∀ a ∈ g.takings, g.Placed a := by
  intro a ha
  obtain ⟨t, -, ha⟩ := List.mem_flatMap.mp ha
  obtain ⟨-, d, taken, hd, -, hmem, ha⟩ := mem_takingsIn ha
  exact placed_of_taking? hc hd hmem ha

theorem mem_takingsIn_of_mem (h : a ∈ g.takings) : a ∈ g.takingsIn a.type := by
  obtain ⟨t, -, ha⟩ := List.mem_flatMap.mp h
  rwa [(mem_takingsIn ha).1]

/-- What takings of one type have once, all takings have once, if it stands in the type. -/
theorem nodup_flatMap_takings (hc : g.outline.Consistent none) {f : Taking → List DeclId}
    (list : ChildList)
    (hplace : ∀ a ∈ g.takings, ∀ id ∈ f a, g.place? id = some ⟨some a.type, some list⟩)
    (h : ∀ t d, g.get? t = some (.type d) →
      ((g.takingsFrom t d.methods [] d.properties).flatMap f).Nodup) :
    (g.takings.flatMap f).Nodup := by
  rw [takings, List.flatMap_assoc, List.nodup_flatMap]
  constructor
  · intro t _
    unfold takingsIn
    split
    · rename_i d hd
      split_ifs
      · exact List.nodup_nil
      · exact h t d hd
    · exact List.nodup_nil
  · -- What two types have in common would stand in both.
    refine (nodup_typeIds hc).imp_of_mem fun ht ht' hne => ?_
    intro id hid hid'
    obtain ⟨a, ha, hida⟩ := List.mem_flatMap.mp hid
    obtain ⟨b, hb, hidb⟩ := List.mem_flatMap.mp hid'
    have hsame := hplace a (List.mem_flatMap.mpr ⟨_, ht, ha⟩) id hida
    rw [hplace b (List.mem_flatMap.mpr ⟨_, ht', hb⟩) id hidb] at hsame
    have htype : b.type = a.type := by simpa using hsame
    rw [(mem_takingsIn ha).1, (mem_takingsIn hb).1] at htype
    exact hne htype.symm

/-- **Each method is taken over by one property only.** -/
theorem nodup_methods_takings (hc : g.outline.Consistent none) :
    (g.takings.flatMap Taking.methods).Nodup :=
  nodup_flatMap_takings hc .methods (fun a ha => (placed_takings hc a ha).methods)
    fun _ _ _ => nodup_takingsFrom

/-- **Each property takes over methods once only.** -/
theorem nodup_property_takings (hc : g.outline.Consistent none) :
    (g.takings.map (·.property)).Nodup := by
  rw [List.map_eq_flatMap]
  refine nodup_flatMap_takings hc .properties (fun a ha id hid => ?_) fun t d hd => ?_
  · rw [List.mem_singleton.mp hid]
    exact (placed_takings hc a ha).property
  · rw [← List.map_eq_flatMap]
    obtain ⟨n, hn, hdecl⟩ := exists_node?_of_get? hd
    have hlist : (g.listOf t .properties).Nodup := hc.nodup_listOf t .properties
    rw [listOf_of_node? hn, hdecl] at hlist
    exact nodup_property_takingsFrom hlist

/-- What is taken over is methods. -/
theorem kind?_of_placed {takes : List Taking} (h : ∀ a ∈ takes, g.Placed a) :
    ∀ m ∈ takes.flatMap Taking.methods, g.kind? m = some (some .methods) := by
  intro m hm
  obtain ⟨a, ha, hm⟩ := List.mem_flatMap.mp hm
  rw [kind?_eq_place?, (h a ha).methods m hm]
  rfl

theorem not_mem_of_kind? {takes : List Taking} (h : ∀ a ∈ takes, g.Placed a)
    {kind : Option ChildList} (hid : g.kind? id = some kind) (hne : kind ≠ some .methods) :
    id ∉ takes.flatMap Taking.methods := by
  intro hm
  have hkind := hid.symm.trans (kind?_of_placed h id hm)
  exact hne (Option.some.inj hkind)

/-- Properties are not taken over. -/
theorem not_mem_of_property {takes : List Taking} (h : ∀ a ∈ takes, g.Placed a)
    {parent : Option DeclId} {p : PropertyDecl} (hp : g.node? id = some ⟨parent, .property p⟩) :
    id ∉ takes.flatMap Taking.methods := by
  have hkind : g.kind? id = some (some .properties) := by
    rw [kind?_of_node? hp]
    rfl
  exact not_mem_of_kind? h hkind (by simp)

/-! ### What becomes of declarations -/

/-- The types have lost what their own properties took over. -/
theorem node?_takeOver_type (hc : g.outline.Consistent none) {d : TypeDecl}
    (hd : g.get? t = some (.type d)) :
    (g.takeOver g.takings).node? t = (g.node? t).map fun n =>
      { n with
        decl := .type
          { d with
            methods := d.methods.filter (· ∉ (g.takingsIn t).flatMap Taking.methods) } } := by
  have hplaced := placed_takings hc
  obtain ⟨n, hn, hdecl⟩ := exists_node?_of_get? hd
  have ht : g.kind? t = some (some .types) := by
    rw [kind?_of_node? hn, hdecl]
    rfl
  have hfilter : (d.methods.filter fun m => m ∉ g.takings.flatMap Taking.methods) =
      d.methods.filter fun m => m ∉ (g.takingsIn t).flatMap Taking.methods := by
    refine List.filter_congr fun m hm => decide_eq_decide.mpr (not_congr ?_)
    simp only [List.mem_flatMap]
    constructor
    · rintro ⟨a, ha, hma⟩
      -- Whatever took the method over stands where the method stands.
      have hsame := (place?_of_mem hc hd .methods hm).symm.trans
        ((hplaced a ha).methods m hma)
      obtain rfl : t = a.type := by simpa using hsame
      exact ⟨a, mem_takingsIn_of_mem ha, hma⟩
    · rintro ⟨a, ha, hma⟩
      exact ⟨a, List.mem_flatMap.mpr ⟨t, mem_typeIds_of_kind? hc ht, ha⟩, hma⟩
  rw [takeOver, node?_reduce, if_neg (not_mem_of_kind? hplaced ht (by simp)), hn, Option.map_some,
    Option.map_some, GraphNode.reduce, hdecl, Decl.reduce, hfilter]

/-- A property that took over methods has them as accessors. -/
theorem node?_takeOver_property (hc : g.outline.Consistent none) {a : Taking}
    (ha : a ∈ g.takings) : ∃ p, g.node? a.property = some ⟨some a.type, .property p⟩ ∧
      (g.takeOver g.takings).node? a.property =
        some ⟨some a.type, .property { p with mode := a.mode g }⟩ := by
  have hplaced := placed_takings hc
  obtain ⟨p, hp⟩ := exists_property_of_place? (hplaced a ha).property
  -- No taking before it is one of this property.
  have hlookup : (g.takings.map fun b => (b.property, b.mode g)).lookup a.property =
      some (a.mode g) := by
    obtain ⟨before, rest, hsplit⟩ := List.append_of_mem ha
    have hnodup := nodup_property_takings hc
    rw [hsplit, List.map_append, List.nodup_append] at hnodup
    rw [hsplit, List.lookup_eq_some_iff]
    refine ⟨before.map fun b => (b.property, b.mode g), rest.map fun b => (b.property, b.mode g),
      by simp, fun x hx => ?_⟩
    obtain ⟨b, hb, rfl⟩ := List.mem_map.mp hx
    simpa using (hnodup.2.2 b.property (List.mem_map_of_mem hb) a.property (by simp)).symm
  refine ⟨p, hp, ?_⟩
  rw [takeOver, node?_reduce, if_neg (not_mem_of_property hplaced hp), hlookup, hp]
  rfl

/-- What neither is a type nor is taken over nor takes over anything is left as it is. -/
theorem node?_takeOver_other (htype : ∀ d, g.get? id ≠ some (.type d))
    (htakings : ∀ a ∈ g.takings, id ≠ a.property ∧ id ∉ a.methods) :
    (g.takeOver g.takings).node? id = g.node? id := by
  have hgone : id ∉ g.takings.flatMap Taking.methods := by
    intro h
    obtain ⟨a, ha, hid⟩ := List.mem_flatMap.mp h
    exact (htakings a ha).2 hid
  have hlookup : (g.takings.map fun b => (b.property, b.mode g)).lookup id = none := by
    rw [List.lookup_eq_none_iff]
    intro x hx
    obtain ⟨a, ha, rfl⟩ := List.mem_map.mp hx
    simpa using (htakings a ha).1
  rw [takeOver, node?_reduce, if_neg hgone, hlookup]
  cases hn : g.node? id with
  | none => rfl
  | some n =>
    obtain ⟨parent, decl⟩ := n
    cases decl with
    | type d => exact absurd (get?_of_node? hn) (htype d)
    | _ => rfl

/-! ### Nothing is left to take -/

/-- A property that takes over nothing found no getter when it had its turn. -/
theorem exists_taking?_eq_none {properties : List DeclId} (hid : id ∈ properties)
    (h : id ∉ (g.takingsFrom t methods taken properties).map (·.property)) :
    ∃ taken', g.taking? t methods taken' id = none ∧ ∀ m ∈ taken',
      m ∈ taken ∨ m ∈ (g.takingsFrom t methods taken properties).flatMap Taking.methods := by
  induction properties generalizing taken with
  | nil => exact absurd hid (by simp)
  | cons j rest ih =>
    rw [takingsFrom, List.map_append, List.mem_append, not_or] at h
    rw [takingsFrom, List.flatMap_append]
    rcases List.mem_cons.mp hid with rfl | hid
    · -- It is its turn: with a getter, it would be among the takings.
      refine ⟨taken, ?_, fun m hm => .inl hm⟩
      by_contra hsome
      obtain ⟨a, ha⟩ := Option.ne_none_iff_exists'.mp hsome
      exact h.1 (by simp [ha, (taking?_eq_some ha).2.1])
    · obtain ⟨taken', hnone, htaken⟩ := ih hid h.2
      refine ⟨taken', hnone, fun m hm => ?_⟩
      rw [List.mem_append]
      rcases htaken m hm with hm | hm
      · cases ha : g.taking? t methods taken j with
        | none => exact .inl (by simpa [ha] using hm)
        | some a =>
          rw [ha] at hm
          rcases List.mem_append.mp hm with hm | hm
          · exact .inr (.inl (by simpa using hm))
          · exact .inl hm
      · exact .inr (.inr hm)

theorem takingsFrom_eq_nil {properties : List DeclId}
    (h : ∀ id ∈ properties, g.taking? t methods taken id = none) :
    g.takingsFrom t methods taken properties = [] := by
  induction properties with
  | nil => rfl
  | cons id rest ih =>
    obtain ⟨hid, hrest⟩ := List.forall_mem_cons.mp h
    rw [takingsFrom, hid]
    exact ih hrest

/-- A method that is left when all properties have had their turn gets no field that took over
nothing, since it was there when the field had its turn. -/
theorem isGotBy_eq_false_of_left {properties : List DeclId} {p : PropertyDecl} {getter : DeclId}
    {m : MethodDecl} (hid : id ∈ properties) (hp : g.get? id = some (.property p))
    (hfield : p.mode.isField = true)
    (hturn : id ∉ (g.takingsFrom t methods [] properties).map (·.property))
    (hgetter : getter ∈ methods) (hm : g.get? getter = some (.method m))
    (hleft : getter ∉ (g.takingsFrom t methods [] properties).flatMap Taking.methods) :
    p.isGotBy m = false := by
  obtain ⟨taken, hnone, htaken⟩ := exists_taking?_eq_none hid hturn
  have hfirst : g.firstMethod? methods taken p.isGotBy = none := by
    rw [taking?, hp] at hnone
    change (if p.mode.isField then _ else _) = none at hnone
    rwa [if_pos hfield, Option.map_eq_none_iff] at hnone
  have hfree : getter ∉ taken := by
    intro hin
    exact (htaken getter hin).elim (by simp) hleft
  have hno := List.find?_eq_none.mp hfirst getter hgetter
  simpa [hfree, hm, Decl.method?] using hno

/-- **Once everything is taken, nothing is left to take.** It is enough that types have lost the
methods that were taken, and that the properties that took them are no fields any more. -/
theorem takings_eq_nil {g' : Graph} (hc : g.outline.Consistent none)
    (htype : ∀ t d', g'.get? t = some (.type d') → ∃ d, g.get? t = some (.type d) ∧
      d' = { d with methods := d.methods.filter (· ∉ g.takings.flatMap Taking.methods) })
    (hmethod : ∀ id m, g'.get? id = some (.method m) → g.get? id = some (.method m))
    (hproperty : ∀ id p, g'.get? id = some (.property p) → p.mode.isField = true →
      g.get? id = some (.property p) ∧ id ∉ g.takings.map (·.property)) :
    g'.takings = [] := by
  refine List.flatMap_eq_nil_iff.mpr fun t _ => ?_
  unfold takingsIn
  split
  · rename_i d' hd'
    obtain ⟨d, hd, rfl⟩ := htype t d' hd'
    split_ifs with hprotocol
    · rfl
    -- What the type took over is part of what was taken.
    have htakings : g.takingsIn t = g.takingsFrom t d.methods [] d.properties := by
      rw [takingsIn, hd]
      exact if_neg hprotocol
    have hsub : ∀ a ∈ g.takingsFrom t d.methods [] d.properties, a ∈ g.takings := by
      intro a ha
      obtain ⟨n, hn, hdecl⟩ := exists_node?_of_get? hd
      refine List.mem_flatMap.mpr ⟨t, mem_typeIds_of_kind? hc ?_, htakings ▸ ha⟩
      rw [kind?_of_node? hn, hdecl]
      rfl
    refine takingsFrom_eq_nil fun id hid => ?_
    by_contra hsome
    obtain ⟨a, ha⟩ := Option.ne_none_iff_exists'.mp hsome
    obtain ⟨-, -, p, hp, hfield, hgetter, -⟩ := taking?_eq_some ha
    obtain ⟨hmem, -, m, hm, hgets⟩ := firstMethod?_eq_some hgetter
    obtain ⟨hmem, hkept⟩ := List.mem_filter.mp hmem
    obtain ⟨hp, hid'⟩ := hproperty id p hp hfield
    have hturn : id ∉ (g.takingsFrom t d.methods [] d.properties).map (·.property) := by
      intro h
      obtain ⟨b, hb, he⟩ := List.mem_map.mp h
      exact hid' (List.mem_map.mpr ⟨b, hsub b hb, he⟩)
    have hleft : a.getter ∉ (g.takingsFrom t d.methods [] d.properties).flatMap Taking.methods := by
      intro h
      obtain ⟨b, hb, hmb⟩ := List.mem_flatMap.mp h
      exact absurd (List.mem_flatMap.mpr ⟨b, hsub b hb, hmb⟩) (by simpa using hkept)
    have hno : p.isGotBy m = false :=
      isGotBy_eq_false_of_left hid hp hfield hturn hmem (hmethod _ m hm) hleft
    exact absurd (hgets.symm.trans hno) (by simp)
  · rfl

end Graph

end ObjcSwift
