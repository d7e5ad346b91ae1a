import ObjcSwift.Proofs.Pass.Takings

/-!
# The account of merging accessors

What the pass does is what its takings say. The proof follows the pass: a property takes over the
methods of its taking (`AccessorMerge.outcome_mergeInto_takeOver`), and the graph after some
properties is the graph before, reduced by their takings. From there it goes on by induction over
the properties of a type and over the types. The takings are those of the graph before the pass at
all times, although the pass looks for methods in the graph as it is by then: a method is among
those left exactly if no earlier taking has it.

Read as an account (`properties_take_over_accessors`), each method is taken over once or stays where
it was, and each declaration that the takings do not mention is the same.
-/

namespace ObjcSwift

open ObjcSwift.Graph ObjcSwift.Graph.Edit

/-! ### Following the pass -/

namespace AccessorMerge

variable {g : Graph} {t id : DeclId} {gone methods used : List DeclId}
  {modes : List (DeclId × PropertyMode)} {d : TypeDecl} {takes : List Taking}

theorem isGotBy_eq (p : PropertyDecl) (m : MethodDecl) :
    p.isGotBy m = (m.signature.isStatic == p.isStatic && m.isGetter p.getterName) := by
  rw [PropertyDecl.isGotBy, MethodDecl.isGetter, Bool.and_comm]

theorem isSetBy_eq (p : PropertyDecl) (m : MethodDecl) :
    p.isSetBy m =
      (m.signature.isStatic == p.isStatic && m.isSetter p.setterName p.storage.type) := by
  rw [PropertyDecl.isSetBy, MethodDecl.isSetter]
  rcases m.signature.parameters with _ | ⟨q, _ | ⟨q', qs⟩⟩
  · simp
  · simp only [Bool.and_assoc, Bool.and_comm, Bool.and_left_comm]
  · simp

/-- The methods among some declarations, each with its number. -/
def methodsAmong (g : Graph) (ids : List DeclId) : List (DeclId × MethodDecl) :=
  ids.filterMap fun id => ((g.get? id).bind Decl.method?).map fun m => (id, m)

theorem methodsAmong_cons {m : MethodDecl} (hm : g.get? id = some (.method m)) :
    methodsAmong g (id :: methods) = (id, m) :: methodsAmong g methods := by
  rw [methodsAmong, List.filterMap_cons, hm]
  rfl

section methodsAmong

variable (h : ∀ id ∈ methods, ∃ m, g.get? id = some (.method m))
include h

theorem mapM_method_eq :
    methods.mapM (fun id => (return (id, ← g.method id) : Except GraphError _)) =
      .ok (methodsAmong g methods) := by
  induction methods with
  | nil => rfl
  | cons id methods ih =>
    obtain ⟨⟨m, hm⟩, hrest⟩ := List.forall_mem_cons.mp h
    rw [List.mapM_cons, method_of_get? hm, ih hrest, methodsAmong_cons hm]
    rfl

/-- The first of the methods that is as asked for. -/
theorem find?_methodsAmong (q : MethodDecl → Bool) :
    ((methodsAmong g methods).find? fun x => q x.2).map (·.1) = g.firstMethod? methods [] q := by
  induction methods with
  | nil => rfl
  | cons id methods ih =>
    obtain ⟨⟨m, hm⟩, hrest⟩ := List.forall_mem_cons.mp h
    have hcons : g.firstMethod? (id :: methods) [] q =
        if q m then some id else g.firstMethod? methods [] q := by
      simp only [firstMethod?, List.find?_cons, hm]
      cases hq : q m <;> simp [Decl.method?, hq]
    rw [methodsAmong_cons hm, hcons, ← ih hrest, List.find?_cons]
    cases q m <;> rfl

/-- Looking for accessors finds the first getter and the first setter. -/
theorem findAccessors_eq (p : PropertyDecl) :
    findAccessors g p methods = .ok ((g.firstMethod? methods [] p.isGotBy).map fun getter =>
      ⟨getter, if p.isReadonly then none else g.firstMethod? methods [] p.isSetBy⟩) := by
  have hgetter := find?_methodsAmong h p.isGotBy
  have hsetter := find?_methodsAmong h p.isSetBy
  simp only [isGotBy_eq, isSetBy_eq] at hgetter hsetter
  unfold findAccessors
  rw [mapM_method_eq h]
  refine congrArg Except.ok ?_
  simp only [List.find?_filter, Bool.decide_and, Bool.decide_eq_true, ← hgetter, ← hsetter,
    Option.map_map]
  split_ifs
  · rfl
  · rfl

end methodsAmong

theorem outcome_takeBody_reduce (hc : g.outline.Consistent none) (hle : g.slots.length ≤ 2 ^ 32)
    {m : MethodDecl} (hn : g.node? id = some ⟨some t, .method m⟩) (hid : id ∉ gone)
    (ht : t ∉ gone) :
    (takeBody t id).Outcome (g.reduce gone modes)
      (fun code g' => code = g.codeOf id ∧ g' = g.reduce (id :: gone) modes) fun _ _ => True := by
  have hcode : g.codeOf id = m.code.getD {} := by
    rw [codeOf, get?, hn]
    rfl
  rw [takeBody, outcome_bind, removeChild, outcome_bind, outcome_get]
  split_ifs
  · refine (outcome_remove_reduce hc hle hn hid ht).mono (fun d g' h => ?_) fun _ _ hx => hx
    obtain ⟨rfl, rfl⟩ := h
    exact ⟨hcode.symm, rfl⟩
  · trivial

theorem outcome_takeSetter_reduce (hc : g.outline.Consistent none) (hle : g.slots.length ≤ 2 ^ 32)
    {m : MethodDecl} (hn : g.node? id = some ⟨some t, .method m⟩) (hid : id ∉ gone)
    (ht : t ∉ gone) {value : Parameter} (hvalue : m.signature.parameters.head? = some value) :
    (takeSetter t id).Outcome (g.reduce gone modes)
      (fun setter g' => g.setterOf? id = some setter ∧ g' = g.reduce (id :: gone) modes)
      fun _ _ => True := by
  have hm : g.get? id = some (.method m) := get?_of_node? hn
  rw [takeSetter, outcome_bind, outcome_look_ok (method_reduce hid hm), outcome_bind]
  refine (outcome_takeBody_reduce hc hle hn hid ht).mono (fun code g' h => ?_) fun _ _ hx => hx
  obtain ⟨rfl, rfl⟩ := h
  refine ⟨?_, rfl⟩
  simp [setterOf?, hm, Decl.method?, hvalue]

/-- The first method that is not used is found among the methods that are left. -/
theorem firstMethod?_reduce {q : MethodDecl → Bool}
    (hmethods : ∀ id ∈ methods, ∃ m, g.get? id = some (.method m))
    (hused : ∀ id ∈ methods, id ∈ used ↔ id ∈ gone) :
    (g.reduce gone modes).firstMethod? (methods.filter fun id => !used.contains id) [] q =
      g.firstMethod? methods used q := by
  rw [firstMethod?, firstMethod?, List.find?_filter]
  refine List.find?_congr fun id hid => ?_
  obtain ⟨m, hm⟩ := hmethods id hid
  by_cases hu : id ∈ used
  · simp [hu]
  · have hkept : (g.reduce gone modes).get? id = some (.method m) := by
      obtain ⟨n, hn, hd⟩ := exists_node?_of_get? hm
      rw [get?, node?_reduce, if_neg fun hgone => hu ((hused id hid).mpr hgone), hn,
        Option.map_some, Option.map_some, GraphNode.reduce, hd]
      rfl
    simp [hu, hkept, hm]

/-- The accessors that a property gets are those of its taking. -/
theorem mode_eq {a : Taking} (hd : g.get? a.type = some (.type d)) :
    a.mode g = mergedMode d.isExtension (g.codeOf a.getter) (a.setter.bind g.setterOf?) := by
  unfold Taking.mode mergedMode
  rw [hd]
  cases a.setter.bind g.setterOf? <;> rfl

/-- What a property does once its accessors are found. -/
theorem outcome_takeAccessors_reduce (hc : g.outline.Consistent none)
    (hle : g.slots.length ≤ 2 ^ 32) {a : Taking}
    (hd : g.get? a.type = some (.type d)) (hplaced : g.Placed a) (hnodup : a.methods.Nodup)
    (hsetter : ∀ id ∈ a.setter, ∃ m value, g.get? id = some (.method m) ∧
      m.signature.parameters = [value])
    (hgone : ∀ m ∈ a.methods, m ∉ gone) (htype : a.type ∉ a.methods ++ gone)
    (hproperty : a.property ∉ a.methods ++ gone) (hfresh : modes.lookup a.property = none)
    {α : Type} (answer : α) :
    (takeAccessors a.type a.property d.isExtension ⟨a.getter, a.setter⟩ answer).Outcome
      (g.reduce gone modes)
      (fun r g' => r = answer ∧
        g' = g.reduce (a.methods ++ gone) (modes ++ [(a.property, a.mode g)]))
      fun _ _ => True := by
  obtain ⟨p, hp⟩ := exists_property_of_place? hplaced.property
  have hp : g.get? a.property = some (.property p) := get?_of_node? hp
  have hmode := mode_eq hd
  obtain ⟨t, property, getter, setter⟩ := a
  obtain ⟨m, hm⟩ := exists_method_of_place? (hplaced.methods getter List.mem_cons_self)
  rw [takeAccessors, outcome_bind]
  have hget : getter ∉ gone := hgone getter List.mem_cons_self
  -- The getter goes first, and the setter from the graph that it has left.
  cases setter with
  | none =>
    have hmethods : Taking.methods ⟨t, property, getter, none⟩ = [getter] := rfl
    simp only [hmethods, List.cons_append, List.nil_append] at htype hproperty ⊢
    refine (outcome_takeBody_reduce hc hle hm hget fun h => htype (List.mem_cons_of_mem _ h)).mono
      (fun code g₁ h => ?_) fun _ _ hx => hx
    obtain ⟨rfl, rfl⟩ := h
    rw [hmode]
    exact outcome_setMode_reduce hle hp hproperty hfresh _ answer
  | some setter =>
    have hmethods : Taking.methods ⟨t, property, getter, some setter⟩ = [getter, setter] := rfl
    rw [hmethods, List.nodup_cons] at hnodup
    simp only [hmethods, List.cons_append, List.nil_append, List.mem_cons, not_or]
      at htype hproperty
    obtain ⟨m', value, hm', hvalue⟩ := hsetter setter rfl
    obtain ⟨n, hn⟩ := exists_method_of_place? (hplaced.methods setter (by simp [hmethods]))
    obtain rfl : m' = n := by simpa [get?, hn] using hm'.symm
    have hset : setter ∉ getter :: gone := by
      simp only [List.mem_cons, not_or]
      exact ⟨fun he => hnodup.1 (by simp [he]), hgone setter (by simp [hmethods])⟩
    refine (outcome_takeBody_reduce hc hle hm hget htype.2.2).mono (fun code g₁ h => ?_)
      fun _ _ hx => hx
    obtain ⟨rfl, rfl⟩ := h
    simp only
    rw [outcome_bind, outcome_map]
    refine (outcome_takeSetter_reduce hc hle hn hset (by simp [htype.1, htype.2.2])
      (by rw [hvalue]; rfl)).mono (fun taken g₂ h => ?_) fun _ _ hx => hx
    obtain ⟨htaken, rfl⟩ := h
    have hswap : ∀ modes, g.reduce (setter :: getter :: gone) modes =
        g.reduce ([getter, setter] ++ gone) modes := by
      refine fun modes => reduce_congr fun id => ?_
      simp only [List.mem_cons, List.mem_append]
      tauto
    rw [hswap, hmode, hmethods, Option.bind_some, htaken]
    exact outcome_setMode_reduce hle hp (by simpa using hproperty) hfresh _ answer

/-- The accessors of a property are found among the methods that are left. -/
theorem findAccessors_takeOver (hc : g.outline.Consistent none) (hd : g.get? t = some (.type d))
    (hused : ∀ m ∈ d.methods, m ∈ used ↔ m ∈ takes.flatMap Taking.methods) (p : PropertyDecl) :
    findAccessors (g.takeOver takes) p (d.methods.filter fun id => !used.contains id) =
      .ok ((g.firstMethod? d.methods used p.isGotBy).map fun getter =>
        ⟨getter, if p.isReadonly then none else g.firstMethod? d.methods used p.isSetBy⟩) := by
  have hmethods : ∀ m ∈ d.methods, ∃ md, g.node? m = some ⟨some t, .method md⟩ :=
    fun m hm => exists_method_of_place? (place?_of_mem hc hd .methods hm)
  have hget : ∀ m ∈ d.methods, ∃ md, g.get? m = some (.method md) := by
    intro m hm
    obtain ⟨md, hn⟩ := hmethods m hm
    exact ⟨md, get?_of_node? hn⟩
  rw [findAccessors_eq, takeOver, firstMethod?_reduce hget hused, firstMethod?_reduce hget hused]
  intro m hm
  obtain ⟨hm, hunused⟩ := List.mem_filter.mp hm
  obtain ⟨md, hmd⟩ := hmethods m hm
  have hkept : m ∉ takes.flatMap Taking.methods := by
    rw [← hused m hm]
    simpa using hunused
  refine ⟨md, ?_⟩
  rw [get?, takeOver, node?_reduce, if_neg hkept, hmd]
  rfl

/-- What a property takes over is done next, if what was taken before is placed elsewhere. -/
theorem outcome_takeAccessors_takeOver (hc : g.outline.Consistent none)
    (hle : g.slots.length ≤ 2 ^ 32) (hd : g.get? t = some (.type d)) (hid : id ∈ d.properties)
    {a : Taking} (ha : g.taking? t d.methods used id = some a) (hplaced : ∀ a ∈ takes, g.Placed a)
    (hfresh : (takes.map fun a => (a.property, a.mode g)).lookup a.property = none)
    (hused : ∀ m ∈ d.methods, m ∈ used ↔ m ∈ takes.flatMap Taking.methods)
    {α : Type} (answer : α) :
    (takeAccessors a.type a.property d.isExtension ⟨a.getter, a.setter⟩ answer).Outcome
      (g.takeOver takes) (fun r g' => r = answer ∧ g' = g.takeOver (takes ++ [a]))
      fun _ _ => True := by
  obtain ⟨rfl, rfl, -⟩ := taking?_eq_some ha
  have hnew := mem_methods_of_taking? ha
  have hplace := placed_of_taking? hc hd hid ha
  have hall : ∀ b ∈ a :: takes, g.Placed b := List.forall_mem_cons.mpr ⟨hplace, hplaced⟩
  have hkeep : ∀ {j kind}, g.kind? j = some kind → kind ≠ some .methods →
      j ∉ a.methods ++ takes.flatMap Taking.methods :=
    fun hj hne => not_mem_of_kind? hall hj hne
  obtain ⟨n, hn, hdecl⟩ := exists_node?_of_get? hd
  obtain ⟨p, hp⟩ := exists_property_of_place? hplace.property
  refine (outcome_takeAccessors_reduce hc hle hd hplace (nodup_methods_of_taking? ha)
    (exists_value_of_taking? ha) (fun m hm h => (hnew m hm).2 ((hused m (hnew m hm).1).mpr h))
    (hkeep (by rw [kind?_of_node? hn, hdecl]) (by simp [Decl.ownList?]))
    (hkeep (by rw [kind?_of_node? hp]) (by simp [Decl.ownList?])) hfresh answer).mono
    (fun r g' h => ?_) fun _ _ hx => hx
  obtain ⟨rfl, rfl⟩ := h
  refine ⟨rfl, ?_⟩
  rw [takeOver, List.flatMap_append, List.map_append]
  refine reduce_congr fun j => ?_
  simp only [List.mem_append]
  simp [or_comm]

/-- **A property takes over what its taking says.** -/
theorem outcome_mergeInto_takeOver (hc : g.outline.Consistent none)
    (hle : g.slots.length ≤ 2 ^ 32) (hd : g.get? t = some (.type d)) (hid : id ∈ d.properties)
    (hplaced : ∀ a ∈ takes, g.Placed a) (hfresh : ∀ a ∈ takes, a.property ≠ id)
    (hused : ∀ m ∈ d.methods, m ∈ used ↔ m ∈ takes.flatMap Taking.methods) :
    (mergeInto t d.isExtension d.methods used id).Outcome (g.takeOver takes) (fun r g' =>
      r = ((g.taking? t d.methods used id).elim used (·.methods ++ used),
          (g.taking? t d.methods used id).map (·.property)) ∧
        g' = g.takeOver (takes ++ (g.taking? t d.methods used id).toList)) fun _ _ => True := by
  obtain ⟨p, hnode⟩ := exists_property_of_place? (place?_of_mem hc hd .properties hid)
  have hp : g.get? id = some (.property p) := get?_of_node? hnode
  have hgone : id ∉ takes.flatMap Taking.methods := not_mem_of_property hplaced hnode
  have hlookup : (takes.map fun a => (a.property, a.mode g)).lookup id = none := by
    rw [List.lookup_eq_none_iff]
    intro x hx
    obtain ⟨a, ha, rfl⟩ := List.mem_map.mp hx
    simpa using (hfresh a ha).symm
  -- The takings so far are those of other properties, so this one is as it was.
  have hlook : (g.takeOver takes).property id = .ok p := by
    rw [Graph.property, typed, get?, takeOver, node?_reduce, if_neg hgone, hlookup, hnode]
    rfl
  have htaking : g.taking? t d.methods used id =
      if p.mode.isField then (g.firstMethod? d.methods used p.isGotBy).map fun getter =>
        ⟨t, id, getter, if p.isReadonly then none else g.firstMethod? d.methods used p.isSetBy⟩
      else none := by
    simp only [taking?, hp, Option.bind_some, Decl.property?]
  rw [mergeInto_eq, outcome_bind, outcome_look_ok hlook]
  by_cases hfield : p.mode.isField = true
  · rw [if_pos hfield] at htaking
    rw [if_neg (by simp [hfield]), outcome_bind,
      outcome_look_ok (findAccessors_takeOver hc hd hused p)]
    cases hgetter : g.firstMethod? d.methods used p.isGotBy with
    | none =>
      rw [hgetter, Option.map_none] at htaking
      rw [htaking]
      exact ⟨rfl, by simp⟩
    | some getter =>
      rw [hgetter, Option.map_some] at htaking
      rw [htaking]
      simp only [Option.map_some]
      exact outcome_takeAccessors_takeOver hc hle hd hid htaking hplaced hlookup hused _
  · rw [if_neg hfield] at htaking
    rw [if_pos (by simpa using hfield), htaking]
    exact ⟨rfl, by simp⟩

/-- Properties of a type take over methods one after the other. -/
theorem outcome_mergeEach_takeOver (hc : g.outline.Consistent none)
    (hle : g.slots.length ≤ 2 ^ 32) (hd : g.get? t = some (.type d)) {properties : List DeclId}
    (hsub : ∀ id ∈ properties, id ∈ d.properties) (hnodup : properties.Nodup)
    (hplaced : ∀ a ∈ takes, g.Placed a) (hfresh : ∀ a ∈ takes, a.property ∉ properties)
    (hused : ∀ m ∈ d.methods, m ∈ used ↔ m ∈ takes.flatMap Taking.methods) :
    (mergeEach t d.isExtension d.methods used properties).Outcome (g.takeOver takes)
      (fun changes g' =>
        changes = (g.takingsFrom t d.methods used properties).map (·.property) ∧
          g' = g.takeOver (takes ++ g.takingsFrom t d.methods used properties))
      fun _ _ => True := by
  induction properties generalizing used takes with
  | nil => exact ⟨rfl, by simp [takingsFrom]⟩
  | cons id rest ih =>
    obtain ⟨hid, hrest⟩ := List.forall_mem_cons.mp hsub
    obtain ⟨hnew, hnodup⟩ := List.nodup_cons.mp hnodup
    rw [mergeEach, outcome_bind]
    refine (outcome_mergeInto_takeOver hc hle hd hid hplaced
      (fun a ha he => hfresh a ha (he ▸ List.mem_cons_self)) hused).mono (fun r g₁ h => ?_)
      fun _ _ hx => hx
    obtain ⟨rfl, rfl⟩ := h
    rw [outcome_bind, takingsFrom]
    have hmem : ∀ a ∈ takes ++ (g.taking? t d.methods used id).toList,
        a ∈ takes ∨ g.taking? t d.methods used id = some a :=
      fun a ha => (List.mem_append.mp ha).imp_right Option.mem_toList.mp
    -- A property that takes over is none of the rest, and what is used is still what was taken.
    refine (ih hrest hnodup (fun a ha => ?_) (fun a ha => ?_) fun m hm => ?_).mono
      (fun changes g₂ h => ?_) fun _ _ hx => hx
    · exact (hmem a ha).elim (hplaced a) (placed_of_taking? hc hd hid)
    · rcases hmem a ha with ha | ha
      · exact fun h => hfresh a ha (List.mem_cons_of_mem id h)
      · rwa [(taking?_eq_some ha).2.1]
    · rw [List.flatMap_append, List.mem_append, ← hused m hm]
      cases g.taking? t d.methods used id with
      | none => simp
      | some a => simp [or_comm]
    · obtain ⟨rfl, rfl⟩ := h
      refine ⟨?_, by rw [List.append_assoc]⟩
      rw [List.map_append]
      cases g.taking? t d.methods used id <;> rfl

/-- **A type takes over what its takings say**, if it had no turn before. -/
theorem outcome_mergeInType_takeOver (hc : g.outline.Consistent none)
    (hle : g.slots.length ≤ 2 ^ 32) (ht : g.kind? t = some (some .types))
    (hplaced : ∀ a ∈ takes, g.Placed a) (hother : ∀ a ∈ takes, a.type ≠ t) :
    (mergeInType t).Outcome (g.takeOver takes)
      (fun changes g' => changes = (g.takingsIn t).map (·.property) ∧
        g' = g.takeOver (takes ++ g.takingsIn t)) fun _ _ => True := by
  obtain ⟨⟨parent, decl⟩, hn, hdecl⟩ := exists_node?_of_kind? ht
  obtain ⟨d, rfl⟩ := Decl.view_type.exists_make decl hdecl
  have hd : g.get? t = some (.type d) := get?_of_node? hn
  -- What was taken before stands in other types, so this one is as it was.
  have howner : ∀ list {j}, j ∈ (Decl.type d).listOf list → ∀ a ∈ takes,
      g.place? j ≠ some ⟨some a.type, some list⟩ := by
    intro list j hj a ha hplace
    have hsame := (place?_of_mem hc hd list hj).symm.trans hplace
    obtain rfl : t = a.type := by simpa using hsame
    exact hother a ha rfl
  have hkept : ∀ m ∈ d.methods, m ∉ takes.flatMap Taking.methods := by
    intro m hm hgone
    obtain ⟨a, ha, hma⟩ := List.mem_flatMap.mp hgone
    exact howner .methods hm a ha ((hplaced a ha).methods m hma)
  have hlook : (g.takeOver takes).type t = .ok d := by
    have hgone : t ∉ takes.flatMap Taking.methods :=
      not_mem_of_kind? hplaced ht (by simp)
    refine type_of_get? ?_
    rw [get?, takeOver, node?_reduce, if_neg hgone, hn, Option.map_some, Option.map_some,
      GraphNode.reduce, Decl.reduce, List.filter_eq_self.mpr (by simpa using hkept)]
  rw [mergeInType, outcome_bind, outcome_look_ok hlook, takingsIn, hd]
  by_cases hprotocol : d.isProtocol = true
  · simp only [hprotocol, if_true]
    exact ⟨rfl, by simp⟩
  · simp only [hprotocol]
    refine outcome_mergeEach_takeOver hc hle hd (fun _ hid => hid) ?_ hplaced (fun a ha hid => ?_)
      fun m hm => ?_
    · have hlist := hc.nodup_listOf t .properties
      change (g.listOf t .properties).Nodup at hlist
      rwa [listOf_of_node? hn] at hlist
    · exact howner .properties hid a ha (hplaced a ha).property
    · simpa using hkept m hm

/-- **All types take over what their takings say.** -/
theorem outcome_mapM_mergeInType (hc : g.outline.Consistent none)
    (hle : g.slots.length ≤ 2 ^ 32) :
    (g.typeIds.mapM mergeInType).Outcome g (fun changes g' =>
      changes.flatten = g.takings.map (·.property) ∧ g' = g.takeOver g.takings)
      fun _ _ => True := by
  have hstart : g = g.takeOver [] := reduce_nil.symm
  -- The types that had their turn are those before the ones that are left.
  refine (outcome_mapM (fun changes rest g' => ∃ before, g.typeIds = before ++ rest ∧
      changes.flatten = (before.flatMap g.takingsIn).map (·.property) ∧
      g' = g.takeOver (before.flatMap g.takingsIn))
    (fun changes t rest g' h => ?_) ⟨[], rfl, rfl, hstart⟩).mono (fun changes g' h => ?_)
    fun _ _ hx => hx
  · obtain ⟨before, hids, hchanges, rfl⟩ := h
    have hnodup := nodup_typeIds hc
    have ht : t ∈ g.typeIds := by simp [hids]
    rw [hids, List.nodup_append] at hnodup
    refine (outcome_mergeInType_takeOver hc hle (kind?_of_mem_typeIds hc ht) (fun a ha => ?_)
      fun a ha => ?_).mono (fun changed g' h => ?_) fun _ _ hx => hx
    · refine placed_takings hc a ?_
      rw [takings, hids, List.flatMap_append]
      exact List.mem_append_left _ ha
    · obtain ⟨t', ht', ha⟩ := List.mem_flatMap.mp ha
      rw [(mem_takingsIn ha).1]
      exact hnodup.2.2 t' ht' t List.mem_cons_self
    · obtain ⟨rfl, rfl⟩ := h
      refine ⟨before ++ [t], by rw [hids]; simp, ?_, ?_⟩
      · simp [hchanges]
      · simp
  · obtain ⟨before, hids, hchanges, rfl⟩ := h
    rw [List.append_nil] at hids
    rw [hchanges, takings, hids]
    exact ⟨rfl, rfl⟩

/-- **The account of the pass**: it comes to what the takings say, then the properties that took
over something are annotated. -/
theorem outcome_mergeAll (hc : g.outline.Consistent none) (hle : g.slots.length ≤ 2 ^ 32)
    (c : Catalog) :
    (mergeAll c).Outcome g (fun c' g' =>
      g' = (g.takings.map (·.property)).foldl (annotated c') (g.takeOver g.takings) ∧
        (g.takings = [] → c' = c)) fun _ _ => True := by
  rw [mergeAll, outcome_bind, outcome_get, outcome_bind]
  refine (outcome_mapM_mergeInType hc hle).mono (fun changes g₁ h => ?_) fun _ _ hx => hx
  obtain ⟨hchanges, rfl⟩ := h
  rw [hchanges]
  cases htakings : g.takings with
  | nil => exact ⟨rfl, fun _ => rfl⟩
  | cons a rest =>
    rw [if_neg (by simp), ← htakings, outcome_bind, outcome_get, outcome_bind]
    refine (succeeds_forM_annotate fun id hid => ?_).outcome.mono (fun _ g₂ h => ?_)
      fun _ _ hx => hx
    · obtain ⟨b, hb, rfl⟩ := List.mem_map.mp hid
      obtain ⟨p, -, hp⟩ := node?_takeOver_property hc hb
      rw [kind?_of_node? hp]
      simp
    · obtain ⟨-, rfl⟩ := h
      exact ⟨rfl, by simp [htakings]⟩

end AccessorMerge

/-! ### The second run -/

namespace Graph

variable {g : Graph} {id : DeclId}

theorem isField_of_bare {mode mode' : PropertyMode} (h : mode.bare = mode'.bare) :
    mode.isField = mode'.isField := by
  have hbare : ∀ mode : PropertyMode, mode.bare.isField = mode.isField := fun mode => by
    cases mode <;> rfl
  rw [← hbare, h, hbare]

/-- A property that took over methods is no field, also when its accessors are annotated. -/
theorem isField_of_mem_takings (hc : g.outline.Consistent none) {g' : Graph}
    (hbare : g'.bare = (g.takeOver g.takings).bare) (hid : id ∈ g.takings.map (·.property)) :
    ∃ p, g'.get? id = some (.property p) ∧ p.mode.isField = false := by
  obtain ⟨a, ha, rfl⟩ := List.mem_map.mp hid
  obtain ⟨p, -, hp⟩ := node?_takeOver_property hc ha
  have hnode : (g'.node? a.property).map GraphNode.bare =
      some (GraphNode.bare ⟨some a.type, .property { p with mode := a.mode g }⟩) := by
    rw [← node?_bare, hbare, node?_bare, hp]
    rfl
  obtain ⟨⟨parent, decl⟩, hn, hsame⟩ := Option.map_eq_some_iff.mp hnode
  have hdecl := (GraphNode.mk.inj hsame).2
  cases decl with
  | property p' =>
    have hmode : p'.mode.bare = (a.mode g).bare :=
      congrArg PropertyDecl.mode (Decl.property.inj hdecl)
    refine ⟨p', get?_of_node? hn, (isField_of_bare hmode).trans ?_⟩
    unfold Taking.mode
    split
    · split_ifs <;> rfl
    · rfl
  | _ => exact absurd hdecl (by simp [Decl.bare])

/-- What is no property with a taking is as in the reduced graph. -/
theorem exists_reduced_of_get? {c : Catalog} {d : Decl}
    (hd : ((g.takings.map (·.property)).foldl (annotated c) (g.takeOver g.takings)).get? id =
      some d) (hfree : id ∉ g.takings.map (·.property)) :
    ∃ n, g.node? id = some n ∧ d = n.decl.reduce (g.takings.flatMap Taking.methods) none := by
  obtain ⟨n', hn', rfl⟩ := exists_node?_of_get? hd
  have hlookup : (g.takings.map fun b => (b.property, b.mode g)).lookup id = none := by
    rw [List.lookup_eq_none_iff]
    intro x hx
    obtain ⟨b, hb, rfl⟩ := List.mem_map.mp hx
    have hne : id ≠ b.property := fun he => hfree (List.mem_map.mpr ⟨b, hb, he.symm⟩)
    simpa using hne
  rw [node?_foldl_annotated hfree, takeOver, node?_reduce, hlookup] at hn'
  split_ifs at hn'
  obtain ⟨n, hn, rfl⟩ := Option.map_eq_some_iff.mp hn'
  exact ⟨n, hn, rfl⟩

/-- **After the pass there are no takings.** -/
theorem takings_foldl_annotated (hc : g.outline.Consistent none) (c : Catalog) :
    ((g.takings.map (·.property)).foldl (annotated c) (g.takeOver g.takings)).takings = [] := by
  set g' := (g.takings.map (·.property)).foldl (annotated c) (g.takeOver g.takings)
  have hbare : g'.bare = (g.takeOver g.takings).bare := bare_foldl_annotated c
  -- What took over is a property, so types and methods are not annotated.
  have hfree : ∀ {j decl}, g'.get? j = some decl → (∀ p, decl ≠ .property p) →
      j ∉ g.takings.map (·.property) := by
    intro j decl hj hne hmem
    obtain ⟨p, hp, -⟩ := isField_of_mem_takings hc hbare hmem
    exact hne p (Option.some.inj (hj.symm.trans hp))
  refine takings_eq_nil hc (fun t d' hd' => ?_) (fun j m hm => ?_) fun j p hp hfield => ?_
  · obtain ⟨⟨parent, decl⟩, hn, hdecl⟩ := exists_reduced_of_get? hd' (hfree hd' (by simp))
    cases decl with
    | type d => exact ⟨d, get?_of_node? hn, Decl.type.inj hdecl⟩
    | _ => exact absurd hdecl (by simp [Decl.reduce])
  · obtain ⟨⟨parent, decl⟩, hn, hdecl⟩ := exists_reduced_of_get? hm (hfree hm (by simp))
    cases decl with
    | method m' => rw [get?, hn, hdecl]; rfl
    | _ => exact absurd hdecl (by simp [Decl.reduce])
  · -- A property that is still a field took over nothing, so it is not annotated either.
    have hj : j ∉ g.takings.map (·.property) := by
      intro hmem
      obtain ⟨p', hp', hno⟩ := isField_of_mem_takings hc hbare hmem
      obtain rfl : p = p' := by simpa using hp.symm.trans hp'
      simp [hfield] at hno
    obtain ⟨⟨parent, decl⟩, hn, hdecl⟩ := exists_reduced_of_get? hp hj
    cases decl with
    | property p' => exact ⟨by rw [get?, hn, hdecl]; rfl, hj⟩
    | _ => exact absurd hdecl (by simp [Decl.reduce])

end Graph

namespace Pass

variable {g g' : Graph} {c c' : Catalog}

/-- What the pass leaves, if it runs to its end. -/
theorem of_run_mergeProperties (hc : g.outline.Consistent none) (hle : g.slots.length ≤ 2 ^ 32)
    (h : mergeProperties.run c g = .ok c' g') :
    g' = (g.takings.map (·.property)).foldl (annotated c') (g.takeOver g.takings) ∧
      (g.takings = [] → c' = c) :=
  (AccessorMerge.outcome_mergeAll hc hle c).of_ok (apply_of_run h)

/-- A graph without takings is left as it is. -/
theorem run_mergeProperties_of_takings_eq_nil (hc : g.outline.Consistent none)
    (hle : g.slots.length ≤ 2 ^ 32) (h : g.takings = []) :
    mergeProperties.run c g = .ok c g := by
  obtain ⟨c', g', hrun, -⟩ : ∃ c' g', mergeProperties.run c g = .ok c' g' ∧ _ :=
    exists_run mergeProperties hc hle
  obtain ⟨rfl, hcatalog⟩ := of_run_mergeProperties hc hle hrun
  rw [hcatalog h, h] at hrun
  have hsame : (List.map (·.property) ([] : List Taking)).foldl (annotated c) (g.takeOver []) = g :=
    reduce_nil
  rwa [hsame] at hrun

end Pass

/-- **Properties take over their accessors, and the account is complete.** On every well-formed
graph whose slots all have a number and whose lists name no file, merging accessors succeeds with
the same files and slots, and does what the takings of the graph say.

* Each method is taken over by one property, once, and each property takes over methods once.
* A type lists the same members in the same order, but for the methods that its properties took
  over. Protocols have no takings.
* A property that took over methods carries their bodies, with no difference but the types in the
  slots of expressions, and is otherwise the same.
* The methods that were taken over are gone, and all other declarations are the same.
* Running the pass a second time changes nothing. -/
theorem properties_take_over_accessors (g : Graph) (hwf : g.WellFormed)
    (hfiles : ∀ id ∈ g.files, id ∉ g.listed) (hle : g.slots.length ≤ 2 ^ 32) (c : Catalog) :
    ∃ c' g', Pass.mergeProperties.run c g = .ok c' g' ∧
      g'.files = g.files ∧ g'.slots.length = g.slots.length ∧
      (g.takings.flatMap Taking.methods).Nodup ∧ (g.takings.map (·.property)).Nodup ∧
      (∀ t d, g.get? t = some (.type d) → g'.node? t = (g.node? t).map fun n =>
        { n with
          decl := .type
            { d with methods := d.methods.filter (· ∉ (g.takingsIn t).flatMap Taking.methods) } }) ∧
      (∀ t d, g.get? t = some (.type d) → d.isProtocol = true → g.takingsIn t = []) ∧
      (∀ a ∈ g.takings, ∃ p, g.node? a.property = some ⟨some a.type, .property p⟩ ∧
        (g'.node? a.property).map GraphNode.bare =
          some (GraphNode.bare ⟨some a.type, .property { p with mode := a.mode g }⟩)) ∧
      (∀ a ∈ g.takings, ∀ m ∈ a.methods, g'.node? m = none) ∧
      (∀ id, (∀ d, g.get? id ≠ some (.type d)) →
        (∀ a ∈ g.takings, id ≠ a.property ∧ id ∉ a.methods) → g'.node? id = g.node? id) ∧
      Pass.mergeProperties.run c' g' = .ok c' g' := by
  have hc := consistent_of_wellFormed hwf hfiles
  have hplaced := placed_takings hc
  obtain ⟨c', g', hrun, hc', hlength⟩ : ∃ c' g', Pass.mergeProperties.run c g = .ok c' g' ∧ _ :=
    Pass.exists_run .mergeProperties hc hle
  obtain ⟨hg', -⟩ := Pass.of_run_mergeProperties hc hle hrun
  have hbare : g'.bare = (g.takeOver g.takings).bare := hg' ▸ bare_foldl_annotated c'
  -- Only the properties that took over are annotated.
  have hsame : ∀ {id}, id ∉ g.takings.map (·.property) →
      g'.node? id = (g.takeOver g.takings).node? id :=
    fun hid => hg' ▸ node?_foldl_annotated hid
  have hkind : ∀ a ∈ g.takings, g.kind? a.property = some (some .properties) := by
    intro a ha
    rw [kind?_eq_place?, (hplaced a ha).property]
    rfl
  refine ⟨c', g', hrun, ?_, hlength, nodup_methods_takings hc, nodup_property_takings hc, ?_, ?_,
    ?_, ?_, ?_, ?_⟩
  · have hfiles' : g'.bare.files = g.files := by
      rw [hbare]
      rfl
    exact hfiles'
  · intro t d hd
    rw [← node?_takeOver_type hc hd]
    refine hsame fun hmem => ?_
    obtain ⟨a, ha, rfl⟩ := List.mem_map.mp hmem
    obtain ⟨n, hn, hdecl⟩ := exists_node?_of_get? hd
    have hproperty := hkind a ha
    rw [kind?_of_node? hn, hdecl] at hproperty
    simp [Decl.ownList?] at hproperty
  · intro t d hd hprotocol
    rw [takingsIn, hd]
    exact if_pos hprotocol
  · intro a ha
    obtain ⟨p, hp, hp'⟩ := node?_takeOver_property hc ha
    refine ⟨p, hp, ?_⟩
    rw [← node?_bare, hbare, node?_bare, hp']
    rfl
  · intro a ha m hm
    have hgone : m ∈ g.takings.flatMap Taking.methods := List.mem_flatMap.mpr ⟨a, ha, hm⟩
    rw [hsame, takeOver, node?_reduce, if_pos hgone]
    intro hmem
    obtain ⟨b, hb, rfl⟩ := List.mem_map.mp hmem
    exact not_mem_of_kind? hplaced (hkind b hb) (by simp) hgone
  · intro id htype hother
    rw [← node?_takeOver_other htype hother]
    refine hsame fun hmem => ?_
    obtain ⟨a, ha, rfl⟩ := List.mem_map.mp hmem
    exact (hother a ha).1 rfl
  · refine Pass.run_mergeProperties_of_takings_eq_nil hc' (hlength ▸ hle) ?_
    rw [hg']
    exact takings_foldl_annotated hc c'

/-- The title of the class `Feed` takes over both its accessors, a getter without body and a setter
in which an object is made. -/
theorem properties_take_over_accessors_titledGraph :
    titledGraph.WellFormed ∧ (∀ id ∈ titledGraph.files, id ∉ titledGraph.listed) ∧
      titledGraph.slots.length ≤ 2 ^ 32 ∧
      ∃ c' g' p, Pass.mergeProperties.run {} titledGraph = .ok c' g' ∧
        titledGraph.node? ⟨6⟩ = some ⟨some ⟨4⟩, .property p⟩ ∧
        (∃ code, titledGraph.setterOf? ⟨8⟩ = some ⟨"title", code⟩ ∧
          (g'.node? ⟨6⟩).map GraphNode.bare = some (GraphNode.bare
            ⟨some ⟨4⟩, .property { p with mode := .full {} ⟨"title", code⟩ }⟩)) ∧
        g'.node? ⟨7⟩ = none ∧ g'.node? ⟨8⟩ = none ∧
        g'.node? ⟨9⟩ = titledGraph.node? ⟨9⟩ ∧
        Pass.mergeProperties.run c' g' = .ok c' g' := by
  have hle : titledGraph.slots.length ≤ 2 ^ 32 := by decide_cbv
  obtain ⟨hwf, hfiles⟩ := wellFormed_runScript hle
  have htakings : titledGraph.takings = [⟨⟨4⟩, ⟨6⟩, ⟨7⟩, some ⟨8⟩⟩] := by cbv
  have hmode : Taking.mode titledGraph ⟨⟨4⟩, ⟨6⟩, ⟨7⟩, some ⟨8⟩⟩ =
      .full {} ⟨"title", titledGraph.codeOf ⟨8⟩⟩ := by cbv
  have hsetter : titledGraph.setterOf? ⟨8⟩ = some ⟨"title", titledGraph.codeOf ⟨8⟩⟩ := by cbv
  obtain ⟨c', g', hrun, -, -, -, -, -, -, hproperties, hgone, hother, hagain⟩ :=
    properties_take_over_accessors titledGraph hwf hfiles hle {}
  rw [htakings] at hproperties hgone hother
  obtain ⟨p, hp, hp'⟩ := hproperties _ (List.mem_singleton.mpr rfl)
  rw [hmode] at hp'
  refine ⟨hwf, hfiles, hle, c', g', p, hrun, hp, ⟨_, hsetter, hp'⟩,
    hgone _ (List.mem_singleton.mpr rfl) _ (by simp [Taking.methods]),
    hgone _ (List.mem_singleton.mpr rfl) _ (by simp [Taking.methods]), ?_, hagain⟩
  refine hother _ (fun d hd => ?_) (by decide)
  have hlast : (titledGraph.get? ⟨9⟩).bind Decl.type? = none := by cbv
  rw [hd] at hlast
  exact absurd hlast (by simp [Decl.type?])

/-- The same graph, but the class lists the file among its methods. -/
def misfiledFeedGraph : Graph :=
  titledGraph.listing ⟨4⟩ .methods ⟨0⟩

/-- **With a file among the methods, no accessor is taken over.** The title is stored as before,
although its getter is there, because looking through the methods fails at the file. -/
theorem misfiledFeedGraph_keeps_accessors :
    misfiledFeedGraph.WellFormed ∧ misfiledFeedGraph.slots.length ≤ 2 ^ 32 ∧
      ∃ g' d p m, Pass.mergeProperties.run {} misfiledFeedGraph =
          .error (.failed .mergeProperties (.unexpectedKind ⟨0⟩ "method" "file")) g' ∧
        g'.get? ⟨4⟩ = some (.type d) ∧ d.isProtocol = false ∧
        ⟨6⟩ ∈ d.properties ∧ g'.get? ⟨6⟩ = some (.property p) ∧ p.mode.isField = true ∧
        ⟨7⟩ ∈ d.methods ∧ g'.get? ⟨7⟩ = some (.method m) ∧ m.isGetter p.getterName = true ∧
        m.signature.isStatic = p.isStatic := by
  have hwf : misfiledFeedGraph.WellFormed :=
    (wellFormed_runScript (by decide_cbv)).1.listing (by decide_cbv)
  exact ⟨hwf, by decide_cbv, misfiledFeedGraph, _, _, _, rfl, rfl, rfl, by decide, rfl, rfl,
    by decide, rfl, by decide_cbv, rfl⟩

end ObjcSwift
