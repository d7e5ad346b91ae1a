import ObjcSwift.Pass.AccessorMerge
import ObjcSwift.Proofs.Pass.Steps

/-!
# Merging accessors succeeds

The pass that merges accessors into properties removes methods while it goes through properties that
it has listed before. It remembers the methods it has used, so a method that it has not used still
stands in its type (`AccessorMerge.Merging`), and the getter and the setter of a property are never
the same method, since one takes a parameter and the other takes none.

So the pass succeeds on every consistent graph, and what it removes is methods only.
-/

namespace ObjcSwift.AccessorMerge

open ObjcSwift.Graph ObjcSwift.Graph.Edit

variable {g g₀ : Graph} {type method property : DeclId} {methods used : List DeclId}

/-! ### The steps of merging into a property -/

variable {α : Type}

/-- Declares a property with other accessors, and gives an answer. -/
def setMode (property : DeclId) (mode : PropertyMode) (answer : α) : Edit α := do
  let p ← Graph.look (·.property property)
  Graph.setDecl property (.property { p with mode })
  return answer

/-- Takes the accessors of a property out of its type, and declares the property with them. -/
def takeAccessors (type property : DeclId) (inExtension : Bool) (a : Accessors) (answer : α) :
    Edit α := do
  let getter ← takeBody type a.getter
  let setter ← match a.setter with
    | some id => some <$> takeSetter type id
    | none => pure none
  setMode property (mergedMode inExtension getter setter) answer

/-- **Merging into a property** looks for its accessors, and takes them if they are found. -/
theorem mergeInto_eq (inExtension : Bool) :
    mergeInto type inExtension methods used property = (do
      let p ← Graph.look (·.property property)
      if !p.mode.isField then return (used, none)
      match ← Graph.look (findAccessors · p (methods.filter fun id => !used.contains id)) with
      | none => return (used, none)
      | some a =>
        takeAccessors type property inExtension a
          (a.getter :: (a.setter.toList ++ used), some property)) :=
  rfl

/-! ### Taking methods out of their type -/

/-- A method that stands in a type can be taken out of it, and nothing else changes. -/
theorem succeeds_takeBody (hc : g.outline.Consistent none)
    (hm : g.place? method = some ⟨some type, some .methods⟩) :
    (takeBody type method).Succeeds g fun _ g' =>
      g'.outline = g.outline.drop method ∧ Edited (· = method) g g' := by
  obtain ⟨n, hn, hparent, hlist⟩ := exists_node?_of_place? hm
  obtain ⟨m, hd⟩ := Decl.view_method.exists_make n.decl hlist
  obtain ⟨owner, ho, hmem, -⟩ := place?_of_mem_listOf (hc.mem_listOf_iff.mpr hm)
  have hcond : g.parent? method = some type ∧
      (g.get? type).any (fun d => d.children.contains method) = true := by
    have hchild : method ∈ owner.decl.children := Decl.mem_children.mpr ⟨.methods, hmem⟩
    exact ⟨(parent?_of_node? hn).trans hparent, by simp [get?, ho, hchild]⟩
  have hleaf : ∀ list, n.decl.listOf list = [] := by
    intro list
    rw [hd]
    rfl
  simp only [Succeeds, takeBody, Graph.removeChild, outcome_bind, outcome_get, if_pos hcond]
  refine (succeeds_remove_edited hc hn hleaf).mono fun d g' h => ?_
  rw [h.1, hd]
  exact h.2

theorem place?_drop {g' : Graph} {id : DeclId} (ho : g'.outline = g.outline.drop method)
    (hid : id ≠ method) : g'.place? id = g.place? id := by
  have hplace : g'.place? id = if id = method then none else g.place? id :=
    congrFun (congrArg Outline.place? ho) id
  rwa [if_neg hid] at hplace

/-! ### Finding accessors -/

/-- **The accessors of a property are two of the given methods.** -/
theorem finds_findAccessors (p : PropertyDecl)
    (hmethods : ∀ id ∈ methods, g.kind? id = some (some .methods)) :
    Finds (findAccessors g p methods) fun found => ∀ a, found = some a →
      a.getter ∈ methods ∧ ∀ id, a.setter = some id → id ∈ methods ∧ id ≠ a.getter := by
  have hread : ∀ id ∈ methods,
      Finds (do return (id, ← g.method id) : Except GraphError (DeclId × MethodDecl)) fun x =>
        x.1 ∈ methods ∧ g.method x.1 = .ok x.2 := by
    intro id hid
    obtain ⟨m, hok, -⟩ : Finds (g.method id) _ := finds_typed Decl.view_method (hmethods id hid)
    rw [hok]
    exact finds_pure ⟨hid, hok⟩
  refine (finds_mapM_all hread).bind fun read hall => finds_pure fun a ha => ?_
  obtain ⟨⟨getter, m⟩, hgetter, rfl⟩ := Option.map_eq_some_iff.mp ha
  have hget := hall _ (List.mem_filter.mp (List.mem_of_find?_eq_some hgetter)).1
  refine ⟨hget.1, fun id hid => ?_⟩
  obtain ⟨⟨setter, m'⟩, hsetter, rfl⟩ := Option.map_eq_some_iff.mp hid
  split at hsetter
  · exact absurd hsetter (by simp)
  · have hset := hall _ (List.mem_filter.mp (List.mem_of_find?_eq_some hsetter)).1
    refine ⟨hset.1, ?_⟩
    -- One and the same method cannot take no parameter and one.
    rintro rfl
    obtain rfl : m' = m := Except.ok.inj (hset.2.symm.trans hget.2)
    have hnone := List.find?_some hgetter
    have hone := List.find?_some hsetter
    change m'.isGetter p.getterName = true at hnone
    change m'.isSetter p.setterName p.storage.type = true at hone
    have hempty : m'.signature.parameters = [] := by
      simpa using (Bool.and_eq_true_iff.mp hnone).2
    simp [MethodDecl.isSetter, hempty] at hone

/-! ### The properties of a type -/

/-- The pass has got to some point of a type: what is gone is methods, and the methods it has not
used still stand in the type. -/
structure Merging (g₀ : Graph) (type : DeclId) (methods used : List DeclId) (g : Graph) :
    Prop where
  /-- What is gone is methods. -/
  edited : Edited (g₀.kind? · = some (some .methods)) g₀ g
  /-- The methods that are not used stand in the type. -/
  place?_eq : ∀ id ∈ methods, id ∉ used → g.place? id = some ⟨some type, some .methods⟩

/-- Taking a method out makes it a used one. -/
theorem Merging.drop {g' : Graph} (h : Merging g₀ type methods used g)
    (ho : g'.outline = g.outline.drop method) (he : Edited (· = method) g g')
    (hm : g₀.kind? method = some (some .methods)) :
    Merging g₀ type methods (method :: used) g' where
  edited := h.edited.trans (he.mono fun id hid => hid ▸ hm)
  place?_eq id hid hused := by
    rw [place?_drop ho fun he => hused (he ▸ List.mem_cons_self)]
    exact h.place?_eq id hid fun hm => hused (List.mem_cons_of_mem method hm)

theorem Merging.of_outline {g' : Graph} (h : Merging g₀ type methods used g)
    (ho : g'.outline = g.outline) : Merging g₀ type methods used g' where
  edited := h.edited.trans (.of_outline h.edited.consistent ho)
  place?_eq id hid hused :=
    (congrFun (congrArg Outline.place? ho) id).trans (h.place?_eq id hid hused)

theorem Merging.mono {used' : List DeclId} (h : Merging g₀ type methods used g)
    (hsub : used ⊆ used') : Merging g₀ type methods used' g where
  edited := h.edited
  place?_eq id hid hused := h.place?_eq id hid fun hm => hused (hsub hm)

/-- A method that is not used can be taken out of its type. -/
theorem Merging.succeeds_takeBody (h : Merging g₀ type methods used g)
    (hmethods : ∀ id ∈ methods, g₀.kind? id = some (some .methods)) (hm : method ∈ methods)
    (hused : method ∉ used) :
    (takeBody type method).Succeeds g fun _ g' => Merging g₀ type methods (method :: used) g' := by
  have hplace := h.place?_eq method hm hused
  refine (AccessorMerge.succeeds_takeBody h.edited.consistent hplace).mono fun _ g' h' => ?_
  exact h.drop h'.1 h'.2 (hmethods method hm)

theorem Merging.succeeds_takeSetter (h : Merging g₀ type methods used g)
    (hmethods : ∀ id ∈ methods, g₀.kind? id = some (some .methods)) (hm : method ∈ methods)
    (hused : method ∉ used) :
    (takeSetter type method).Succeeds g fun _ g' =>
      Merging g₀ type methods (method :: used) g' := by
  have hkind : g.kind? method = some (some .methods) := by
    rw [kind?_eq_place?, h.place?_eq method hm hused]
    rfl
  rw [Succeeds, takeSetter, outcome_bind]
  refine outcome_look_typed Decl.view_method hkind fun _ m _ _ => ?_
  rw [outcome_bind]
  exact h.succeeds_takeBody hmethods hm hused

/-- What is no method is of the kind it was. -/
theorem Merging.kind?_eq (h : Merging g₀ type methods used g) {id : DeclId}
    {kind : Option ChildList} (hid : g₀.kind? id = some kind) (hne : kind ≠ some .methods) :
    g.kind? id = some kind := by
  rw [h.edited.kind?_eq id (by simpa [hid] using hne), hid]

theorem Merging.succeeds_setMode (h : Merging g₀ type methods used g)
    (hp : g₀.kind? property = some (some .properties)) (mode : PropertyMode) (answer : α) :
    (setMode property mode answer).Succeeds g fun r g' =>
      r = answer ∧ Merging g₀ type methods used g' := by
  rw [Succeeds, setMode, outcome_bind]
  refine outcome_look_typed Decl.view_property (h.kind?_eq hp (by simp)) fun n p hn hd => ?_
  rw [outcome_bind]
  refine (succeeds_setDecl hn ?_).mono fun _ g' h' => ⟨rfl, h.of_outline h'.1⟩
  rw [hd]
  exact ⟨fun list => by cases list <;> rfl, rfl⟩

/-- **Two methods that are not used can be taken out** and merged into a property. -/
theorem Merging.succeeds_takeAccessors {inExtension : Bool} {a : Accessors}
    (h : Merging g₀ type methods used g)
    (hmethods : ∀ id ∈ methods, g₀.kind? id = some (some .methods))
    (hp : g₀.kind? property = some (some .properties))
    (hgetter : a.getter ∈ methods ∧ a.getter ∉ used)
    (hsetter : ∀ id, a.setter = some id → (id ∈ methods ∧ id ∉ used) ∧ id ≠ a.getter)
    (answer : α) :
    (takeAccessors type property inExtension a answer).Succeeds g fun r g' =>
      r = answer ∧ Merging g₀ type methods (a.getter :: (a.setter.toList ++ used)) g' := by
  rw [Succeeds, takeAccessors, outcome_bind]
  refine (h.succeeds_takeBody hmethods hgetter.1 hgetter.2).mono fun _ g₁ h₁ => ?_
  cases hs : a.setter with
  | none => exact h₁.succeeds_setMode hp _ answer
  | some setter =>
    obtain ⟨⟨hmem, hunused⟩, hne⟩ := hsetter setter hs
    have hfree : setter ∉ a.getter :: used := by simp [hne, hunused]
    rw [outcome_bind, outcome_map]
    refine (h₁.succeeds_takeSetter hmethods hmem hfree).mono fun _ g₂ h₂ => ?_
    have h₃ : Merging g₀ type methods (a.getter :: ([setter] ++ used)) g₂ := h₂.mono (by simp)
    exact h₃.succeeds_setMode hp _ answer

/-- **Merging the accessors of one property succeeds**, and it may change the property. -/
theorem succeeds_mergeInto {inExtension : Bool}
    (hmethods : ∀ id ∈ methods, g₀.kind? id = some (some .methods))
    (hp : g₀.kind? property = some (some .properties)) (h : Merging g₀ type methods used g) :
    (mergeInto type inExtension methods used property).Succeeds g fun r g' =>
      Merging g₀ type methods r.1 g' ∧ ∀ id ∈ r.2, id = property := by
  rw [Succeeds, mergeInto_eq, outcome_bind]
  refine outcome_look_typed Decl.view_property (h.kind?_eq hp (by simp)) fun n p hn hd => ?_
  split_ifs
  · exact ⟨h, by simp⟩
  · -- Only methods that no property has used are looked at.
    have hleft : ∀ {id}, id ∈ methods.filter (fun id => !used.contains id) →
        id ∈ methods ∧ id ∉ used := by
      intro id hid
      simpa using List.mem_filter.mp hid
    have hunused : ∀ id ∈ methods.filter (fun id => !used.contains id),
        g.kind? id = some (some .methods) := by
      intro id hid
      rw [kind?_eq_place?, h.place?_eq id (hleft hid).1 (hleft hid).2]
      rfl
    obtain ⟨found, hok, hfound⟩ := finds_findAccessors p hunused
    rw [outcome_bind, outcome_look_ok hok]
    cases found with
    | none => exact ⟨h, by simp⟩
    | some a =>
      obtain ⟨hgetter, hsetter⟩ := hfound a rfl
      refine (h.succeeds_takeAccessors hmethods hp (hleft hgetter)
        (fun id hid => ⟨hleft (hsetter id hid).1, (hsetter id hid).2⟩) _).mono fun r g' h' => ?_
      obtain ⟨rfl, h'⟩ := h'
      exact ⟨h', by simp⟩

/-- Merging accessors into some properties of a type succeeds. -/
theorem succeeds_mergeEach {inExtension : Bool}
    (hmethods : ∀ id ∈ methods, g₀.kind? id = some (some .methods)) {properties : List DeclId}
    (hp : ∀ id ∈ properties, g₀.kind? id = some (some .properties))
    (h : Merging g₀ type methods used g) :
    (mergeEach type inExtension methods used properties).Succeeds g fun changes g' =>
      Edited (g₀.kind? · = some (some .methods)) g₀ g' ∧ ∀ id ∈ changes, id ∈ properties := by
  induction properties generalizing used g with
  | nil => exact ⟨h.edited, by simp⟩
  | cons property rest ih =>
    rw [Succeeds, mergeEach, outcome_bind]
    refine (succeeds_mergeInto hmethods (hp property List.mem_cons_self) h).mono
      fun r g₁ hfirst => ?_
    obtain ⟨h₁, hr⟩ := hfirst
    rw [outcome_bind]
    refine (ih (fun id hid => hp id (List.mem_cons_of_mem property hid)) h₁).mono
      fun changes g₂ hrest => ?_
    obtain ⟨h₂, hchanges⟩ := hrest
    refine ⟨h₂, fun id hid => ?_⟩
    rcases List.mem_append.mp hid with hid | hid
    · rw [hr id (Option.mem_toList.mp hid)]
      exact List.mem_cons_self
    · exact List.mem_cons_of_mem property (hchanges id hid)

/-- Merging accessors in a type succeeds; what is gone is methods, and what has changed is
properties. -/
theorem succeeds_mergeInType (hc : g.outline.Consistent none)
    (ht : g.kind? type = some (some .types)) :
    (mergeInType type).Succeeds g fun changes g' =>
      Edited (g.kind? · = some (some .methods)) g g' ∧
        ∀ id ∈ changes, g.kind? id = some (some .properties) := by
  rw [Succeeds, mergeInType, outcome_bind]
  refine outcome_look_typed Decl.view_type ht fun n d hn hd => ?_
  split_ifs
  · exact ⟨.refl hc, by simp⟩
  · have hmethods : ∀ id ∈ d.methods, g.place? id = some ⟨some type, some .methods⟩ := by
      intro id hid
      refine hc.mem_listOf_iff.mp ?_
      change id ∈ g.listOf type .methods
      rw [listOf_of_node? hn, hd]
      exact hid
    have hproperties : ∀ id ∈ d.properties, g.kind? id = some (some .properties) := fun id hid =>
      kind?_of_mem_decl hc hn (hd ▸ hid : id ∈ n.decl.listOf .properties)
    refine (succeeds_mergeEach (fun id hid => ?_) hproperties
      ⟨.refl hc, fun id hid _ => hmethods id hid⟩).mono
      fun changes g' h => ⟨h.1, fun id hid => hproperties id (h.2 id hid)⟩
    rw [kind?_eq_place?, hmethods id hid]
    rfl

/-! ### All types -/

/-- After the types, the properties that changed are annotated. -/
theorem succeeds_mergeAll_of_types {c : Catalog} (done : List DeclId → Graph → Prop)
    (h : (g.typeIds.mapM mergeInType).Succeeds g fun changes g₁ =>
      (∀ id ∈ changes.flatten, g₁.kind? id ≠ none) ∧ done changes.flatten g₁) :
    (mergeAll c).Succeeds g fun c' g' => ∃ ids g₁, done ids g₁ ∧
      g' = ids.foldl (annotated c') g₁ ∧ g'.outline = g₁.outline := by
  rw [Succeeds, mergeAll, outcome_bind, outcome_get, outcome_bind]
  refine h.mono fun changes g₁ h₁ => ?_
  obtain ⟨hids, hdone⟩ := h₁
  split_ifs with hempty
  · rw [List.isEmpty_iff.mp hempty] at hdone
    exact ⟨[], g₁, hdone, rfl, rfl⟩
  · rw [outcome_bind, outcome_get, outcome_bind]
    refine (succeeds_forM_annotate hids).mono fun _ g₂ h₂ => ?_
    exact ⟨changes.flatten, g₁, hdone, h₂.2, h₂.1⟩

/-- **Merging accessors succeeds**, and what is gone is methods. -/
theorem succeeds_mergeAll {c : Catalog} (hc : g.outline.Consistent none) :
    (mergeAll c).Succeeds g fun _ g' => Edited (g.kind? · = some (some .methods)) g g' := by
  -- Types and the properties that changed are not gone, as only methods are.
  have hkeep : ∀ {g₁ : Graph} {id kind}, Edited (g.kind? · = some (some .methods)) g g₁ →
      kind ≠ some .methods → g.kind? id = some kind → g₁.kind? id = some kind := by
    intro g₁ id kind h hne hid
    rw [h.kind?_eq id (by simpa [hid] using hne), hid]
  have htypes : (g.typeIds.mapM mergeInType).Succeeds g fun changes g₁ =>
      (∀ id ∈ changes.flatten, g₁.kind? id ≠ none) ∧
        Edited (g.kind? · = some (some .methods)) g g₁ := by
    refine (outcome_mapM (fun changes rest g₁ => Edited (g.kind? · = some (some .methods)) g g₁ ∧
        (∀ id ∈ changes.flatten, g.kind? id = some (some .properties)) ∧
        ∀ id ∈ rest, g.kind? id = some (some .types))
      (fun changes type rest g₁ h => ?_)
      ⟨.refl hc, by simp, fun id hid => kind?_of_mem_typeIds hc hid⟩).mono
      (fun changes g₁ h => ?_) fun _ _ hx => hx
    · obtain ⟨he, hchanges, hrest⟩ := h
      have htype := hkeep he (by simp) (hrest type List.mem_cons_self)
      refine (succeeds_mergeInType he.consistent htype).mono fun changed g₂ h₂ => ?_
      refine ⟨he.trans (h₂.1.mono fun id hid => he.kind?_back id _ hid), fun id hid => ?_,
        fun id hid => hrest id (List.mem_cons_of_mem type hid)⟩
      simp only [List.flatten_append, List.flatten_singleton, List.mem_append] at hid
      rcases hid with hid | hid
      · exact hchanges id hid
      · exact he.kind?_back id _ (h₂.2 id hid)
    · obtain ⟨he, hchanges, -⟩ := h
      refine ⟨fun id hid => ?_, he⟩
      rw [hkeep he (by simp) (hchanges id hid)]
      simp
  refine (succeeds_mergeAll_of_types (fun _ => Edited (g.kind? · = some (some .methods)) g)
    htypes).mono fun _ g' h => ?_
  obtain ⟨-, g₁, he, -, ho⟩ := h
  exact he.trans (.of_outline he.consistent ho)

end ObjcSwift.AccessorMerge
