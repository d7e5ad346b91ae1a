import ObjcSwift.Proofs.Pass.Merging
import ObjcSwift.Proofs.Pass.PropertyLists

/-!
# Merging types hands properties over

When a type is merged into another one, its members are given away one after the other, and its
properties are absorbed by those of the target. What the target has, with what the other type still
has absorbed, is the same before and after each step (`TypeMerge.HandsOver`): a step that is about a
property moves it from one part of this total to the other, and the others do not concern
properties.

So while the types of a group are merged into their target, the total with all that are left stays
what it was (`TypeMerge.Pending`), and when the last one is gone, the target has it all.
-/

namespace ObjcSwift

namespace TypeMerge

open ObjcSwift.Graph ObjcSwift.Graph.Edit

variable {g g₀ g' : Graph} {id kept target source t : DeclId} {list : ChildList} {key : MergeKey}
  {decl : Decl} {rest left group : List DeclId} {p : PropertyDecl}

/-! ### Handing properties over -/

/-- The properties of all types are the same but for those of two types, of which one hands over
properties to the other: what the other one has, with what this one has absorbed, stays the same. -/
structure HandsOver (target source : DeclId) (g g' : Graph) : Prop where
  /-- The properties of other types are the same. -/
  other_eq : ∀ t, t ≠ target → t ≠ source → g'.propertiesOf t = g.propertiesOf t
  /-- The total is the same. -/
  total_eq : (g'.propertiesOf source).foldl PropertyList.absorb (g'.propertiesOf target) =
    (g.propertiesOf source).foldl PropertyList.absorb (g.propertiesOf target)

/-- Where no property changes, none is handed over. -/
theorem HandsOver.of_eq (h : ∀ t, g'.propertiesOf t = g.propertiesOf t) :
    HandsOver target source g g' :=
  ⟨fun t _ _ => h t, by rw [h, h]⟩

/-- What giving a member away does to lists and properties. -/
theorem outcome_relocate_reads (hc : g.outline.Consistent none)
    (hn : g.node? id = some ⟨some source, decl⟩) (hlist : decl.ownList? = some list)
    (hhome : list.home = some .types) (ht : g.kind? target = some (some .types))
    (duplicate : Bool) :
    (relocate id target duplicate).Outcome g (fun _ g' =>
      (∀ t l, g'.listOf t l = if duplicate = false ∧ t = target ∧ l = list
        then (g.listOf target list).erase id ++ [id] else (g.listOf t l).erase id) ∧
      ∀ j, g'.property? j = if duplicate = true ∧ j = id then none else g.property? j)
      fun _ _ => True := by
  unfold relocate
  cases duplicate with
  | true =>
    have hleaf := listOf_member hlist hhome
    rw [if_pos rfl, outcome_discard]
    refine (Outcome.and (succeeds_remove_edited hc hn hleaf)
      (succeeds_remove_enters hc hn hleaf)).mono (fun _ g' h => ⟨fun t l => ?_, fun j => ?_⟩)
      fun _ _ hx => hx.1.elim
    · rw [if_neg (by simp)]
      exact congrFun (congrFun (congrArg Outline.listOf h.1.2.1) t) l
    · rw [property?, h.2.2.read_eq Decl.property?_childless]
      simp [property?]
  | false =>
    have hid : g.kind? id = some (some list) := by rw [kind?_of_node? hn, hlist]
    have hq : g.kind? target = some list.home := by rw [hhome, ht]
    have hmove : (moveTo id target).Succeeds g fun _ g' =>
        g'.outline = (g.outline.unlink id).link id target list ∧ Edited (fun _ => True) g g' :=
      succeeds_moveTo_edited hc hid hq
    have henters : (moveTo id target).Succeeds g fun _ g' => Edited (fun _ => True) g g' ∧
        g.Enters id (some ⟨some target, decl.childless⟩) [target, source] g' :=
      succeeds_moveTo_enters hc hn hlist hq
    rw [if_neg (by simp)]
    refine (Outcome.and hmove henters).mono (fun _ g' h => ⟨fun t l => ?_, fun j => ?_⟩)
      fun _ _ hx => hx.1.elim
    · have hlists : g'.listOf t l =
          if t = target ∧ l = list then (g.listOf target list).erase id ++ [id]
          else (g.listOf t l).erase id :=
        congrFun (congrFun (congrArg Outline.listOf h.1.1) t) l
      simpa using hlists
    · rw [if_neg (by simp)]
      exact h.2.2.read_eq_self hn Decl.property?_childless rfl j

/-- A member that is no property is given away without a change to properties. -/
theorem outcome_relocate_other (hc : g.outline.Consistent none)
    (hn : g.node? id = some ⟨some source, decl⟩) (hlist : decl.ownList? = some list)
    (hhome : list.home = some .types) (ht : g.kind? target = some (some .types))
    (hne : list ≠ .properties) (duplicate : Bool) :
    (relocate id target duplicate).Outcome g
      (fun _ g' => ∀ t, g'.propertiesOf t = g.propertiesOf t) fun _ _ => True := by
  refine (outcome_relocate_reads hc hn hlist hhome ht duplicate).mono (fun _ g' h t => ?_)
    fun _ _ hx => hx
  have hnone : g.property? id = none := by
    rw [property?_of_node? hn]
    exact property?_eq_none hlist (by simpa using hne)
  refine propertiesOf_eq ?_ fun j _ => ?_
  · rw [h.1, if_neg fun hcon => hne hcon.2.2.symm, List.erase_of_not_mem]
    intro hmem
    have hkind := kind?_of_mem_listOf hc hmem
    rw [kind?_of_node? hn, hlist] at hkind
    exact hne (by simpa using hkind)
  · rw [h.2]
    split_ifs with hj
    · rw [hj.2, hnone]
    · rfl

/-- Rewriting a declaration changes no list, and no other property. -/
theorem reads_of_setDecl {parent : Option DeclId} {d : Decl} (ho : g'.outline = g.outline)
    (hnode : ∀ j, g'.node? j = if j = kept then some ⟨parent, d⟩ else g.node? j) :
    (∀ t l, g'.listOf t l = g.listOf t l) ∧
      g'.property? = Function.update g.property? kept d.property? := by
  refine ⟨fun t l => congrFun (congrFun (congrArg Outline.listOf ho) t) l, funext fun j => ?_⟩
  rw [property?, get?, hnode, Function.update_apply]
  split_ifs <;> rfl

/-- The first property of a type with a key is found. -/
theorem finds_findMember_key (ht : g.kind? target = some (some .types)) (p : PropertyDecl) :
    Finds (findMember g target (·.properties) fun d =>
      d.property?.any fun q => q.name == p.name && q.isStatic == p.isStatic) fun found =>
        found = (g.listOf target .properties).find? (PropertyList.hasKey g.property? p.key) := by
  refine (finds_typed Decl.view_type ht).bind ?_
  rintro d ⟨n, hn, hd⟩
  refine finds_pure ?_
  rw [listOf_of_node? hn, hd]
  refine List.find?_congr fun j _ => ?_
  rw [PropertyList.hasKey, property?]
  cases g.get? j with
  | none => rfl
  | some e =>
    cases he : e.property? with
    | none => simp [he]
    | some q =>
      rw [Bool.eq_iff_iff]
      simp [he, PropertyDecl.key]

section Properties

variable (h : Donates g target source id .properties key (.property p))
  (hhead : g.listOf source .properties = id :: rest)
include h

/-- A property of the source stands nowhere else. -/
theorem Donates.not_mem_listOf (hne : t ≠ source) : id ∉ g.listOf t .properties := fun hmem =>
  hne (Option.some.inj (parent_eq_of_mem_listOf h.consistent h.node?_eq hmem)).symm

include hhead

theorem Donates.propertiesOf_source :
    g.propertiesOf source = (id, p) :: PropertyList.read g.property? rest := by
  rw [propertiesOf, hhead, PropertyList.read_cons (property?_of_node? h.node?_eq)]

/-- The first property of the source is handed over to a target with nothing like it. -/
theorem Donates.handsOver_moved
    (hnone : (g.listOf target .properties).find? (PropertyList.hasKey g.property? p.key) = none)
    (hlists : ∀ t, g'.listOf t .properties = if t = target
      then (g.listOf target .properties).erase id ++ [id] else (g.listOf t .properties).erase id)
    (hsame : g'.property? = g.property?) : HandsOver target source g g' := by
  refine ⟨fun t htarget hne => ?_, ?_⟩
  · refine propertiesOf_eq ?_ fun j _ => congrFun hsame j
    rw [hlists, if_neg htarget, List.erase_of_not_mem (h.not_mem_listOf hne)]
  · have hs : g'.propertiesOf source = PropertyList.read g.property? rest := by
      rw [propertiesOf, hlists, if_neg h.ne, hsame, hhead, List.erase_cons_head]
    have hlast : g'.propertiesOf target = g.propertiesOf target ++ [(id, p)] := by
      have hout := h.not_mem_listOf h.ne.symm
      rw [propertiesOf, hlists, if_pos rfl, hsame, List.erase_of_not_mem hout,
        PropertyList.read_append_singleton (property?_of_node? h.node?_eq)]
      rfl
    have habsorb : (g.propertiesOf target).absorb (id, p) = g.propertiesOf target ++ [(id, p)] :=
      PropertyList.absorb_read_none hnone
    rw [hs, hlast, h.propertiesOf_source hhead, List.foldl_cons, habsorb]

/-- The first property of the source is handed over to its like in the target. -/
theorem Donates.handsOver_joined {q : PropertyDecl}
    (hkept : g.node? kept = some ⟨some target, .property q⟩)
    (hfound : (g.listOf target .properties).find? (PropertyList.hasKey g.property? p.key) =
      some kept)
    (hlists : ∀ t, g'.listOf t .properties = (g.listOf t .properties).erase id)
    (hsame : ∀ j ≠ id, g'.property? j =
      Function.update g.property? kept (some (joinProperties q p)) j) :
    HandsOver target source g g' := by
  have hc := h.consistent
  have hother : ∀ t ≠ target, kept ∉ g.listOf t .properties := fun t htarget hmem =>
    htarget (Option.some.inj (parent_eq_of_mem_listOf hc hkept hmem)).symm
  refine ⟨fun t htarget hne => ?_, ?_⟩
  · have hout := h.not_mem_listOf hne
    refine propertiesOf_eq (by rw [hlists, List.erase_of_not_mem hout]) fun j hj => ?_
    rw [hsame j (ne_of_mem_of_not_mem hj hout),
      Function.update_of_ne (ne_of_mem_of_not_mem hj (hother t htarget))]
  · have hnodup : (g.listOf source .properties).Nodup := hc.nodup_listOf source .properties
    have hrest : id ∉ rest := (List.nodup_cons.mp (hhead ▸ hnodup)).1
    -- What the source has left is neither of the two.
    have hs : g'.propertiesOf source = PropertyList.read g.property? rest := by
      rw [propertiesOf, hlists, hhead, List.erase_cons_head]
      refine PropertyList.read_congr fun j hj => ?_
      have hjs : j ∈ g.listOf source .properties := hhead ▸ List.mem_cons_of_mem id hj
      rw [hsame j (ne_of_mem_of_not_mem hj hrest),
        Function.update_of_ne (ne_of_mem_of_not_mem hjs (hother source h.ne))]
    -- In the target the like of the property is rewritten where it stands.
    have hjoined : g'.propertiesOf target = (g.propertiesOf target).absorb (id, p) := by
      have hout := h.not_mem_listOf h.ne.symm
      have habsorb : (g.propertiesOf target).absorb (id, p) = PropertyList.read
          (Function.update g.property? kept (some (joinProperties q p)))
          (g.listOf target .properties) :=
        PropertyList.absorb_read_some (hc.nodup_listOf target .properties) hfound
          (property?_of_node? hkept)
      rw [habsorb, propertiesOf, hlists, List.erase_of_not_mem hout]
      exact PropertyList.read_congr fun j hj => hsame j (ne_of_mem_of_not_mem hj hout)
    rw [hs, hjoined, h.propertiesOf_source hhead, List.foldl_cons]

end Properties

/-- **The target absorbs the first property of the source.** -/
theorem outcome_mergeProperty_handsOver (h : Donates g target source id .properties key decl)
    (hhead : g.listOf source .properties = id :: rest) :
    (mergeProperty target id).Outcome g (fun _ g' => HandsOver target source g g')
      fun _ _ => True := by
  have ht := kind?_of_mergeKey? h.target_key
  obtain ⟨p, rfl⟩ := Decl.view_property.exists_make decl h.ownList?_eq
  rw [mergeProperty, outcome_bind]
  refine (outcome_look_of_node? Decl.view_property h.node?_eq).mpr ?_
  obtain ⟨found, hok, hfound⟩ := finds_findMember_key ht p
  rw [outcome_bind, outcome_look_ok hok]
  cases found with
  | none =>
    -- No property of the target has its key, so it moves over.
    refine (outcome_relocate_reads h.consistent h.node?_eq h.ownList?_eq h.home_eq ht false).mono
      (fun _ g' hreads => ?_) fun _ _ hx => hx
    refine h.handsOver_moved hhead hfound.symm (fun t => ?_) (funext fun j => ?_)
    · simpa using hreads.1 t .properties
    · simpa using hreads.2 j
  | some kept =>
    -- The property of the target is joined with it first, then it is removed.
    have hin := List.mem_of_find?_eq_some hfound.symm
    obtain ⟨⟨parent, d⟩, hnode, hparent, hlist⟩ :=
      exists_node?_of_place? (h.consistent.mem_listOf_iff.mp hin)
    obtain rfl : parent = some target := hparent
    obtain ⟨q, rfl⟩ := Decl.view_property.exists_make d hlist
    have hset : (setDecl kept (.property (joinProperties q p))).Succeeds g fun _ g₁ =>
        g₁.outline = g.outline ∧ ∀ j, g₁.node? j =
          if j = kept then some ⟨some target, .property (joinProperties q p)⟩ else g.node? j :=
      succeeds_setDecl hnode ⟨fun l => by cases l <;> rfl, rfl⟩
    simp only [outcome_bind]
    refine (outcome_look_of_node? Decl.view_property hnode).mpr ?_
    refine hset.outcome.mono (fun _ g₁ h₁ => ?_) fun _ _ hx => hx
    obtain ⟨ho, hnodes⟩ := h₁
    obtain ⟨hlists, hproperties⟩ := reads_of_setDecl ho hnodes
    have hn₁ : g₁.node? id = some ⟨some source, .property p⟩ := by
      rw [hnodes, if_neg (h.ne_of_node? hnode).symm, h.node?_eq]
    refine (outcome_relocate_reads (ho ▸ h.consistent) hn₁ h.ownList?_eq h.home_eq
      (by rw [kind?_of_outline ho, ht]) true).mono (fun _ g' hreads => ?_) fun _ _ hx => hx
    refine h.handsOver_joined hhead hnode hfound.symm (fun t => ?_) fun j hj => ?_
    · rw [hreads.1, if_neg (by simp), hlists]
    · rw [hreads.2, if_neg fun hcon => hj hcon.2, hproperties]
      rfl

/-! ### The other steps -/

theorem outcome_mergeTop_handsOver (other : TypeDecl) (hc : g.outline.Consistent none)
    (ht : g.mergeKey? target = some key) :
    (mergeTop target other).Outcome g (fun _ g' => HandsOver target source g g')
      fun _ _ => True := by
  obtain ⟨parent, d, hnode, -⟩ := exists_node?_type hc (kind?_of_mergeKey? ht)
  have hset : (setDecl target (.type { d with
      kind := joinKinds d.kind other, header := joinHeaders d.header other.header })).Succeeds g
      fun _ g' => g'.outline = g.outline ∧ ∀ j, g'.node? j =
        if j = target then some ⟨some parent, _⟩ else g.node? j :=
    succeeds_setDecl hnode ⟨fun l => by cases l <;> rfl, rfl⟩
  rw [mergeTop, outcome_bind]
  refine (outcome_look_of_node? Decl.view_type hnode).mpr ?_
  refine hset.outcome.mono (fun _ g' h' => ?_) fun _ _ hx => hx
  obtain ⟨hlists, hproperties⟩ := reads_of_setDecl h'.1 h'.2
  have hnone : g.property? target = none := property?_of_node? hnode
  refine .of_eq fun t => propertiesOf_eq (hlists t .properties) fun j _ => ?_
  rw [hproperties]
  exact congrFun (Function.update_eq_self_iff.mpr hnone.symm) j

/-- A member that is no property hands over nothing. -/
theorem Donates.outcome_relocate_handsOver (h : Donates g target source id list key decl)
    (hne : list ≠ .properties) (duplicate : Bool) :
    (relocate id target duplicate).Outcome g (fun _ g' => HandsOver target source g g')
      fun _ _ => True :=
  (outcome_relocate_other h.consistent h.node?_eq h.ownList?_eq h.home_eq
    (kind?_of_mergeKey? h.target_key) hne duplicate).mono (fun _ _ h' => .of_eq h')
    fun _ _ hx => hx

theorem outcome_mergeConformance_handsOver
    (h : Donates g target source id .conformances key decl) :
    (mergeConformance target id).Outcome g (fun _ g' => HandsOver target source g g')
      fun _ _ => True := by
  obtain ⟨c, rfl⟩ := Decl.view_conformance.exists_make decl h.ownList?_eq
  rw [mergeConformance, outcome_bind]
  refine (outcome_look_of_node? Decl.view_conformance h.node?_eq).mpr ?_
  obtain ⟨found, hok, -⟩ := finds_findMember (p := fun d =>
    d.conformance?.any (·.name == c.name)) .conformances (fun _ => rfl) h.consistent
    (kind?_of_mergeKey? h.target_key)
  rw [outcome_bind, outcome_look_ok hok]
  exact h.outcome_relocate_handsOver (by decide) found.isSome

theorem outcome_mergeIvar_handsOver (h : Donates g target source id .ivars key decl) :
    (mergeIvar target id).Outcome g (fun _ g' => HandsOver target source g g')
      fun _ _ => True := by
  obtain ⟨v, rfl⟩ := Decl.view_ivar.exists_make decl h.ownList?_eq
  rw [mergeIvar, outcome_bind]
  refine (outcome_look_of_node? Decl.view_ivar h.node?_eq).mpr ?_
  obtain ⟨found, hok, -⟩ := finds_findMember (p := fun d => d.ivar?.any (·.name == v.name))
    .ivars (fun _ => rfl) h.consistent (kind?_of_mergeKey? h.target_key)
  rw [outcome_bind, outcome_look_ok hok]
  exact h.outcome_relocate_handsOver (by decide) found.isSome

theorem outcome_mergeMethod_handsOver (h : Donates g target source id .methods key decl) :
    (mergeMethod target id).Outcome g (fun _ g' => HandsOver target source g g')
      fun _ _ => True := by
  have ht := kind?_of_mergeKey? h.target_key
  obtain ⟨m, rfl⟩ := Decl.view_method.exists_make decl h.ownList?_eq
  rw [mergeMethod, outcome_bind]
  refine (outcome_look_of_node? Decl.view_method h.node?_eq).mpr ?_
  obtain ⟨found, hok, hfound⟩ := finds_findMember (p := fun d =>
    d.method?.any (·.signature.sameMethod m.signature)) .methods (fun _ => rfl) h.consistent ht
  rw [outcome_bind, outcome_look_ok hok]
  cases found with
  | none => exact h.outcome_relocate_handsOver (by decide) false
  | some kept =>
    obtain ⟨d, hnode, hlist, -⟩ := hfound kept rfl
    obtain ⟨k, rfl⟩ := Decl.view_method.exists_make d hlist
    have hset : (setDecl kept (.method (joinMethods k m))).Succeeds g fun _ g₁ =>
        g₁.outline = g.outline ∧ ∀ j, g₁.node? j =
          if j = kept then some ⟨some target, .method (joinMethods k m)⟩ else g.node? j :=
      succeeds_setDecl hnode ⟨fun l => by cases l <;> rfl, rfl⟩
    simp only [outcome_bind]
    refine (outcome_look_of_node? Decl.view_method hnode).mpr ?_
    refine hset.outcome.mono (fun _ g₁ h₁ => ?_) fun _ _ hx => hx
    obtain ⟨ho, hnodes⟩ := h₁
    obtain ⟨hlists, hproperties⟩ := reads_of_setDecl ho hnodes
    have hn₁ : g₁.node? id = some ⟨some source, .method m⟩ := by
      rw [hnodes, if_neg (h.ne_of_node? hnode).symm, h.node?_eq]
    -- A method is no property, so no property changes when methods are joined.
    have hnone : g.property? kept = none := property?_of_node? hnode
    have hsame : g₁.property? = g.property? :=
      hproperties.trans (Function.update_eq_self_iff.mpr hnone.symm)
    refine (outcome_relocate_other (ho ▸ h.consistent) hn₁ h.ownList?_eq h.home_eq
      (by rw [kind?_of_outline ho, ht]) (by decide) true).mono (fun _ g' h' => ?_) fun _ _ hx => hx
    refine .of_eq fun t => (h' t).trans ?_
    exact propertiesOf_eq (hlists t .properties) fun j _ => congrFun hsame j

/-- A drained type has nothing to hand over. -/
theorem outcome_remove_handsOver (hc : g.outline.Consistent none)
    (hs : g.mergeKey? source = some key) (hdrained : ∀ l, g.listOf source l = []) :
    (remove source).Outcome g (fun _ g' => HandsOver target source g g') fun _ _ => True := by
  obtain ⟨parent, d, hnode, -⟩ := exists_node?_type hc (kind?_of_mergeKey? hs)
  have hleaf : ∀ l, (Decl.type d).listOf l = [] := fun l => by
    rw [← hdrained l, listOf_of_node? hnode]
  refine (Outcome.and (succeeds_remove_edited hc hnode hleaf)
    (succeeds_remove_enters hc hnode hleaf)).mono (fun _ g' h' => ?_) fun _ _ hx => hx.1.elim
  refine .of_eq fun t => propertiesOf_eq ?_ fun j _ => ?_
  · have hlists : g'.listOf t .properties = (g.listOf t .properties).erase source :=
      congrFun (congrFun (congrArg Outline.listOf h'.1.2.1) t) .properties
    rw [hlists, List.erase_of_not_mem]
    intro hmem
    have hkind := kind?_of_mem_listOf hc hmem
    rw [kind?_of_mergeKey? hs] at hkind
    exact absurd hkind (by simp)
  · rw [property?, h'.2.2.read_eq Decl.property?_childless]
    split_ifs with hj
    · rw [hj, property?_of_node? hnode]
      rfl
    · rfl

/-! ### Groups -/

/-- The pass has got to some point of a group: what the target has, with what the types that are
left still have absorbed, is what it was at the start, and other types have what they had. -/
structure Pending (g₀ : Graph) (group : List DeclId) (target : DeclId) (left : List DeclId)
    (g : Graph) : Prop where
  /-- The total is the same. -/
  total_eq : (left.flatMap g.propertiesOf).foldl PropertyList.absorb (g.propertiesOf target) =
    ((group.filter (· ≠ target)).flatMap g₀.propertiesOf).foldl PropertyList.absorb
      (g₀.propertiesOf target)
  /-- The properties of other types are the same. -/
  other_eq : ∀ t ∉ group, g.propertiesOf t = g₀.propertiesOf t

/-- Handing over changes no total. -/
theorem Pending.handsOver (h : Pending g₀ group target (source :: left) g)
    (htarget : target ∈ group) (hsource : source ∈ group) (hs : source ∉ left) (ht : target ∉ left)
    (h' : HandsOver target source g g') : Pending g₀ group target (source :: left) g' := by
  refine ⟨?_, fun t hout => ?_⟩
  · have hleft : left.flatMap g'.propertiesOf = left.flatMap g.propertiesOf := by
      refine List.flatMap_congr fun t hin => h'.other_eq t ?_ ?_
      · exact ne_of_mem_of_not_mem hin ht
      · exact ne_of_mem_of_not_mem hin hs
    rw [← h.total_eq, List.flatMap_cons, List.flatMap_cons, List.foldl_append, List.foldl_append,
      h'.total_eq, hleft]
  · rw [h'.other_eq t (ne_of_mem_of_not_mem htarget hout).symm
      (ne_of_mem_of_not_mem hsource hout).symm, h.other_eq t hout]

/-- **Every step of merging a type into another one hands over properties**, if any. -/
theorem mergeInvariant_pending (htarget : target ∈ group) (hsource : source ∈ group)
    (hs : source ∉ left) (ht : target ∉ left) :
    MergeInvariant target source key (Pending g₀ group target (source :: left)) := by
  have hstep {α : Type} {e : Edit α} {g : Graph}
      (he : e.Outcome g (fun _ g' => HandsOver target source g g') fun _ _ => True)
      (h : Pending g₀ group target (source :: left) g) :
      e.Outcome g (fun _ g' => Pending g₀ group target (source :: left) g') fun _ _ => True :=
    he.mono (fun _ _ h' => h.handsOver htarget hsource hs ht h') fun _ _ hx => hx
  exact
    { top := fun other hc ht h => hstep (outcome_mergeTop_handsOver other hc ht) h
      conformance := fun hd _ h => hstep (outcome_mergeConformance_handsOver hd) h
      property := fun hd hhead h => hstep (outcome_mergeProperty_handsOver hd hhead) h
      ivar := fun hd _ h => hstep (outcome_mergeIvar_handsOver hd) h
      method := fun hd _ h => hstep (outcome_mergeMethod_handsOver hd) h
      remove := fun hc hs hdrained h => hstep (outcome_remove_handsOver hc hs hdrained) h }

/-- A type that is gone has nothing left. -/
theorem Pending.gone (h : Pending g₀ group target (source :: left) g)
    (hgone : g.kind? source ≠ some (some .types)) : Pending g₀ group target left g := by
  have hnone : g.listOf source .properties = [] := by
    refine List.eq_nil_iff_forall_not_mem.mpr fun j hj => hgone ?_
    obtain ⟨owner, ho, -, hlist⟩ := place?_of_mem_listOf hj
    rw [kind?_of_node? ho, hlist]
    rfl
  have hnothing : g.propertiesOf source = [] := by rw [propertiesOf, hnone]; rfl
  refine ⟨?_, h.other_eq⟩
  rw [← h.total_eq, List.flatMap_cons, hnothing, List.nil_append]

end TypeMerge

end ObjcSwift
