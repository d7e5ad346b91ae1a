import ObjcSwift.Proofs.Pass.HandingOver
import ObjcSwift.Proofs.Pass.Reuniting

/-!
# What merging types makes of properties

The properties of what is left of a type are those that it had, with all the others of its group
absorbed in order (`Graph.absorbed`), and this is all that the pass does to properties: groups are
merged one after the other (`TypeMerge.Gathering`), and sweeping the files does not concern
properties.

So a property that is left has the attributes of every property that was **merged into it**, itself
included (`merging_types_absorbs_properties`). It is `readonly` as soon as one of them was, even if
another one was `readwrite`.
-/

namespace ObjcSwift

open ObjcSwift.Graph ObjcSwift.Graph.Edit

/-! ### Groups -/

namespace Graph

open TypeMerge

/-- Sweeping the files touches no properties. -/
theorem Sweeps.propertiesOf_eq {g g' : Graph} {t : DeclId} (h : g.Sweeps g.isEmptyHeader g')
    (ht : g.kind? t = some (some .types)) : g'.propertiesOf t = g.propertiesOf t := by
  refine Graph.propertiesOf_eq ?_ fun id _ => h.read_eq (fun _ => rfl) id
  rw [listOf, listOf, h.node?_eq_of_kind? (by rw [ht]; simp)]

/-- The declarations that are merged with a type: the others with its key, in order. -/
def companions (g : Graph) (t : DeclId) : List DeclId :=
  match g.mergeKey? t with
  | some key => (groupOfKey g key).filter (· ≠ t)
  | none => []

/-- Their properties. -/
def donated (g : Graph) (t : DeclId) : PropertyList :=
  (g.companions t).flatMap g.propertiesOf

/-- The properties of a type, with those of its companions absorbed. -/
def absorbed (g : Graph) (t : DeclId) : PropertyList :=
  (g.donated t).foldl PropertyList.absorb (g.propertiesOf t)

/-- **A property is merged into one of a type** if it is that one, or if one of the companions has
it and that one is the first with its key. -/
def MergedInto (g : Graph) (t p q : DeclId) : Prop :=
  p = q ∨ ∃ d, (p, d) ∈ g.donated t ∧
    PropertyList.keeper? (g.propertiesOf t ++ g.donated t) d.key = some q

end Graph

namespace TypeMerge

variable {g g' : Graph} {t : DeclId} {key : MergeKey}

/-- The pass has got to some key: types of other keys that are there have absorbed what they
should, and the others have what they had. -/
structure Gathering (g : Graph) (left : List MergeKey) (g₁ : Graph) : Prop where
  /-- The types of a key that is left have it, and the other keys are settled. -/
  settling : Settling g left g₁
  /-- What has no key, or one that is left, has its properties. -/
  waiting : ∀ t, (∀ key, g.mergeKey? t = some key → key ∈ left) →
    g₁.propertiesOf t = g.propertiesOf t
  /-- What has a key that is not left has absorbed those of its companions. -/
  gathered : ∀ t key, g₁.mergeKey? t = some key → key ∉ left → g₁.propertiesOf t = g.absorbed t

/-- **Merging the group of a key gathers its properties.** -/
theorem Gathering.succeeds_mergeGroup {keys : List MergeKey} {g₁ : Graph}
    (h : Gathering g (key :: keys) g₁) (hc : g.outline.Consistent none) (hout : key ∉ keys)
    (ht : g.mergeKey? t = some key) :
    (mergeGroup (groupOfKey g key)).Succeeds g₁ fun _ g₂ => Gathering g keys g₂ := by
  have hhave := h.settling.untouched key List.mem_cons_self
  have hgroup : ∀ {s}, s ∈ groupOfKey g key ↔ g.mergeKey? s = some key := mem_groupOfKey hc
  have hwaiting : ∀ s ∈ groupOfKey g key, g₁.propertiesOf s = g.propertiesOf s := by
    refine fun s hs => h.waiting s fun key' hkey' => ?_
    obtain rfl : key = key' := Option.some.inj ((hgroup.mp hs).symm.trans hkey')
    exact List.mem_cons_self
  have hrun := succeeds_mergeGroup_unifies (J := Pending g₁ (groupOfKey g key))
    h.settling.unifies.edited.consistent ((nodup_typeIds hc).filter _)
    (List.ne_nil_of_mem (hgroup.mpr ht)) (fun id hid => hhave id (hgroup.mp hid))
    (fun _ _ => ⟨rfl, fun _ _ => rfl⟩)
    (fun htarget hsource _ hs ht => mergeInvariant_pending htarget hsource hs ht)
    fun hgone hJ => hJ.gone hgone
  refine (Outcome.and (h.settling.succeeds_mergeGroup hc hout ht) hrun).mono (fun _ g₂ h₂ => ?_)
    fun _ _ hx => hx.1
  obtain ⟨hsettling, -, target, htarget, hkeys, -, hpending⟩ := h₂
  have hback {s : DeclId} {key' : MergeKey} (hs : g₂.mergeKey? s = some key') :
      g.mergeKey? s = some key' := hsettling.unifies.mergeKey?_back hs
  have hother {s : DeclId} (hs : g.mergeKey? s ≠ some key) :
      g₂.propertiesOf s = g₁.propertiesOf s := hpending.other_eq s fun hin => hs (hgroup.mp hin)
  refine ⟨hsettling, fun s hs => ?_, fun s key' hs hkey' => ?_⟩
  · rw [hother fun he => hout (hs key he)]
    exact h.waiting s fun key' hkey' => List.mem_cons_of_mem key (hs key' hkey')
  · by_cases he : key' = key
    · -- Of the group only the target has the key now, and it has absorbed the others.
      obtain rfl : s = target := by
        by_contra hne
        have hin : s ∈ groupOfKey g key := hgroup.mpr (he ▸ hback hs)
        rw [hkeys, if_pos ⟨hin, hne⟩] at hs
        exact absurd hs (by simp)
      have htotal := hpending.total_eq
      rw [List.flatMap_nil, List.foldl_nil, hwaiting s htarget] at htotal
      rw [htotal, absorbed, donated, companions, hgroup.mp htarget]
      refine congrArg (List.foldl _ _) (List.flatMap_congr fun r hr => hwaiting r ?_)
      exact (List.mem_filter.mp hr).1
    · -- The types of other keys are not in the group.
      have hne : g.mergeKey? s ≠ some key := fun hk =>
        he (Option.some.inj ((hback hs).symm.trans hk))
      rw [hother hne]
      refine h.gathered s key' ?_ (by simpa using ⟨he, hkey'⟩)
      rw [← hs, hkeys, if_neg fun hcon => hne (hgroup.mp hcon.1)]

/-- **Merging all groups gathers all properties.** -/
theorem succeeds_mapM_mergeGroup_gathers (hc : g.outline.Consistent none) :
    (((g.typeIds.filterMap g.mergeKey?).eraseDups.map (groupOfKey g)).mapM mergeGroup).Succeeds g
      fun _ g' => Gathering g [] g' := by
  have hmem : ∀ key, key ∈ (g.typeIds.filterMap g.mergeKey?).eraseDups ↔
      ∃ t, g.mergeKey? t = some key := mem_keys hc
  rw [List.mapM_map]
  refine (outcome_mapM (fun _ left g₁ => left.Nodup ∧
      (∀ key ∈ left, ∃ t, g.mergeKey? t = some key) ∧ Gathering g left g₁)
    (fun _ key left g₁ h => ?_) ⟨nodup_eraseDups _, fun key => (hmem key).mp,
      ⟨.refl hc, fun _ _ _ ht => ht, fun t key ht => .inl ((hmem key).mpr ⟨t, ht⟩)⟩,
      fun _ _ => rfl, fun t key ht hnot => absurd ((hmem key).mpr ⟨t, ht⟩) hnot⟩).mono
    (fun _ g' h => h.2.2) fun _ _ hx => hx
  obtain ⟨hnodup, hleft, hgathering⟩ := h
  obtain ⟨hout, hnodup⟩ := List.nodup_cons.mp hnodup
  obtain ⟨t, ht⟩ := hleft key List.mem_cons_self
  exact (hgathering.succeeds_mergeGroup hc hout ht).mono fun _ g₂ h₂ =>
    ⟨hnodup, fun key' hkey' => hleft key' (List.mem_cons_of_mem key hkey'), h₂⟩

/-- **Merging types gathers the properties of each type**: each one that is left has absorbed those
of its companions. -/
theorem succeeds_mergeAll_absorbs (hc : g.outline.Consistent none) :
    mergeAll.Succeeds g fun _ g' => g'.outline.Consistent none ∧
      ∀ t, g'.kind? t = some (some .types) → g'.propertiesOf t = g.absorbed t := by
  rw [Succeeds, mergeAll, outcome_bind, outcome_look_ok (mergeGroups_eq hc), outcome_bind]
  refine (succeeds_mapM_mergeGroup_gathers hc).mono fun merged g₁ h₁ => ?_
  have hu := h₁.settling.unifies
  rw [outcome_bind, outcome_get, outcome_bind]
  refine (succeeds_mapM_dropEmptyHeader hu.edited.consistent).mono fun dropped g₂ h₂ => ?_
  have hs := h₂.2
  refine ⟨hs.edited.consistent, fun t ht => ?_⟩
  have ht₁ := hs.edited.kind?_back t _ ht
  rw [hs.propertiesOf_eq ht₁]
  cases hkey : g₁.mergeKey? t with
  | some key => exact h₁.gathered t key hkey List.not_mem_nil
  | none =>
    -- What has no key has no companions.
    have hnone : g.mergeKey? t = none := (hu.type_eq t ht₁).1 ▸ hkey
    rw [h₁.waiting t fun key hkey' => absurd hkey' (by simp [hnone]), absorbed, donated, companions,
      hnone]
    rfl

end TypeMerge

/-! ### What is left -/

namespace Graph

open TypeMerge

variable {g g' : Graph} {t q p : DeclId} {d e : PropertyDecl}

theorem mem_propertiesOf : (q, d) ∈ g.propertiesOf t ↔
    q ∈ g.listOf t .properties ∧ g.property? q = some d :=
  PropertyList.mem_read

theorem property?_of_mem_donated (h : (q, d) ∈ g.donated t) : g.property? q = some d := by
  obtain ⟨_, -, hq⟩ := List.mem_flatMap.mp h
  exact (mem_propertiesOf.mp hq).2

/-- No property stands twice among those that come together. -/
theorem nodup_propertiesOf_append_donated (hc : g.outline.Consistent none) (t : DeclId) :
    ((g.propertiesOf t ++ g.donated t).map (·.1)).Nodup := by
  have hmembers : (t :: g.companions t).Nodup := by
    rw [companions]
    cases g.mergeKey? t with
    | none => simp
    | some key =>
      have hnodup : (groupOfKey g key).Nodup := (nodup_typeIds hc).filter _
      exact List.nodup_cons.mpr ⟨by simp, hnodup.filter _⟩
  have hnumbers : ∀ s, (g.propertiesOf s).map (·.1) =
      (g.listOf s .properties).filter fun id => (g.property? id).isSome :=
    fun s => PropertyList.map_read
  rw [donated, ← List.flatMap_cons, List.map_flatMap, List.nodup_flatMap]
  refine ⟨fun s _ => ?_, hmembers.imp fun {s s'} hne => ?_⟩
  · rw [hnumbers]
    exact (hc.nodup_listOf s .properties).filter _
  · -- What stands in two lists would have two places.
    rw [Function.onFun, hnumbers, hnumbers, List.disjoint_left]
    intro id hid hid'
    have hplace := (hc.mem_listOf_iff.mp (List.mem_of_mem_filter hid)).symm.trans
      (hc.mem_listOf_iff.mp (List.mem_of_mem_filter hid'))
    exact hne (by simpa using hplace)

/-- A property stands in a type. -/
theorem exists_type_of_property? (hc : g.outline.Consistent none) (hq : g.property? q = some d) :
    ∃ t, g.parent? q = some t ∧ g.kind? t = some (some .types) ∧ (q, d) ∈ g.propertiesOf t := by
  obtain ⟨decl, hdecl, hproperty⟩ := Option.bind_eq_some_iff.mp hq
  obtain rfl := (Decl.view_property.eq_some_iff decl d).mp hproperty
  obtain ⟨n, hn, hd⟩ := exists_node?_of_get? hdecl
  have hkind : g.kind? q = some (some .properties) := by
    rw [kind?_of_node? hn, hd]
    rfl
  obtain ⟨t, owner, hparent, ho, hhome, hmem⟩ := exists_owner_of_kind? hc hkind
  rw [← listOf_of_node? ho] at hmem
  exact ⟨t, hparent, by rw [kind?_of_node? ho, hhome]; rfl, mem_propertiesOf.mpr ⟨hmem, hq⟩⟩

/-- What a type has absorbed has the attributes of what was merged into it. -/
theorem mem_attributes_of_mem_absorbed (hc : g.outline.Consistent none)
    (hq : (q, d) ∈ g.absorbed t) (a : PropertyAttribute) : a ∈ d.attributes ↔
      ∃ p e, g.MergedInto t p q ∧ g.property? p = some e ∧ a ∈ e.attributes := by
  obtain ⟨own, hown, hattributes⟩ :=
    PropertyList.accounts_foldl_absorb (nodup_propertiesOf_append_donated hc t) hq
  have hself : g.property? q = some own := by
    rcases List.mem_append.mp hown with h | h
    exacts [(mem_propertiesOf.mp h).2, property?_of_mem_donated h]
  rw [hattributes]
  constructor
  · rintro (ha | ⟨⟨p, e⟩, hp, hkeeper, ha⟩)
    · exact ⟨q, own, .inl rfl, hself, ha⟩
    · exact ⟨p, e, .inr ⟨e, hp, hkeeper⟩, property?_of_mem_donated hp, ha⟩
  · rintro ⟨p, e, rfl | ⟨e', hp, hkeeper⟩, he, ha⟩
    · obtain rfl := Option.some.inj (hself.symm.trans he)
      exact .inl ha
    · obtain rfl := Option.some.inj ((property?_of_mem_donated hp).symm.trans he)
      exact .inr ⟨(p, e'), hp, hkeeper, ha⟩

end Graph

theorem PropertyDecl.isReadonly_iff {p : PropertyDecl} :
    p.isReadonly = true ↔ .word "readonly" ∈ p.attributes :=
  List.contains_iff_mem

/-- Merging the types of a consistent graph succeeds, reunites them and gathers their
properties. -/
theorem Pass.exists_run_mergeTypes {g : Graph} (hc : g.outline.Consistent none)
    (hle : g.slots.length ≤ 2 ^ 32) (c : Catalog) :
    ∃ c' g', Pass.mergeTypes.run c g = .ok c' g' ∧ g.Reunites g' ∧ g'.outline.Consistent none ∧
      ∀ t, g'.kind? t = some (some .types) → g'.propertiesOf t = g.absorbed t := by
  obtain ⟨c', g', hrun, -⟩ : ∃ c' g', Pass.mergeTypes.run c g = .ok c' g' ∧ _ :=
    Pass.exists_run .mergeTypes hc hle
  have hmerge := Outcome.and (TypeMerge.succeeds_mergeAll_reunites hc)
    (TypeMerge.succeeds_mergeAll_absorbs hc)
  have happly : (Pass.apply c .mergeTypes).Outcome g (fun _ g' => g.Reunites g' ∧
      g'.outline.Consistent none ∧
        ∀ t, g'.kind? t = some (some .types) → g'.propertiesOf t = g.absorbed t)
      fun _ _ => True := by
    rw [Pass.apply, outcome_bind]
    refine hmerge.mono (fun changed _ h => ?_) fun _ _ _ => trivial
    cases changed <;> exact ⟨h.1.1, h.2⟩
  exact ⟨c', g', hrun, happly.of_ok (Pass.apply_of_run hrun)⟩

/-- **Merging types unites the attributes of properties.** Take a well-formed graph whose slots all
have a number and whose lists name no file. Merging its types succeeds, whatever the catalogue, and
leaves each type with its properties, in which those of its companions have been absorbed. Such a
property has exactly the attributes of those that were merged into it, itself included. So it is
readonly as soon as one of them was. -/
theorem merging_types_absorbs_properties (g : Graph) (hwf : g.WellFormed)
    (hfiles : ∀ id ∈ g.files, id ∉ g.listed) (hle : g.slots.length ≤ 2 ^ 32) (c : Catalog) :
    ∃ c' g', Pass.mergeTypes.run c g = .ok c' g' ∧
      (∀ t, g'.kind? t = some (some .types) → g'.propertiesOf t = g.absorbed t) ∧
      ∀ q d, g'.property? q = some d → ∃ t, g'.parent? q = some t ∧
        (∀ a, a ∈ d.attributes ↔
          ∃ p e, g.MergedInto t p q ∧ g.property? p = some e ∧ a ∈ e.attributes) ∧
        (d.isReadonly = true ↔
          ∃ p e, g.MergedInto t p q ∧ g.property? p = some e ∧ e.isReadonly = true) := by
  have hc := consistent_of_wellFormed hwf hfiles
  obtain ⟨c', g', hrun, -, hc', habsorbed⟩ := Pass.exists_run_mergeTypes hc hle c
  refine ⟨c', g', hrun, habsorbed, fun q d hq => ?_⟩
  obtain ⟨t, hparent, hkind, hmem⟩ := exists_type_of_property? hc' hq
  rw [habsorbed t hkind] at hmem
  have hattributes := mem_attributes_of_mem_absorbed hc hmem
  refine ⟨t, hparent, hattributes, ?_⟩
  simp only [PropertyDecl.isReadonly_iff, hattributes]

/-- A header declares a readonly property of a class, which the class extension in the file of its
implementation redeclares readwrite. -/
def gaugeScript : List Graph.Command :=
  let level (word : String) : Decl := .property
    { name := "level", storage := { type := .named "Int32" }, attributes := [.word word] }
  [.addFile ⟨"Gauge.h", "Gauge.swift", {}, [], [], [], [], []⟩,
    .addChild ⟨0⟩ (.type { name := "Gauge", kind := .classDecl none }),
    .addChild ⟨1⟩ (level "readonly"),
    .addFile ⟨"Gauge.m", "Gauge.swift", {}, [], [], [], [], []⟩,
    .addChild ⟨3⟩ (.type { name := "Gauge", kind := .extensionDecl none }),
    .addChild ⟨4⟩ (level "readwrite"),
    .addChild ⟨3⟩ (.type { name := "Gauge", kind := .classDecl none })]

/-- The graph that the script builds. -/
def gaugeGraph : Graph :=
  runScript gaugeScript {}

theorem merging_types_absorbs_properties_gaugeGraph :
    gaugeGraph.WellFormed ∧ (∀ id ∈ gaugeGraph.files, id ∉ gaugeGraph.listed) ∧
      gaugeGraph.slots.length ≤ 2 ^ 32 ∧
      ∃ c' g', Pass.mergeTypes.run (.ofGraph gaugeGraph) gaugeGraph = .ok c' g' ∧
        (∀ t, g'.kind? t = some (some .types) → g'.propertiesOf t = gaugeGraph.absorbed t) ∧
        ∀ q d, g'.property? q = some d → ∃ t, g'.parent? q = some t ∧
          (∀ a, a ∈ d.attributes ↔ ∃ p e, gaugeGraph.MergedInto t p q ∧
            gaugeGraph.property? p = some e ∧ a ∈ e.attributes) ∧
          (d.isReadonly = true ↔ ∃ p e, gaugeGraph.MergedInto t p q ∧
            gaugeGraph.property? p = some e ∧ e.isReadonly = true) := by
  have hle : gaugeGraph.slots.length ≤ 2 ^ 32 := by decide_cbv
  obtain ⟨hwf, hfiles⟩ := wellFormed_runScript hle
  exact ⟨hwf, hfiles, hle, merging_types_absorbs_properties gaugeGraph hwf hfiles hle _⟩

/-- The same graph, but the header lists the implementation file among its types. -/
def nestedGaugeGraph : Graph :=
  gaugeGraph.listing ⟨0⟩ .types ⟨3⟩

/-- **A property that was redeclared readwrite stays readonly**, because it has the attributes of
both declarations. With a file among the types, nothing is merged at all. -/
theorem gauge_level_stays_readonly :
    (gaugeGraph.WellFormed ∧
      ∃ c' g' d, Pass.mergeTypes.run (.ofGraph gaugeGraph) gaugeGraph = .ok c' g' ∧
        g'.parent? ⟨2⟩ = some ⟨6⟩ ∧ g'.property? ⟨2⟩ = some d ∧ d.isReadonly = true ∧
        gaugeGraph.MergedInto ⟨6⟩ ⟨5⟩ ⟨2⟩ ∧
        (gaugeGraph.property? ⟨5⟩).map (·.isReadonly) = some false) ∧
      nestedGaugeGraph.WellFormed ∧
        Pass.mergeTypes.run (.ofGraph nestedGaugeGraph) nestedGaugeGraph =
          .error (.failed .mergeTypes (.unexpectedKind ⟨3⟩ "type" "file")) nestedGaugeGraph := by
  have hle : gaugeGraph.slots.length ≤ 2 ^ 32 := by decide_cbv
  have hnested : nestedGaugeGraph.WellFormed :=
    (wellFormed_runScript hle).1.listing (by decide_cbv)
  refine ⟨?_, hnested, rfl⟩
  have hc : gaugeGraph.outline.Consistent none :=
    consistent_runScript gaugeScript Outline.consistent_empty hle
  obtain ⟨c', g', hrun, hreunites, hc', habsorbed⟩ := Pass.exists_run_mergeTypes hc hle (.ofGraph _)
  have hkey : g'.mergeKey? ⟨6⟩ = some (.type "Gauge") :=
    hreunites.survivor _ _ (by decide +kernel)
  have hleft : (⟨2⟩, true) ∈ (gaugeGraph.absorbed ⟨6⟩).map fun x => (x.1, x.2.isReadonly) := by
    decide +kernel
  rw [← habsorbed ⟨6⟩ (kind?_of_mergeKey? hkey)] at hleft
  obtain ⟨⟨q, d⟩, hmem, heq⟩ := List.mem_map.mp hleft
  obtain ⟨rfl, hreadonly⟩ : q = ⟨2⟩ ∧ d.isReadonly = true := by simpa using heq
  obtain ⟨hlist, hd⟩ := mem_propertiesOf.mp hmem
  obtain ⟨n, hn, hparent, -⟩ := exists_node?_of_place? (hc'.mem_listOf_iff.mp hlist)
  refine ⟨wellFormed_of_consistent hc hle, c', g', d, hrun, ?_, hd, hreadonly,
    .inr ⟨_, .tail _ (.head _), by decide +kernel⟩, by decide +kernel⟩
  rw [parent?, hn]
  exact hparent

end ObjcSwift
