import ObjcSwift.Proofs.Pass.Merging

/-!
# Merging the declarations of each type

Which declarations are merged is a matter of their keys: the groups of the pass are the types with a
key, in the order of the graph, one group for each key (`TypeMerge.mergeGroups_eq`). Which of them
is the target is a matter of rank, and the highest rank is that of a class in an implementation
file, so the first of these is the target (`TypeMerge.finds_target_spec`).

Groups are merged one after the other, in a graph that changes. The group that is merged is the one
that was there at the start, and so is its target: types of other keys are left alone, and what a
rank is read off from does not change as long as the type is there. A key whose group has been
merged is **settled** (`TypeMerge.Settled`), and stays so.
-/

namespace ObjcSwift

open ObjcSwift.Graph ObjcSwift.Graph.Edit

/-! ### Classes with an implementation -/

/-- Whether a file is a header. -/
def Decl.isHeader? : Decl → Option Bool
  | file d => some d.isHeader
  | _ => none

namespace Graph

/-- Whether a file is a header. -/
def isHeader? (g : Graph) (f : DeclId) : Option Bool :=
  (g.get? f).bind Decl.isHeader?

/-- Whether a declaration stands in a header. -/
def inHeader? (g : Graph) (id : DeclId) : Option Bool :=
  (g.parent? id).bind g.isHeader?

/-- Whether a type is no extension, and stands in a file that is no header. -/
def isImplemented (g : Graph) (id : DeclId) : Bool :=
  g.isExtension? id == some false && g.inHeader? id == some false

end Graph

/-- Headers stay headers. -/
theorem Unifies.isHeader?_eq {g g' : Graph} {f : DeclId} (h : Unifies g g')
    (hf : g.kind? f = some none) : g'.isHeader? f = g.isHeader? f := by
  have hread : ∀ d : Decl, d.childless.isHeader? = d.isHeader? := fun d => by cases d <;> rfl
  rw [isHeader?, isHeader?, get?_bind_eq_row? hread, get?_bind_eq_row? hread,
    h.row?_file f hf]

/-- What is read off from a type and its file is the same as long as the type is there. -/
theorem Unifies.isImplemented_eq {g g' : Graph} {t : DeclId} (hc : g.outline.Consistent none)
    (h : Unifies g g') (ht : g'.kind? t = some (some .types)) :
    g'.isImplemented t = g.isImplemented t := by
  obtain ⟨-, hextension, hparent⟩ := h.type_eq t ht
  obtain ⟨p, d, hn, hp⟩ := exists_node?_type hc (h.edited.kind?_back t _ ht)
  have hheader : g'.inHeader? t = g.inHeader? t := by
    rw [inHeader?, inHeader?, hparent, parent?, hn]
    exact h.isHeader?_eq hp
  rw [isImplemented, isImplemented, hextension, hheader]

namespace TypeMerge

variable {g g₀ g' : Graph} {id first target s t : DeclId} {key : MergeKey}
  {ids rest group : List DeclId}

/-- How well a declaration serves as target, as far as the graph tells. -/
def rank (g : Graph) (id : DeclId) : Nat :=
  (if g.isExtension? id = some true then 0 else 2) + (if g.inHeader? id = some false then 1 else 0)

theorem rank_le (g : Graph) (id : DeclId) : rank g id ≤ 3 := by
  unfold rank
  split_ifs <;> omega

/-- The highest rank is that of classes with an implementation. -/
theorem rank_eq_three (hid : g.kind? id = some (some .types)) :
    rank g id = 3 ↔ g.isImplemented id = true := by
  obtain ⟨n, hn, hlist⟩ := exists_node?_of_kind? hid
  obtain ⟨d, hd⟩ := Decl.view_type.exists_make n.decl hlist
  have hextension : g.isExtension? id = some d.isExtension := by
    rw [isExtension?, get?, hn, Option.map_some, hd]
    rfl
  rw [isImplemented, rank, hextension]
  cases d.isExtension <;> by_cases hheader : g.inHeader? id = some false <;> simp [hheader]

theorem enclosingFile?_type {p : DeclId} {d : TypeDecl} (hn : g.node? id = some ⟨some p, .type d⟩)
    (hp : g.kind? p = some none) : g.enclosingFile? id = some p := by
  obtain ⟨m, hm, hlist⟩ := exists_node?_of_kind? hp
  obtain ⟨f, hf⟩ := Decl.view_file.exists_make m.decl hlist
  have hparent : g.parent? id = some p := parent?_of_node? hn
  rw [enclosingFile?, ancestors, hparent, ancestorsFrom, List.find?_cons_of_neg,
    List.find?_cons_of_pos]
  · rw [get?, hm, Option.map_some, hf]
    rfl
  · rw [get?, hn]
    simp [Decl.file?]

theorem targetRank_eq (hc : g.outline.Consistent none) (hid : g.kind? id = some (some .types)) :
    targetRank g id = .ok (rank g id) := by
  obtain ⟨p, d, hn, hp⟩ := exists_node?_type hc hid
  obtain ⟨m, hm, hlist⟩ := exists_node?_of_kind? hp
  obtain ⟨f, hf⟩ := Decl.view_file.exists_make m.decl hlist
  have htype : g.type id = .ok d := type_of_get? (get?_of_node? hn)
  have hfile : g.file p = .ok f := by
    rw [Graph.file, typed, get?, hm, Option.map_some, hf]
    rfl
  have himplementation : inImplementation g id = .ok !f.isHeader := by
    unfold inImplementation
    rw [enclosingFile?_type hn hp]
    dsimp only
    rw [hfile]
    rfl
  have hextension : g.isExtension? id = some d.isExtension := by
    rw [isExtension?, get?, hn]
    rfl
  have hheader : g.inHeader? id = some f.isHeader := by
    rw [inHeader?, parent?, hn, Option.bind_some, Option.bind_some, isHeader?, get?, hm,
      Option.map_some, hf]
    rfl
  rw [targetRank, htype, himplementation, rank, hextension, hheader]
  change Except.ok ((if d.isExtension then 0 else 2) + if !f.isHeader then 1 else 0) = _
  cases d.isExtension <;> cases f.isHeader <;> rfl

/-! ### Targets -/

/-- Nothing is better than a declaration of the highest rank. -/
theorem best_of_le {r : DeclId → Nat} {n : Nat} (hle : ∀ id ∈ ids, r id ≤ n) :
    best first n (ids.map fun id => (id, r id)) = first := by
  induction ids with
  | nil => rfl
  | cons id ids ih =>
    rw [List.map_cons, best, if_neg (Nat.not_lt.mpr (hle id List.mem_cons_self))]
    exact ih fun j hj => hle j (List.mem_cons_of_mem id hj)

/-- The first declaration of the highest rank is the best one. -/
theorem best_of_find? {r : DeclId → Nat} {n m : Nat} (hle : ∀ id ∈ ids, r id ≤ n) (hm : m < n)
    (hs : ids.find? (r · == n) = some s) :
    best first m (ids.map fun id => (id, r id)) = s := by
  induction ids generalizing first m with
  | nil => exact absurd hs (by simp)
  | cons id ids ih =>
    have hle' : ∀ j ∈ ids, r j ≤ n := fun j hj => hle j (List.mem_cons_of_mem id hj)
    rw [List.map_cons, best]
    by_cases hid : r id = n
    · rw [List.find?_cons_of_pos (by simpa using hid)] at hs
      rw [hid, if_pos hm, best_of_le hle']
      exact Option.some.inj hs
    · rw [List.find?_cons_of_neg (by simpa using hid)] at hs
      have hlt : r id < n := lt_of_le_of_ne (hle id List.mem_cons_self) hid
      split_ifs
      · exact ih hle' hlt hs
      · exact ih hle' hm hs

/-- **The target is the first class with an implementation**, if there is one. -/
theorem finds_target_spec (hc : g.outline.Consistent none)
    (hids : ∀ id ∈ first :: rest, g.kind? id = some (some .types)) :
    Finds (TypeMerge.target g first rest) fun target => target ∈ first :: rest ∧
      ∀ s, (first :: rest).find? g.isImplemented = some s → target = s := by
  obtain ⟨target, hok, hmem⟩ := finds_target hids
  refine ⟨target, hok, hmem, fun s hs => ?_⟩
  have hranked : (first :: rest).mapM (fun id => do return (id, ← targetRank g id)) =
      Except.ok ((first :: rest).map fun id => (id, rank g id)) := by
    refine mapM_eq_ok fun id hid => ?_
    rw [targetRank_eq hc (hids id hid)]
    rfl
  rw [TypeMerge.target, hranked] at hok
  refine (Except.ok.inj hok).symm.trans (best_of_find? (fun id _ => rank_le g id) (by omega) ?_)
  rw [← hs]
  refine List.find?_congr fun id hid => ?_
  rw [Bool.eq_iff_iff, beq_iff_eq, rank_eq_three (hids id hid)]

/-! ### Merging a group -/

/-- The pass has got to some declarations of a group, which are to be merged into the target: they
have their key still, and those that have been merged have none any more. -/
structure Uniting (g : Graph) (group : List DeclId) (target : DeclId) (left : List DeclId)
    (g₁ : Graph) : Prop where
  /-- No declaration is merged twice. -/
  nodup : left.Nodup
  /-- The target is not merged into itself. -/
  mem : ∀ id ∈ left, id ∈ group ∧ id ≠ target
  /-- Nothing is lost. -/
  unifies : Unifies g g₁
  /-- What has been merged is gone, and nothing else. -/
  mergeKey?_eq : ∀ t, g₁.mergeKey? t =
    if t ∈ group ∧ t ≠ target ∧ t ∉ left then none else g.mergeKey? t

theorem Uniting.start (hc : g.outline.Consistent none) (hnodup : group.Nodup) (target : DeclId) :
    Uniting g group target (group.filter (· ≠ target)) g where
  nodup := hnodup.filter _
  mem id hid := by simpa using hid
  unifies := .refl hc
  mergeKey?_eq t := by
    refine (if_neg ?_).symm
    rintro ⟨hin, hout, hnot⟩
    exact hnot (List.mem_filter.mpr ⟨hin, by simpa using hout⟩)

/-- **Merging the next declaration** into the target. -/
theorem Uniting.succeeds_mergeType {left : List DeclId} {g₁ : Graph} {I : Graph → Prop}
    (h : Uniting g group target (source :: left) g₁) (htarget : target ∈ group)
    (hgroup : ∀ id ∈ group, g.mergeKey? id = some key)
    (hinv : MergeInvariant target source key I) (hI : I g₁) :
    (mergeType target source).Succeeds g₁ fun _ g₂ => Uniting g group target left g₂ ∧
      g₂.kind? source ≠ some (some .types) ∧ I g₂ := by
  obtain ⟨hsource, hnodup⟩ := List.nodup_cons.mp h.nodup
  obtain ⟨hs, hst⟩ := h.mem source List.mem_cons_self
  have hkey : ∀ id, id = source ∨ id = target → g₁.mergeKey? id = some key := by
    rintro id (rfl | rfl)
    · rw [h.mergeKey?_eq, if_neg (by simp), hgroup id hs]
    · rw [h.mergeKey?_eq, if_neg (by simp), hgroup id htarget]
  refine (succeeds_mergeType_unifies h.unifies.edited.consistent hst (hkey source (.inl rfl))
    (hkey target (.inr rfl)) hinv hI).mono fun _ g₂ h₂ => ?_
  obtain ⟨hu₂, hkeys₂, hI₂⟩ := h₂
  refine ⟨⟨hnodup, fun id hid => h.mem id (List.mem_cons_of_mem source hid), h.unifies.trans hu₂,
    fun t => ?_⟩, fun htype => ?_, hI₂⟩
  · rw [hkeys₂, h.mergeKey?_eq]
    by_cases hts : t = source
    · rw [if_pos hts, if_pos ⟨hts ▸ hs, hts ▸ hst, hts ▸ hsource⟩]
    · simp [hts]
  · have hsame := (hu₂.type_eq source htype).1
    rw [hkeys₂, if_pos rfl, hkey source (.inl rfl)] at hsame
    exact absurd hsame (by simp)

/-- When no declaration is left, the target alone has the key. -/
theorem Uniting.mergeKey?_of_nil (h : Uniting g group target [] g') (t : DeclId) :
    g'.mergeKey? t = if t ∈ group ∧ t ≠ target then none else g.mergeKey? t := by
  simpa using h.mergeKey?_eq t

/-- **Merging the declarations of one key** loses nothing and leaves one of them: the first class
with an implementation, if there is one. What merging one into another keeps, with those that are
left to be merged, is kept to the end. -/
theorem succeeds_mergeGroup_unifies {J : DeclId → List DeclId → Graph → Prop}
    (hc : g.outline.Consistent none) (hnodup : group.Nodup)
    (hne : group ≠ []) (hgroup : ∀ id ∈ group, g.mergeKey? id = some key)
    (hstart : ∀ target ∈ group, J target (group.filter (· ≠ target)) g)
    (hinv : ∀ {target source left}, target ∈ group → source ∈ group → source ≠ target →
      source ∉ left → target ∉ left → MergeInvariant target source key (J target (source :: left)))
    (hgone : ∀ {target source left g'}, g'.kind? source ≠ some (some .types) →
      J target (source :: left) g' → J target left g') :
    (mergeGroup group).Succeeds g fun _ g' => Unifies g g' ∧ ∃ target ∈ group,
      (∀ t, g'.mergeKey? t = if t ∈ group ∧ t ≠ target then none else g.mergeKey? t) ∧
      (∀ s, group.find? g.isImplemented = some s → target = s) ∧ J target [] g' := by
  unfold mergeGroup
  split
  · -- The others are merged into the target, one after the other.
    rename_i first second rest
    obtain ⟨target, hok, htarget, hfirst⟩ :=
      finds_target_spec hc fun id hid => kind?_of_mergeKey? (hgroup id hid)
    rw [Succeeds, outcome_bind, outcome_look_ok hok, outcome_bind]
    refine (outcome_forM
      (fun left g' => Uniting g (first :: second :: rest) target left g' ∧ J target left g')
      (fun source left g₁ h => ?_) ((first :: second :: rest).filter (· ≠ target))
      ⟨.start hc hnodup target, hstart target htarget⟩).mono (fun _ g' h => ?_) fun _ _ hx => hx
    · obtain ⟨h, hJ⟩ := h
      obtain ⟨hs, hst⟩ := h.mem source List.mem_cons_self
      have hout : source ∉ left := (List.nodup_cons.mp h.nodup).1
      have htl : target ∉ left := fun hin => (h.mem target (List.mem_cons_of_mem _ hin)).2 rfl
      exact (h.succeeds_mergeType htarget hgroup (hinv htarget hs hst hout htl) hJ).mono
        fun _ g₂ h₂ => ⟨h₂.1, hgone h₂.2.1 h₂.2.2⟩
    · exact ⟨h.1.unifies, target, htarget, h.1.mergeKey?_of_nil, hfirst, h.2⟩
  · -- A declaration on its own is left as it is.
    rename_i hshort
    obtain ⟨x, rfl⟩ : ∃ x, group = [x] := by
      rcases group with _ | ⟨x, _ | ⟨second, rest⟩⟩
      · exact absurd rfl hne
      · exact ⟨x, rfl⟩
      · exact absurd rfl (hshort x second rest)
    have hx : x ∈ [x] := List.mem_singleton_self x
    refine ⟨.refl hc, x, hx, fun t => ?_, fun s hs => ?_, by simpa using hstart x hx⟩
    · rw [if_neg (by simp)]
    · exact (List.mem_singleton.mp (List.mem_of_find?_eq_some hs)).symm

/-! ### Merging all groups -/

/-- The declarations with a key, in the order of the graph. -/
def groupOfKey (g : Graph) (key : MergeKey) : List DeclId :=
  g.typeIds.filter (g.mergeKey? · == some key)

theorem mem_groupOfKey (hc : g.outline.Consistent none) :
    t ∈ groupOfKey g key ↔ g.mergeKey? t = some key := by
  rw [groupOfKey, List.mem_filter, beq_iff_eq, and_iff_right_iff_imp]
  exact fun ht => mem_typeIds_of_kind? hc (kind?_of_mergeKey? ht)

theorem mergeGroups_eq (hc : g.outline.Consistent none) :
    mergeGroups g = .ok ((g.typeIds.filterMap g.mergeKey?).eraseDups.map (groupOfKey g)) := by
  have hkeyed : g.typeIds.mapM (fun id => do return ((← g.type id).mergeKey?, id)) =
      Except.ok (g.typeIds.map fun id => (g.mergeKey? id, id)) := by
    refine mapM_eq_ok fun id hid => ?_
    obtain ⟨d, hok, n, hn, hd⟩ : Finds (g.type id) _ :=
      finds_typed Decl.view_type (kind?_of_mem_typeIds hc hid)
    rw [hok, mergeKey?, get?, hn, Option.map_some, hd]
    rfl
  rw [mergeGroups, hkeyed]
  change Except.ok _ = _
  rw [List.filterMap_map]
  refine congrArg Except.ok (List.map_congr_left fun key _ => ?_)
  rw [groupOfKey, List.filter_map, List.map_map]
  exact List.map_id _

/-- What has become of a key: one type has it, the first class with an implementation if there was
one. -/
def Settled (g g' : Graph) (key : MergeKey) : Prop :=
  ∃ target, (∀ t, g'.mergeKey? t = some key ↔ t = target) ∧
    ∀ s, (groupOfKey g key).find? g.isImplemented = some s → target = s

/-- The pass has got to some key: the types of the keys that are left have them, and the other keys
are settled. -/
structure Settling (g : Graph) (left : List MergeKey) (g₁ : Graph) : Prop where
  /-- Nothing is lost. -/
  unifies : Unifies g g₁
  /-- The types of a key that is left have it. -/
  untouched : ∀ key ∈ left, ∀ t, g.mergeKey? t = some key → g₁.mergeKey? t = some key
  /-- A key that is not left is settled. -/
  settled : ∀ t key, g.mergeKey? t = some key → key ∈ left ∨ Settled g g₁ key

/-- **Merging the group of a key settles it.** -/
theorem Settling.succeeds_mergeGroup {left : List MergeKey} {g₁ : Graph}
    (h : Settling g (key :: left) g₁) (hc : g.outline.Consistent none) (hout : key ∉ left)
    (ht : g.mergeKey? t = some key) :
    (mergeGroup (groupOfKey g key)).Succeeds g₁ fun _ g₂ => Settling g left g₂ := by
  have hhave := h.untouched key List.mem_cons_self
  have hnodup : (groupOfKey g key).Nodup := (nodup_typeIds hc).filter _
  refine (succeeds_mergeGroup_unifies (J := fun _ _ _ => True) h.unifies.edited.consistent hnodup
    (List.ne_nil_of_mem ((mem_groupOfKey hc).mpr ht))
    (fun id hid => hhave id ((mem_groupOfKey hc).mp hid)) (fun _ _ => trivial)
    (fun _ _ _ _ _ => .trivial) fun _ hJ => hJ).mono fun _ g₂ h₂ => ?_
  obtain ⟨hu₂, target, htarget, hkeys, hfirst, -⟩ := h₂
  -- The types of other keys are not in the group.
  have hother : ∀ {key' t}, key' ≠ key → g.mergeKey? t = some key' →
      g₂.mergeKey? t = g₁.mergeKey? t := by
    intro key' t hne ht
    rw [hkeys, if_neg]
    rintro ⟨hin, -⟩
    rw [mem_groupOfKey hc, ht] at hin
    exact hne (Option.some.inj hin)
  have hsettled : Settled g g₂ key := by
    refine ⟨target, fun t => ⟨fun ht => ?_, ?_⟩, fun s hs => hfirst s ?_⟩
    · by_contra hne
      have hin := (mem_groupOfKey hc).mpr (h.unifies.mergeKey?_back (hu₂.mergeKey?_back ht))
      rw [hkeys, if_pos ⟨hin, hne⟩] at ht
      exact absurd ht (by simp)
    · rintro rfl
      rw [hkeys, if_neg (by simp)]
      exact hhave t ((mem_groupOfKey hc).mp htarget)
    · rw [← hs]
      refine List.find?_congr fun id hid => h.unifies.isImplemented_eq hc ?_
      exact kind?_of_mergeKey? (hhave id ((mem_groupOfKey hc).mp hid))
  refine ⟨h.unifies.trans hu₂, fun key' hkey' t ht => ?_, fun t key' ht => ?_⟩
  · rw [hother (fun he => hout (he ▸ hkey')) ht]
    exact h.untouched key' (List.mem_cons_of_mem key hkey') t ht
  · by_cases he : key' = key
    · exact .inr (he ▸ hsettled)
    · refine (h.settled t key' ht).imp (fun hin => (List.mem_cons.mp hin).resolve_left he) ?_
      rintro ⟨target', hiff, hfirst'⟩
      refine ⟨target', fun t => (Iff.intro (fun ht => ?_) fun ht => ?_).trans (hiff t), hfirst'⟩
      · exact hu₂.mergeKey?_back ht
      · rw [hother he (h.unifies.mergeKey?_back ht), ht]

/-- The pass goes through the keys that types have. -/
theorem mem_keys (hc : g.outline.Consistent none) (key : MergeKey) :
    key ∈ (g.typeIds.filterMap g.mergeKey?).eraseDups ↔ ∃ t, g.mergeKey? t = some key := by
  rw [List.mem_eraseDups, List.mem_filterMap]
  constructor
  · rintro ⟨t, -, ht⟩
    exact ⟨t, ht⟩
  · rintro ⟨t, ht⟩
    exact ⟨t, mem_typeIds_of_kind? hc (kind?_of_mergeKey? ht), ht⟩

/-- **Merging all groups** loses nothing, and settles all keys. -/
theorem succeeds_mapM_mergeGroup_unifies (hc : g.outline.Consistent none) :
    (((g.typeIds.filterMap g.mergeKey?).eraseDups.map (groupOfKey g)).mapM mergeGroup).Succeeds g
      fun _ g' => Unifies g g' ∧ ∀ t key, g.mergeKey? t = some key → Settled g g' key := by
  have hmem : ∀ key, key ∈ (g.typeIds.filterMap g.mergeKey?).eraseDups ↔
      ∃ t, g.mergeKey? t = some key := mem_keys hc
  rw [List.mapM_map]
  refine (outcome_mapM (fun _ left g₁ => left.Nodup ∧
      (∀ key ∈ left, ∃ t, g.mergeKey? t = some key) ∧ Settling g left g₁)
    (fun _ key left g₁ h => ?_) ⟨nodup_eraseDups _, fun key => (hmem key).mp, .refl hc,
      fun _ _ _ ht => ht, fun t key ht => .inl ((hmem key).mpr ⟨t, ht⟩)⟩).mono
    (fun _ g' h => ?_) fun _ _ hx => hx
  · obtain ⟨hnodup, hleft, hsettling⟩ := h
    obtain ⟨hout, hnodup⟩ := List.nodup_cons.mp hnodup
    obtain ⟨t, ht⟩ := hleft key List.mem_cons_self
    exact (hsettling.succeeds_mergeGroup hc hout ht).mono fun _ g₂ h₂ =>
      ⟨hnodup, fun key' hkey' => hleft key' (List.mem_cons_of_mem key hkey'), h₂⟩
  · obtain ⟨-, -, hu, -, hall⟩ := h
    exact ⟨hu, fun t key ht => (hall t key ht).resolve_left (by simp)⟩

end TypeMerge

end ObjcSwift
