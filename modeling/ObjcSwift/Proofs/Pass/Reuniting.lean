import ObjcSwift.Proofs.Pass.Freshness
import ObjcSwift.Proofs.Pass.Grouping

/-!
# Merging types reunites what was declared apart

After the groups have been merged, the pass goes through the files and removes the headers that
nothing stands in any more. Such a header owns nothing and nothing owns it, so all the others stay
what they are, and the files that go are known beforehand (`Graph.Sweeps`).

Together with what merging the groups keeps, this says what the pass amounts to
(`Graph.Reunites`): one type for each key, with all that was filed under the key, and the rest of
the graph as it was. In such a graph all groups have one member and no header is empty, which is all
that the pass looks for, so running it again does nothing. A well-formed graph in which a file lists
another one among its types is beyond this: the pass fails there.
-/

namespace ObjcSwift

open ObjcSwift.Graph ObjcSwift.Graph.Edit

/-! ### Empty headers -/

namespace Graph

variable {g g' g'' : Graph} {f : DeclId}

/-- Whether a file is a header that declares nothing. -/
def isEmptyHeader (g : Graph) (id : DeclId) : Bool :=
  (g.get? id).any fun d => d.file?.any fun f => f.isHeader && f.isEmpty

theorem isEmptyHeader_of_node? {n : GraphNode} {d : FileDecl} (hn : g.node? f = some n)
    (hd : n.decl = .file d) : g.isEmptyHeader f = (d.isHeader && d.isEmpty) := by
  rw [isEmptyHeader, get?, hn, Option.map_some, hd]
  rfl

theorem isEmptyHeader_congr (h : g'.node? f = g.node? f) :
    g'.isEmptyHeader f = g.isEmptyHeader f := by
  rw [isEmptyHeader, isEmptyHeader, get?, get?, h]

theorem exists_file_of_isEmptyHeader (h : g.isEmptyHeader f = true) :
    ∃ d, g.get? f = some (.file d) := by
  obtain ⟨decl, hdecl, hfile⟩ := (Option.any_eq_true ..).mp h
  obtain ⟨d, hd, -⟩ := (Option.any_eq_true ..).mp hfile
  exact ⟨d, hdecl.trans (congrArg some ((Decl.view_file.eq_some_iff decl d).mp hd))⟩

theorem isEmpty_iff_listOf {d : FileDecl} :
    d.isEmpty = true ↔ ∀ list, (Decl.file d).listOf list = [] := by
  simp only [FileDecl.isEmpty, Bool.and_eq_true, List.isEmpty_iff]
  constructor
  · rintro ⟨⟨⟨htypes, haliases⟩, hfunctions⟩, hglobals⟩ list
    cases list <;> first | assumption | rfl
  · intro h
    exact ⟨⟨⟨h .types, h .aliases⟩, h .functions⟩, h .globals⟩

/-- **The empty headers** are the headers that nothing stands in. -/
theorem isEmptyHeader_iff (hc : g.outline.Consistent none) :
    g.isEmptyHeader f = true ↔
      g.isHeader? f = some true ∧ ∀ id, g.parent? id ≠ some f := by
  have hread : ∀ {d}, g.get? f = some (.file d) → (g.isEmptyHeader f = true ↔
      d.isHeader = true ∧ ∀ id, g.parent? id ≠ some f) := by
    intro d hd
    obtain ⟨n, hn, hdecl⟩ := exists_node?_of_get? hd
    rw [isEmptyHeader_of_node? hn hdecl, Bool.and_eq_true, isEmpty_iff_listOf,
      ← forall_listOf_eq_nil_iff hc, ← hdecl]
    simp only [listOf_of_node? hn]
  constructor
  · intro h
    obtain ⟨d, hd⟩ := exists_file_of_isEmptyHeader h
    obtain ⟨hheader, hnone⟩ := (hread hd).mp h
    rw [isHeader?, hd]
    exact ⟨congrArg some hheader, hnone⟩
  · rintro ⟨hheader, hnone⟩
    obtain ⟨decl, hdecl, hheader⟩ := Option.bind_eq_some_iff.mp hheader
    cases decl with
    | file d => exact (hread hdecl).mpr ⟨Option.some.inj hheader, hnone⟩
    | _ => exact absurd hheader (by simp [Decl.isHeader?])

/-- Some files are gone, and nothing else has changed. -/
structure Sweeps (g : Graph) (swept : DeclId → Bool) (g' : Graph) : Prop where
  /-- The other graph is an edited one. -/
  edited : Edited (fun _ => True) g g'
  /-- The slots of the files are emptied. -/
  node?_eq : ∀ j, g'.node? j = if swept j then none else g.node? j
  /-- The files are listed no more. -/
  files_eq : g'.files = g.files.filter fun f => !swept f

theorem Sweeps.refl (hc : g.outline.Consistent none) : g.Sweeps (fun _ => false) g where
  edited := .refl hc
  node?_eq _ := rfl
  files_eq := (List.filter_eq_self.mpr fun _ _ => rfl).symm

theorem Sweeps.trans {swept swept' : DeclId → Bool} (h : g.Sweeps swept g')
    (h' : g'.Sweeps swept' g'') : g.Sweeps (fun j => swept j || swept' j) g'' where
  edited := h.edited.trans h'.edited
  node?_eq j := by
    rw [h'.node?_eq, h.node?_eq]
    cases swept j <;> cases swept' j <;> rfl
  files_eq := by
    rw [h'.files_eq, h.files_eq, List.filter_filter]
    refine List.filter_congr fun f _ => ?_
    cases swept f <;> cases swept' f <;> rfl

/-- A file goes if it is an empty header. -/
theorem succeeds_dropEmptyHeader_sweeps (hc : g.outline.Consistent none) (hf : f ∈ g.files) :
    (TypeMerge.dropEmptyHeader f).Succeeds g fun dropped g' => dropped = g.isEmptyHeader f ∧
      g.Sweeps (fun j => j == f && g.isEmptyHeader f) g' := by
  rw [Succeeds, TypeMerge.dropEmptyHeader, outcome_bind]
  refine outcome_look_typed Decl.view_file (kind?_of_mem_files hc hf) fun n d hn hd => ?_
  have hempty := isEmptyHeader_of_node? hn hd
  rw [← hempty]
  cases hdrop : g.isEmptyHeader f with
  | false => exact ⟨rfl, by simpa using Sweeps.refl hc⟩
  | true =>
    have hleaf : ∀ list, n.decl.listOf list = [] := by
      rw [hd]
      rw [hdrop] at hempty
      exact isEmpty_iff_listOf.mp (Bool.and_eq_true_iff.mp hempty.symm).2
    -- A file has no owner, so no other row changes with it.
    have hparent : n.parent = none := by
      obtain ⟨m, hm, hnone, -⟩ := exists_node?_of_place? (hc.mem_files_iff.mp hf)
      obtain rfl := Option.some.inj (hn.symm.trans hm)
      exact hnone
    rw [if_pos rfl, outcome_bind, outcome_discard]
    refine (Outcome.and (succeeds_remove_edited hc hn hleaf)
      (succeeds_remove_enters hc hn hleaf)).mono (fun _ g' h => ?_) fun _ _ hx => hx.1
    obtain ⟨⟨-, ho, he⟩, -, henters⟩ := h
    have hfiles : g'.files = g.files.erase f := congrArg Outline.files ho
    have hnodup : g.files.Nodup := hc.nodup_files
    refine ⟨rfl, he.mono fun _ _ => trivial, fun j => ?_, ?_⟩
    · by_cases hj : j = f
      · have hnone : g'.row? j = none := by
          rw [henters.row?_eq, hj, Function.update_self]
        simpa [hj] using Option.map_eq_none_iff.mp hnone
      · simpa [hj] using henters.node?_eq j hj (by simp [hparent])
    · rw [hfiles, hnodup.erase_eq_filter]
      exact List.filter_congr fun j _ => by simp [bne]

/-- **Going through the files sweeps the empty headers.** -/
theorem succeeds_mapM_dropEmptyHeader (hc : g.outline.Consistent none) :
    (g.files.mapM TypeMerge.dropEmptyHeader).Succeeds g fun dropped g' =>
      dropped.any id = g.files.any g.isEmptyHeader ∧ g.Sweeps g.isEmptyHeader g' := by
  have hnodup : g.files.Nodup := hc.nodup_files
  have hstart : (fun j => g.isEmptyHeader j && !g.files.contains j) = fun _ => false := by
    funext j
    rw [Bool.and_eq_false_imp]
    intro hempty
    simpa using (mem_files_iff_get? hc).mpr (exists_file_of_isEmptyHeader hempty)
  -- An empty header is gone unless it is still to come.
  refine (outcome_mapM (fun dropped left g₁ => left.Nodup ∧ (∀ f ∈ left, f ∈ g.files) ∧
      (dropped.any id || left.any g.isEmptyHeader) = g.files.any g.isEmptyHeader ∧
      g.Sweeps (fun j => g.isEmptyHeader j && !left.contains j) g₁)
    (fun dropped f left g₁ h => ?_)
    ⟨hnodup, fun _ h => h, by simp, hstart ▸ Sweeps.refl hc⟩).mono
    (fun dropped g' h => ?_) fun _ _ hx => hx
  · obtain ⟨hnodup', hleft, hany, hs⟩ := h
    obtain ⟨hout, hnodup'⟩ := List.nodup_cons.mp hnodup'
    have hf : f ∈ g₁.files := by
      rw [hs.files_eq, List.mem_filter]
      exact ⟨hleft f List.mem_cons_self, by simp⟩
    have hsame : g₁.isEmptyHeader f = g.isEmptyHeader f :=
      isEmptyHeader_congr (by rw [hs.node?_eq, if_neg (by simp)])
    refine (succeeds_dropEmptyHeader_sweeps hs.edited.consistent hf).mono fun _ g₂ h₂ => ?_
    obtain ⟨rfl, hs₂⟩ := h₂
    refine ⟨hnodup', fun j hj => hleft j (List.mem_cons_of_mem f hj), ?_, ?_⟩
    · rw [← hany, hsame]
      simp [Bool.or_assoc]
    · convert hs.trans hs₂ using 2 with j
      by_cases hj : j = f
      · simp [hj, hout, hsame]
      · simp [hj]
  · obtain ⟨-, -, hany, hs⟩ := h
    exact ⟨by simpa using hany, by simpa using hs⟩

namespace Sweeps

variable (h : g.Sweeps g.isEmptyHeader g')
include h

/-- What is read off from declarations other than files is the same. -/
theorem read_eq {α : Type} {f : Decl → Option α} (hf : ∀ d, f (.file d) = none) (j : DeclId) :
    (g'.get? j).bind f = (g.get? j).bind f := by
  rw [get?, h.node?_eq]
  split_ifs with hempty
  · obtain ⟨d, hd⟩ := exists_file_of_isEmptyHeader hempty
    rw [hd]
    exact (hf d).symm
  · rfl

theorem node?_eq_of_kind? {j : DeclId} (hj : g.kind? j ≠ some none) :
    g'.node? j = g.node? j := by
  rw [h.node?_eq, if_neg]
  intro hempty
  obtain ⟨d, hd⟩ := exists_file_of_isEmptyHeader hempty
  obtain ⟨n, hn, hdecl⟩ := exists_node?_of_get? hd
  exact hj (by rw [kind?_of_node? hn, hdecl]; rfl)

theorem parent?_eq (hc : g.outline.Consistent none) : g'.parent? = g.parent? := by
  funext j
  rw [parent?, h.node?_eq]
  split_ifs with hempty
  · -- Files have no owner in the first place.
    by_contra hparent
    refine not_mem_files_of_parent? hc (fun hnone => hparent hnone.symm) ?_
    exact (mem_files_iff_get? hc).mpr (exists_file_of_isEmptyHeader hempty)
  · rfl

theorem mergeKey?_eq : g'.mergeKey? = g.mergeKey? :=
  funext (h.read_eq fun _ => rfl)

theorem methodCode?_eq : g'.methodCode? = g.methodCode? :=
  funext (h.read_eq fun _ => rfl)

theorem filed?_eq (hc : g.outline.Consistent none) : g'.filed? = g.filed? := by
  funext j
  have hmember : g'.memberKey? j = g.memberKey? j := h.read_eq (fun _ => rfl) j
  rw [filed?, filed?, groupOf?, groupOf?, h.parent?_eq hc, h.mergeKey?_eq, hmember]

/-- What takes no part in merging types is not swept, either. -/
theorem node?_eq_of_unifies {g₀ : Graph} (hu : Unifies g₀ g) {id : DeclId}
    (hid : ¬g₀.TakesPart id) : g'.node? id = g₀.node? id := by
  have hnode := hu.node?_eq id hid
  rw [h.node?_eq_of_kind?, hnode]
  intro hkind
  rw [kind?, hnode] at hkind
  exact hid (.inl hkind)

/-- No empty header is left. -/
theorem isEmptyHeader_eq_false (j : DeclId) : g'.isEmptyHeader j = false := by
  have hnode := h.node?_eq j
  cases hempty : g.isEmptyHeader j with
  | false => rw [isEmptyHeader_congr (by simpa [hempty] using hnode), hempty]
  | true =>
    rw [hempty, if_pos rfl] at hnode
    rw [isEmptyHeader, get?, hnode]
    rfl

end Sweeps

/-! ### What merging types amounts to -/

/-- The keys of the members of the types with a key. -/
def memberKeys (g : Graph) (key : MergeKey) : Set MemberKey :=
  {member | ∃ id, g.filed? id = some (key, member)}

/-- **The declarations of each type have been reunited**, and nothing is lost. -/
structure Reunites (g g' : Graph) : Prop where
  /-- What is there was there, as a declaration of the same kind. -/
  kind?_back : ∀ id kind, g'.kind? id = some kind → g.kind? id = some kind
  /-- No two types have the same key. -/
  unique : ∀ t t' key, g'.mergeKey? t = some key → g'.mergeKey? t' = some key → t = t'
  /-- The keys are the same. -/
  keys_iff : ∀ key, (∃ t, g'.mergeKey? t = some key) ↔ ∃ t, g.mergeKey? t = some key
  /-- Under each key the members have the same keys. -/
  memberKeys_eq : ∀ key, g'.memberKeys key = g.memberKeys key
  /-- What is left of a key is the first class with an implementation, if there was one. -/
  survivor : ∀ key s, (TypeMerge.groupOfKey g key).find? g.isImplemented = some s →
    g'.mergeKey? s = some key
  /-- The only body of a method is that of a method of the type that is left. -/
  body : ∀ key member id code, g.filed? id = some (key, member) → g.methodCode? id = some code →
    (∀ id', g.filed? id' = some (key, member) → g.methodCode? id' ≠ none → id' = id) →
    ∃ id', g'.filed? id' = some (key, member) ∧ g'.methodCode? id' = some code
  /-- Protocols and what stands in them are the same. -/
  protocol_eq : ∀ t d, g.get? t = some (.type d) → d.isProtocol = true →
    g'.node? t = g.node? t ∧ ∀ id, g.parent? id = some t → g'.node? id = g.node? id
  /-- Type aliases, functions and variables are the same. -/
  other_eq : ∀ id, g.kind? id ∈ [some (some .aliases), some (some .functions),
    some (some .globals)] → g'.node? id = g.node? id
  /-- The files are in the order they were in. -/
  files_sublist : g'.files.Sublist g.files
  /-- Those are gone that are headers and that nothing stands in at the end. -/
  gone_iff : ∀ f ∈ g.files, f ∉ g'.files ↔
    g.isHeader? f = some true ∧ ∀ id, g'.parent? id ≠ some f

variable {g₁ : Graph} {t : DeclId}

/-- What stands in a file and has no key takes no part. -/
theorem not_takesPart_of_home {id : DeclId} {list : ChildList} (hc : g.outline.Consistent none)
    (hid : g.kind? id = some (some list)) (hhome : list.home = none)
    (hkey : g.mergeKey? id = none) : ¬g.TakesPart id := by
  rintro (hfile | hkey' | hgroup)
  · exact absurd (hid.symm.trans hfile) (by simp)
  · exact hkey' hkey
  · obtain ⟨key, hkey'⟩ := Option.ne_none_iff_exists'.mp hgroup
    obtain ⟨p, hp, hpkey⟩ := Option.bind_eq_some_iff.mp hkey'
    obtain ⟨list', hid', hkind⟩ := kind?_of_parent? hc hp
    obtain rfl : list = list' := by simpa using hid.symm.trans hid'
    rw [kind?_of_mergeKey? hpkey, hhome] at hkind
    exact absurd hkind (by simp)

theorem not_takesPart_other {id : DeclId} (hc : g.outline.Consistent none)
    (hid : g.kind? id ∈ [some (some .aliases), some (some .functions), some (some .globals)]) :
    ¬g.TakesPart id := by
  have hkey : g.kind? id ≠ some (some .types) → g.mergeKey? id = none := fun hne =>
    Option.eq_none_iff_forall_ne_some.mpr fun key hkey => hne (kind?_of_mergeKey? hkey)
  simp only [List.mem_cons, List.not_mem_nil, or_false] at hid
  rcases hid with hid | hid | hid <;>
    exact not_takesPart_of_home hc hid rfl (hkey (by rw [hid]; simp))

/-- Protocols are not merged. -/
theorem not_takesPart_protocol {d : TypeDecl} (hc : g.outline.Consistent none)
    (ht : g.get? t = some (.type d)) (hd : d.isProtocol = true) :
    ¬g.TakesPart t ∧ ∀ id, g.parent? id = some t → ¬g.TakesPart id := by
  have hkind : g.kind? t = some (some .types) := by
    obtain ⟨n, hn, hdecl⟩ := exists_node?_of_get? ht
    rw [kind?_of_node? hn, hdecl]
    rfl
  have hkey : g.mergeKey? t = none := by
    rw [mergeKey?, ht, Option.bind_some, Decl.mergeKey?, TypeDecl.mergeKey?,
      beq_iff_eq.mp (hd : (d.kind == .protocolDecl) = true)]
  refine ⟨not_takesPart_of_home hc hkind rfl hkey, fun id hid => ?_⟩
  obtain ⟨list, hlist, hhome⟩ := kind?_of_parent? hc hid
  rintro (hfile | hkey' | hgroup)
  · exact absurd (hlist.symm.trans hfile) (by simp)
  · -- What stands in a type is a member.
    obtain ⟨key, hkey'⟩ := Option.ne_none_iff_exists'.mp hkey'
    obtain rfl : list = .types := by simpa using hlist.symm.trans (kind?_of_mergeKey? hkey')
    exact absurd (hkind.symm.trans hhome) (by simp [ChildList.home])
  · exact hgroup (by rw [groupOf?, hid, Option.bind_some, hkey])

theorem memberKeys_eq_of_unifies (hu : Unifies g g₁) (key : MergeKey) :
    g₁.memberKeys key = g.memberKeys key := by
  ext member
  constructor
  · rintro ⟨id, hid⟩
    exact ⟨id, hu.filed_back id _ hid⟩
  · rintro ⟨id, hid⟩
    exact hu.filed_forth id _ hid

/-- Merging all groups and sweeping the files reunites the declarations of each type. -/
theorem Reunites.of_unifies (hc : g.outline.Consistent none) (hu : Unifies g g₁)
    (hsettled : ∀ t key, g.mergeKey? t = some key → TypeMerge.Settled g g₁ key)
    (hs : g₁.Sweeps g₁.isEmptyHeader g') : g.Reunites g' where
  kind?_back id kind h := hu.edited.kind?_back id kind (hs.edited.kind?_back id kind h)
  unique t t' key ht ht' := by
    rw [hs.mergeKey?_eq] at ht ht'
    obtain ⟨target, hiff, -⟩ := hsettled t key (hu.mergeKey?_back ht)
    rw [(hiff t).mp ht, (hiff t').mp ht']
  keys_iff key := by
    rw [hs.mergeKey?_eq]
    constructor
    · rintro ⟨t, ht⟩
      exact ⟨t, hu.mergeKey?_back ht⟩
    · rintro ⟨t, ht⟩
      exact hu.key_forth t key ht
  memberKeys_eq key := by
    rw [← memberKeys_eq_of_unifies hu, memberKeys, memberKeys,
      hs.filed?_eq hu.edited.consistent]
  survivor key s h := by
    have hmem := (TypeMerge.mem_groupOfKey hc).mp (List.mem_of_find?_eq_some h)
    obtain ⟨target, hiff, hfirst⟩ := hsettled s key hmem
    rw [hs.mergeKey?_eq]
    exact (hiff s).mpr (hfirst s h).symm
  body key member id code hid hcode hsole := by
    rw [hs.filed?_eq hu.edited.consistent, hs.methodCode?_eq]
    exact hu.sole_body hid hcode hsole
  protocol_eq t d ht hd := by
    obtain ⟨hprotocol, hmembers⟩ := not_takesPart_protocol hc ht hd
    exact ⟨hs.node?_eq_of_unifies hu hprotocol,
      fun id hid => hs.node?_eq_of_unifies hu (hmembers id hid)⟩
  other_eq id hid := hs.node?_eq_of_unifies hu (not_takesPart_other hc hid)
  files_sublist := by
    rw [hs.files_eq, ← hu.files_eq]
    exact List.filter_sublist
  gone_iff f hf := by
    have hc₁ := hu.edited.consistent
    have hheader := hu.isHeader?_eq (kind?_of_mem_files hc hf)
    rw [← hheader, hs.parent?_eq hc₁, ← isEmptyHeader_iff hc₁, hs.files_eq, hu.files_eq]
    simp [hf]

end Graph

/-! ### Runs -/

namespace TypeMerge

variable {g g' : Graph}

/-- **Merging types** merges all groups, then sweeps the empty headers. -/
theorem succeeds_mergeAll_reunites (hc : g.outline.Consistent none) :
    mergeAll.Succeeds g fun _ g' =>
      g.Reunites g' ∧ (∀ f, g'.isEmptyHeader f = false) := by
  rw [Succeeds, mergeAll, outcome_bind, outcome_look_ok (mergeGroups_eq hc), outcome_bind]
  refine (succeeds_mapM_mergeGroup_unifies hc).mono fun merged g₁ h₁ => ?_
  obtain ⟨hu, hsettled⟩ := h₁
  rw [outcome_bind, outcome_get, outcome_bind]
  refine (succeeds_mapM_dropEmptyHeader hu.edited.consistent).mono fun dropped g₂ h₂ => ?_
  exact ⟨.of_unifies hc hu hsettled h₂.2, h₂.2.isEmptyHeader_eq_false⟩

/-- **Where no two types have the same key and no header is empty, nothing is merged.** -/
theorem succeeds_mergeAll_unchanged (hc : g.outline.Consistent none)
    (hunique : ∀ t t' key, g.mergeKey? t = some key → g.mergeKey? t' = some key → t = t')
    (hswept : ∀ f, g.isEmptyHeader f = false) :
    mergeAll.Succeeds g fun changed g' => changed = false ∧ g' = g := by
  have hshort : ∀ group ∈ (g.typeIds.filterMap g.mergeKey?).eraseDups.map (groupOfKey g),
      mergeGroup group = pure false := by
    intro group hgroup
    obtain ⟨key, -, rfl⟩ := List.mem_map.mp hgroup
    have hnodup : (groupOfKey g key).Nodup := (nodup_typeIds hc).filter _
    have hkey : ∀ t ∈ groupOfKey g key, g.mergeKey? t = some key := fun t =>
      (mem_groupOfKey hc).mp
    generalize groupOfKey g key = group at hnodup hkey
    -- A group of two would be two types of one key.
    rcases group with _ | ⟨t, _ | ⟨t', rest⟩⟩
    · rfl
    · rfl
    · obtain rfl := hunique t t' key (hkey t (by simp)) (hkey t' (by simp))
      exact absurd List.mem_cons_self (List.nodup_cons.mp hnodup).1
  -- No group and no header reports a change, and what reports none has made none.
  have hchanged : mergeAll.Succeeds g fun changed _ => changed = false := by
    rw [Succeeds, mergeAll, outcome_bind, outcome_look_ok (mergeGroups_eq hc), outcome_bind]
    refine (outcome_mapM (fun merged left g₁ => (∀ group ∈ left, mergeGroup group = pure false) ∧
        merged.any id = false ∧ g₁ = g) (fun merged group left g₁ h => ?_)
      ⟨hshort, rfl, rfl⟩).mono (fun merged g₁ h => ?_) fun _ _ hx => hx
    · obtain ⟨hleft, hany, rfl⟩ := h
      rw [hleft group List.mem_cons_self, outcome_pure]
      exact ⟨fun x hx => hleft x (List.mem_cons_of_mem group hx), by simp [hany], rfl⟩
    · obtain ⟨-, hany, rfl⟩ := h
      rw [outcome_bind, outcome_get, outcome_bind]
      refine (succeeds_mapM_dropEmptyHeader hc).mono fun dropped g₂ h₂ => ?_
      rw [outcome_pure, hany, h₂.1]
      simp [hswept]
  exact (Outcome.and hchanged outcome_mergeAll_unchanged).mono
    (fun _ _ h => ⟨h.1, h.2 h.1⟩) fun _ _ hx => hx.1

end TypeMerge

/-- **Merging types loses nothing, and once is enough.** Take a well-formed graph whose slots all
have a number and whose lists name no file. Merging its types succeeds, whatever the catalogue, and
reunites the declarations of each type; and merging types again changes nothing, not even the
catalogue. -/
theorem merging_types_reunites (g : Graph) (hwf : g.WellFormed)
    (hfiles : ∀ id ∈ g.files, id ∉ g.listed) (hle : g.slots.length ≤ 2 ^ 32) (c : Catalog) :
    ∃ c' g', Pass.mergeTypes.run c g = .ok c' g' ∧ g.Reunites g' ∧
      Pass.mergeTypes.run c' g' = .ok c' g' := by
  have hc := consistent_of_wellFormed hwf hfiles
  obtain ⟨c', g', hrun, hc', hlength⟩ : ∃ c' g', Pass.mergeTypes.run c g = .ok c' g' ∧ _ :=
    Pass.exists_run .mergeTypes hc hle
  have hreunites : (Pass.apply c .mergeTypes).Outcome g
      (fun _ g' => g.Reunites g' ∧ ∀ f, g'.isEmptyHeader f = false) fun _ _ => True := by
    rw [Pass.apply, outcome_bind]
    refine (TypeMerge.succeeds_mergeAll_reunites hc).outcome.mono (fun changed _ h => ?_)
      fun _ _ hx => hx
    cases changed <;> exact h
  obtain ⟨hreunites, hswept⟩ := hreunites.of_ok (Pass.apply_of_run hrun)
  refine ⟨c', g', hrun, hreunites, ?_⟩
  obtain ⟨c'', g'', hrun', -⟩ : ∃ c'' g'', Pass.mergeTypes.run c' g' = .ok c'' g'' ∧ _ :=
    Pass.exists_run .mergeTypes hc' (hlength ▸ hle)
  have hagain : (Pass.apply c' .mergeTypes).Outcome g' (fun c'' g'' => c'' = c' ∧ g'' = g')
      fun _ _ => True := by
    rw [Pass.apply, outcome_bind]
    refine (TypeMerge.succeeds_mergeAll_unchanged hc' hreunites.unique hswept).outcome.mono
      (fun changed _ h => ?_) fun _ _ hx => hx
    obtain ⟨rfl, rfl⟩ := h
    exact ⟨rfl, rfl⟩
  obtain ⟨rfl, rfl⟩ := hagain.of_ok (Pass.apply_of_run hrun')
  exact hrun'

/-- A class declared in a header and implemented in another file, where it has a class extension
too. The category of the class has a header of its own, in which nothing else stands. -/
def feedScript : List Graph.Command :=
  let text : SwiftType := .named "String"
  let reload : Signature := ⟨"reload", [⟨none, "sender", .optional text⟩], .void, false⟩
  let send : Expr := ((Expr.identifier "self").dot "refresh").call []
  [.addFile ⟨"Feed.h", "Feed.swift", {}, [], [], [], [], []⟩,
    .addChild ⟨0⟩ (.type { name := "Titled", kind := .protocolDecl }),
    .addChild ⟨0⟩ (.type { name := "Feed", kind := .classDecl (some "NSObject") }),
    .addChild ⟨2⟩ (.conformance { name := "Titled" }),
    .addChild ⟨2⟩ (.property { name := "title", storage := { type := text } }),
    .addChild ⟨2⟩ (.method { signature := reload }),
    .addFile ⟨"Feed+Extras.h", "Feed+Extras.swift", {}, [], [], [], [], []⟩,
    .addChild ⟨6⟩ (.type { name := "Feed", kind := .extensionDecl (some "Extras") }),
    .addChild ⟨7⟩ (.method { signature := ⟨"extra", [], .void, false⟩ }),
    .addFile ⟨"Feed.m", "Feed.swift", {}, [], [], [], [], []⟩,
    .addChild ⟨9⟩ (.type { name := "Feed", kind := .extensionDecl none }),
    .addChild ⟨10⟩ (.ivar { name := "_cache", storage := { type := text } }),
    .addChild ⟨9⟩ (.type { name := "Feed", kind := .classDecl none }),
    .addChild ⟨12⟩ (.method
      { signature := reload, code := some { body := [.expressions [send]] } }),
    .addChild ⟨9⟩ (.type { name := "Feed", kind := .extensionDecl (some "Extras") })]

/-- The graph that the script builds. -/
def feedGraph : Graph :=
  runScript feedScript {}

theorem merging_types_reunites_feedGraph :
    feedGraph.WellFormed ∧ (∀ id ∈ feedGraph.files, id ∉ feedGraph.listed) ∧
      feedGraph.slots.length ≤ 2 ^ 32 ∧
      ∃ c' g', Pass.mergeTypes.run (.ofGraph feedGraph) feedGraph = .ok c' g' ∧
        feedGraph.Reunites g' ∧ Pass.mergeTypes.run c' g' = .ok c' g' := by
  have hle : feedGraph.slots.length ≤ 2 ^ 32 := by decide_cbv
  obtain ⟨hwf, hfiles⟩ := wellFormed_runScript hle
  exact ⟨hwf, hfiles, hle, merging_types_reunites feedGraph hwf hfiles hle _⟩

/-- The same graph, but the header lists the implementation file among its types. -/
def nestedFeedGraph : Graph :=
  feedGraph.listing ⟨0⟩ .types ⟨9⟩

/-- **With a file among the types, nothing is merged.** Looking through the types fails at the file,
and there are as many classes of one name as before. -/
theorem nestedFeedGraph_stays_apart :
    nestedFeedGraph.WellFormed ∧ nestedFeedGraph.slots.length ≤ 2 ^ 32 ∧
      ∃ g', Pass.mergeTypes.run (.ofGraph nestedFeedGraph) nestedFeedGraph =
          .error (.failed .mergeTypes (.unexpectedKind ⟨9⟩ "type" "file")) g' ∧
        g'.mergeKey? ⟨2⟩ = some (.type "Feed") ∧ g'.mergeKey? ⟨12⟩ = some (.type "Feed") := by
  have hwf : nestedFeedGraph.WellFormed :=
    (wellFormed_runScript (by decide_cbv)).1.listing (by decide_cbv)
  exact ⟨hwf, by decide_cbv, nestedFeedGraph, rfl, by decide_cbv, by decide_cbv⟩

/-- What is left of the class is its declaration in the implementation file. -/
example : (TypeMerge.groupOfKey feedGraph (.type "Feed")).find? feedGraph.isImplemented =
    some ⟨12⟩ := by
  decide +kernel

end ObjcSwift
