import ObjcSwift.Proofs.Lowering.Account
import ObjcSwift.Proofs.Pass.Accessors
import ObjcSwift.Proofs.Pass.Rewriting
import ObjcSwift.Proofs.Pass.Types
import ObjcSwift.Proofs.Printing

/-!
# Conversions fail for unknown passes and overflowing types only

Loading gives a consistent graph unless a type overflows, annotating keeps its outline, and every
pass succeeds on every consistent graph and leaves one with the same slots. So passes may be run in
any order and as often as wanted, the check after each of them goes through, and what they leave can
be printed. What is left to stop a conversion is the name of a pass that is not known, or a fixed
array that is too long (`feedRows_overflow`).
-/

namespace ObjcSwift

open ObjcSwift.Graph ObjcSwift.Graph.Edit

variable {g : Graph} {catalog : Catalog}

/-! ### Passes -/

namespace Pass

/-- What a pass leaves is what it did, if the check after it goes through. -/
theorem apply_of_run {pass : Pass} {catalog' : Catalog} {g' : Graph}
    (h : pass.run catalog g = .ok catalog' g') : pass.apply catalog g = .ok catalog' g' := by
  unfold run at h
  split at h
  · exact absurd h (by simp)
  · rename_i c₁ g₁ hok
    split at h
    · exact absurd h (by simp)
    · obtain ⟨rfl, rfl⟩ := EStateM.Result.ok.inj h
      exact hok

/-- Passes run to their end if the first does, and the others do after it. -/
theorem runAll_cons_eq_ok {pass : Pass} {passes : List Pass} {catalog' : Catalog} {g' : Graph} :
    runAll catalog (pass :: passes) g = .ok catalog' g' ↔
      ∃ c₁ g₁, pass.run catalog g = .ok c₁ g₁ ∧ runAll c₁ passes g₁ = .ok catalog' g' := by
  change EStateM.bind (pass.run catalog) _ g = _ ↔ _
  unfold EStateM.bind
  cases pass.run catalog g with
  | ok c₁ g₁ => simp
  | error x g₁ => simp

/-- **Every pass succeeds on every consistent graph**, and leaves one with the same slots. -/
theorem succeeds_apply (pass : Pass) (hc : g.outline.Consistent none)
    (hle : g.slots.length ≤ 2 ^ 32) :
    (pass.apply catalog).Succeeds g fun _ g' =>
      g'.outline.Consistent none ∧ g'.slots.length = g.slots.length := by
  have hkeep : ∀ {g' : Graph}, g'.outline = g.outline →
      g'.outline.Consistent none ∧ g'.slots.length = g.slots.length :=
    fun ho => ⟨ho ▸ hc, congrArg Outline.slots ho⟩
  cases pass with
  | mergeTypes =>
    rw [Succeeds, apply, outcome_bind]
    refine (TypeMerge.succeeds_mergeAll hc).mono fun changed g' h => ?_
    cases changed <;> exact ⟨h.consistent, h.length_eq⟩
  | propagateNullability =>
    rw [Succeeds, apply, outcome_bind]
    exact (ProtocolNullability.succeeds_propagate hc).mono fun _ _ h => hkeep h
  | mergeProperties =>
    exact (AccessorMerge.succeeds_mergeAll hc).mono fun _ _ h => ⟨h.consistent, h.length_eq⟩
  | foldIdioms =>
    rw [Succeeds, apply, outcome_bind]
    exact (Idiom.succeeds_foldAll hle).mono fun _ _ h => hkeep h

theorem exists_run (pass : Pass) (hc : g.outline.Consistent none)
    (hle : g.slots.length ≤ 2 ^ 32) :
    ∃ catalog' g', pass.run catalog g = .ok catalog' g' ∧ g'.outline.Consistent none ∧
      g'.slots.length = g.slots.length := by
  obtain ⟨catalog', g', hok, hc', hlength⟩ := (pass.succeeds_apply hc hle).exists_ok
  refine ⟨catalog', g', ?_, hc', hlength⟩
  rw [run, hok]
  simp only [verify_of_consistent hc' (hlength ▸ hle)]

/-- **Passes succeed in any order**, and as often as wanted. -/
theorem exists_runAll (passes : List Pass) :
    ∀ (catalog : Catalog) {g : Graph}, g.outline.Consistent none → g.slots.length ≤ 2 ^ 32 →
      ∃ catalog' g', runAll catalog passes g = .ok catalog' g' ∧ g'.outline.Consistent none ∧
        g'.slots.length = g.slots.length := by
  induction passes with
  | nil => exact fun catalog g hc _ => ⟨catalog, g, rfl, hc, rfl⟩
  | cons pass passes ih =>
    intro catalog g hc hle
    obtain ⟨catalog₁, g₁, hok₁, hc₁, hlength₁⟩ := pass.exists_run hc hle
    obtain ⟨catalog₂, g₂, hok₂, hc₂, hlength₂⟩ := ih catalog₁ hc₁ (hlength₁ ▸ hle)
    refine ⟨catalog₂, g₂, ?_, hc₂, hlength₂.trans hlength₁⟩
    exact runAll_cons_eq_ok.mpr ⟨catalog₁, g₁, hok₁, hok₂⟩

/-- The passes of known names. -/
theorem exists_ofNames {names : List String} (h : ∀ name ∈ names, ofName? name ≠ none) :
    ∃ passes, ofNames names = .ok passes := by
  obtain ⟨passes, hok, -⟩ : Finds (ofNames names) fun _ => True := by
    refine (finds_mapM (fun _ _ => True) fun name hname => ?_).mono fun _ _ => trivial
    obtain ⟨pass, hpass⟩ := Option.ne_none_iff_exists'.mp (h name hname)
    rw [hpass]
    exact finds_pure trivial
  exact ⟨passes, hok⟩

/-- Looking passes up fails at a name that is not known. -/
theorem ofNames_eq_error {names : List String} {e : PassError} (h : ofNames names = .error e) :
    ∃ name ∈ names, ofName? name = none ∧ e = .unknown name := by
  induction names with
  | nil => exact absurd h (by simp [ofNames, pure, Except.pure])
  | cons name names ih =>
    unfold ofNames at h
    rw [List.mapM_cons] at h
    cases hpass : ofName? name with
    | none =>
      rw [hpass] at h
      exact ⟨name, List.mem_cons_self, hpass, (Except.error.inj h).symm⟩
    | some pass =>
      rw [hpass] at h
      cases hrest : ofNames names with
      | error e' =>
        unfold ofNames at hrest
        simp only [hrest] at h
        obtain rfl : e' = e := Except.error.inj h
        obtain ⟨name', hmem, hnone, he⟩ := ih hrest
        exact ⟨name', List.mem_cons_of_mem name hmem, hnone, he⟩
      | ok passes =>
        unfold ofNames at hrest
        simp only [hrest] at h
        exact absurd h (by simp [bind, Except.bind, pure, Except.pure])

end Pass

/-! ### Conversions -/

/-- Annotating all bodies of a graph passes over none of them. -/
theorem Graph.annotateAll_eq_forM (hle : g.slots.length ≤ 2 ^ 32) :
    (g.codeOwners.forM (annotate catalog)) g = .ok ⟨⟩ (g.annotateAll catalog) := by
  have howners : ∀ id ∈ g.codeOwners, g.kind? id ≠ none :=
    fun id hid => kind?_of_mem_codeOwners hle hid
  obtain ⟨_, g', hok, -, rfl⟩ := (succeeds_forM_annotate howners).exists_ok
  exact hok

/-- **Passes of known names succeed on a consistent graph**, in any order and whatever their number.
What they leave is well formed after each of them, and it can be printed. -/
theorem Graph.passes_succeed (hc : g.outline.Consistent none) (hle : g.slots.length ≤ 2 ^ 32)
    {names : List String} (hnames : ∀ name ∈ names, Pass.ofName? name ≠ none) :
    ∃ passes, Pass.ofNames names = .ok passes ∧ ∀ count, ∃ catalog' g',
      Pass.runAll catalog (passes.take count) g = .ok catalog' g' ∧ g'.WellFormed ∧
      ∀ settings, ∃ files, Emit.all settings g' = .ok files := by
  obtain ⟨passes, hpasses⟩ := Pass.exists_ofNames hnames
  refine ⟨passes, hpasses, fun count => ?_⟩
  -- The passes up to some point are passes too.
  obtain ⟨catalog', g', hok, hg', hlength⟩ := Pass.exists_runAll (passes.take count) catalog hc hle
  refine ⟨catalog', g', hok, wellFormed_of_consistent hg' (hlength ▸ hle), fun settings => ?_⟩
  obtain ⟨files, hfiles, -⟩ := Emit.finds_all settings hg'
  exact ⟨files, hfiles⟩

/-- Sources whose graph is there are converted, if the passes are known. -/
theorem exists_convert {settings : Settings} {sources : List Source} {problems : List Diagnostic}
    {passes : List Pass} (hload : Graph.ofSources sources = .ok (g, problems))
    (hc : g.outline.Consistent none) (hle : g.slots.length ≤ 2 ^ 32)
    (hpasses : Pass.ofNames settings.passes = .ok passes) :
    ∃ files, convert settings sources = .ok ⟨files, problems⟩ := by
  obtain ⟨catalog, g', hok, hg', -⟩ := Pass.exists_runAll passes (.ofGraph g)
    (consistent_annotateAll (.ofGraph g) hc) (by rwa [length_annotateAll])
  obtain ⟨files, hfiles, -⟩ := Emit.finds_all settings.output.emit hg'
  have htransform : g.transform passes = .ok g' := by
    simp only [transform, hok]
  refine ⟨files, ?_⟩
  simp only [convert, transformed, hpasses, hload, Except.mapError, bind, Except.bind, htransform,
    hfiles, pure, Except.pure]

/-- **Loading ends at a type that overflows, and for no other reason**, as long as there are numbers
for the slots. -/
theorem Graph.ofSources_cases {sources : List Source}
    (hle : (sources.map Source.slots).sum ≤ 2 ^ 32) :
    sources.any Source.overflows = true ∧ ofSources sources = .error .overflow ∨
      sources.any Source.overflows = false ∧ ∃ g problems, ofSources sources = .ok (g, problems) ∧
        g.outline.Consistent none ∧ g.slots.length = (sources.map Source.slots).sum := by
  have herror : ∀ s ∈ sources, s.lowering.error = if s.overflows then some .overflow else none :=
    fun s hs => Source.error_lowering ((List.le_sum_of_mem (List.mem_map_of_mem hs)).trans hle)
  cases hany : sources.any Source.overflows with
  | true =>
    obtain ⟨s, hs, ho⟩ := List.any_eq_true.mp hany
    exact .inl ⟨rfl, ofSources_eq_overflow hle ⟨s, hs, by rw [herror s hs, if_pos ho]⟩⟩
  | false =>
    refine .inr ⟨rfl, exists_ofSources sources (fun s hs => ?_) hle⟩
    rw [herror s hs, if_neg (List.any_eq_false.mp hany s hs)]

/-- **A conversion fails for an unknown pass or a type that overflows, and for nothing else.**
Whatever the sources are, as long as there are numbers for the slots that they take: loading them
fails if a type in them overflows. If none does, loading succeeds, annotating passes over no body,
and passes of known names succeed in any order, whatever their number. The graph is well formed
after loading, after annotating and after every pass, and what a pass leaves can be printed. So a
conversion that fails was asked for a pass that is not known, or there is no room for a type. -/
theorem conversions_fail_for_unknown_passes_or_overflows (sources : List Source)
    (hlt : (sources.map Source.slots).sum < 2 ^ 32) :
    (sources.any Source.overflows = true → Graph.ofSources sources = .error .overflow) ∧
    (sources.any Source.overflows = false →
      ∃ g problems, Graph.ofSources sources = .ok (g, problems) ∧
        g.slots.length = (sources.map Source.slots).sum ∧ g.WellFormed ∧
        (g.codeOwners.forM (annotate (.ofGraph g))) g = .ok ⟨⟩ (g.annotateAll (.ofGraph g)) ∧
        (g.annotateAll (.ofGraph g)).WellFormed ∧
        ∀ names : List String, (∀ name ∈ names, Pass.ofName? name ≠ none) →
          ∃ passes, Pass.ofNames names = .ok passes ∧ ∀ count, ∃ catalog g',
            Pass.runAll (.ofGraph g) (passes.take count) (g.annotateAll (.ofGraph g)) =
              .ok catalog g' ∧ g'.WellFormed ∧
            ∀ settings, ∃ files, Emit.all settings g' = .ok files) ∧
    ∀ settings e, convert settings sources = .error e →
      (∃ name ∈ settings.passes, Pass.ofName? name = none ∧ e = .pass (.unknown name)) ∨
        sources.any Source.overflows = true ∧ e = .overflow := by
  have hload := ofSources_cases (Nat.le_of_lt hlt)
  refine ⟨fun hany => ?_, fun hnone => ?_, fun settings e he => ?_⟩
  · obtain ⟨-, hover⟩ | ⟨hnone, -⟩ := hload
    · exact hover
    · exact absurd (hany.symm.trans hnone) (by simp)
  · obtain ⟨hany, -⟩ | ⟨-, g, problems, hok, hc, hslots⟩ := hload
    · exact absurd (hany.symm.trans hnone) (by simp)
    have hle : g.slots.length ≤ 2 ^ 32 := by omega
    have hc' := consistent_annotateAll (.ofGraph g) hc
    have hle' : (g.annotateAll (.ofGraph g)).slots.length ≤ 2 ^ 32 := by rwa [length_annotateAll]
    exact ⟨g, problems, hok, hslots, wellFormed_of_consistent hc hle, annotateAll_eq_forM hle,
      wellFormed_of_consistent hc' hle', fun names hnames => passes_succeed hc' hle' hnames⟩
  -- The passes are looked up before the sources are read.
  · cases hpasses : Pass.ofNames settings.passes with
    | error cause =>
      obtain ⟨name, hmem, hnone, rfl⟩ := Pass.ofNames_eq_error hpasses
      have hfail : convert settings sources = .error (.pass (.unknown name)) := by
        simp only [convert, transformed, hpasses]
        rfl
      exact .inl ⟨name, hmem, hnone, Except.error.inj (he.symm.trans hfail)⟩
    | ok passes =>
      obtain ⟨hany, hover⟩ | ⟨-, g, problems, hok, hc, hslots⟩ := hload
      · have hfail : convert settings sources = .error .overflow := by
          simp only [convert, transformed, hpasses, hover]
          rfl
        exact .inr ⟨hany, Except.error.inj (he.symm.trans hfail)⟩
      · obtain ⟨files, hdone⟩ := exists_convert hok hc (by omega) hpasses
        exact absurd (he.symm.trans hdone) (by simp)

/-- The text of a node, given what its kind says and the texts of its children. -/
def nodeText (kind children : String) : String :=
  "\x7b\"kind\":\x7b\"node\":" ++ kind ++ "\x7d,\"children\":[" ++ children ++ "]\x7d"

theorem toList_fiveParts (a b c d e : String) : (a ++ b ++ c ++ d ++ e).toList =
    a.toList ++ b.toList ++ c.toList ++ d.toList ++ e.toList := by
  simp only [String.toList_append]

/-- The characters of the text of a node, in parts. A text that was put together is known to have
them much faster by this than by evaluation. -/
theorem toList_nodeText (kind children : String) : (nodeText kind children).toList =
    "\x7b\"kind\":\x7b\"node\":".toList ++ kind.toList ++ "\x7d,\"children\":[".toList ++
      children.toList ++ "]\x7d".toList :=
  toList_fiveParts _ _ _ _ _

/-- A class in a header and in an implementation file, where a method implements its property, and a
text that is no tree. -/
def splitClass : List Source :=
  let property := nodeText
    "\"property_definition\",\"name\":\"p\",\"ty\":\"Void\",\"attributes\":[]" ""
  let getter := nodeText
    "\"method_definition\",\"return_type\":\"Void\",\"selector\":\x7b\"Simple\":\"p\"\x7d" ""
  [⟨"A.h", nodeText "\"class_interface\",\"name\":\"A\"" property⟩,
    ⟨"A.m", nodeText "\"class_implementation\",\"name\":\"A\"" getter⟩, ⟨"B.m", "[1, 2"⟩]

theorem conversions_fail_for_unknown_passes_or_overflows_splitClass :
    (splitClass.map Source.slots).sum < 2 ^ 32 ∧ splitClass.any Source.overflows = false ∧
      (∃ g problems, Graph.ofSources splitClass = .ok (g, problems) ∧ g.slots.length = 7 ∧
        g.WellFormed) ∧
      ∀ e, convert { passes := ["property-merge", "file-type-merging", "property-merge"] }
        splitClass ≠ .error e := by
  have hsum : (splitClass.map Source.slots).sum = 7 ∧
      splitClass.any Source.overflows = false := by
    simp only [splitClass, List.map_cons, List.map_nil, Source.slots, Source.lowering_eq,
      List.any_cons, List.any_nil, Source.overflows_eq]
    rw [toList_nodeText, toList_nodeText, toList_nodeText, toList_nodeText]
    repeat rw [String.toList_ofList]
    decide +kernel
  obtain ⟨hsum, hroom⟩ := hsum
  have hlt : (splitClass.map Source.slots).sum < 2 ^ 32 := by omega
  obtain ⟨-, hloads, hfail⟩ := conversions_fail_for_unknown_passes_or_overflows splitClass hlt
  obtain ⟨g, problems, hload, hslots, hwf, -⟩ := hloads hroom
  refine ⟨hlt, hroom, ⟨g, problems, hload, hslots.trans hsum, hwf⟩, fun e he => ?_⟩
  obtain ⟨name, hmem, hnone, -⟩ | ⟨hany, -⟩ := hfail _ e he
  · have hknown : ∀ name ∈ ["property-merge", "file-type-merging", "property-merge"],
        Pass.ofName? name ≠ none := by decide
    exact hknown name hmem hnone
  · exact absurd (hany.symm.trans hroom) (by simp)

/-- A class whose header declares a property that is an array of as many elements as can be
written, and whose implementation file declares it as a number. -/
def feedRows : List Source :=
  let array := nodeText ("\"property_definition\",\"name\":\"rows\",\"ty\":\x7b\"FixedArray\":" ++
    "\x7b\"ty\":\"Void\",\"length\":18446744073709551615\x7d\x7d,\"attributes\":[]") ""
  let number := nodeText ("\"property_definition\",\"name\":\"rows\",\"ty\":" ++
    "\x7b\"Struct\":\"int\"\x7d,\"attributes\":[]") ""
  [⟨"Feed.h", nodeText "\"class_interface\",\"name\":\"Feed\"" array⟩,
    ⟨"Feed.m", nodeText "\"class_implementation\",\"name\":\"Feed\"" number⟩]

/-- **There is no room for the array**, so the sources are not loaded, although they take few slots,
and the conversion fails without a pass. -/
theorem feedRows_overflow :
    (feedRows.map Source.slots).sum < 2 ^ 32 ∧
      Graph.ofSources feedRows = .error .overflow ∧
      convert { passes := [] } feedRows = .error .overflow := by
  have hfacts : (feedRows.map Source.slots).sum ≤ 2 ^ 32 - 1 ∧
      ∃ s ∈ feedRows, s.lowering.error = some .overflow := by
    simp only [feedRows, List.map_cons, List.map_nil, Source.slots, Source.lowering_eq,
      List.exists_mem_cons_iff]
    rw [toList_nodeText, toList_nodeText, toList_nodeText, toList_nodeText, String.toList_append,
      String.toList_append]
    repeat rw [String.toList_ofList]
    decide +kernel
  obtain ⟨hsum, hover⟩ := hfacts
  have hload : Graph.ofSources feedRows = .error .overflow :=
    ofSources_eq_overflow (by omega) hover
  refine ⟨by omega, hload, ?_⟩
  simp only [convert, transformed, Pass.ofNames, hload]
  rfl

end ObjcSwift
