import ObjcSwift.Proofs.Conversion
import ObjcSwift.Proofs.Typing.Graphs
import ObjcSwift.Proofs.Typing.Tally

/-!
# Passes leave no expression without type

Annotating gives every expression of a graph a type, and every pass keeps it so. Three of the four
passes put nothing untyped anywhere: they change what is around bodies, and bodies that change their
owner were typed before. Folding idioms does make expressions without types, in bodies that it
counts, and the bodies it has counted are annotated again. That no other body has changed is
`Idiom.tally_foldDecl`.
-/

namespace ObjcSwift

open ObjcSwift.Graph ObjcSwift.Graph.Edit

variable {g g' : Graph} {id target type method property : DeclId}

/-! ### Passing nullability on -/

namespace ProtocolNullability

theorem keepsTypes_setSignature (u : DeclId × Signature) :
    (setSignature u).KeepsTypes fun _ => True := by
  refine (keepsTypes_look_typed Decl.view_method).bind fun m hm => keepsTypes_setDecl ?_
  rw [Decl.typed_method] at hm ⊢
  exact hm

theorem keepsTypes_propagate : propagate.KeepsTypes fun _ => True :=
  (keepsTypes_look _).bind fun updates _ => keepsTypes_forM keepsTypes_setSignature updates

end ProtocolNullability

/-! ### Merging types -/

namespace TypeMerge

theorem keepsTypes_relocate {duplicate : Bool} :
    (relocate id target duplicate).KeepsTypes fun _ => True := by
  unfold relocate
  split_ifs
  · exact keepsTypes_remove.discard
  · exact keepsTypes_moveTo

theorem keepsTypes_mergeTop {other : TypeDecl} :
    (mergeTop target other).KeepsTypes fun _ => True :=
  (keepsTypes_look _).bind fun _ _ => keepsTypes_setDecl (Decl.typed_of_not_ownsCode rfl)

theorem keepsTypes_mergeConformance : (mergeConformance target id).KeepsTypes fun _ => True :=
  (keepsTypes_look _).bind fun _ _ => (keepsTypes_look _).bind fun _ _ => keepsTypes_relocate

theorem keepsTypes_mergeIvar : (mergeIvar target id).KeepsTypes fun _ => True :=
  (keepsTypes_look _).bind fun _ _ => (keepsTypes_look _).bind fun _ _ => keepsTypes_relocate

theorem keepsTypes_mergeProperty : (mergeProperty target id).KeepsTypes fun _ => True := by
  refine (keepsTypes_look _).bind fun p _ => (keepsTypes_look _).bind fun existing _ => ?_
  cases existing with
  | none => exact keepsTypes_relocate
  | some kept =>
    refine (keepsTypes_look_typed Decl.view_property).bind fun q hq => ?_
    refine (keepsTypes_setDecl ?_).bind fun _ _ => keepsTypes_relocate
    rw [Decl.typed_property] at hq ⊢
    exact hq

/-- The body of a merged method is that of one of the two. -/
theorem typed_joinMethods {kept other : MethodDecl} (hk : (Decl.method kept).Typed)
    (ho : (Decl.method other).Typed) : (Decl.method (joinMethods kept other)).Typed := by
  rw [Decl.typed_method] at hk ho ⊢
  intro code hcode
  rcases Option.or_eq_some_iff.mp hcode with h | ⟨-, h⟩
  · exact hk code h
  · exact ho code h

theorem keepsTypes_mergeMethod : (mergeMethod target id).KeepsTypes fun _ => True := by
  refine (keepsTypes_look_typed Decl.view_method).bind fun m hm => ?_
  refine (keepsTypes_look _).bind fun existing _ => ?_
  cases existing with
  | none => exact keepsTypes_relocate
  | some kept =>
    refine (keepsTypes_look_typed Decl.view_method).bind fun n hn => ?_
    exact (keepsTypes_setDecl (typed_joinMethods hn hm)).bind fun _ _ => keepsTypes_relocate

theorem keepsTypes_mergeType (source : DeclId) :
    (mergeType target source).KeepsTypes fun _ => True := by
  refine (keepsTypes_look _).bind fun other _ => keepsTypes_mergeTop.bind fun _ _ => ?_
  refine (keepsTypes_forM (fun _ => keepsTypes_mergeConformance) _).bind fun _ _ => ?_
  refine (keepsTypes_forM (fun _ => keepsTypes_mergeProperty) _).bind fun _ _ => ?_
  refine (keepsTypes_forM (fun _ => keepsTypes_mergeIvar) _).bind fun _ _ => ?_
  refine (keepsTypes_forM (fun _ => keepsTypes_mergeMethod) _).bind fun _ _ => ?_
  exact keepsTypes_remove.discard

theorem keepsTypes_mergeGroup (group : List DeclId) :
    (mergeGroup group).KeepsTypes fun _ => True := by
  unfold mergeGroup
  split
  · refine (keepsTypes_look _).bind fun target _ => ?_
    refine (keepsTypes_forM keepsTypes_mergeType _).bind fun _ _ => ?_
    exact keepsTypes_pure trivial
  · exact keepsTypes_pure trivial

theorem keepsTypes_dropEmptyHeader (id : DeclId) :
    (dropEmptyHeader id).KeepsTypes fun _ => True := by
  refine (keepsTypes_look _).bind fun file _ => ?_
  split_ifs
  · exact keepsTypes_remove.discard.bind fun _ _ => keepsTypes_pure trivial
  · exact keepsTypes_pure trivial

/-- **Merging types keeps types**, as a body changes its owner at most. -/
theorem keepsTypes_mergeAll : mergeAll.KeepsTypes fun _ => True := by
  refine (keepsTypes_look _).bind fun groups _ => ?_
  refine (keepsTypes_mapM keepsTypes_mergeGroup groups).bind fun merged _ => ?_
  refine keepsTypes_get.bind fun g _ => ?_
  refine (keepsTypes_mapM keepsTypes_dropEmptyHeader g.files).bind fun dropped _ => ?_
  exact keepsTypes_pure trivial

end TypeMerge

/-! ### Merging accessors -/

namespace AccessorMerge

/-- A body that is taken out is typed, and so is the empty one. -/
theorem keepsTypes_takeBody : (takeBody type method).KeepsTypes Code.Typed := by
  refine keepsTypes_removeChild.bind fun d hd => ?_
  cases d with
  | method m =>
    refine keepsTypes_pure ?_
    cases hcode : m.code with
    | none => simp [Code.Typed]
    | some code => exact Decl.typed_method.mp hd code hcode
  | _ => exact keepsTypes_throw

theorem keepsTypes_takeSetter :
    (takeSetter type method).KeepsTypes fun setter => setter.code.Typed :=
  (keepsTypes_look _).bind fun _ _ => keepsTypes_takeBody.bind fun _ hcode => keepsTypes_pure hcode

theorem typed_mergedMode {inExtension : Bool} {getter : Code} {setter : Option Setter}
    (hg : getter.Typed) (hs : ∀ s, setter = some s → s.code.Typed) :
    (mergedMode inExtension getter setter).Typed := by
  unfold mergedMode
  cases setter with
  | none => exact ⟨hg, hs⟩
  | some s =>
    dsimp only
    split_ifs
    · exact ⟨hg, hs⟩
    · exact ⟨hg, hs s rfl⟩

theorem keepsTypes_setMode {mode : PropertyMode} (hmode : mode.Typed) (answer : α) :
    (setMode property mode answer).KeepsTypes fun _ => True :=
  (keepsTypes_look _).bind fun _ _ => (keepsTypes_setDecl (Decl.typed_property.mpr hmode)).bind
    fun _ _ => keepsTypes_pure trivial

/-- The property takes over what is typed. -/
theorem keepsTypes_takeAccessors {inExtension : Bool} {a : Accessors} (answer : α) :
    (takeAccessors type property inExtension a answer).KeepsTypes fun _ => True := by
  refine keepsTypes_takeBody.bind fun getter hg => ?_
  cases a.setter with
  | none => exact keepsTypes_setMode (typed_mergedMode hg (by simp)) answer
  | some id =>
    have hsetter : (some <$> takeSetter type id).KeepsTypes fun setter =>
        ∀ s, setter = some s → s.code.Typed :=
      keepsTypes_takeSetter.map fun setter hs s h => Option.some.inj h ▸ hs
    exact hsetter.bind fun setter hs => keepsTypes_setMode (typed_mergedMode hg hs) answer

theorem keepsTypes_mergeInto {inExtension : Bool} {methods used : List DeclId} :
    (mergeInto type inExtension methods used property).KeepsTypes fun _ => True := by
  rw [mergeInto_eq]
  refine (keepsTypes_look _).bind fun p _ => ?_
  split_ifs
  · exact keepsTypes_pure trivial
  · refine (keepsTypes_look _).bind fun found _ => ?_
    cases found with
    | none => exact keepsTypes_pure trivial
    | some a => exact keepsTypes_takeAccessors _

theorem keepsTypes_mergeEach {inExtension : Bool} {methods : List DeclId}
    (properties : List DeclId) : ∀ used : List DeclId,
      (mergeEach type inExtension methods used properties).KeepsTypes fun _ => True := by
  induction properties with
  | nil => exact fun _ => keepsTypes_pure trivial
  | cons property rest ih =>
    intro used
    refine keepsTypes_mergeInto.bind fun r _ => (ih r.1).bind fun changes _ => ?_
    exact keepsTypes_pure trivial

theorem keepsTypes_mergeInType (type : DeclId) : (mergeInType type).KeepsTypes fun _ => True := by
  refine (keepsTypes_look _).bind fun d _ => ?_
  split_ifs
  · exact keepsTypes_pure trivial
  · exact keepsTypes_mergeEach d.properties []

/-- **Merging accessors keeps types**: the bodies that a property takes over were typed. -/
theorem keepsTypes_mergeAll (c : Catalog) : (mergeAll c).KeepsTypes fun _ => True := by
  refine keepsTypes_get.bind fun g _ => ?_
  refine (keepsTypes_mapM keepsTypes_mergeInType g.typeIds).bind fun changes _ => ?_
  split_ifs
  · exact keepsTypes_pure trivial
  · refine keepsTypes_get.bind fun g' _ => ?_
    exact keepsTypes_forM_annotate.bind fun _ _ => keepsTypes_pure trivial

end AccessorMerge

/-! ### Folding idioms -/

namespace Idiom

variable {c : Catalog} {kept : List DeclId}

/-- Folding leaves a declaration as it is, or makes it one more exception. -/
theorem outcome_foldIn (h : g.TypedExcept kept) :
    (foldIn c id).Outcome g
      (fun folded g' => g'.TypedExcept (if folded then id :: kept else kept)) fun _ _ => True := by
  rw [foldIn, outcome_bind]
  cases hn : g.node? id with
  | none =>
    rw [outcome_node, hn]
    trivial
  | some n =>
    rw [outcome_node_some hn, outcome_bind, setDecl, outcome_modifyNode_some hn]
    intro j m hm hj
    rw [node?_setNode hn] at hm
    split_ifs at hm with hid
    · obtain rfl := Option.some.inj hm
      -- A count of zero says that the declaration is what it was; any other makes it an exception.
      by_cases hcount : (foldDecl c n.decl).2 = 0
      · rw [hid, if_neg (by simp [hcount])] at hj
        change (foldDecl c n.decl).1.Typed
        rw [(tally_foldDecl c n.decl).eq_of_eq hcount]
        exact h id n hn hj
      · rw [if_pos (by simpa using Nat.pos_of_ne_zero hcount)] at hj
        exact absurd (List.mem_cons.mpr (Or.inl hid)) hj
    · refine h j m hm fun hmem => hj ?_
      split_ifs
      · exact List.mem_cons_of_mem id hmem
      · exact hmem

/-- **Folding idioms keeps types**: what was folded is annotated again. -/
theorem keepsTypes_foldAll (c : Catalog) : (foldAll c).KeepsTypes fun _ => True := by
  intro g hg
  rw [foldAll, outcome_bind, outcome_get, outcome_bind]
  -- The declarations that may lack types are those in which something was folded.
  refine (outcome_filterM (fun kept _ g' => g'.TypedExcept kept)
    (fun _ _ _ _ h => outcome_foldIn h) (fullyTyped_iff.mp hg)).mono
    (fun touched g₁ h₁ => ?_) fun _ _ hx => hx
  have htouched : g₁.TypedExcept touched := fun id n hn hid => h₁ id n hn (by simpa using hid)
  exact (outcome_forM_annotate htouched).mono (fun _ _ h => ⟨trivial, h⟩) fun _ _ hx => hx

end Idiom

/-! ### All passes -/

namespace Pass

/-- **Every pass keeps a fully typed graph so.** -/
theorem keepsTypes_apply (pass : Pass) (catalog : Catalog) :
    (pass.apply catalog).KeepsTypes fun _ => True := by
  cases pass with
  | mergeTypes =>
    refine TypeMerge.keepsTypes_mergeAll.bind fun changed _ => ?_
    cases changed with
    | false => exact keepsTypes_pure trivial
    | true => exact keepsTypes_get.bind fun g _ => keepsTypes_pure trivial
  | propagateNullability =>
    exact ProtocolNullability.keepsTypes_propagate.bind fun _ _ => keepsTypes_pure trivial
  | mergeProperties => exact AccessorMerge.keepsTypes_mergeAll catalog
  | foldIdioms => exact (Idiom.keepsTypes_foldAll catalog).bind fun _ _ => keepsTypes_pure trivial

/-- Passes keep a fully typed graph so, in any order and as often as wanted. -/
theorem fullyTyped_runAll (passes : List Pass) :
    ∀ {catalog catalog' : Catalog} {g g' : Graph}, g.FullyTyped →
      runAll catalog passes g = .ok catalog' g' → g'.FullyTyped := by
  induction passes with
  | nil =>
    intro catalog catalog' g g' hg hrun
    obtain ⟨-, rfl⟩ := EStateM.Result.ok.inj hrun
    exact hg
  | cons pass passes ih =>
    intro catalog catalog' g g' hg hrun
    obtain ⟨catalog₁, g₁, hpass, hrest⟩ := runAll_cons_eq_ok.mp hrun
    have hg₁ := ((pass.keepsTypes_apply catalog g hg).of_ok (apply_of_run hpass)).2
    exact ih hg₁ hrest

end Pass

/-- **No expression is left without type.** Whatever the sources are that a graph was loaded from,
and whatever catalogue it is annotated with: afterwards every expression in every body and every
initial value has a type, and it has one after every pass of every sequence of passes. Such a
sequence runs to its end, as long as there are numbers for the slots that the sources take. -/
theorem annotated_expressions_stay_typed {sources : List Source} {g : Graph}
    {problems : List Diagnostic} (hload : Graph.ofSources sources = .ok (g, problems))
    (catalog : Catalog) :
    (g.annotateAll catalog).FullyTyped ∧ ∀ (first : Catalog) (passes : List Pass),
      (∀ last g', Pass.runAll first passes (g.annotateAll catalog) = .ok last g' →
        g'.FullyTyped) ∧
      ((sources.map Source.slots).sum ≤ 2 ^ 32 →
        ∃ last g', Pass.runAll first passes (g.annotateAll catalog) = .ok last g') := by
  have htyped := fullyTyped_annotateAll catalog g
  refine ⟨htyped, fun first passes => ⟨fun last g' => Pass.fullyTyped_runAll passes htyped, ?_⟩⟩
  intro hle
  obtain ⟨hc, hslots⟩ := consistent_of_ofSources hload hle
  have hc' := consistent_annotateAll catalog hc
  have hle' : (g.annotateAll catalog).slots.length ≤ 2 ^ 32 := by rwa [length_annotateAll, hslots]
  obtain ⟨last, g', hok, -⟩ := Pass.exists_runAll passes first hc' hle'
  exact ⟨last, g', hok⟩

/-- The text of an expression with a suffix, given the texts of both. -/
def suffixedText (receiver suffix : String) : String :=
  "\x7b\"kind\":\x7b\"Postfix\":\x7b\"receiver\":" ++ receiver ++ ",\"op\":" ++ suffix ++
    ",\"optional_access\":\"None\"\x7d\x7d\x7d"

theorem toList_suffixedText (receiver suffix : String) : (suffixedText receiver suffix).toList =
    "\x7b\"kind\":\x7b\"Postfix\":\x7b\"receiver\":".toList ++ receiver.toList ++
      ",\"op\":".toList ++ suffix.toList ++
      ",\"optional_access\":\"None\"\x7d\x7d\x7d".toList :=
  toList_fiveParts _ _ _ _ _

/-- A global variable whose initial value is a method call, `A.b()`. -/
def calledMethod : List Source :=
  let type := "\x7b\"kind\":\x7b\"Identifier\":\"A\"\x7d\x7d"
  let call := suffixedText (suffixedText type "\x7b\"Member\":\"b\"\x7d")
    "\x7b\"FunctionCall\":[]\x7d"
  let node := "\"variable_declaration\",\"name\":\"a\",\"ty\":\"Void\",\"initializer\":"
  [⟨"A.m", nodeText (node ++ call) ""⟩]

theorem annotated_expressions_stay_typed_calledMethod :
    ∃ g problems, Graph.ofSources calledMethod = .ok (g, problems) ∧ ¬g.FullyTyped ∧
      (g.annotateAll (.ofGraph g)).FullyTyped ∧
      ∃ last g', Pass.runAll (.ofGraph g) Pass.standard (g.annotateAll (.ofGraph g)) =
        .ok last g' ∧ g'.FullyTyped := by
  obtain ⟨hsum, herror, hresolved⟩ : (calledMethod.map Source.slots).sum = 2 ∧
      (∀ s ∈ calledMethod, s.lowering.error = none) ∧
      ∀ s ∈ calledMethod, ((({} : Graph).merge s.lowering.graph).get? (.ofNat 1)).any
        (fun d => d.expressions.any (·.resolved.isNone)) = true := by
    simp only [calledMethod, List.map_cons, List.map_nil, List.forall_mem_singleton, Source.slots,
      Source.lowering_eq]
    rw [toList_nodeText, String.toList_append, toList_suffixedText, toList_suffixedText]
    repeat rw [String.toList_ofList]
    decide +kernel
  obtain ⟨g, problems, hload, -⟩ := exists_ofSources calledMethod herror (by omega)
  specialize hresolved _ List.mem_cons_self
  rw [← eq_of_ofSources_singleton hload] at hresolved
  obtain ⟨htyped, hrun⟩ := annotated_expressions_stay_typed hload (.ofGraph g)
  obtain ⟨last, g', hok⟩ := (hrun (.ofGraph g) Pass.standard).2 (by omega)
  refine ⟨g, problems, hload, fun hg => ?_, htyped, last, g', hok, ?_⟩
  · obtain ⟨d, hd, hany⟩ := (Option.any_eq_true _ _).mp hresolved
    obtain ⟨e, he, hnone⟩ := List.any_eq_true.mp hany
    have hsome := hg (.ofNat 1) d hd e he
    rw [Option.isNone_iff_eq_none.mp hnone] at hsome
    exact absurd hsome (by simp)
  · exact (hrun (.ofGraph g) Pass.standard).1 last g' hok

end ObjcSwift
