import ObjcSwift.Proofs.Graph.Scripts
import ObjcSwift.Proofs.Pass.Freshness
import ObjcSwift.Proofs.Pass.Requirements
import ObjcSwift.Proofs.Typing.Erasure

/-!
# Passing nullability on before or after the passes on bodies

Passing nullability on reads protocols and conformances and writes signatures. Merging accessors and
folding idioms move and rewrite code; of signatures they read only what passing nullability on
keeps, and they keep what it reads. So it makes no difference which comes first
(`nullability_commutes_with_body_passes`), as long as no list names a file: the passes fail at it,
but not at the same time.

What does differ is the types in the slots of expressions: bodies are annotated by the signatures
that are there at that time. Graphs are therefore compared by their bare forms. The part of a pass
that comes before it annotates (`Pass.Core`) agrees exactly: it follows a resigning, and it trims.
-/

namespace ObjcSwift

open ObjcSwift.Graph ObjcSwift.Graph.Edit ObjcSwift.ProtocolNullability

variable {g g' : Graph} {id : DeclId} {u v : DeclId → Signature → Signature}

/-! ### Bare forms and signatures -/

theorem Graph.bare_resign : (g.resign u).bare = g.bare.resign u := by
  have hnode : ∀ (f : Signature → Signature) (n : GraphNode),
      (n.resign f).bare = n.bare.resign f := by
    rintro f ⟨parent, d⟩
    cases d <;> rfl
  refine congrArg (Graph.mk · g.files) (List.ext_getElem (by simp [resign, resignSlots, bare]) ?_)
  intro i hi hi'
  simp [resign, resignSlots, bare, Function.comp_def, hnode]

theorem Graph.node?_bare : g.bare.node? id = (g.node? id).map GraphNode.bare := by
  unfold node? bare
  rw [List.getElem?_map]
  cases g.slots[id.toNat]? <;> rfl

/-- A trimmed graph has no signatures but those there were. -/
theorem Graph.PlainVoid.of_trims (h : g.PlainVoid) (ht : g.Trims g') : g'.PlainVoid := by
  intro id m' hm'
  obtain ⟨n', hn', hdecl⟩ := exists_node?_of_get? hm'
  obtain ⟨n, hn, -, hd⟩ := ht.kept id n' hn'
  have hmethod := hd.method?_eq
  rw [hdecl] at hmethod
  obtain ⟨m, hm, hsame⟩ := Option.map_eq_some_iff.mp hmethod.symm
  have hsame : m.signature = m'.signature := hsame
  rw [← hsame]
  refine h id m ?_
  rw [get?, hn, Option.map_some, (Decl.view_method.eq_some_iff n.decl m).mp hm]

namespace Pass

/-! ### The cores of the passes on bodies -/

/-- What a pass on bodies does before it annotates, given the graph at the start: an edit that does
not depend on signatures, and leaves alone what passing nullability on reads. -/
structure Core {α : Type} (pass : Pass) (core : Catalog → Graph → Edit α) : Prop where
  /-- After its core the pass annotates, and does nothing else. -/
  apply : ∀ c g, (pass.apply c).Outcome g
    (fun _ g' => ∃ a g₁, core c g g = .ok a g₁ ∧ g'.bare = g₁.bare) fun _ _ => True
  /-- Which edit it is does not depend on signatures. -/
  resign : ∀ c g u, core c (g.resign u) = core c g
  /-- The edit follows a resigning with close signatures. -/
  follows : ∀ c g u, (∀ id s, (u id s).Close s) →
    Follows (Graph.resign u) (fun a => a) (core c g) (core c g)
  /-- The edit trims every graph. -/
  trims : ∀ c g g', (core c g).Outcome g' (fun _ g'' => g'.Trims g'') fun _ _ => True

theorem core_mergeProperties :
    Core mergeProperties fun _ g => g.typeIds.mapM AccessorMerge.mergeInType where
  apply c g := by
    rw [Pass.apply, AccessorMerge.mergeAll, outcome_bind, outcome_get, outcome_bind]
    refine (outcome_self _).mono (fun changes g₁ h => ?_) fun _ _ hx => hx
    split_ifs
    · exact ⟨changes, g₁, h, rfl⟩
    · rw [outcome_bind, outcome_get, outcome_bind]
      exact (outcome_forM_annotate_bare _ _).mono (fun _ _ h₂ => ⟨changes, g₁, h, h₂⟩)
        fun _ _ hx => hx
  resign _ _ _ := by rw [typeIds_resign]
  follows _ g _ hu := follows_mapM (AccessorMerge.follows_mergeInType hu) g.typeIds
  trims _ g _ := AccessorMerge.outcome_mapM_mergeInType_trims g.typeIds

theorem core_foldIdioms : Core foldIdioms fun c g => g.codeOwners.filterM (Idiom.foldIn c) where
  apply c g := by
    rw [Pass.apply, outcome_bind, Idiom.foldAll, outcome_bind, outcome_get, outcome_bind]
    refine (outcome_self _).mono (fun touched g₁ h => ?_) fun _ _ hx => hx
    exact (outcome_forM_annotate_bare _ _).mono (fun _ _ h₂ => ⟨touched, g₁, h, h₂⟩)
      fun _ _ hx => hx
  resign _ _ _ := by rw [codeOwners_resign]
  follows c g _ _ := follows_filterM (Idiom.follows_foldIn c) g.codeOwners
  trims c g g' := by
    refine outcome_filterM (fun _ _ g'' => g'.Trims g'') (fun _ _ _ g₁ h₁ => ?_) (.refl g')
    refine (Idiom.outcome_foldIn_face c _).mono (fun _ _ h₂ => ?_) fun _ _ hx => hx
    exact h₁.trans (.of_face h₂)

/-! ### One after the other -/

theorem apply_propagateNullability_of_ok (h : propagate g = .ok () g') (c : Catalog) :
    apply c propagateNullability g = .ok c g' := by
  change EStateM.bind propagate (fun _ => pure c) g = _
  rw [EStateM.bind, h]
  rfl

theorem apply_propagateNullability (hc : g.outline.Consistent none)
    (hle : g.slots.length ≤ 2 ^ 32) (hvoid : g.PlainVoid) (c : Catalog) :
    apply c propagateNullability g = .ok c (g.resign (raised g)) := by
  obtain ⟨updates, hok, -⟩ := finds_nullabilityUpdates hc
  rw [resign_raised hle hvoid]
  exact apply_propagateNullability_of_ok
    (propagate_eq (wellFormed_of_consistent hc hle) hle hok) c

/-- **A pass with a core and passing nullability on commute**, up to the slots of expressions. -/
theorem Core.commutes {α : Type} {pass : Pass} {core : Catalog → Graph → Edit α}
    (hcore : pass.Core core) (hc : g.outline.Consistent none) (hle : g.slots.length ≤ 2 ^ 32)
    (hvoid : g.PlainVoid) (c : Catalog) :
    ∃ c₁ g₁ c₂ g₂, runAll c [propagateNullability, pass] g = .ok c₁ g₁ ∧
      runAll c [pass, propagateNullability] g = .ok c₂ g₂ ∧ g₁.bare = g₂.bare := by
  obtain ⟨c₁, g₁, hrun₁, -⟩ := exists_runAll [propagateNullability, pass] c hc hle
  obtain ⟨c₂, g₂, hrun₂, -⟩ := exists_runAll [pass, propagateNullability] c hc hle
  refine ⟨c₁, g₁, c₂, g₂, hrun₁, hrun₂, ?_⟩
  -- Nullability first: the core is run on the resigned graph.
  obtain ⟨c', g', hfirst, hrest⟩ := runAll_cons_eq_ok.mp hrun₁
  obtain ⟨rfl, rfl⟩ := EStateM.Result.ok.inj
    ((apply_propagateNullability hc hle hvoid c).symm.trans (apply_of_run hfirst))
  obtain ⟨c'', g'', hsecond, hend⟩ := runAll_cons_eq_ok.mp hrest
  obtain ⟨rfl, rfl⟩ := runAll_nil_eq_ok.mp hend
  obtain ⟨a, k', hk', hbare₁⟩ := (hcore.apply c _).of_ok (apply_of_run hsecond)
  -- Nullability last: what is resigned is the graph that the pass leaves.
  obtain ⟨c', g', hfirst, hrest⟩ := runAll_cons_eq_ok.mp hrun₂
  obtain ⟨b, k, hk, hbare⟩ := (hcore.apply c g).of_ok (apply_of_run hfirst)
  obtain ⟨hc', hlength⟩ := (pass.succeeds_apply hc hle).of_ok (apply_of_run hfirst)
  have htrims : g.Trims g' :=
    ((hcore.trims c g g).of_ok hk).trans (.of_face (face_of_bare hbare))
  obtain ⟨c'', g'', hsecond, hend⟩ := runAll_cons_eq_ok.mp hrest
  obtain ⟨rfl, rfl⟩ := EStateM.Result.ok.inj
    ((apply_propagateNullability hc' (hlength ▸ hle) (hvoid.of_trims htrims) c').symm.trans
      (apply_of_run hsecond))
  obtain ⟨rfl, rfl⟩ := runAll_nil_eq_ok.mp hend
  -- The core ends with the same graph, resigned or not.
  obtain rfl : k' = k.resign (raised g) := by
    rw [hcore.resign] at hk'
    have hfollows := (hcore.follows c g _ (close_raised g)).of_ok hk
    exact (EStateM.Result.ok.inj (hk'.symm.trans hfollows)).2
  have hsame : g'.bare.resign (raised g) = g'.bare.resign (raised g') := by
    refine resign_congr (by simpa [bare] using hlength ▸ hle) fun id hid => ?_
    refine (raised_of_trims hc hc' htrims fun hnone => hid ?_).symm
    rw [node?_bare, hnone]
    rfl
  calc
    _ = (k.resign (raised g)).bare := hbare₁
    _ = g'.bare.resign (raised g) := by rw [bare_resign, hbare]
    _ = (g'.resign (raised g')).bare := by rw [hsame, bare_resign]

end Pass

/-- **Passing nullability on does not depend on when it is run.** Take a well-formed graph whose
slots all have a number, whose lists name no file and in which no method returns nothing under
optional layers, and the catalogue made from it. Passing nullability on and then merging accessors
gives, apart from the slots of expressions, the same graph as merging accessors and then passing
nullability on, and the same holds for folding idioms in place of merging accessors. All four runs
succeed. -/
theorem nullability_commutes_with_body_passes (g : Graph) (hwf : g.WellFormed)
    (hfiles : ∀ id ∈ g.files, id ∉ g.listed) (hle : g.slots.length ≤ 2 ^ 32)
    (hvoid : ∀ id m, g.get? id = some (.method m) →
      ¬(m.signature.result.isOptional = true ∧ m.signature.result.base.isVoid = true)) :
    ∀ pass ∈ [Pass.mergeProperties, .foldIdioms], ∃ c₁ g₁ c₂ g₂,
      Pass.runAll (.ofGraph g) [.propagateNullability, pass] g = .ok c₁ g₁ ∧
      Pass.runAll (.ofGraph g) [pass, .propagateNullability] g = .ok c₂ g₂ ∧
      g₁.bare = g₂.bare := by
  have hc := consistent_of_wellFormed hwf hfiles
  intro pass hpass
  rcases List.mem_pair.mp hpass with rfl | rfl
  · exact Pass.core_mergeProperties.commutes hc hle hvoid (.ofGraph g)
  · exact Pass.core_foldIdioms.commutes hc hle hvoid (.ofGraph g)

/-- Whether a method hides that it returns nothing can be seen slot by slot. -/
theorem plainVoid_of_slots {g : Graph} (h : ∀ slot ∈ g.slots, slot.all (fun n =>
    n.decl.method?.all fun m =>
      !(m.signature.result.isOptional && m.signature.result.base.isVoid)) = true) :
    ∀ id m, g.get? id = some (.method m) →
      ¬(m.signature.result.isOptional = true ∧ m.signature.result.base.isVoid = true) := by
  intro id m hm
  obtain ⟨n, hn, hdecl⟩ := exists_node?_of_get? hm
  have hplain := h _ (mem_slots_of_node? hn)
  rw [not_and_or]
  simpa [hdecl, Decl.method?] using hplain

/-- A protocol that asks for a title that may be missing, and a class that conforms to it. The class
has the title as a property with accessors, in one of which an object is made, and does not say that
it may be missing. -/
def titledScript : List Graph.Command :=
  let text : SwiftType := .named "String"
  let made : Expr := (((Expr.identifier "Feed").dot "alloc").call []).dot "init"
  [.addFile ⟨"Feed.m", "Feed.swift", {}, [], [], [], [], []⟩,
    .addChild ⟨0⟩ (.type { name := "Titled", kind := .protocolDecl }),
    .addChild ⟨1⟩ (.method { signature := ⟨"title", [], .optional text, false⟩ }),
    .addChild ⟨1⟩ (.method
      { signature := ⟨"reload", [⟨none, "sender", .optional text⟩], .void, false⟩ }),
    .addChild ⟨0⟩ (.type { name := "Feed", kind := .classDecl none }),
    .addChild ⟨4⟩ (.conformance { name := "Titled" }),
    .addChild ⟨4⟩ (.property { name := "title", storage := { type := text } }),
    .addChild ⟨4⟩ (.method { signature := ⟨"title", [], .implicitlyUnwrapped text, false⟩ }),
    .addChild ⟨4⟩ (.method
      { signature := ⟨"setTitle", [⟨none, "title", .implicitlyUnwrapped text⟩], .void, false⟩
        code := some { body := [.expressions [made.call []]] } }),
    .addChild ⟨4⟩ (.method
      { signature := ⟨"reload", [⟨none, "sender", .implicitlyUnwrapped text⟩], .void, false⟩ })]

/-- The graph that the script builds. -/
def titledGraph : Graph :=
  runScript titledScript {}

theorem nullability_commutes_with_body_passes_titledGraph :
    titledGraph.WellFormed ∧ (∀ id ∈ titledGraph.files, id ∉ titledGraph.listed) ∧
      titledGraph.slots.length ≤ 2 ^ 32 ∧
      (∀ id m, titledGraph.get? id = some (.method m) →
        ¬(m.signature.result.isOptional = true ∧ m.signature.result.base.isVoid = true)) ∧
      ∀ pass ∈ [Pass.mergeProperties, .foldIdioms], ∃ c₁ g₁ c₂ g₂,
        Pass.runAll (.ofGraph titledGraph) [.propagateNullability, pass] titledGraph = .ok c₁ g₁ ∧
        Pass.runAll (.ofGraph titledGraph) [pass, .propagateNullability] titledGraph = .ok c₂ g₂ ∧
        g₁.bare = g₂.bare := by
  have hle : titledGraph.slots.length ≤ 2 ^ 32 := by decide_cbv
  obtain ⟨hwf, hfiles⟩ := wellFormed_runScript hle
  have hvoid := plainVoid_of_slots (g := titledGraph) (by decide +kernel)
  exact ⟨hwf, hfiles, hle, hvoid,
    nullability_commutes_with_body_passes titledGraph hwf hfiles hle hvoid⟩

/-- The same graph, but the protocol lists the file among its methods. -/
def misfiledGraph : Graph :=
  titledGraph.listing ⟨1⟩ .methods ⟨0⟩

/-- Merging the accessors of the graph takes the getter away and then fails the check, as the file
does not name the protocol as its owner. -/
theorem run_mergeProperties_misfiledGraph : ∃ e g',
    Pass.mergeProperties.run (.ofGraph misfiledGraph) misfiledGraph = .error e g' ∧
      g'.node? ⟨7⟩ = none := by
  -- The property of the class takes over its accessors.
  have htypes : (misfiledGraph.typeIds.mapM AccessorMerge.mergeInType).Succeeds misfiledGraph
      fun changes g₁ => changes = [[], [⟨6⟩]] ∧ g₁.kind? ⟨6⟩ = some (some .properties) ∧
        g₁.slots.length = 10 ∧ g₁.node? ⟨7⟩ = none ∧ g₁.parent? ⟨0⟩ = none ∧
        (g₁.get? ⟨1⟩).map Decl.children = some [⟨2⟩, ⟨3⟩, ⟨0⟩] := by
    unfold Succeeds Outcome
    cbv
    simp
  obtain ⟨c', g₂, happly, ids, g₁, ⟨rfl, hlength, hgone, hparent, howner⟩, hg₂, ho⟩ :=
    (AccessorMerge.succeeds_mergeAll_of_types (c := .ofGraph misfiledGraph)
      (fun ids g₁ => ids = [⟨6⟩] ∧ g₁.slots.length = 10 ∧ g₁.node? ⟨7⟩ = none ∧
        g₁.parent? ⟨0⟩ = none ∧ (g₁.get? ⟨1⟩).map Decl.children = some [⟨2⟩, ⟨3⟩, ⟨0⟩])
      (htypes.mono fun changes g₁ h => by
        obtain ⟨rfl, hkind, hrest⟩ := h
        exact ⟨by simp [hkind], rfl, hrest⟩)).exists_ok
  -- Annotating the property touches neither the file nor what lists it.
  have hsame : ∀ id ≠ ⟨6⟩, g₂.node? id = g₁.node? id := fun id hid => by
    rw [hg₂, node?_foldl_annotated (by simpa using hid)]
  obtain ⟨owner, howner, hchildren⟩ := Option.map_eq_some_iff.mp howner
  obtain ⟨e, hverify⟩ : ∃ e, g₂.verify = .error e := by
    have hslots : g₂.slots.length = g₁.slots.length := congrArg Outline.slots ho
    have hget : g₂.get? ⟨1⟩ = some owner := by
      rw [get?, hsame _ (by decide)]
      exact howner
    refine exists_verify_eq_error (by omega) hget (show ⟨0⟩ ∈ _ by simp [hchildren]) ?_
    rw [parent?, hsame _ (by decide), ← parent?, hparent]
    simp
  refine ⟨.broken .mergeProperties e, g₂, ?_, (hsame _ (by decide)).trans hgone⟩
  rw [Pass.run, Pass.apply, happly]
  simp only [hverify]

/-- **With a file in a list, the order makes a difference.** Passing nullability on fails at the
file, and the class keeps its getter. Merging accessors does not look at the protocol, so the getter
is gone when the check comes to the file. -/
theorem misfiledGraph_does_not_commute :
    misfiledGraph.WellFormed ∧ misfiledGraph.slots.length ≤ 2 ^ 32 ∧
      (∀ id m, misfiledGraph.get? id = some (.method m) →
        ¬(m.signature.result.isOptional = true ∧ m.signature.result.base.isVoid = true)) ∧
      ∃ e₁ g₁ e₂ g₂,
        Pass.runAll (.ofGraph misfiledGraph) [.propagateNullability, .mergeProperties]
          misfiledGraph = .error e₁ g₁ ∧
        Pass.runAll (.ofGraph misfiledGraph) [.mergeProperties, .propagateNullability]
          misfiledGraph = .error e₂ g₂ ∧
        g₁.bare ≠ g₂.bare := by
  have hwf : misfiledGraph.WellFormed :=
    (wellFormed_runScript (by decide_cbv)).1.listing (by decide_cbv)
  obtain ⟨e, g₂, hrun, hgone⟩ := run_mergeProperties_misfiledGraph
  refine ⟨hwf, by decide_cbv, plainVoid_of_slots (by decide +kernel), _, misfiledGraph, e, g₂, rfl,
    ?_, fun hbare => ?_⟩
  · change EStateM.bind (Pass.mergeProperties.run _) _ _ = _
    rw [EStateM.bind, hrun]
  · have hnode : (misfiledGraph.bare.node? ⟨7⟩).isSome = false := by
      rw [hbare, node?_bare, hgone]
      rfl
    rw [node?_bare, Option.isSome_map] at hnode
    exact absurd hnode (by decide_cbv)

end ObjcSwift
