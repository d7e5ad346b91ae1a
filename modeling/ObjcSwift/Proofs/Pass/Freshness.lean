import ObjcSwift.Lowering.FileGraph
import ObjcSwift.Proofs.Conversion
import ObjcSwift.Proofs.Pass.Requirements
import ObjcSwift.Proofs.Typing.Faces
import ObjcSwift.Proofs.Typing.Sharpening

/-!
# When the shared catalogue is out of date

The passes of a run share a catalogue, made before the first of them. Merging types and merging
accessors make it again if they changed anything; folding idioms changes code, which a catalogue
does not see. Passing nullability on changes signatures and hands the old catalogue over.

So a catalogue goes out of date when nullability is passed on to some method, and in no other way.
That it then **is** out of date, for every graph and whatever else was declared, is what slack is
for: each change of a signature leaves less open, and nothing else in the catalogue leaves more.
-/

namespace ObjcSwift

open ObjcSwift.Graph ObjcSwift.Graph.Edit

variable {g g' : Graph}

/-! ### Passing nullability on -/

namespace ProtocolNullability

/-- What changes when nullability is passed on: a method of a type, whose signature then leaves less
open. -/
def Changes (g : Graph) (u : DeclId × Signature) : Prop :=
  (∃ m, g.get? u.1 = some (.method m) ∧ u.2.slack < m.signature.slack) ∧
    ∃ id t, g.get? id = some (.type t) ∧ u.1 ∈ t.methods

theorem changes_of_mem_nullabilityUpdates {updates : List (DeclId × Signature)}
    (h : nullabilityUpdates g = .ok updates) : ∀ u ∈ updates, Changes g u := by
  rintro ⟨id, s⟩ hu
  obtain ⟨protocols, hprotocols, -⟩ := bind_eq_ok.mp h
  obtain ⟨t, -, d, us, hd, hus, hu⟩ := (mem_nullabilityUpdates_iff hprotocols h).mp hu
  obtain ⟨-, hid, -, m, requirement, -, hm, -, rfl, hne⟩ := (mem_methodUpdates hus).mp hu
  exact ⟨⟨m, (typed_eq_ok_iff Decl.view_method).mp hm,
      (m.signature.takeNullability_eq_or_slack_lt requirement).resolve_left hne⟩,
    t, d, (typed_eq_ok_iff Decl.view_type).mp hd, hid⟩

/-- Giving a method the signature of a change makes the graph sharper, there and as a whole. -/
theorem outcome_setSignature {g₀ : Graph} {u : DeclId × Signature} (hu : Changes g₀ u)
    (h : g₀.Sharpens g) :
    (setSignature u).Outcome g (fun _ g' => g₀.Sharpens g' ∧ g₀.SharpensAt g' u.1 ∧
      ∀ id, g₀.SharpensAt g id → g₀.SharpensAt g' id) fun _ _ => True := by
  obtain ⟨⟨m₀, hm₀, hlt⟩, -⟩ := hu
  rw [setSignature, outcome_bind, outcome_look]
  split
  · rename_i m hm
    obtain ⟨n, hn, -⟩ := node?_of_typed Decl.view_method hm
    rw [setDecl, outcome_modifyNode_some hn]
    have hat : g₀.SharpensAt
        (g.setNode u.1 { n with decl := .method { m with signature := u.2 } }) u.1 := by
      refine ⟨m₀, { m with signature := u.2 }, hm₀, ?_, hlt⟩
      rw [get?, node?_setNode hn, if_pos rfl, Option.map_some]
    refine ⟨?_, hat, fun id hid => ?_⟩
    · obtain ⟨n₀, hn₀, hd₀⟩ := exists_node?_of_get? hm₀
      refine forall₂_set h (Option.join_eq_some_iff.mp hn₀) (.some ?_)
      exact Or.inr ⟨m₀, { m with signature := u.2 }, hd₀, rfl, hlt⟩
    · by_cases hid' : id = u.1
      · rw [hid']
        exact hat
      · obtain ⟨k₀, k, hk₀, hk, hlt'⟩ := hid
        refine ⟨k₀, k, hk₀, ?_, hlt'⟩
        rwa [get?, node?_setNode hn, if_neg hid']
  · trivial

/-- **Passing nullability on** changes nothing if no signature changes, and otherwise gives a graph
whose catalogue answers differently for the name of some type. -/
theorem outcome_propagate (g : Graph) :
    propagate.Outcome g (fun _ g' => ∃ updates, nullabilityUpdates g = .ok updates ∧
      (updates = [] → g' = g) ∧
      (updates ≠ [] → ∃ name, (Catalog.ofGraph g').type? name ≠ (Catalog.ofGraph g).type? name))
      fun _ _ => True := by
  rw [propagate, outcome_bind, outcome_look]
  split
  · rename_i updates hupdates
    have hchanges := changes_of_mem_nullabilityUpdates hupdates
    -- A change is still to be made, or has been made already.
    have hrun : (updates.forM setSignature).Outcome g (fun _ g' => g.Sharpens g' ∧
        ∀ u ∈ updates, u ∈ ([] : List (DeclId × Signature)) ∨ g.SharpensAt g' u.1)
        fun _ _ => True := by
      refine (outcome_forM (fun rest g' => (∀ u ∈ rest, u ∈ updates) ∧ g.Sharpens g' ∧
        ∀ u ∈ updates, u ∈ rest ∨ g.SharpensAt g' u.1) (fun u rest g₁ h => ?_) updates
        ⟨fun _ hu => hu, .refl g, fun _ hu => Or.inl hu⟩).mono (fun _ _ h => h.2) fun _ _ hx => hx
      obtain ⟨hrest, hsharp, hmade⟩ := h
      have hu := hchanges u (hrest u List.mem_cons_self)
      refine (outcome_setSignature hu hsharp).mono (fun _ g₂ h => ?_) fun _ _ hx => hx
      obtain ⟨hsharp', hat, hkeep⟩ := h
      refine ⟨fun v hv => hrest v (List.mem_cons_of_mem u hv), hsharp', fun v hv => ?_⟩
      rcases hmade v hv with hv | hv
      · rcases List.mem_cons.mp hv with rfl | hv
        · exact Or.inr hat
        · exact Or.inl hv
      · exact Or.inr (hkeep v.1 hv)
    cases updates with
    | nil => exact ⟨[], hupdates, fun _ => rfl, fun hne => absurd rfl hne⟩
    | cons u rest =>
      refine hrun.mono (fun _ g' h => ?_) fun _ _ hx => hx
      refine ⟨u :: rest, hupdates, fun he => absurd he (by simp), fun _ => ?_⟩
      obtain ⟨-, id, t, ht, hmem⟩ := hchanges u List.mem_cons_self
      have hat : g.SharpensAt g' u.1 := (h.2 u List.mem_cons_self).resolve_left (by simp)
      exact Catalog.exists_type?_ne h.1 ⟨id, t, ht, u.1, hmem, hat⟩
  · trivial

end ProtocolNullability

/-! ### Merging types -/

namespace TypeMerge

theorem outcome_mergeGroup_unchanged (group : List DeclId) :
    (mergeGroup group).Outcome g (fun changed g' => changed = false → g' = g) fun _ _ => True := by
  unfold mergeGroup
  split
  · rename_i first second rest
    rw [outcome_bind, outcome_look]
    split
    · rename_i target _
      dsimp only
      cases (first :: second :: rest).filter (· ≠ target) with
      | nil => exact fun _ => rfl
      | cons other others => exact outcome_bind_of_forall fun _ _ he => absurd he (by simp)
    · trivial
  · exact fun _ => rfl

theorem outcome_dropEmptyHeader_unchanged (id : DeclId) :
    (dropEmptyHeader id).Outcome g (fun dropped g' => dropped = false → g' = g)
      fun _ _ => True := by
  rw [dropEmptyHeader, outcome_bind, outcome_look]
  split
  · split_ifs
    · exact outcome_bind_of_forall fun _ _ he => absurd he (by simp)
    · exact fun _ => rfl
  · trivial

/-- Steps that say whether they changed anything change nothing if none of them says so. -/
theorem outcome_mapM_unchanged {α : Type} {f : α → Edit Bool}
    (hf : ∀ x g, (f x).Outcome g (fun changed g' => changed = false → g' = g) fun _ _ => True)
    (xs : List α) :
    (xs.mapM f).Outcome g (fun changes g' => changes.any id = false → g' = g)
      fun _ _ => True := by
  refine outcome_mapM (fun changes _ g' => changes.any id = false → g' = g)
    (fun changes x rest g₁ h => ?_) fun _ => rfl
  refine (hf x g₁).mono (fun changed g₂ h' => fun hnone => ?_) fun _ _ hx => hx
  rw [List.any_append, Bool.or_eq_false_iff] at hnone
  rw [h' (by simpa using hnone.2), h hnone.1]

/-- **Merging types changes nothing if it says so.** -/
theorem outcome_mergeAll_unchanged :
    mergeAll.Outcome g (fun changed g' => changed = false → g' = g) fun _ _ => True := by
  rw [mergeAll, outcome_bind, outcome_look]
  split
  · rename_i groups _
    rw [outcome_bind]
    refine (outcome_mapM_unchanged (fun x _ => outcome_mergeGroup_unchanged x) groups).mono
      (fun merged g₁ h => ?_) fun _ _ hx => hx
    rw [outcome_bind, outcome_get, outcome_bind]
    refine (outcome_mapM_unchanged (fun x _ => outcome_dropEmptyHeader_unchanged x) _).mono
      (fun dropped g₂ h' => fun hnone => ?_) fun _ _ hx => hx
    rw [Bool.or_eq_false_iff] at hnone
    rw [h' hnone.2, h hnone.1]
  · trivial

end TypeMerge

/-! ### Merging accessors -/

namespace AccessorMerge

variable {type property : DeclId} {inExtension : Bool} {methods used : List DeclId}

/-- Whatever the steps do to the graph, the answer is given. -/
theorem outcome_takeAccessors_answer {α : Type} (a : Accessors) (answer : α) :
    (takeAccessors type property inExtension a answer).Outcome g (fun r _ => r = answer)
      fun _ _ => True := by
  refine outcome_bind_of_forall fun getter _ => ?_
  cases a.setter <;>
    exact outcome_bind_of_forall fun setter _ => outcome_bind_of_forall fun p _ =>
      outcome_bind_of_forall fun _ _ => rfl

theorem outcome_mergeInto_unchanged :
    (mergeInto type inExtension methods used property).Outcome g
      (fun answer g' => answer.2 = none → g' = g) fun _ _ => True := by
  rw [mergeInto_eq, outcome_bind, outcome_look]
  split
  · rename_i p _
    split_ifs
    · exact fun _ => rfl
    · rw [outcome_bind, outcome_look]
      split
      · rename_i found _
        cases found with
        | none => exact fun _ => rfl
        | some a =>
          refine (outcome_takeAccessors_answer a _).mono (fun r _ h => ?_) fun _ _ hx => hx
          subst h
          exact fun he => absurd he (by simp)
      · trivial
  · trivial

theorem outcome_mergeEach_unchanged (properties : List DeclId) :
    (mergeEach type inExtension methods used properties).Outcome g
      (fun changes g' => changes = [] → g' = g) fun _ _ => True := by
  induction properties generalizing g used with
  | nil => exact fun _ => rfl
  | cons property rest ih =>
    rw [mergeEach, outcome_bind]
    refine outcome_mergeInto_unchanged.mono (fun answer g₁ h => ?_) fun _ _ hx => hx
    obtain ⟨used', changed⟩ := answer
    rw [outcome_bind]
    refine ih.mono (fun changes g₂ h' => fun hnone => ?_) fun _ _ hx => hx
    rw [List.append_eq_nil_iff, Option.toList_eq_nil_iff] at hnone
    rw [h' hnone.2, h hnone.1]

theorem outcome_mergeInType_unchanged :
    (mergeInType type).Outcome g (fun changes g' => changes = [] → g' = g) fun _ _ => True := by
  rw [mergeInType, outcome_bind, outcome_look]
  split
  · rename_i d _
    split_ifs
    · exact fun _ => rfl
    · exact outcome_mergeEach_unchanged d.properties
  · trivial

/-- **Merging accessors keeps a catalogue up to date**: it is made again if a property changed, and
annotating bodies afterwards does not matter to it. -/
theorem outcome_mergeAll_fresh (catalog : Catalog) :
    (mergeAll catalog).Outcome g
      (fun c g' => c = .ofGraph g' ∨ c = catalog ∧ g' = g) fun _ _ => True := by
  rw [mergeAll, outcome_bind, outcome_get, outcome_bind]
  have hmerge : (g.typeIds.mapM mergeInType).Outcome g
      (fun changes g' => changes.flatten = [] → g' = g) fun _ _ => True := by
    refine outcome_mapM (fun changes _ g' => changes.flatten = [] → g' = g)
      (fun changes type rest g₁ h => ?_) fun _ => rfl
    refine outcome_mergeInType_unchanged.mono (fun new g₂ h' => fun hnone => ?_) fun _ _ hx => hx
    rw [List.flatten_append, List.append_eq_nil_iff] at hnone
    rw [h' (by simpa using hnone.2), h hnone.1]
  refine hmerge.mono (fun changes g₁ h => ?_) fun _ _ hx => hx
  split_ifs with hnone
  · exact Or.inr ⟨rfl, h (List.isEmpty_iff.mp hnone)⟩
  · rw [outcome_bind, outcome_get, outcome_bind]
    refine (outcome_forM_annotate_face _ _).mono (fun _ g₂ hface => ?_) fun _ _ hx => hx
    exact Or.inl (Catalog.ofGraph_eq_of_face hface).symm

end AccessorMerge

/-! ### Passes -/

/-- Two catalogues give the same answers to every lookup. -/
def Catalog.SameAnswers (c c' : Catalog) : Prop :=
  (∀ name, c.type? name = c'.type? name) ∧ ∀ name, c.global? name = c'.global? name

theorem Catalog.SameAnswers.refl (c : Catalog) : c.SameAnswers c :=
  ⟨fun _ => rfl, fun _ => rfl⟩

namespace Pass

open ProtocolNullability

/-- A pass does not pass nullability on to any method of a graph. -/
def Silent (pass : Pass) (g : Graph) : Prop :=
  pass = .propagateNullability → nullabilityUpdates g = .ok []

theorem silent_of_ne {pass : Pass} (h : pass ≠ .propagateNullability) : pass.Silent g :=
  fun hpass => absurd hpass h

/-- **What a pass does to the catalogue.** It keeps it up to date if it passes no nullability on. If
it does pass some on, then a catalogue that gave the right answers before gives a wrong one. -/
theorem outcome_apply_catalogue (pass : Pass) (catalog : Catalog) :
    (pass.apply catalog).Outcome g (fun c g' =>
      (catalog = .ofGraph g → pass.Silent g → c = .ofGraph g') ∧
      (catalog.SameAnswers (.ofGraph g) → c.SameAnswers (.ofGraph g') → pass.Silent g))
      fun _ _ => True := by
  cases pass with
  | mergeTypes =>
    rw [apply, outcome_bind]
    refine TypeMerge.outcome_mergeAll_unchanged.mono (fun changed g' h => ?_) fun _ _ hx => hx
    cases changed with
    | false => exact ⟨fun hfresh _ => by rw [h rfl, hfresh], fun _ _ => silent_of_ne (by decide)⟩
    | true => exact ⟨fun _ _ => rfl, fun _ _ => silent_of_ne (by decide)⟩
  | propagateNullability =>
    rw [apply, outcome_bind]
    refine (outcome_propagate g).mono (fun _ g' h => ?_) fun _ _ hx => hx
    obtain ⟨updates, hok, hsame, hother⟩ := h
    refine ⟨fun hfresh hsilent => ?_, fun hbefore hafter _ => ?_⟩
    · have hnone : updates = [] := Except.ok.inj (hok.symm.trans (hsilent rfl))
      rw [hsame hnone, hfresh]
    · -- With changes, some type would be answered differently now.
      by_cases hnone : updates = []
      · rw [hok, hnone]
      · obtain ⟨name, hname⟩ := hother hnone
        exact absurd ((hafter.1 name).symm.trans (hbefore.1 name)) hname
  | mergeProperties =>
    refine (AccessorMerge.outcome_mergeAll_fresh catalog).mono (fun c g' h => ?_) fun _ _ hx => hx
    refine ⟨fun hfresh _ => ?_, fun _ _ => silent_of_ne (by decide)⟩
    rcases h with hmade | ⟨rfl, rfl⟩
    · exact hmade
    · exact hfresh
  | foldIdioms =>
    rw [apply, outcome_bind]
    refine (Idiom.outcome_foldAll_face catalog).mono (fun _ g' h => ?_) fun _ _ hx => hx
    refine ⟨fun hfresh _ => ?_, fun _ _ => silent_of_ne (by decide)⟩
    rw [hfresh, Catalog.ofGraph_eq_of_face h]

/-! ### Runs -/

/-- The first passes of a list, with the catalogue of a graph, leave a catalogue and a graph. -/
def Reaches (g : Graph) (passes : List Pass) (k : Nat) (c : Catalog) (g' : Graph) : Prop :=
  runAll (.ofGraph g) (passes.take k) g = .ok c g'

/-- No pass of a list passes nullability on to any method of the graph that it is run on, as far as
the passes are run. -/
def AllSilent (g : Graph) (passes : List Pass) : Prop :=
  ∀ k c₀ g₀ c₁ g₁ pass, Reaches g passes k c₀ g₀ → Reaches g passes (k + 1) c₁ g₁ →
    passes[k]? = some pass → pass.Silent g₀

variable {passes : List Pass} {k : Nat} {c c' : Catalog}

theorem runAll_nil_eq_ok : runAll c [] g = .ok c' g' ↔ c = c' ∧ g = g' := by
  constructor
  · exact EStateM.Result.ok.inj
  · rintro ⟨rfl, rfl⟩
    rfl

theorem runAll_append_eq_ok {rest : List Pass} :
    runAll c (passes ++ rest) g = .ok c' g' ↔
      ∃ c₁ g₁, runAll c passes g = .ok c₁ g₁ ∧ runAll c₁ rest g₁ = .ok c' g' := by
  induction passes generalizing c g with
  | nil => simp [runAll_nil_eq_ok]
  | cons pass passes ih =>
    simp only [List.cons_append, runAll_cons_eq_ok, ih]
    constructor
    · rintro ⟨c₁, g₁, hfirst, c₂, g₂, hmid, hlast⟩
      exact ⟨c₂, g₂, ⟨c₁, g₁, hfirst, hmid⟩, hlast⟩
    · rintro ⟨c₂, g₂, ⟨c₁, g₁, hfirst, hmid⟩, hlast⟩
      exact ⟨c₁, g₁, hfirst, c₂, g₂, hmid, hlast⟩

/-- **One more step of a run**: the passes are at their end, or the next one is run. -/
theorem reaches_succ (h : Reaches g passes (k + 1) c' g') :
    ∃ c₁ g₁, Reaches g passes k c₁ g₁ ∧
      (passes[k]? = none ∧ c' = c₁ ∧ g' = g₁ ∨
        ∃ pass, passes[k]? = some pass ∧ pass.apply c₁ g₁ = .ok c' g') := by
  rw [Reaches, List.take_add_one, runAll_append_eq_ok] at h
  obtain ⟨c₁, g₁, hfirst, hlast⟩ := h
  refine ⟨c₁, g₁, hfirst, ?_⟩
  cases hk : passes[k]? with
  | none =>
    rw [hk] at hlast
    obtain ⟨rfl, rfl⟩ := runAll_nil_eq_ok.mp hlast
    exact Or.inl ⟨rfl, rfl, rfl⟩
  | some pass =>
    rw [hk, Option.toList_some, runAll_cons_eq_ok] at hlast
    obtain ⟨c₂, g₂, hrun, hnil⟩ := hlast
    obtain ⟨rfl, rfl⟩ := runAll_nil_eq_ok.mp hnil
    exact Or.inr ⟨pass, rfl, apply_of_run hrun⟩

/-- As long as no pass passes nullability on, the catalogue stays up to date. -/
theorem fresh_of_allSilent (h : AllSilent g passes) (hk : Reaches g passes k c g') :
    c = .ofGraph g' := by
  induction k generalizing c g' with
  | zero =>
    obtain ⟨rfl, rfl⟩ := runAll_nil_eq_ok.mp hk
    rfl
  | succ k ih =>
    obtain ⟨c₁, g₁, hfirst, hlast⟩ := reaches_succ hk
    rcases hlast with ⟨-, rfl, rfl⟩ | ⟨pass, hpass, hok⟩
    · exact ih hfirst
    · have hsilent := h k c₁ g₁ c g' pass hfirst hk hpass
      exact ((pass.outcome_apply_catalogue c₁).of_ok hok).1 (ih hfirst) hsilent

/-- If the catalogue gives the right answers throughout, no pass passes nullability on. -/
theorem allSilent_of_sameAnswers
    (h : ∀ k c g', Reaches g passes k c g' → c.SameAnswers (.ofGraph g')) :
    AllSilent g passes := by
  intro k c₀ g₀ c₁ g₁ pass hbefore hafter hpass
  obtain ⟨c, g', hfirst, hlast⟩ := reaches_succ hafter
  obtain ⟨rfl, rfl⟩ := EStateM.Result.ok.inj (hbefore.symm.trans hfirst)
  rcases hlast with ⟨hnone, -, -⟩ | ⟨pass', hpass', hok⟩
  · exact absurd (hnone.symm.trans hpass) (by simp)
  · obtain rfl := Option.some.inj (hpass.symm.trans hpass')
    have hstep := ((pass.outcome_apply_catalogue c₀).of_ok hok).2
    exact hstep (h k c₀ g₀ hbefore) (h (k + 1) c₁ g₁ hafter)

end Pass

/-- **The shared catalogue goes out of date by passing nullability on, and in no other way.** Run
any passes on any graph, with the catalogue made from it. The catalogue is that of the graph after
each of them if and only if none of them passes nullability on to a method; and if one does, this
shows in the answers of the catalogue. On a consistent graph, all the passes are run. -/
theorem catalogue_goes_stale_by_nullability_only (g : Graph) (passes : List Pass) :
    ((∀ k c g', Pass.Reaches g passes k c g' → c = .ofGraph g') ↔ Pass.AllSilent g passes) ∧
    ((∀ k c g', Pass.Reaches g passes k c g' → c.SameAnswers (.ofGraph g')) ↔
      Pass.AllSilent g passes) ∧
    (g.outline.Consistent none → g.slots.length ≤ 2 ^ 32 →
      ∀ k, ∃ c g', Pass.Reaches g passes k c g' ∧ g'.WellFormed) := by
  refine ⟨⟨fun h => ?_, fun h k c g' => Pass.fresh_of_allSilent h⟩,
    ⟨Pass.allSilent_of_sameAnswers, fun h k c g' hk => ?_⟩, fun hc hle k => ?_⟩
  · refine Pass.allSilent_of_sameAnswers fun k c g' hk => ?_
    rw [h k c g' hk]
    exact .refl _
  · rw [Pass.fresh_of_allSilent h hk]
    exact .refl _
  · obtain ⟨c, g', hok, hc', hlength⟩ := Pass.exists_runAll (passes.take k) (.ofGraph g) hc hle
    exact ⟨c, g', hok, wellFormed_of_consistent hc' (hlength ▸ hle)⟩

/-- A protocol with a title that may be missing, and a class that has the title and does not say
so. -/
def titledFeed : ObjcNode :=
  let title (type : ObjcType) : ObjcNode :=
    { kind := .methodDefinition ⟨false, type, .simple "title", none⟩ }
  { kind := .globalContext
    children := [
      { kind := .protocolDeclaration "Titled"
        children := [title (.qualified (.pointer (.plain "NSString")) ["_Nullable"])] },
      { kind := .classImplementation "Feed"
        children := [{ kind := .protocolReferences ["Titled"] },
          title (.pointer (.plain "NSString"))] }] }

/-- After nullability is passed on in the file, what the catalogue says of the class is not what the
graph says. -/
theorem titledFeed_catalogue_is_stale : ∃ g problems,
    Graph.ofTree "Feed.m" titledFeed = .ok (g, problems) ∧ g.WellFormed ∧
      ∃ c g', Pass.Reaches g [.propagateNullability] 1 c g' ∧
        c.type? "Feed" ≠ (Catalog.ofGraph g').type? "Feed" := by
  have hsound : (titledFeed.traverse Lowering.visitor (.start "Feed.m")).Sound :=
    (Lowering.advances_traverse _ _).sound (Lowering.sound_start "Feed.m") (by decide +kernel)
      (by decide +kernel)
  refine ⟨_, _, rfl, ?_, _, _, rfl, by decide +kernel⟩
  exact wellFormed_of_consistent hsound.consistent (by decide +kernel)

end ObjcSwift
