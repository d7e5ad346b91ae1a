import ObjcSwift.Proofs.Graph.Merging
import ObjcSwift.Proofs.Graph.Verify

/-!
# Scripts of edits

A **script** is a list of edits to be made one after the other. The edits may ask for anything:
numbers that were never given out, declarations that are gone, declarations that carry numbers from
elsewhere. An edit that fails is passed over. What is merged into a graph is a graph that a script
of its own has built.

Two facts about one step carry over to all scripts.

* *Slots are never given back* (`Graph.Ages`). This holds on every graph, and so a number that was
  removed stays without declaration.
* *A consistent graph stays consistent* (`Command.consistent_run`), as long as there are numbers for
  its slots.

No script writes a file into a list. A graph in which this happened is well formed all the same
(`Graph.WellFormed.listing`), so that it does not happen has to be asked for.
-/

namespace ObjcSwift.Graph

open Edit

variable {α : Type} {g g' g'' : Graph} {id : DeclId}

/-! ### Empty slots stay empty -/

/-- One graph comes after another: it has at least its slots, and those that are empty stay
empty. -/
structure Ages (g g' : Graph) : Prop where
  /-- No slot is given back. -/
  length_le : g.slots.length ≤ g'.slots.length
  /-- An empty slot stays empty. -/
  kind?_eq_none : ∀ id : DeclId, id.toNat < g.slots.length → g.kind? id = none → g'.kind? id = none

theorem Ages.refl (g : Graph) : g.Ages g :=
  ⟨Nat.le_refl _, fun _ _ h => h⟩

theorem Ages.trans (h : g.Ages g') (h' : g'.Ages g'') : g.Ages g'' :=
  ⟨Nat.le_trans h.length_le h'.length_le, fun id hid hk =>
    h'.kind?_eq_none id (Nat.lt_of_lt_of_le hid h.length_le) (h.kind?_eq_none id hid hk)⟩

theorem Ages.of_kind? (hk : g'.kind? = g.kind?) (hs : g'.slots.length = g.slots.length) :
    g.Ages g' :=
  ⟨Nat.le_of_eq hs.symm, fun id _ h => by rw [hk, h]⟩

theorem ages_append (g : Graph) (slots : List (Option GraphNode)) (files : List DeclId) :
    g.Ages { slots := g.slots ++ slots, files } :=
  ⟨by simp, fun id hid hk => by rw [kind?_append hid, hk]⟩

theorem ages_free (g : Graph) (pending : List DeclId) :
    g.Ages { g with slots := free g.slots pending } := by
  refine ⟨Nat.le_of_eq (length_free g.slots pending).symm, fun id _ hk => ?_⟩
  rw [kind?, Option.map_eq_none_iff] at hk ⊢
  rcases nodeAt_free g.slots pending id with h | h
  · exact h
  · exact h.trans hk

/-- Removing something changes everything or nothing, and it gives no slot back. -/
theorem outcome_remove_ages :
    (remove id).Outcome g (fun _ g' => g.Ages g' ∧ g.kind? id ≠ none) (fun _ g' => g' = g) := by
  simp only [remove, outcome_bind]
  refine outcome_unlink.mono (fun _ g₁ h₁ => ?_) fun _ _ hx => hx
  obtain ⟨hk, hs, kind, hid⟩ := h₁
  obtain ⟨n, hn, -⟩ := exists_node?_of_kind? (by rw [hk, hid] : g₁.kind? id = some kind)
  rw [outcome_node_some hn]
  exact ⟨(Ages.of_kind? hk hs).trans (ages_free g₁ [id]), by simp [hid]⟩

/-! ### Scripts -/

/-- The graph that an edit leaves behind, whether it fails or not. -/
def Edit.after (e : Edit α) (g : Graph) : Graph :=
  match e g with
  | .ok _ g' => g'
  | .error _ g' => g'

theorem Edit.Outcome.after {e : Edit α} {P : Graph → Prop}
    (h : e.Outcome g (fun _ g' => P g') fun _ g' => P g') : P (e.after g) := by
  unfold Edit.after
  cases he : e g with
  | ok a g' => exact h.of_ok he
  | error x g' => exact h.of_error he

/-- An edit to be made, with whatever arguments. -/
inductive Command
  /-- Adds a file. -/
  | addFile (file : FileDecl)
  /-- Adds a declaration under an owner. -/
  | addChild (parent : DeclId) (decl : Decl)
  /-- Removes a declaration with everything below it. -/
  | remove (id : DeclId)
  /-- Removes a declaration that an owner lists. -/
  | removeChild (parent child : DeclId)
  /-- Moves a declaration to another owner. -/
  | moveTo (id newParent : DeclId)
  /-- Puts behind the graph another one, which a script builds from nothing. -/
  | merge (script : List Command)

mutual

/-- The graph after an edit. -/
def Command.run : Command → Graph → Graph
  | .addFile file, g => (Graph.addFile file).after g
  | .addChild parent decl, g => (Graph.addChild parent decl).after g
  | .remove id, g => (Graph.remove id).after g
  | .removeChild parent child, g => (Graph.removeChild parent child).after g
  | .moveTo id newParent, g => (Graph.moveTo id newParent).after g
  | .merge script, g => g.merge (runScript script {})

/-- The graph after the edits of a script. -/
def runScript : List Command → Graph → Graph
  | [], g => g
  | c :: script, g => runScript script (c.run g)

end

theorem runScript_append (before after : List Command) (g : Graph) :
    runScript (before ++ after) g = runScript after (runScript before g) := by
  induction before generalizing g with
  | nil => rfl
  | cons c before ih => exact ih (c.run g)

/-! ### What one edit and what a script keep -/

/-- Every edit takes the graph further, whatever its arguments. -/
theorem Command.ages_run (c : Command) (g : Graph) : g.Ages (c.run g) := by
  cases c with
  | addFile file => exact ages_append g _ _
  | addChild p d =>
    refine Edit.Outcome.after (outcome_addChild_kind?.mono (fun _ g' h => ?_) fun _ g' h => ?_)
    · exact ⟨by omega, fun j hj hk => (h.2 j hj).trans hk⟩
    · exact h.1 ▸ .refl g
  | remove id =>
    exact Edit.Outcome.after (outcome_remove_ages.mono (fun _ _ h => h.1) fun _ _ h => h ▸ .refl g)
  | removeChild p child =>
    refine Edit.Outcome.after ?_
    simp only [Graph.removeChild, outcome_bind, outcome_get]
    split_ifs
    · exact outcome_remove_ages.mono (fun _ _ h => h.1) fun _ _ h => h ▸ .refl g
    · exact Ages.refl g
  | moveTo id q =>
    refine Edit.Outcome.after (outcome_moveTo_kind?.mono (fun _ g' h => ?_) fun _ g' h => ?_)
    · exact .of_kind? h.1 h.2
    · exact h ▸ .refl g
  | merge script => exact ages_append g _ _

theorem ages_runScript (script : List Command) (g : Graph) : g.Ages (runScript script g) := by
  induction script generalizing g with
  | nil => exact .refl g
  | cons c script ih => exact (c.ages_run g).trans (ih (c.run g))

/-- Removing from a consistent graph keeps it consistent, also where there is nothing to remove. -/
theorem outcome_remove_consistent (hc : g.outline.Consistent none) (id : DeclId) :
    (Graph.remove id).Outcome g (fun _ g' => g'.outline.Consistent none)
      (fun _ g' => g'.outline.Consistent none) := by
  cases hn : g.node? id with
  | none =>
    refine outcome_remove_ages.mono (fun _ g' h => ?_) fun _ g' h => h ▸ hc
    exact absurd (by rw [kind?, hn]; rfl) h.2
  | some n =>
    exact (succeeds_remove_consistent hc hn).outcome.mono (fun _ _ h => h.1) fun _ _ h => h

theorem consistent_after {e : Edit α}
    (h : e.Outcome g (fun _ g' => g'.outline.Consistent none)
      (fun _ g' => g'.outline.Consistent none)) : (e.after g).outline.Consistent none :=
  h.after

mutual

/-- **An edit keeps a consistent graph consistent**, as long as there are numbers for its slots. -/
theorem Command.consistent_run : ∀ (c : Command) {g : Graph}, g.outline.Consistent none →
    (c.run g).slots.length ≤ 2 ^ 32 → (c.run g).outline.Consistent none
  | .addFile file, g, hc, hle => by
    have hlt : g.slots.length < 2 ^ 32 := by
      change (g.slots ++ [_]).length ≤ 2 ^ 32 at hle
      rw [List.length_append, List.length_singleton] at hle
      omega
    have hadd := succeeds_addFile file hlt
    refine consistent_after (hadd.outcome.mono (fun _ g' h => ?_) fun _ _ h => h)
    rw [h.2, h.1]
    exact (consistent_grow hc hlt _).linkFile
  | .addChild p d, g, hc, hle => by
    rcases Nat.lt_or_ge g.slots.length (2 ^ 32) with hlt | hge
    · refine consistent_after ((outcome_addChild hlt).mono (fun _ g' h => ?_) fun _ g' h => ?_)
      · obtain ⟨list, -, rfl, ho⟩ := h
        rw [ho]
        exact (consistent_grow hc hlt _).link p list
      · exact h.1 ▸ hc
    · -- Where there is no number left, adding would have taken a slot too many.
      have hcases : ((Graph.addChild p d).after g).slots.length = g.slots.length + 1 ∨
          (Graph.addChild p d).after g = g :=
        Edit.Outcome.after (P := fun g' => g'.slots.length = g.slots.length + 1 ∨ g' = g)
          (outcome_addChild_kind?.mono (fun _ g' h => Or.inl h.1) fun _ g' h => Or.inr h.1)
      rcases hcases with h | h
      · simp only [Command.run, h] at hle
        omega
      · rw [Command.run, h]
        exact hc
  | .remove id, g, hc, _ => consistent_after (outcome_remove_consistent hc id)
  | .removeChild p child, g, hc, _ => by
    refine consistent_after ?_
    simp only [Graph.removeChild, outcome_bind, outcome_get]
    split_ifs
    · exact outcome_remove_consistent hc child
    · exact hc
  | .moveTo id q, g, hc, _ => by
    refine consistent_after ((outcome_moveTo hc).mono (fun _ g' h => ?_) fun _ g' h => ?_)
    · obtain ⟨list, -, ho⟩ := h
      rw [ho]
      exact (hc.unlink id).link q list
    · exact h.1 ▸ hc
  | .merge script, g, hc, hle => by
    have hsum : g.slots.length + (runScript script {}).slots.length ≤ 2 ^ 32 := by
      simpa [Command.run, Graph.merge] using hle
    exact consistent_merge hc
      (consistent_runScript script Outline.consistent_empty (by omega)) hsum

/-- A script keeps a consistent graph consistent, as long as there are numbers for its slots. -/
theorem consistent_runScript : ∀ (script : List Command) {g : Graph}, g.outline.Consistent none →
    (runScript script g).slots.length ≤ 2 ^ 32 → (runScript script g).outline.Consistent none
  | [], _, hc, _ => hc
  | c :: script, g, hc, hle =>
    consistent_runScript script
      (c.consistent_run hc (Nat.le_trans (ages_runScript script (c.run g)).length_le hle)) hle

end

/-- The graph that a script builds from nothing is well formed, and no file is listed in it by
another declaration. -/
theorem wellFormed_runScript {script : List Command}
    (hle : (runScript script {}).slots.length ≤ 2 ^ 32) : (runScript script {}).WellFormed ∧
      ∀ id ∈ (runScript script {}).files, id ∉ (runScript script {}).listed := by
  have hc := consistent_runScript script Outline.consistent_empty hle
  exact ⟨wellFormed_of_consistent hc hle, not_mem_listed_of_mem_files hc hle⟩

/-- **Whatever edits build a graph, it is well formed.** For every script, whose edits may ask for
anything and fail or not, the graph that it builds from nothing is well formed, passes the check,
and is only three levels deep; and a number whose declaration was removed at some point of the
script has none at its end. All that is needed is that there are numbers for the slots. -/
theorem scripts_build_wellFormed_graphs (script : List Command)
    (hle : (runScript script {}).slots.length ≤ 2 ^ 32) :
    (runScript script {}).WellFormed ∧ (runScript script {}).verify = .ok () ∧
      (∀ id, (runScript script {}).contains id = true → (runScript script {}).ReachesFile id) ∧
      ∀ before removing after id, script = before ++ removing ++ after →
        (runScript before {}).contains id = true →
        (runScript (before ++ removing) {}).contains id = false →
        (runScript script {}).contains id = false := by
  have hc := consistent_runScript script Outline.consistent_empty hle
  refine ⟨wellFormed_of_consistent hc hle, verify_of_consistent hc hle, fun id hid => ?_, ?_⟩
  · obtain ⟨n, hn⟩ := Option.isSome_iff_exists.mp hid
    exact reachesFile_of_consistent hc hn
  · intro before removing after id hs hlive hdead
    obtain ⟨n, hn⟩ := Option.isSome_iff_exists.mp hlive
    have hlt : id.toNat < (runScript (before ++ removing) {}).slots.length := by
      rw [runScript_append]
      exact Nat.lt_of_lt_of_le (lt_length_of_node? hn) (ages_runScript removing _).length_le
    have hnone : (runScript (before ++ removing) {}).node? id = none :=
      Option.isSome_eq_false_iff.mp hdead |> Option.isNone_iff_eq_none.mp
    have hkind := (ages_runScript after _).kind?_eq_none id hlt (by rw [kind?, hnone]; rfl)
    rw [← runScript_append, ← hs] at hkind
    rw [contains, Option.map_eq_none_iff.mp hkind]
    rfl

/-- A script that uses every edit, in which some fail. A type whose lists carry numbers from
elsewhere is added with a member; the member is moved to where it is, and goes with the type.
Another graph is merged behind, and a type moves over from there. -/
def removalScript : List Command :=
  let file : FileDecl := { sourcePath := "A.m", targetPath := "A.swift", types := [⟨7⟩] }
  let type : Decl := .type { name := "A", kind := .protocolDecl, methods := [⟨0⟩, ⟨0⟩] }
  let conformance : Decl := .conformance { name := "P" }
  [.addFile file, .addChild ⟨0⟩ type, .addChild ⟨1⟩ conformance, .moveTo ⟨2⟩ ⟨1⟩,
    .addChild ⟨2⟩ type, .remove ⟨1⟩, .removeChild ⟨0⟩ ⟨1⟩,
    .merge [.addFile file, .addChild ⟨0⟩ type], .moveTo ⟨4⟩ ⟨0⟩]

theorem scripts_build_wellFormed_graphs_removal :
    (runScript removalScript {}).slots.length ≤ 2 ^ 32 ∧ (runScript removalScript {}).WellFormed ∧
      (runScript removalScript {}).verify = .ok () ∧
      (runScript (removalScript.take 5) {}).contains ⟨2⟩ = true ∧
      (runScript removalScript {}).contains ⟨2⟩ = false := by
  have hle : (runScript removalScript {}).slots.length ≤ 2 ^ 32 := by decide_cbv
  have hlive : (runScript (removalScript.take 5) {}).contains ⟨2⟩ = true := by decide_cbv
  have hdead : (runScript (removalScript.take 5 ++ [.remove ⟨1⟩]) {}).contains ⟨2⟩ = false := by
    decide_cbv
  obtain ⟨hwf, hverify, -, hgone⟩ := scripts_build_wellFormed_graphs removalScript hle
  exact ⟨hle, hwf, hverify, hlive,
    hgone (removalScript.take 5) [.remove ⟨1⟩] (removalScript.drop 6) ⟨2⟩ rfl hlive hdead⟩

/-! ### Files in lists -/

/-- What is of the kind that stands in no list is a file. -/
theorem kind?_eq_some_none : g.kind? id = some none ↔ ∃ file, g.get? id = some (.file file) := by
  unfold kind? get?
  cases g.node? id with
  | none => simp
  | some n =>
    obtain ⟨parent, d⟩ := n
    cases d <;> simp [Decl.ownList?]

theorem contains_eq_isSome_kind? : g.contains id = (g.kind? id).isSome := by
  rw [contains, kind?, Option.isSome_map]

/-- The graph after a number was written at the end of a list, whatever it is the number of. -/
def listing (g : Graph) (p : DeclId) (list : ChildList) (id : DeclId) : Graph :=
  match (pushInto p list id).run g with
  | .ok _ g' | .error _ g' => g'

theorem listing_cases (g : Graph) (p : DeclId) (list : ChildList) (id : DeclId) :
    g.listing p list id = g ∨ ∃ n d, g.node? p = some n ∧
      n.decl.Relists d list (n.decl.listOf list ++ [id]) ∧
      g.listing p list id = g.setNode p { n with decl := d } := by
  have h : (pushInto p list id).Outcome g (fun _ g' => ∃ n d, g.node? p = some n ∧
      n.decl.Relists d list (n.decl.listOf list ++ [id]) ∧ g' = g.setNode p { n with decl := d })
      fun _ g' => g' = g := by
    rw [pushInto, outcome_bind, outcome_node]
    cases hn : g.node? p with
    | none => rfl
    | some n =>
      simp only
      cases hd : n.decl.updateList? list (· ++ [id]) with
      | none => rfl
      | some d => exact ⟨n, d, rfl, Decl.updateList?_relists hd, rfl⟩
  unfold listing EStateM.run
  cases hp : pushInto p list id g with
  | ok _ g' => exact .inr (h.of_ok hp)
  | error _ g' => exact .inl (h.of_error hp)

/-- How often a number is listed, owner by owner. -/
theorem count_listed_eq_sum (g : Graph) (j : DeclId) : g.listed.count j =
    ((g.slots.map (Option.map fun n => n.decl.children.count j)).map (·.getD 0)).sum := by
  rw [listed, List.count_flatMap, List.map_map]
  refine congrArg List.sum (List.map_congr_left fun slot _ => ?_)
  cases slot <;> rfl

section Listing

variable {p : DeclId} {list : ChildList} {j : DeclId}

theorem files_listing : (g.listing p list id).files = g.files := by
  obtain heq | ⟨n, d, -, -, heq⟩ := g.listing_cases p list id <;> rw [heq]
  rfl

theorem kind?_listing : (g.listing p list id).kind? = g.kind? := by
  obtain heq | ⟨n, d, hn, hrelists, heq⟩ := g.listing_cases p list id
  · rw [heq]
  · rw [heq]
    exact kind?_setNode hn hrelists.ownList?_eq

theorem parent?_listing : (g.listing p list id).parent? j = g.parent? j := by
  obtain heq | ⟨n, d, hn, -, heq⟩ := g.listing_cases p list id
  · rw [heq]
  · rw [heq, parent?, node?_setNode hn]
    split_ifs with hj
    · rw [hj, parent?, hn]
      rfl
    · rfl

/-- Other numbers are listed as often as before. -/
theorem count_listed_listing (hj : j ≠ id) :
    (g.listing p list id).listed.count j = g.listed.count j := by
  obtain heq | ⟨n, d, hn, hrelists, heq⟩ := g.listing_cases p list id
  · rw [heq]
  · have hcounts := map_slots_setNode (f := fun n => n.decl.children.count j)
      (m := { n with decl := d }) hn (hrelists.count_children hj)
    rw [heq, count_listed_eq_sum, hcounts, ← count_listed_eq_sum]

/-- What was listed still is. -/
theorem mem_listOf_listing {q : DeclId} {l : ChildList} (hj : j ∈ g.listOf q l) :
    j ∈ (g.listing p list id).listOf q l := by
  obtain heq | ⟨n, d, hn, hrelists, heq⟩ := g.listing_cases p list id
  · rwa [heq]
  obtain ⟨owner, ho, hmem, -⟩ := place?_of_mem_listOf hj
  have hnode (i : DeclId) : (g.listing p list id).node? i =
      if i = p then some { n with decl := d } else g.node? i := by
    rw [heq]
    exact node?_setNode hn i
  by_cases hq : q = p
  · subst hq
    obtain rfl : owner = n := Option.some.inj (ho.symm.trans hn)
    rw [listOf_of_node? ((hnode q).trans (if_pos rfl))]
    by_cases hl : l = list
    · subst hl
      rw [hrelists.listOf_self]
      exact List.mem_append_left [id] hmem
    · rw [hrelists.listOf_other l hl]
      exact hmem
  · rw [listOf_of_node? ((hnode q).trans ((if_neg hq).trans ho))]
    exact hmem

/-- What is there was there before, of the same kind. -/
theorem exists_get?_of_listing {d : Decl} (h : (g.listing p list id).get? j = some d) :
    ∃ d₀, g.get? j = some d₀ ∧ d₀.ownList? = d.ownList? := by
  obtain ⟨n, hn, rfl⟩ := exists_node?_of_get? h
  obtain ⟨n₀, hn₀, hkind⟩ := exists_node?_of_kind? (kind?_listing ▸ kind?_of_node? hn)
  exact ⟨n₀.decl, get?_of_node? hn₀, hkind⟩

/-- **Listing a file leaves a well-formed graph well formed**, as nothing is asked of how often and
where files are listed. -/
theorem WellFormed.listing (h : g.WellFormed) (hid : id ∈ g.files) :
    (g.listing p list id).WellFormed where
  nodup_files := by
    rw [files_listing]
    exact h.nodup_files
  mem_files_iff j := by
    rw [files_listing, ← kind?_eq_some_none, kind?_listing, kind?_eq_some_none]
    exact h.mem_files_iff j
  parent?_file j hj := by
    rw [parent?_listing]
    exact h.parent?_file j (files_listing ▸ hj)
  count_listed j d hd hj := by
    rw [files_listing] at hj
    obtain ⟨d₀, hd₀, -⟩ := exists_get?_of_listing hd
    have hne : j ≠ id := fun he => hj (he ▸ hid)
    rw [count_listed_listing hne]
    exact h.count_listed j d₀ hd₀ hj
  listed_by_owner j d hd hj := by
    obtain ⟨d₀, hd₀, hkind⟩ := exists_get?_of_listing hd
    obtain ⟨q, owner, l, hp, ho, hl, hmem⟩ := h.listed_by_owner j d₀ hd₀ (files_listing ▸ hj)
    obtain ⟨n, hn, rfl⟩ := exists_node?_of_get? ho
    obtain ⟨owner', ho', hmem', -⟩ :=
      place?_of_mem_listOf (mem_listOf_listing (by rwa [listOf_of_node? hn]))
    exact ⟨q, owner'.decl, l, parent?_listing.trans hp, get?_of_node? ho', hkind ▸ hl, hmem'⟩
  contains_listed j hj := by
    rw [contains_eq_isSome_kind?, kind?_listing, ← contains_eq_isSome_kind?]
    by_cases he : j = id
    · obtain ⟨file, hf⟩ := (h.mem_files_iff id).mp hid
      rw [he, contains_eq_isSome_kind?, kind?_eq_some_none.mpr ⟨file, hf⟩]
      rfl
    · have hpos := List.count_pos_iff.mpr hj
      rw [count_listed_listing he] at hpos
      exact h.contains_listed j (List.count_pos_iff.mp hpos)

end Listing

/-- Two files, the first of which lists the second among its types. -/
def nestedFiles : Graph :=
  (runScript [.addFile ⟨"Feed.h", "Feed.swift", {}, [], [], [], [], []⟩,
    .addFile ⟨"Page.h", "Page.swift", {}, [], [], [], [], []⟩] {}).listing ⟨0⟩ .types ⟨1⟩

/-- **That no file is listed has to be asked for.** No script lists a file, and the check of the
graph rejects it, but a graph that does so is well formed all the same. Its owners and lists do not
agree then. -/
theorem nestedFiles_wellFormed :
    nestedFiles.WellFormed ∧ nestedFiles.verify = .error (.notAChild ⟨1⟩ ⟨0⟩) ∧
      ¬nestedFiles.outline.Consistent none := by
  refine ⟨(wellFormed_runScript (by decide_cbv)).1.listing (by decide_cbv), by decide_cbv, ?_⟩
  intro hc
  have hlisted : ⟨1⟩ ∈ nestedFiles.outline.listOf ⟨0⟩ .types := by decide_cbv
  have hplace : nestedFiles.outline.place? ⟨1⟩ = some ⟨none, none⟩ := by cbv
  exact absurd (hplace.symm.trans (hc.mem_listOf_iff.mp hlisted)) (by simp)

end ObjcSwift.Graph
