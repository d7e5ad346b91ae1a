import ObjcSwift.Decl.Graph.Edit
import Mathlib

/-!
# How an edit ends

An edit of a graph either ends normally, with an answer and a graph, or fails, with an error and the
graph it leaves behind. `Graph.Edit.Outcome` states what holds in each of the two ends, so one
notion serves three purposes.

* With nothing allowed to fail (`Graph.Edit.Succeeds`), it says that the edit runs to its end.
* With nothing said about failures, it says what holds **if** the edit runs to its end.
* With the graph unchanged in every failure (`Graph.Edit.Atomic`), it says that the edit is done
  whole or not at all.

The rules below take an edit apart step by step. The three loops in which the passes are written
(`List.forM`, `List.mapM` and `List.filterM`) have one rule each, with an invariant that sees what
is done and what is left.
-/

namespace ObjcSwift.Graph.Edit

variable {α β : Type} {g : Graph} {done : α → Graph → Prop} {failed : GraphError → Graph → Prop}

/-- Every normal end of the edit satisfies `done`, and every failure satisfies `failed`. -/
def Outcome (e : Edit α) (g : Graph) (done : α → Graph → Prop)
    (failed : GraphError → Graph → Prop) : Prop :=
  match e g with
  | .ok a g' => done a g'
  | .error x g' => failed x g'

/-- The edit runs to its end, which satisfies `done`. -/
def Succeeds (e : Edit α) (g : Graph) (done : α → Graph → Prop) : Prop :=
  e.Outcome g done fun _ _ => False

/-- The edit leaves every graph on which it fails as it was. -/
def Atomic (e : Edit α) : Prop :=
  ∀ g : Graph, e.Outcome g (fun _ _ => True) fun _ g' => g' = g

/-! ### Reading an outcome -/

theorem Succeeds.exists_ok {e : Edit α} (h : e.Succeeds g done) :
    ∃ a g', e g = .ok a g' ∧ done a g' := by
  unfold Succeeds Outcome at h
  cases he : e g with
  | ok a g' =>
    rw [he] at h
    exact ⟨a, g', rfl, h⟩
  | error x g' =>
    rw [he] at h
    exact h.elim

theorem Outcome.of_ok {e : Edit α} {a : α} {g' : Graph} (h : e.Outcome g done failed)
    (he : e g = .ok a g') : done a g' := by
  unfold Outcome at h
  rwa [he] at h

theorem Outcome.of_error {e : Edit α} {x : GraphError} {g' : Graph} (h : e.Outcome g done failed)
    (he : e g = .error x g') : failed x g' := by
  unfold Outcome at h
  rwa [he] at h

/-- A normal end of an edit is the one it has. -/
theorem outcome_self (e : Edit α) : e.Outcome g (fun a g' => e g = .ok a g') fun _ _ => True := by
  unfold Outcome
  cases e g with
  | ok a g' => rfl
  | error x g' => trivial

/-- What holds in the ends of an edit may be weakened. -/
theorem Outcome.mono {done' : α → Graph → Prop} {failed' : GraphError → Graph → Prop}
    {e : Edit α} (h : e.Outcome g done failed) (hd : ∀ a g', done a g' → done' a g')
    (hf : ∀ x g', failed x g' → failed' x g') : e.Outcome g done' failed' := by
  unfold Outcome at h ⊢
  cases he : e g with
  | ok a g' =>
    rw [he] at h
    exact hd a g' h
  | error x g' =>
    rw [he] at h
    exact hf x g' h

theorem Succeeds.mono {done' : α → Graph → Prop} {e : Edit α} (h : e.Succeeds g done)
    (hd : ∀ a g', done a g' → done' a g') : e.Succeeds g done' :=
  Outcome.mono h hd fun _ _ hx => hx

/-- Two things that hold in the ends of an edit hold together. -/
theorem Outcome.and {done' : α → Graph → Prop} {failed' : GraphError → Graph → Prop} {e : Edit α}
    (h : e.Outcome g done failed) (h' : e.Outcome g done' failed') :
    e.Outcome g (fun a g' => done a g' ∧ done' a g') fun x g' => failed x g' ∧ failed' x g' := by
  unfold Outcome at h h' ⊢
  cases he : e g with
  | ok a g' =>
    rw [he] at h h'
    exact ⟨h, h'⟩
  | error x g' =>
    rw [he] at h h'
    exact ⟨h, h'⟩

/-- An edit that runs to its end has whatever outcome its end has, as nothing is left to fail. -/
theorem Succeeds.outcome {e : Edit α} (h : e.Succeeds g done) : e.Outcome g done failed :=
  Outcome.mono h (fun _ _ hd => hd) fun _ _ hx => hx.elim

/-! ### One step after the other -/

@[simp]
theorem outcome_pure {a : α} : (pure a : Edit α).Outcome g done failed ↔ done a g := Iff.rfl

@[simp]
theorem outcome_throw {x : GraphError} :
    (throw x : Edit α).Outcome g done failed ↔ failed x g := Iff.rfl

@[simp]
theorem outcome_bind {done : β → Graph → Prop} {e : Edit α} {f : α → Edit β} :
    (e >>= f).Outcome g done failed ↔
      e.Outcome g (fun a g' => (f a).Outcome g' done failed) failed := by
  unfold Outcome
  show (match EStateM.bind e f g with | .ok a g' => done a g' | .error x g' => failed x g') ↔ _
  unfold EStateM.bind
  cases e g <;> exact Iff.rfl

/-- What holds after the second step whatever the first did holds after both, if they run to their
end. -/
theorem outcome_bind_of_forall {done : β → Graph → Prop} {e : Edit α} {f : α → Edit β}
    (h : ∀ a g', (f a).Outcome g' done fun _ _ => True) :
    (e >>= f).Outcome g done fun _ _ => True := by
  rw [outcome_bind]
  unfold Outcome at h ⊢
  cases e g with
  | ok a g' => exact h a g'
  | error x g' => trivial

@[simp]
theorem outcome_map {done : β → Graph → Prop} {e : Edit α} {f : α → β} :
    (f <$> e).Outcome g done failed ↔ e.Outcome g (fun a g' => done (f a) g') failed := by
  rw [← bind_pure_comp, outcome_bind]
  exact Iff.rfl

@[simp]
theorem outcome_discard {done : Unit → Graph → Prop} {e : Edit α} :
    (discard e).Outcome g done failed ↔ e.Outcome g (fun _ g' => done () g') failed :=
  outcome_map

@[simp]
theorem outcome_get {done : Graph → Graph → Prop} :
    (get : Edit Graph).Outcome g done failed ↔ done g g := Iff.rfl

@[simp]
theorem outcome_getThe {done : Graph → Graph → Prop} :
    (getThe Graph : Edit Graph).Outcome g done failed ↔ done g g := Iff.rfl

@[simp]
theorem outcome_set {done : PUnit → Graph → Prop} {g' : Graph} :
    (set g' : Edit PUnit).Outcome g done failed ↔ done ⟨⟩ g' := Iff.rfl

@[simp]
theorem outcome_modify {done : PUnit → Graph → Prop} {f : Graph → Graph} :
    (modify f : Edit PUnit).Outcome g done failed ↔ done ⟨⟩ (f g) := Iff.rfl

/-- A lookup ends as its answer says, and changes nothing. -/
theorem outcome_look {f : Graph → Except GraphError α} :
    (look f).Outcome g done failed ↔
      match f g with
      | .ok a => done a g
      | .error x => failed x g := by
  simp only [look, outcome_bind, outcome_get]
  cases f g <;> exact Iff.rfl

theorem outcome_look_ok {f : Graph → Except GraphError α} {a : α} (h : f g = .ok a) :
    (look f).Outcome g done failed ↔ done a g := by
  rw [outcome_look, h]

theorem look_of_ok {f : Graph → Except GraphError α} {a : α} (h : f g = .ok a) :
    look f g = .ok a g := by
  simp only [look, bind, EStateM.bind, get, getThe, MonadStateOf.get, EStateM.get, h]
  rfl

theorem look_of_error {f : Graph → Except GraphError α} {x : GraphError} (h : f g = .error x) :
    look f g = .error x g := by
  simp only [look, bind, EStateM.bind, get, getThe, MonadStateOf.get, EStateM.get, h]
  rfl

theorem outcome_node {done : GraphNode → Graph → Prop} {id : DeclId} :
    (node id).Outcome g done failed ↔
      match g.node? id with
      | some n => done n g
      | none => failed (.missing id) g := by
  simp only [node, outcome_bind, outcome_get]
  cases g.node? id <;> exact Iff.rfl

theorem outcome_node_some {done : GraphNode → Graph → Prop} {id : DeclId} {n : GraphNode}
    (h : g.node? id = some n) : (node id).Outcome g done failed ↔ done n g := by
  rw [outcome_node, h]

theorem outcome_modifyNode_some {done : Unit → Graph → Prop} {id : DeclId} {n : GraphNode}
    {f : GraphNode → GraphNode} (h : g.node? id = some n) :
    (modifyNode id f).Outcome g done failed ↔ done () (g.setNode id (f n)) := by
  simp only [modifyNode, outcome_bind, outcome_node_some h, outcome_modify]

/-! ### Loops -/

/-- A loop without answers keeps an invariant over what is left to do. -/
theorem outcome_forM {f : α → Edit PUnit} (inv : List α → Graph → Prop)
    (step : ∀ x rest g, inv (x :: rest) g → (f x).Outcome g (fun _ g' => inv rest g') failed) :
    ∀ (xs : List α) {g : Graph}, inv xs g →
      (xs.forM f).Outcome g (fun _ g' => inv [] g') failed := by
  intro xs
  induction xs with
  | nil => exact fun h => h
  | cons x xs ih =>
    intro g h
    refine outcome_bind.mpr ((step x xs g h).mono (fun _ g' h' => ?_) fun _ _ hx => hx)
    exact ih h'

theorem outcome_mapM_append {f : α → Edit β} (inv : List β → List α → Graph → Prop)
    (step : ∀ bs x rest g, inv bs (x :: rest) g →
      (f x).Outcome g (fun b g' => inv (bs ++ [b]) rest g') failed) :
    ∀ (xs : List α) {bs : List β} {g : Graph}, inv bs xs g →
      (xs.mapM f).Outcome g (fun cs g' => inv (bs ++ cs) [] g') failed := by
  intro xs
  induction xs with
  | nil =>
    intro bs g h
    simpa using h
  | cons x xs ih =>
    intro bs g h
    rw [List.mapM_cons, outcome_bind]
    refine (step bs x xs g h).mono (fun b g' h' => ?_) fun _ _ hx => hx
    rw [outcome_bind]
    refine (ih h').mono (fun cs g'' h'' => ?_) fun _ _ hx => hx
    simpa using h''

/-- A loop with answers keeps an invariant over the answers so far and what is left to do. -/
theorem outcome_mapM {f : α → Edit β} (inv : List β → List α → Graph → Prop)
    (step : ∀ bs x rest g, inv bs (x :: rest) g →
      (f x).Outcome g (fun b g' => inv (bs ++ [b]) rest g') failed) {xs : List α}
    (h : inv [] xs g) : (xs.mapM f).Outcome g (fun bs g' => inv bs [] g') failed :=
  outcome_mapM_append inv step xs h

theorem outcome_filterAuxM {f : α → Edit Bool} (inv : List α → List α → Graph → Prop)
    (step : ∀ kept x rest g, inv kept (x :: rest) g →
      (f x).Outcome g (fun b g' => inv (if b then x :: kept else kept) rest g') failed) :
    ∀ (xs : List α) {kept : List α} {g : Graph}, inv kept xs g →
      (List.filterAuxM f xs kept).Outcome g (fun ys g' => inv ys [] g') failed := by
  intro xs
  induction xs with
  | nil => exact fun h => h
  | cons x xs ih =>
    intro kept g h
    unfold List.filterAuxM
    rw [outcome_bind]
    refine (step kept x xs g h).mono (fun b g' h' => ?_) fun _ _ hx => hx
    cases b with
    | false => exact ih h'
    | true => exact ih h'

/-- A loop that selects keeps an invariant over the selected, the last first, and what is left. -/
theorem outcome_filterM {f : α → Edit Bool} (inv : List α → List α → Graph → Prop)
    (step : ∀ kept x rest g, inv kept (x :: rest) g →
      (f x).Outcome g (fun b g' => inv (if b then x :: kept else kept) rest g') failed)
    {xs : List α} (h : inv [] xs g) :
    (xs.filterM f).Outcome g (fun ys g' => inv ys.reverse [] g') failed := by
  unfold List.filterM
  rw [outcome_bind]
  refine (outcome_filterAuxM inv step xs h).mono (fun ys g' h' => ?_) fun _ _ hx => hx
  simpa using h'

end ObjcSwift.Graph.Edit

namespace ObjcSwift

/-! ### Lookups that may fail -/

section Lookups

variable {ε α β : Type} {P : α → Prop} {Q : β → Prop}

/-- A lookup succeeds, with an answer that satisfies `P`. -/
def Finds (x : Except ε α) (P : α → Prop) : Prop :=
  ∃ a, x = .ok a ∧ P a

theorem finds_pure {a : α} (h : P a) : Finds (pure a : Except ε α) P :=
  ⟨a, rfl, h⟩

theorem Finds.mono {P' : α → Prop} {x : Except ε α} (h : Finds x P) (hP : ∀ a, P a → P' a) :
    Finds x P' := by
  obtain ⟨a, hx, ha⟩ := h
  exact ⟨a, hx, hP a ha⟩

/-- One lookup after the other succeeds if the first does and the second does after it. -/
theorem Finds.bind {x : Except ε α} {f : α → Except ε β} (hx : Finds x P)
    (hf : ∀ a, P a → Finds (f a) Q) : Finds (x >>= f) Q := by
  obtain ⟨a, rfl, ha⟩ := hx
  exact hf a ha

/-- Several lookups succeed if each of them does, with answers that match one by one. -/
theorem finds_mapM {f : α → Except ε β} (R : α → β → Prop) {xs : List α} :
    (∀ x ∈ xs, Finds (f x) (R x)) → Finds (xs.mapM f) (List.Forall₂ R xs) := by
  induction xs with
  | nil => exact fun _ => finds_pure List.Forall₂.nil
  | cons x xs ih =>
    intro h
    rw [List.mapM_cons]
    refine (h x List.mem_cons_self).bind fun y hy => ?_
    refine (ih fun x' hx' => h x' (List.mem_cons_of_mem x hx')).bind fun ys hys => ?_
    exact finds_pure (List.Forall₂.cons hy hys)

/-- Several lookups succeed if each of them does, with answers that all satisfy `Q`. -/
theorem finds_mapM_all {f : α → Except ε β} {xs : List α} (h : ∀ x ∈ xs, Finds (f x) Q) :
    Finds (xs.mapM f) fun ys => ∀ y ∈ ys, Q y := by
  refine (finds_mapM (fun _ y => Q y) h).mono fun ys hys y hy => ?_
  clear h
  induction hys with
  | nil => exact absurd hy (by simp)
  | cons hx _ ih =>
    rcases List.mem_cons.mp hy with rfl | hy
    · exact hx
    · exact ih hy

/-- Several lookups agree with others if each of them does. -/
theorem mapM_congr {f f' : α → Except ε β} {xs : List α} (h : ∀ x ∈ xs, f' x = f x) :
    xs.mapM f' = xs.mapM f := by
  induction xs with
  | nil => rfl
  | cons x xs ih =>
    rw [List.mapM_cons, List.mapM_cons, h x List.mem_cons_self,
      ih fun y hy => h y (List.mem_cons_of_mem x hy)]

/-- Several lookups that all succeed give the answers that are known of each. -/
theorem mapM_eq_ok {f : α → Except ε β} {answer : α → β} {xs : List α}
    (h : ∀ x ∈ xs, f x = .ok (answer x)) : xs.mapM f = .ok (xs.map answer) :=
  (mapM_congr h).trans List.mapM_pure

/-- One lookup after the other has an answer if both have one. -/
theorem bind_eq_ok {x : Except ε α} {f : α → Except ε β} {b : β} :
    x >>= f = .ok b ↔ ∃ a, x = .ok a ∧ f a = .ok b := by
  cases x with
  | error e => simp [bind, Except.bind]
  | ok a => simp [bind, Except.bind]

/-- The answers of several lookups are the answers of each of them. -/
theorem mem_mapM_iff {f : α → Except ε β} {xs : List α} :
    ∀ {ys : List β}, xs.mapM f = .ok ys → ∀ {y : β}, y ∈ ys ↔ ∃ x ∈ xs, f x = .ok y := by
  induction xs with
  | nil =>
    intro ys h y
    obtain rfl : [] = ys := Except.ok.inj h
    simp
  | cons x xs ih =>
    intro ys h y
    rw [List.mapM_cons] at h
    obtain ⟨z, hz, h⟩ := bind_eq_ok.mp h
    obtain ⟨zs, hzs, h⟩ := bind_eq_ok.mp h
    obtain rfl : z :: zs = ys := Except.ok.inj h
    rw [List.mem_cons, ih hzs, List.exists_mem_cons_iff, hz, Except.ok.injEq, eq_comm]

/-- If several lookups have an answer, each of them has one. -/
theorem exists_ok_of_mapM {f : α → Except ε β} {xs : List α} {ys : List β}
    (h : xs.mapM f = .ok ys) : ∀ x ∈ xs, ∃ y, f x = .ok y := by
  induction xs generalizing ys with
  | nil => simp
  | cons x xs ih =>
    rw [List.mapM_cons] at h
    obtain ⟨y, hy, h⟩ := bind_eq_ok.mp h
    obtain ⟨ys, hys, -⟩ := bind_eq_ok.mp h
    exact List.forall_mem_cons.mpr ⟨⟨y, hy⟩, ih hys⟩

end Lookups

end ObjcSwift
