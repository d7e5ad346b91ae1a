import ObjcSwift.Proofs.Loading
import ObjcSwift.Proofs.Lowering.Visits

/-!
# What becomes of the nodes of a tree

The walk that lowers a tree adds the declarations, and reports the problems, that the nodes call for
where they stand. That it keeps to this account, node by node, is `Lowering.accounts_traverse`.

Two things have to be arranged for that.

* The stack of a state has only the types and the lists of instance variables that are around the
  current node, and it knows types by their numbers. So a state **stands at** a place in the tree
  (`Lowering.At`) if its stack shows the nodes around the place, as far as the stack shows any.
* A state that stands at a place knows what to lower, but it stands there only if nothing has gone
  wrong before. So an account is given from one state to a later one, *under the condition that
  nothing has gone wrong in the later one* (`Lowering.Accounts`). What may go wrong belongs to the
  account as well: there has to be room for what is mapped in between.
-/

namespace ObjcSwift

/-! ### Edits and readings -/

/-- What is read off the declarations of a graph, slot by slot. -/
def Graph.readings {β : Type} (read : Decl → β) (g : Graph) : List (Option β) :=
  g.slots.map (Option.map fun n => read n.decl)

theorem Decl.origin_childless (d : Decl) : d.childless.origin = d.origin := by
  cases d <;> rfl

namespace Graph

open Edit

variable {β : Type} {g : Graph} {id : DeclId} {n m : GraphNode}

theorem readings_setNode {read : Decl → β} (h : g.node? id = some n)
    (hm : read m.decl = read n.decl) : (g.setNode id m).readings read = g.readings read :=
  map_slots_setNode (f := fun n => read n.decl) h hm

theorem origins_setNode (h : g.node? id = some n) (hm : m.decl.origin = n.decl.origin) :
    (g.setNode id m).origins = g.origins :=
  readings_setNode h hm

/-- What rewriting a declaration leads to, if the declaration is looked up first. -/
theorem outcome_rewrite {α : Type} {view : Decl → Option α} {make : α → Decl}
    {kind : Option ChildList} {expected : String} (hv : Decl.View view make kind)
    {Q : Graph → Prop} {f : α → Edit Unit}
    (hf : ∀ n a, g.node? id = some n → n.decl = make a →
      (f a).Outcome g (fun _ g' => Q g') fun _ g' => g' = g) :
    (look (·.typed id expected view) >>= f).Outcome g (fun _ g' => Q g') fun _ g' => g' = g := by
  rw [outcome_bind, outcome_look]
  split
  · rename_i a ha
    obtain ⟨n, hn, hd⟩ := node?_of_typed hv ha
    exact hf n a hn hd
  · rfl

/-- **Adding a declaration adds what is read off it, and no other reading changes**, as long as a
reading does not depend on what a declaration lists. -/
theorem outcome_addChild_readings {read : Decl → β} (hread : ∀ d, read d.childless = read d)
    (p : DeclId) (d : Decl) :
    (addChild p d).Outcome g (fun _ g' => g'.readings read = g.readings read ++ [some (read d)])
      fun _ g' => g' = g := by
  have hdone : (addChild p d).Outcome g
      (fun _ g' => g'.readings read = g.readings read ++ [some (read d)]) fun _ _ => True := by
    rw [addChild, outcome_bind]
    refine outcome_listUnder.mono (fun list g' h => ?_) fun _ _ _ => trivial
    obtain ⟨rfl, -, -⟩ := h
    have hnew : ({ g' with slots := g'.slots ++ [some (GraphNode.mk (some p) d.childless)] } :
        Graph).readings read = g'.readings read ++ [some (read d)] := by
      simp [readings, hread]
    simp only [allocate, outcome_bind, outcome_getThe, outcome_set, outcome_pure, pushInto]
    rw [outcome_node]
    split
    · rename_i owner howner
      split
      · rename_i decl hdecl
        have hsame : read decl = read owner.decl := by
          rw [← hread decl, Decl.childless_of_updateList? hdecl, hread]
        rw [outcome_modify, readings_setNode howner hsame, hnew]
      · trivial
    · trivial
  exact (hdone.and (atomic_addChild p d g)).mono (fun _ _ h => h.1) fun _ _ h => h.2

theorem outcome_addChild_origins (p : DeclId) (d : Decl) :
    (addChild p d).Outcome g (fun _ g' => g'.origins = g.origins ++ [some d.origin])
      fun _ g' => g' = g :=
  outcome_addChild_readings Decl.origin_childless p d

end Graph

/-! ### Where a state stands -/

/-- A place in a tree. -/
structure WalkPlace where
  /-- The nodes around it, the innermost first. -/
  enclosing : List ObjcNode
  /-- Whether pointers are nonnull by default. -/
  nonnull : Bool

/-- The visit of a node at a place. -/
def WalkPlace.visit (p : WalkPlace) (n : ObjcNode) : Visit :=
  ⟨n, p.enclosing, p.nonnull⟩

/-- The place inside a node. -/
def WalkPlace.inside (p : WalkPlace) (n : ObjcNode) : WalkPlace :=
  ⟨n :: p.enclosing, n.nonnullAfter p.nonnull⟩

/-- Whether something around the current node is a type. -/
def Surrounding.isType : Surrounding → Bool
  | type _ => true
  | _ => false

/-- What a node puts on the stack: a type, or something else, or nothing. -/
def ObjcNode.pushed? (n : ObjcNode) : Option Bool :=
  match n.kind with
  | .classInterface _ | .classImplementation _ | .classCategory _ _ _ | .protocolDeclaration _ =>
    some true
  | .ivarsList => some false
  | _ => none

theorem ObjcNode.any_pushed? (ns : List ObjcNode) :
    (ns.filterMap pushed?).any id = ns.any declaresType := by
  rw [List.any_filterMap]
  congr 1
  funext n
  unfold pushed? declaresType
  cases n.kind <;> rfl

namespace Lowering

open ObjcSwift.Graph ObjcSwift.Graph.Edit

variable {α : Type} {path : String} {p p' p'' : WalkPlace} {st st' st'' : Lowering}
  {lowered lowered' : List Origin} {warned warned' : List Diagnostic} {room room' : Prop}

/-- A state stands at a place in the tree of a file. -/
structure At (path : String) (p : WalkPlace) (st : Lowering) : Prop where
  /-- The file is that file. -/
  sourcePath_eq : st.sourcePath = path
  /-- Pointers are nonnull by default in the state if they are so at the place. -/
  nonnull_eq : st.nonnull = p.nonnull
  /-- The stack shows what is around the place. -/
  around_eq : st.around.map Surrounding.isType = p.enclosing.filterMap ObjcNode.pushed?

/-- **A state sees a type around it exactly if there is one around its place.** -/
theorem At.isSome_currentType? (h : At path p st) (n : ObjcNode) :
    st.currentType?.isSome = (p.visit n).insideType := by
  have hsome : st.currentType?.isSome = (st.around.map Surrounding.isType).any id := by
    unfold currentType?
    induction st.around with
    | nil => rfl
    | cons s around ih => cases s <;> simp_all [Surrounding.isType]
  rw [hsome, h.around_eq, ObjcNode.any_pushed?]
  rfl

theorem At.insideType_of_some (h : At path p st) {id : DeclId} (hid : st.currentType? = some id)
    (n : ObjcNode) : (p.visit n).insideType = true := by
  rw [← h.isSome_currentType? n, hid]
  rfl

theorem At.insideType_of_none (h : At path p st) (hid : st.currentType? = none) (n : ObjcNode) :
    (p.visit n).insideType = false := by
  rw [← h.isSome_currentType? n, hid]
  rfl

/-- What stands at a place stands inside a node there that puts nothing on the stack. -/
theorem At.inside (h : At path p st) {n : ObjcNode} (hpush : n.pushed? = none)
    (hnonnull : n.nonnullAfter p.nonnull = p.nonnull) : At path (p.inside n) st := by
  refine ⟨h.sourcePath_eq, ?_, ?_⟩
  · rw [h.nonnull_eq, WalkPlace.inside, hnonnull]
  · rw [h.around_eq, WalkPlace.inside, List.filterMap_cons_none hpush]

theorem At.ref_eq (h : At path p st) (n : ObjcNode) :
    st.ref n = ⟨some path, n.kind.label, n.span⟩ := by
  rw [ref, h.sourcePath_eq]

/-! ### Accounts -/

/-- What is done from one state of the walk to a later one, and the room that is needed. -/
structure Accounts (path : String) (p : WalkPlace) (st : Lowering) (lowered : List Origin)
    (warned : List Diagnostic) (room : Prop) (p' : WalkPlace) (st' : Lowering) : Prop where
  /-- The one state comes after the other. -/
  advances : st.Advances st'
  /-- That something has gone wrong is not forgotten. -/
  error_eq : st'.error = none → st.error = none
  /-- Unless something goes wrong, the walk comes to the place, these are the declarations that are
  added and the problems that are reported, and there was room. -/
  account : At path p st → st'.error = none → At path p' st' ∧
    st'.graph.origins = st.graph.origins ++ lowered.map some ∧
    st'.diagnostics = st.diagnostics ++ warned ∧ room
  /-- Nothing goes wrong if there is room, as long as there are numbers for the slots that are
  taken, or for the declarations. -/
  sound : At path p st → st.Sound → room →
    st'.graph.slots.length ≤ 2 ^ 32 ∨ st.graph.slots.length + lowered.length ≤ 2 ^ 32 → st'.Sound

theorem length_slots_eq (lowered : List Origin) {g g' : Graph}
    (h : g'.origins = g.origins ++ lowered.map some) :
    g'.slots.length = g.slots.length + lowered.length := by
  simpa [origins] using congrArg List.length h

/-- The account of a step that takes slots for the declarations only. -/
theorem Accounts.of_step (hadv : st.Advances st')
    (hlength : st'.graph.slots.length ≤ st.graph.slots.length + lowered.length)
    (herror : st'.error = none → st.error = none)
    (hroom : st.error = none → room → st'.error ≠ some .overflow)
    (haccount : At path p st → st'.error = none → At path p' st' ∧
      st'.graph.origins = st.graph.origins ++ lowered.map some ∧
      st'.diagnostics = st.diagnostics ++ warned ∧ room) :
    Accounts path p st lowered warned room p' st' :=
  ⟨hadv, herror, haccount, fun _ hs hr hle =>
    hadv.sound hs (hle.elim id fun hle => Nat.le_trans hlength hle) (hroom hs.error_eq hr)⟩

theorem Accounts.trans (h : Accounts path p st lowered warned room p' st')
    (h' : Accounts path p' st' lowered' warned' room' p'' st'') :
    Accounts path p st (lowered ++ lowered') (warned ++ warned') (room ∧ room') p'' st'' := by
  refine ⟨h.advances.trans h'.advances, fun he => h.error_eq (h'.error_eq he), fun hat he => ?_,
    fun hat hs hr hle => ?_⟩
  · obtain ⟨hat', ho, hd, hr⟩ := h.account hat (h'.error_eq he)
    obtain ⟨hat'', ho', hd', hr'⟩ := h'.account hat' he
    refine ⟨hat'', ?_, ?_, hr, hr'⟩
    · rw [ho', ho, List.map_append, List.append_assoc]
    · rw [hd', hd, List.append_assoc]
  · rw [List.length_append] at hle
    -- There are numbers in between, so nothing has gone wrong up to there.
    have hs' : st'.Sound := h.sound hat hs hr.1 <|
      hle.imp (Nat.le_trans h'.advances.length_le) fun hle => by omega
    obtain ⟨hat', ho, -⟩ := h.account hat hs'.error_eq
    refine h'.sound hat' hs' hr.2 (hle.imp_right fun hle => ?_)
    rw [length_slots_eq lowered ho]
    omega

/-- What a state that stands at the place would add and report is what the account says. -/
theorem Accounts.congr (h : Accounts path p st lowered warned room p' st')
    (heq : At path p st → lowered = lowered' ∧ warned = warned') :
    Accounts path p st lowered' warned' room p' st' := by
  refine ⟨h.advances, h.error_eq, fun hat => ?_, fun hat => ?_⟩
  · obtain ⟨rfl, rfl⟩ := heq hat
    exact h.account hat
  · obtain ⟨rfl, -⟩ := heq hat
    exact h.sound hat

/-- The room that a state at the place would need is what the account says. -/
theorem Accounts.congr_room (h : Accounts path p st lowered warned room p' st')
    (hiff : At path p st → (room ↔ room')) : Accounts path p st lowered warned room' p' st' := by
  refine ⟨h.advances, h.error_eq, fun hat he => ?_, fun hat hs hr => ?_⟩
  · obtain ⟨hat', ho, hd, hr⟩ := h.account hat he
    exact ⟨hat', ho, hd, (hiff hat).mp hr⟩
  · exact h.sound hat hs ((hiff hat).mpr hr)

theorem Accounts.inside {n : ObjcNode} (h : Accounts path p st lowered warned room p st')
    (hpush : n.pushed? = none) (hnonnull : ∀ nonnull, n.nonnullAfter nonnull = nonnull) :
    Accounts path p st lowered warned room (p.inside n) st' := by
  refine ⟨h.advances, h.error_eq, fun hat he => ?_, h.sound⟩
  obtain ⟨hat', hrest⟩ := h.account hat he
  exact ⟨hat'.inside hpush (hnonnull _), hrest⟩

/-- A step that leaves the graph and the problems alone. -/
theorem Accounts.still (hadv : st.Advances st') (hg : st'.graph = st.graph)
    (hd : st'.diagnostics = st.diagnostics) (he : st'.error = st.error)
    (hat : At path p st → At path p' st') : Accounts path p st [] [] True p' st' := by
  refine .of_step hadv (Nat.le_of_eq (by rw [hg]; rfl)) (fun h => he ▸ h) (fun hnone _ => ?_)
    fun h _ => ⟨hat h, ?_, ?_, trivial⟩
  · simp [he, hnone]
  · rw [hg, List.map_nil, List.append_nil]
  · rw [hd, List.append_nil]

/-- A step in which an edit fails has nothing to account for. -/
theorem Accounts.of_failed {cause : GraphError} (hadv : st.Advances st')
    (hg : st'.graph = st.graph) (hfailed : st'.error = st.error.or (some (.edit cause))) :
    Accounts path p st lowered warned room p' st' := by
  have hne : st'.error ≠ none := by cases hst : st.error <;> simp [hfailed, hst]
  refine .of_step hadv (by rw [hg]; omega) (fun he => absurd he hne) (fun hnone _ => ?_)
    fun _ he => absurd he hne
  simp [hfailed, hnone]

theorem Accounts.refl (path : String) (p : WalkPlace) (st : Lowering) :
    Accounts path p st [] [] True p st :=
  .still (.refl st) rfl rfl rfl fun hat => hat

/-- **What is mapped needs room**, and then it is accounted for by what is done with it. -/
theorem Accounts.onMapped {mapped : Option α} {next : α → Lowering}
    (h : ∀ a, mapped = some a → Accounts path p st lowered warned True p (next a)) :
    Accounts path p st lowered warned (mapped.isSome = true) p (st.onMapped mapped next) := by
  cases mapped with
  | some a => exact (h a rfl).congr_room fun _ => by simp
  | none =>
    refine .of_step ⟨Nat.le_refl _, fun _ => rfl, fun _ _ hroom => absurd rfl hroom⟩
      (Nat.le_add_right _ _) (fun he => ?_) (fun _ hsome => ?_) fun _ he => ?_
    · exact absurd he (by simp [Lowering.onMapped])
    · exact absurd hsome (by simp)
    · exact absurd he (by simp [Lowering.onMapped])

theorem accounts_warn (n : ObjcNode) (message : String) :
    Accounts path p st [] [(p.visit n).warning path message] True p (st.warn n message) := by
  refine .of_step (advances_warn n message) (Nat.le_refl _) (fun he => he)
    (fun hnone _ => ?_) fun hat _ => ⟨⟨hat.sourcePath_eq, hat.nonnull_eq, hat.around_eq⟩, ?_, ?_,
      trivial⟩
  · simp [warn, hnone]
  · exact (List.append_nil _).symm
  · rw [warn, hat.sourcePath_eq]
    rfl

/-- The account of an edit. -/
theorem accounts_edit {e : Edit α} (hadv : st.Advances (st.edit e).2)
    (ho : e.Outcome st.graph (fun _ g' => g'.origins = st.graph.origins ++ lowered.map some)
      fun _ g' => g' = st.graph) : Accounts path p st lowered [] True p (st.edit e).2 := by
  cases he : e st.graph with
  | ok a g' =>
    have hst : (st.edit e).2 = { st with graph := g' } := by rw [edit, EStateM.run, he]
    have hg := ho.of_ok he
    rw [hst] at hadv ⊢
    refine .of_step hadv (Nat.le_of_eq (length_slots_eq lowered hg)) (fun h => h)
      (fun hnone _ => ?_) fun hat _ =>
        ⟨⟨hat.sourcePath_eq, hat.nonnull_eq, hat.around_eq⟩, hg, ?_, trivial⟩
    · simp [hnone]
    · exact (List.append_nil _).symm
  | error x g' =>
    have hst : (st.edit e).2 = { st with graph := g', error := st.error.or (some (.edit x)) } := by
      rw [edit, EStateM.run, he]
    rw [hst] at hadv ⊢
    exact .of_failed hadv (ho.of_error he) rfl

variable (n : ObjcNode)

/-- The account of adding a declaration that comes from a node. -/
theorem accounts_add {owner : DeclId} {d : Decl} {list : ChildList}
    (hadv : st.Advances (st.add owner d)) (hlist : d.ownList? = some list)
    (hsource : d.header.source = some (st.ref n)) :
    Accounts path p st [(p.visit n).origin path list] [] True p (st.add owner d) := by
  have h : Accounts path p st [d.origin] [] True p (st.add owner d) :=
    accounts_edit hadv (outcome_addChild_origins owner d)
  refine h.congr fun hat => ⟨?_, rfl⟩
  rw [Decl.origin, hlist, hsource, hat.ref_eq]
  rfl

theorem accounts_add_member {id : DeclId} {d : Decl} {list : ChildList}
    (hid : st.currentType? = some id) (hlist : d.ownList? = some list)
    (hhome : list.home = some .types) (hsource : d.header.source = some (st.ref n)) :
    Accounts path p st [(p.visit n).origin path list] [] True p (st.add id d) :=
  accounts_add n (advances_add_member hid hlist hhome) hlist hsource

theorem accounts_add_file {d : Decl} (list : ChildList) (hlist : d.ownList? = some list)
    (hhome : list.home = none) (hsource : d.header.source = some (st.ref n)) :
    Accounts path p st [(p.visit n).origin path list] [] True p (st.add st.file d) :=
  accounts_add n (advances_add_file hlist hhome) hlist hsource

/-! ### The steps of the walk -/

theorem accounts_enterType (name : String) (kind : TypeKind) (hn : n.pushed? = some true)
    (hnonnull : ∀ nonnull, n.nonnullAfter nonnull = nonnull) :
    Accounts path p st [(p.visit n).origin path .types] [] True (p.inside n)
      (st.enterType n name kind) := by
  have hadv : st.Advances (st.enterType n name kind) := advances_enterType n name kind
  have hadd := outcome_addChild_origins (g := st.graph) st.file
    (.type { name, kind, header := st.header n })
  cases he : addChild st.file (.type { name, kind, header := st.header n }) st.graph with
  | ok id g' =>
    have hst : st.enterType n name kind =
        { st with graph := g', around := .type id :: st.around } := by
      rw [enterType, edit, EStateM.run, he]
    have hg := hadd.of_ok he
    rw [hst] at hadv ⊢
    have hlength : g'.slots.length = st.graph.slots.length + 1 := length_slots_eq [_] hg
    refine .of_step hadv (Nat.le_of_eq hlength) (fun h => h) (fun hnone _ => ?_)
      fun hat _ => ⟨⟨hat.sourcePath_eq, ?_, ?_⟩, ?_, ?_, trivial⟩
    · simp [hnone]
    · rw [WalkPlace.inside, hnonnull]
      exact hat.nonnull_eq
    · rw [List.map_cons, hat.around_eq, WalkPlace.inside, List.filterMap_cons_some hn]
      rfl
    · rw [hg, Decl.origin, Decl.header, header, hat.ref_eq]
      rfl
    · exact (List.append_nil _).symm
  | error x g' =>
    -- Without a number left the type is skipped, and the error stays.
    have hst : st.enterType n name kind =
        { st with
          graph := g'
          error := st.error.or (some (.edit x))
          around := .skipped :: st.around } := by
      rw [enterType, edit, EStateM.run, he]
    rw [hst] at hadv ⊢
    exact .of_failed hadv (hadd.of_error he) rfl

theorem accounts_addSuperclass (name : String) :
    Accounts path p st [] [] True p (st.addSuperclass name) := by
  have hadv : st.Advances (st.addSuperclass name) := advances_addSuperclass name
  unfold addSuperclass at hadv ⊢
  split
  · exact .refl path p st
  · rename_i id hid
    simp only [hid] at hadv
    refine accounts_edit hadv ?_
    simp only [List.map_nil, List.append_nil]
    refine outcome_rewrite Decl.view_type fun m d hm hd => ?_
    split
    · rw [setDecl, outcome_modifyNode_some hm]
      exact origins_setNode hm (by rw [hd]; rfl)
    · exact rfl

theorem accounts_addDirective (text : String) :
    Accounts path p st [] [] True p (st.addDirective text) := by
  refine accounts_edit (advances_addDirective text) ?_
  simp only [List.map_nil, List.append_nil]
  refine outcome_rewrite Decl.view_file fun m d hm hd => ?_
  rw [setDecl, outcome_modifyNode_some hm]
  exact origins_setNode hm (by rw [hd]; rfl)

theorem accounts_addConformances (protocols : List String) :
    Accounts path p st
      (if (p.visit n).insideType then protocols.map fun _ => (p.visit n).origin path .conformances
        else []) [] True p (st.addConformances n protocols) := by
  unfold addConformances
  cases hid : st.currentType? with
  | none =>
    refine (Accounts.refl path p st).congr fun hat => ⟨?_, rfl⟩
    simp [hat.insideType_of_none hid]
  | some id =>
    have hall : Accounts path p st
        (protocols.map fun _ => (p.visit n).origin path .conformances) [] True p
        (protocols.foldl
          (fun st name => st.add id (.conformance { name, header := st.header n })) st) := by
      induction protocols generalizing st with
      | nil => exact .refl path p st
      | cons name protocols ih =>
        have hadd : Accounts path p st [(p.visit n).origin path .conformances] [] True p
            (st.add id (.conformance { name, header := st.header n })) :=
          accounts_add_member n hid rfl rfl rfl
        refine (hadd.trans (ih ?_)).congr_room fun _ => by simp
        rw [currentType?, around_add]
        exact hid
    refine hall.congr fun hat => ⟨?_, rfl⟩
    simp [hat.insideType_of_some hid]

/-- **A member is added to the type around it, or reported where there is none.** Its types are
mapped only if there is a type around it. -/
theorem accounts_member {message : String} {list : ChildList} {types : List ObjcType}
    {mapped : DeclId → Option α} {added : DeclId → α → Lowering}
    (htypes : (p.visit n).mapped = if (p.visit n).insideType then types else [])
    (hroom : ∀ id, (mapped id).isSome = !types.any ObjcType.overflows)
    (hadd : ∀ id a, st.currentType? = some id →
      Accounts path p st [(p.visit n).origin path list] [] True p (added id a)) :
    Accounts path p st (if (p.visit n).insideType then [(p.visit n).origin path list] else [])
      (if (p.visit n).insideType then [] else [(p.visit n).warning path message])
      ((p.visit n).overflows = false) p
      (match st.currentType? with
        | none => st.warn n message
        | some id => st.onMapped (mapped id) (added id)) := by
  rw [Visit.overflows, htypes]
  cases hid : st.currentType? with
  | none =>
    refine ((accounts_warn n message).congr fun hat => ?_).congr_room fun hat => ?_
    · simp [hat.insideType_of_none hid]
    · simp [hat.insideType_of_none hid]
  | some id =>
    refine ((Accounts.onMapped fun a _ => hadd id a hid).congr fun hat => ?_).congr_room
      fun hat => ?_
    · simp [hat.insideType_of_some hid]
    · rw [if_pos (hat.insideType_of_some hid n), hroom, Bool.not_eq_true']

theorem accounts_addVariable (name : String) (type : ObjcType) (initial : Option Expr)
    (hn : n.kind = .variableDeclaration name type initial) :
    Accounts path p st
      (if (p.visit n).insideType then [] else [(p.visit n).origin path .globals]) []
      ((p.visit n).overflows = false) p (st.addVariable n name type initial) := by
  have hmapped : (p.visit n).mapped = if (p.visit n).insideType then [] else [type] := by
    rw [Visit.mapped, WalkPlace.visit, hn]
  rw [Visit.overflows, hmapped]
  unfold addVariable
  cases hid : st.currentType? with
  | some id =>
    refine ((Accounts.refl path p st).congr fun hat => ⟨?_, rfl⟩).congr_room fun hat => ?_
    · simp [hat.insideType_of_some hid]
    · simp [hat.insideType_of_some hid]
  | none =>
    refine ((Accounts.onMapped fun _ _ => accounts_add_file n .globals rfl rfl rfl).congr
      fun hat => ⟨?_, rfl⟩).congr_room fun hat => ?_
    · simp [hat.insideType_of_none hid]
    · simp [hat.insideType_of_none hid, swiftType?]

theorem accounts_addAlias (name : String) (type : ObjcType)
    (hn : n.kind = .typedef name type) :
    Accounts path p st (if (p.visit n).namesItself then [] else [(p.visit n).origin path .aliases])
      [] (type.overflows = false) p (st.addAlias n name type) := by
  have hname : At path p st → ∀ aliased, st.swiftType? type = some aliased →
      ((p.visit n).namesItself = true ↔ aliased.name? = some name) := by
    intro hat aliased hmapped
    obtain ⟨-, rfl⟩ := ObjcType.toSwift?_eq_some_iff.mp hmapped
    simp [Visit.namesItself, WalkPlace.visit, hn, hat.nonnull_eq]
  refine (Accounts.onMapped fun aliased hmapped => ?_).congr_room fun _ => by simp [swiftType?]
  by_cases hself : aliased.name? = some name
  · rw [if_pos hself]
    refine (Accounts.refl path p st).congr fun hat => ⟨?_, rfl⟩
    rw [if_pos ((hname hat aliased hmapped).mpr hself)]
  · rw [if_neg hself]
    refine (accounts_add_file n .aliases rfl rfl rfl).congr fun hat => ⟨?_, rfl⟩
    rw [if_neg fun h => hself ((hname hat aliased hmapped).mp h)]

theorem graph_setIvarAccess (word : String) : (st.setIvarAccess word).graph = st.graph := by
  unfold setIvarAccess
  split <;> rfl

theorem accounts_setIvarAccess (word : String) :
    Accounts path p st [] [] True p (st.setIvarAccess word) := by
  have hsame : (st.setIvarAccess word).diagnostics = st.diagnostics ∧
      (st.setIvarAccess word).error = st.error := by
    unfold setIvarAccess
    split <;> exact ⟨rfl, rfl⟩
  refine .still (advances_setIvarAccess word) (graph_setIvarAccess word) hsame.1 hsame.2
    fun hat => ?_
  unfold setIvarAccess
  split
  · rename_i access rest hst
    refine ⟨hat.sourcePath_eq, hat.nonnull_eq, ?_⟩
    rw [← hat.around_eq, hst]
    rfl
  · exact hat

/-- A list of instance variables is no type, but it is on the stack like one. -/
theorem accounts_enter_ivarsList {n : ObjcNode} (hn : n.kind = .ivarsList) :
    Accounts path p st [] [] True (p.inside n) (enter n st) := by
  obtain ⟨kind, span, children⟩ := n
  obtain rfl : kind = .ivarsList := hn
  refine .still (advances_enter ⟨.ivarsList, span, children⟩ st) rfl rfl rfl fun hat => ?_
  refine ⟨hat.sourcePath_eq, hat.nonnull_eq, ?_⟩
  show false :: st.around.map Surrounding.isType = _
  rw [hat.around_eq]
  rfl

/-- The two markers are what the walk remembers beside its stack. -/
theorem visit_identifier {n : ObjcNode} {name : String} (hn : n.kind = .identifier name)
    (st : Lowering) : (visit n st).1 = { st with nonnull := n.nonnullAfter st.nonnull } := by
  simp only [visit, ObjcNode.nonnullAfter, hn]
  split_ifs <;> rfl

theorem graph_visit_identifier {n : ObjcNode} {name : String} (hn : n.kind = .identifier name)
    (st : Lowering) : (visit n st).1.graph = st.graph := by
  rw [visit_identifier hn]

theorem accounts_identifier {n : ObjcNode} {name : String} (hn : n.kind = .identifier name) :
    Accounts path p st [] [] True (p.inside n) (visit n st).1 := by
  have hpush : n.pushed? = none := by rw [ObjcNode.pushed?, hn]
  rw [visit_identifier hn]
  refine .still (.of_graph rfl rfl (fun _ h => h) rfl) rfl rfl rfl fun hat => ?_
  refine ⟨hat.sourcePath_eq, ?_, ?_⟩
  · rw [hat.nonnull_eq, WalkPlace.inside]
  · rw [WalkPlace.inside, List.filterMap_cons_none hpush]
    exact hat.around_eq

/-- **Entering and visiting a node lowers it and reports about it as the account says**, if there is
room for its types. -/
theorem accounts_visit (n : ObjcNode) :
    Accounts path p st ((p.visit n).lowered path) ((p.visit n).warnings path)
      ((p.visit n).overflows = false) (p.inside n) (visit n (enter n st)).1 := by
  have hnothing : ∀ {lowered warned st'}, (p.visit n).mapped = [] →
      Accounts path p st lowered warned True (p.inside n) st' →
      Accounts path p st lowered warned ((p.visit n).overflows = false) (p.inside n) st' :=
    fun hmapped h => h.congr_room fun _ => by simp [Visit.overflows, hmapped]
  obtain ⟨kind, span, children⟩ := n
  cases kind with
  | classInterface name => exact hnothing rfl (accounts_enterType _ name _ rfl fun _ => rfl)
  | classImplementation name => exact hnothing rfl (accounts_enterType _ name _ rfl fun _ => rfl)
  | classCategory name category implementation =>
    exact hnothing rfl (accounts_enterType _ name _ rfl fun _ => rfl)
  | protocolDeclaration name => exact hnothing rfl (accounts_enterType _ name _ rfl fun _ => rfl)
  | superclassName name =>
    exact hnothing rfl ((accounts_addSuperclass name).inside rfl fun _ => rfl)
  | protocolReferences protocols =>
    exact hnothing rfl ((accounts_addConformances _ protocols).inside rfl fun _ => rfl)
  | propertyDefinition name type attributes =>
    refine (accounts_member _ rfl (fun _ => ?_) fun id _ hid => ?_).inside rfl fun _ => rfl
    · simp
    · exact accounts_add_member _ hid rfl rfl rfl
  | methodDefinition method =>
    refine (accounts_member _ rfl (fun _ => ?_) fun id _ hid => ?_).inside rfl fun _ => rfl
    · simp
    · exact accounts_add_member _ hid rfl rfl rfl
  | ivarDeclaration name type =>
    refine (accounts_member _ rfl (fun _ => ?_) fun id _ hid => ?_).inside rfl fun _ => rfl
    · simp [swiftType?]
    · exact accounts_add_member _ hid rfl rfl rfl
  | variableDeclaration name type initial =>
    exact (accounts_addVariable _ name type initial rfl).inside rfl fun _ => rfl
  | functionDefinition name result parameters body =>
    refine Accounts.congr_room (Accounts.inside (.onMapped fun _ _ => ?_) rfl fun _ => rfl)
      fun _ => ?_
    · exact accounts_add_file _ .functions rfl rfl rfl
    · simp [Visit.overflows, Visit.mapped, WalkPlace.visit]
  | typedef name type =>
    refine ((accounts_addAlias _ name type rfl).inside rfl fun _ => rfl).congr_room fun _ => ?_
    simp [Visit.overflows, Visit.mapped, WalkPlace.visit]
  | directive text => exact hnothing rfl ((accounts_addDirective text).inside rfl fun _ => rfl)
  | unknown text => exact hnothing rfl ((accounts_warn _ _).inside rfl fun _ => rfl)
  | globalContext => exact hnothing rfl ((Accounts.refl path p st).inside rfl fun _ => rfl)
  | keyword word => exact hnothing rfl ((accounts_setIvarAccess word).inside rfl fun _ => rfl)
  | ivarsList => exact hnothing rfl (accounts_enter_ivarsList rfl)
  | identifier name => exact hnothing rfl (accounts_identifier rfl)

theorem snd_visit (n : ObjcNode) (st : Lowering) : (visit n st).2 = !n.isUnknown := by
  unfold visit ObjcNode.isUnknown
  cases n.kind with
  | identifier name =>
    simp only
    split_ifs <;> rfl
  | _ => rfl

theorem graph_exit (n : ObjcNode) (st : Lowering) : (exit n st).graph = st.graph := by
  unfold exit
  split <;> rfl

theorem error_exit (n : ObjcNode) (st : Lowering) : (exit n st).error = st.error := by
  unfold exit
  split <;> rfl

/-- Leaving a node takes off the stack what entering it has put there. -/
theorem accounts_exit (n : ObjcNode) (p : WalkPlace) (nonnull : Bool) (st : Lowering) :
    Accounts path ⟨n :: p.enclosing, nonnull⟩ st [] [] True ⟨p.enclosing, nonnull⟩
      (exit n st) := by
  have hpop : ∀ isType, n.pushed? = some isType → Accounts path ⟨n :: p.enclosing, nonnull⟩ st [] []
      True ⟨p.enclosing, nonnull⟩ { st with around := st.around.tail } := by
    intro isType hpush
    refine .still (.of_graph rfl rfl (fun _ h => List.mem_of_mem_tail h) rfl) rfl rfl rfl
      fun hat => ⟨hat.sourcePath_eq, hat.nonnull_eq, ?_⟩
    rw [List.map_tail, hat.around_eq, List.filterMap_cons_some hpush, List.tail_cons]
  have hkeep : n.pushed? = none →
      Accounts path ⟨n :: p.enclosing, nonnull⟩ st [] [] True ⟨p.enclosing, nonnull⟩ st := by
    intro hpush
    refine .still (.refl st) rfl rfl rfl fun hat => ⟨hat.sourcePath_eq, hat.nonnull_eq, ?_⟩
    rw [hat.around_eq, List.filterMap_cons_none hpush]
  obtain ⟨kind, span, children⟩ := n
  cases kind with
  | classInterface | classImplementation | classCategory | protocolDeclaration =>
    exact hpop true rfl
  | ivarsList => exact hpop false rfl
  | _ => exact hkeep rfl

/-! ### The walk -/

/-- A relation between two states of the walk, each at its place, and the visits from one to the
other. Every visit and every exit is in the relation, and what is in it one after the other is in
it as a whole. -/
structure WalkRelation (R : WalkPlace → Lowering → List Visit → WalkPlace → Lowering → Prop) :
    Prop where
  /-- Doing nothing. -/
  refl (p : WalkPlace) (st : Lowering) : R p st [] p st
  /-- One part of the walk after another. -/
  trans {p p' p'' : WalkPlace} {st st' st'' : Lowering} {vs ws : List Visit} :
    R p st vs p' st' → R p' st' ws p'' st'' → R p st (vs ++ ws) p'' st''
  /-- Entering and visiting a node. -/
  of_visit (p : WalkPlace) (st : Lowering) (n : ObjcNode) :
    R p st [p.visit n] (p.inside n) (visit n (enter n st)).1
  /-- Leaving a node. -/
  of_exit (p : WalkPlace) (nonnull : Bool) (st : Lowering) (n : ObjcNode) :
    R ⟨n :: p.enclosing, nonnull⟩ st [] ⟨p.enclosing, nonnull⟩ (exit n st)

section WalkRelation

variable {R : WalkPlace → Lowering → List Visit → WalkPlace → Lowering → Prop}

mutual

/-- **A walk over a tree is in every relation that its visits and exits are in.** -/
theorem WalkRelation.of_traverse (h : WalkRelation R) : ∀ (n : ObjcNode) (p : WalkPlace)
    (st : Lowering), R p st (n.visits p.enclosing p.nonnull).1
      ⟨p.enclosing, (n.visits p.enclosing p.nonnull).2⟩ (n.traverse visitor st)
  | ⟨kind, span, children⟩, p, st => by
    let n : ObjcNode := ⟨kind, span, children⟩
    let st₁ := (visit n (enter n st)).1
    let below := if n.isUnknown then ([], n.nonnullAfter p.nonnull)
      else ObjcNode.visitsAll (n :: p.enclosing) (n.nonnullAfter p.nonnull) children
    have hbelow : R (p.inside n) st₁ below.1 ⟨n :: p.enclosing, below.2⟩
        (if (visit n (enter n st)).2 then traverseAll visitor children st₁ else st₁) := by
      simp only [below]
      rw [snd_visit]
      cases hunknown : n.isUnknown with
      | true => exact h.refl (p.inside n) st₁
      | false => exact h.of_traverseAll children (p.inside n) st₁
    have hall := h.trans (h.trans (h.of_visit p st n) hbelow) (h.of_exit p below.2 _ n)
    rw [List.append_nil] at hall
    exact hall

/-- The same for several trees, one after the other. -/
theorem WalkRelation.of_traverseAll (h : WalkRelation R) : ∀ (ns : List ObjcNode) (p : WalkPlace)
    (st : Lowering), R p st (ObjcNode.visitsAll p.enclosing p.nonnull ns).1
      ⟨p.enclosing, (ObjcNode.visitsAll p.enclosing p.nonnull ns).2⟩ (traverseAll visitor ns st)
  | [], p, st => h.refl p st
  | n :: ns, p, st => by
    have hothers := h.of_traverseAll ns ⟨p.enclosing, (n.visits p.enclosing p.nonnull).2⟩
      (n.traverse visitor st)
    exact h.trans (h.of_traverse n p st) hothers

end

end WalkRelation

theorem accounts_walkRelation (path : String) : WalkRelation fun p st visits p' st' =>
    Accounts path p st (visits.flatMap (Visit.lowered path)) (visits.flatMap (Visit.warnings path))
      (visits.any Visit.overflows = false) p' st' where
  refl p st := (Accounts.refl path p st).congr_room fun _ => by simp
  trans h h' := by
    rw [List.flatMap_append, List.flatMap_append]
    exact (h.trans h').congr_room fun _ => by simp
  of_visit p st n := by
    rw [List.flatMap_singleton, List.flatMap_singleton]
    exact (accounts_visit n).congr_room fun _ => by simp
  of_exit p nonnull st n := (accounts_exit n p nonnull st).congr_room fun _ => by simp

/-- **A walk over a tree lowers and reports what the account says**, node by node, if there is room
for the types at all nodes. -/
theorem accounts_traverse (n : ObjcNode) (p : WalkPlace) (st : Lowering) :
    Accounts path p st ((n.visits p.enclosing p.nonnull).1.flatMap (Visit.lowered path))
      ((n.visits p.enclosing p.nonnull).1.flatMap (Visit.warnings path))
      ((n.visits p.enclosing p.nonnull).1.any Visit.overflows = false)
      ⟨p.enclosing, (n.visits p.enclosing p.nonnull).2⟩ (n.traverse visitor st) :=
  (accounts_walkRelation path).of_traverse n p st

/-- At the start of a file there is one declaration, the file, and nothing was reported. -/
theorem at_start (name : String) : At (Path.ofSource name) ⟨[], false⟩ (start name) ∧
    (start name).graph.origins = [some ⟨none, none⟩] ∧ (start name).diagnostics = [] :=
  ⟨⟨rfl, rfl, rfl⟩, rfl, rfl⟩

end Lowering

/-! ### Trees -/

/-- Whether a type that is mapped at a visited node of a source overflows. -/
def Source.overflows (s : Source) : Bool :=
  ((ObjcNode.read s.name s.text).1.visits [] false).1.any Visit.overflows

theorem Source.overflows_eq (s : Source) :
    s.overflows = ((s.tree s.text.toList).visits [] false).1.any Visit.overflows := by
  rw [overflows, fst_read]

/-- **The walk over a source stops exactly if a type overflows**, as long as there are numbers for
its slots. -/
theorem Source.error_lowering {s : Source} (hle : s.slots ≤ 2 ^ 32) :
    s.lowering.error = if s.overflows then some .overflow else none := by
  have hat := (Lowering.at_start s.name).1
  have hwalk : Lowering.Accounts (Path.ofSource s.name) ⟨[], false⟩ (.start s.name) _ _
      (((ObjcNode.read s.name s.text).1.visits [] false).1.any Visit.overflows = false) _
      s.lowering := Lowering.accounts_traverse _ ⟨[], false⟩ (.start s.name)
  split_ifs with hover
  · by_contra hne
    have hsound : s.lowering.Sound := Graph.sound_lowering hle hne
    obtain ⟨-, -, -, hroom⟩ := hwalk.account hat hsound.error_eq
    exact absurd (hover.symm.trans hroom) (by simp)
  · have hroom : s.overflows = false := by simpa using hover
    exact (hwalk.sound hat (Lowering.sound_start s.name) hroom (.inl hle)).error_eq

/-- **A declaration is lowered or reported, unless it is a variable inside a type.** The nodes of a
tree are visited in order, those inside a node that was not understood excepted. The graph of the
tree has the file and, slot by slot, what the visited nodes are lowered to, and the problems are
what is reported about them. As long as there are numbers for its slots, there is a graph exactly if
no type that is mapped at a visited node overflows. A node that declares something is lowered to one
declaration, which refers to the node, or there is one warning about it; but a type definition that
names the type itself and a variable inside a type are left out without a word. About a node that
was not understood there is one warning. -/
theorem nodes_are_lowered_or_reported (name : String) (tree : ObjcNode) :
    let path := Path.ofSource name
    let visits := (tree.visits [] false).1
    (∀ graph problems, Graph.ofTree name tree = .ok (graph, problems) →
      graph.origins = some ⟨none, none⟩ :: (visits.flatMap (Visit.lowered path)).map some ∧
        problems = visits.flatMap (Visit.warnings path)) ∧
    ((visits.flatMap (Visit.lowered path)).length < 2 ^ 32 →
      ((∃ graph problems, Graph.ofTree name tree = .ok (graph, problems)) ↔
        visits.any Visit.overflows = false)) ∧
    ∀ v ∈ visits,
      (v.node.kind.isDeclaration = true →
        if v.namesItself || v.isVariableInType then v.lowered path = [] ∧ v.warnings path = []
        else (∃ list, v.lowered path = [v.origin path list]) ∧ v.warnings path = [] ∨
          v.lowered path = [] ∧ ∃ message, v.warnings path = [v.warning path message]) ∧
      (v.node.isUnknown = true → ∃ message, v.warnings path = [v.warning path message]) := by
  intro path visits
  obtain ⟨hat, horigins, hproblems⟩ := Lowering.at_start name
  have hwalk : Lowering.Accounts path ⟨[], false⟩ (.start name)
      (visits.flatMap (Visit.lowered path)) (visits.flatMap (Visit.warnings path))
      (visits.any Visit.overflows = false) _ _ :=
    Lowering.accounts_traverse tree ⟨[], false⟩ (.start name)
  refine ⟨fun graph problems hok => ?_, fun hlt => ⟨?_, fun hroom => ?_⟩, fun v _ =>
    ⟨Visit.lowered_or_reported, Visit.reported_of_isUnknown⟩⟩
  · obtain ⟨herror, rfl, rfl⟩ := Graph.ofTree_eq_ok_iff.mp hok
    obtain ⟨-, horigins', hproblems', -⟩ := hwalk.account hat herror
    rw [horigins', horigins, hproblems', hproblems]
    exact ⟨rfl, rfl⟩
  · rintro ⟨graph, problems, hok⟩
    exact (hwalk.account hat (Graph.ofTree_eq_ok_iff.mp hok).1).2.2.2
  · have hstart : (Lowering.start name).graph.slots.length = 1 := rfl
    have hsound := hwalk.sound hat (Lowering.sound_start name) hroom (.inr (by omega))
    exact ⟨_, _, Graph.ofTree_eq_ok_iff.mpr ⟨hsound.error_eq, rfl, rfl⟩⟩

/-- `@implementation Meter` with `int limit;` between its methods. -/
def meterImplementation : ObjcNode :=
  { kind := .globalContext
    children := [{ kind := .classImplementation "Meter"
                   children := [{ kind := .variableDeclaration "limit" (.plain "int") none }] }] }

/-- The variable is visited, but there is only the class in the graph, and no warning. -/
theorem meter_limit_is_dropped : ∃ graph v,
    Graph.ofTree "Meter.m" meterImplementation = .ok (graph, []) ∧
      graph.origins.map (·.map Origin.list) = [some none, some (some .types)] ∧
      v ∈ (meterImplementation.visits [] false).1 ∧ v.node.kind.isDeclaration = true ∧
      v.node.name? = some "limit" ∧
      v.lowered "Meter.m" = [] ∧ v.warnings "Meter.m" = [] := by
  have hlimit : ∃ v, (meterImplementation.visits [] false).1[2]? = some v := ⟨_, rfl⟩
  obtain ⟨v, hv⟩ := hlimit
  have hmem := List.mem_of_getElem? hv
  obtain rfl := Option.some.inj hv
  exact ⟨_, _, rfl, rfl, hmem, rfl, rfl, rfl, rfl⟩

end ObjcSwift
