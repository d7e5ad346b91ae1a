import ObjcSwift.Proofs.Graph.Lookups
import ObjcSwift.Proofs.Graph.Merging
import ObjcSwift.Run.Conversion

/-!
# Loading sources

The walk over the tree of a source adds declarations where it stands, so it never asks for an edit
that fails. What it has to know for that is little: the file is a file, and the types around the
current node are types (`Lowering.Sound`). Every step of the walk keeps this, **as long as there are
numbers for the slots** (`Lowering.Advances`); beyond that, a new declaration would get the number
of an old one. So what may go wrong in a walk is that a type overflows, and nothing else.

A list of sources gives a graph exactly if this happens in none of them, whatever their texts are
(`Graph.exists_ofSources`, `Graph.ofSources_eq_overflow`), and the graph is consistent.
-/

namespace ObjcSwift

namespace Lowering

open ObjcSwift.Graph ObjcSwift.Graph.Edit

variable {α : Type} {st st' st'' : Lowering} {id : DeclId}

/-! ### What the walk keeps -/

/-- Nothing went wrong so far, and nothing will at the next edit. -/
structure Sound (st : Lowering) : Prop where
  /-- The graph so far is consistent. -/
  consistent : st.graph.outline.Consistent none
  /-- The file is a file. -/
  kind?_file : st.graph.kind? st.file = some none
  /-- The types around the current node are types. -/
  kind?_type : ∀ id, .type id ∈ st.around → st.graph.kind? id = some (some .types)
  /-- No edit has failed, and no type has overflowed. -/
  error_eq : st.error = none

/-- One state of the walk comes after another: it has at least its slots, and as long as they have
numbers, it is sound if the other is, unless a type overflows in between. -/
structure Advances (st st' : Lowering) : Prop where
  /-- No slot is given back. -/
  length_le : st.graph.slots.length ≤ st'.graph.slots.length
  /-- That a type has overflowed is not forgotten. -/
  overflow : st.error = some .overflow → st'.error = some .overflow
  /-- Nothing else goes wrong in between. -/
  sound : st.Sound → st'.graph.slots.length ≤ 2 ^ 32 → st'.error ≠ some .overflow → st'.Sound

theorem Advances.refl (st : Lowering) : st.Advances st :=
  ⟨Nat.le_refl _, fun h => h, fun h _ _ => h⟩

theorem Advances.trans (h : st.Advances st') (h' : st'.Advances st'') : st.Advances st'' :=
  ⟨Nat.le_trans h.length_le h'.length_le, fun ho => h'.overflow (h.overflow ho),
    fun hs hle hroom => h'.sound
      (h.sound hs (Nat.le_trans h'.length_le hle) fun ho => hroom (h'.overflow ho)) hle hroom⟩

/-- Nothing has gone wrong in between if nothing has at the end. -/
theorem Advances.sound_between (h : st.Advances st') (h' : st'.Advances st'') (hs : st.Sound)
    (hle : st''.graph.slots.length ≤ 2 ^ 32) (he : st''.error = none) : st'.Sound :=
  h.sound hs (Nat.le_trans h'.length_le hle) fun ho => by simp [h'.overflow ho] at he

/-- A step that leaves the graph alone and enters no type. -/
theorem Advances.of_graph (hg : st'.graph = st.graph) (hf : st'.file = st.file)
    (ha : ∀ id, .type id ∈ st'.around → .type id ∈ st.around) (he : st'.error = st.error) :
    st.Advances st' := by
  refine ⟨Nat.le_of_eq (by rw [hg]), fun ho => he.trans ho,
    fun hs _ _ => ⟨?_, ?_, fun id hid => ?_, ?_⟩⟩
  · rw [hg]
    exact hs.consistent
  · rw [hg, hf]
    exact hs.kind?_file
  · rw [hg]
    exact hs.kind?_type id (ha id hid)
  · rw [he]
    exact hs.error_eq

/-- The innermost type around the current node is one of them. -/
theorem mem_around_of_currentType? (h : st.currentType? = some id) : .type id ∈ st.around := by
  obtain ⟨s, hs, hid⟩ := List.exists_of_findSome?_eq_some h
  split at hid
  · obtain rfl := Option.some.inj hid
    exact hs
  · exact absurd hid (by simp)

/-! ### Edits of the walk -/

/-- An edit does not make the walk forget that a type has overflowed. -/
theorem overflow_edit (e : Edit α) (ho : st.error = some .overflow) :
    (st.edit e).2.error = some .overflow := by
  unfold edit
  split
  · exact ho
  · simp [ho]

/-- An edit that rewrites a declaration keeps a sound state sound. -/
theorem advances_edit {e : Edit α}
    (hany : ∀ g : Graph, e.Outcome g (fun _ g' => g'.slots.length = g.slots.length)
      fun _ g' => g'.slots.length = g.slots.length)
    (hsound : st.Sound → e.Succeeds st.graph fun _ g' => g'.outline = st.graph.outline) :
    st.Advances (st.edit e).2 := by
  have hslots : (st.edit e).2.graph.slots.length = st.graph.slots.length := by
    have h := hany st.graph
    unfold edit EStateM.run
    unfold Outcome at h
    cases he : e st.graph <;> rw [he] at h <;> exact h
  refine ⟨Nat.le_of_eq hslots.symm, overflow_edit e, fun hs _ _ => ?_⟩
  obtain ⟨a, g', he, ho⟩ := (hsound hs).exists_ok
  have hst : (st.edit e).2 = { st with graph := g' } := by
    rw [edit, EStateM.run, he]
  have hkind : g'.kind? = st.graph.kind? := kind?_of_outline ho
  rw [hst]
  refine ⟨?_, ?_, fun id hid => ?_, hs.error_eq⟩
  · rw [ho]
    exact hs.consistent
  · rw [hkind]
    exact hs.kind?_file
  · rw [hkind]
    exact hs.kind?_type id hid

/-- Adding a declaration gives no slot back. -/
theorem length_le_edit_addChild (p : DeclId) (d : Decl) :
    st.graph.slots.length ≤ (st.edit (addChild p d)).2.graph.slots.length := by
  have h : (addChild p d).Outcome st.graph _ _ := outcome_addChild_kind?
  rw [edit, EStateM.run]
  cases he : addChild p d st.graph with
  | ok id g' =>
    have hs := (h.of_ok he).1
    simp only
    omega
  | error x g' =>
    have hs := (h.of_error he).1
    simp only [hs, Nat.le_refl]

/-- **A declaration can be added under an owner of the right kind**, as long as there is a number
for it. -/
theorem edit_addChild {p : DeclId} {d : Decl} {list : ChildList} (hs : st.Sound)
    (hd : d.ownList? = some list) (hp : st.graph.kind? p = some list.home)
    (hle : (st.edit (addChild p d)).2.graph.slots.length ≤ 2 ^ 32) :
    ∃ id g', st.edit (addChild p d) = (some id, { st with graph := g' }) ∧
      g'.kind? id = some (some list) ∧ ({ st with graph := g' } : Lowering).Sound := by
  have hkind : (addChild p d).Outcome st.graph _ _ := outcome_addChild_kind?
  cases he : addChild p d st.graph with
  -- It fails for want of an owner only, and the owner is there.
  | error x g' => exact absurd hp ((hkind.of_error he).2 list hd)
  | ok id g' =>
    have hedit : st.edit (addChild p d) = (some id, { st with graph := g' }) := by
      rw [edit, EStateM.run, he]
    obtain ⟨hslots, hkeep⟩ := hkind.of_ok he
    have hlt : st.graph.slots.length < 2 ^ 32 := by
      rw [hedit] at hle
      simp only at hle
      omega
    obtain ⟨hid, ho⟩ := (succeeds_addChild hlt hd hp).of_ok he
    have hold : ∀ {j kind}, st.graph.kind? j = some kind → g'.kind? j = some kind :=
      fun hj => (hkeep _ (toNat_lt_of_kind? hj)).trans hj
    refine ⟨id, g', hedit, ?_, ?_, hold hs.kind?_file, fun j hj => hold (hs.kind?_type j hj),
      hs.error_eq⟩
    · rw [kind?_eq_place?]
      change (g'.outline.place? id).map _ = _
      rw [ho]
      simp [Outline.link]
    · change g'.outline.Consistent none
      rw [ho, hid]
      exact (consistent_grow hs.consistent hlt _).link p list

/-- Adding a declaration under an owner of the right kind keeps a sound state sound. -/
theorem advances_add {p : DeclId} {d : Decl} {list : ChildList} (hd : d.ownList? = some list)
    (hp : st.Sound → st.graph.kind? p = some list.home) : st.Advances (st.add p d) := by
  refine ⟨length_le_edit_addChild p d, overflow_edit _, fun hs hle _ => ?_⟩
  obtain ⟨id, g', hedit, -, hs'⟩ := edit_addChild hs hd (hp hs) hle
  rw [add, hedit]
  exact hs'

/-- Adding a member to the type around the current node keeps a sound state sound. -/
theorem advances_add_member {d : Decl} {list : ChildList} (hid : st.currentType? = some id)
    (hd : d.ownList? = some list) (hmember : list.home = some .types) :
    st.Advances (st.add id d) :=
  advances_add hd fun hs => by
    rw [hmember]
    exact hs.kind?_type id (mem_around_of_currentType? hid)

/-- Adding something to the file keeps a sound state sound. -/
theorem advances_add_file {d : Decl} {list : ChildList} (hd : d.ownList? = some list)
    (hfile : list.home = none) : st.Advances (st.add st.file d) :=
  advances_add hd fun hs => by rw [hfile]; exact hs.kind?_file

/-! ### The steps of the walk -/

/-- A walk may stop for want of room at any point. -/
theorem advances_onMapped {mapped : Option α} {next : α → Lowering}
    (h : ∀ a, mapped = some a → st.Advances (next a)) : st.Advances (st.onMapped mapped next) := by
  cases mapped with
  | some a => exact h a rfl
  | none => exact ⟨Nat.le_refl _, fun _ => rfl, fun _ _ hroom => absurd rfl hroom⟩

/-- What was to be mapped has been mapped, if nothing has gone wrong. -/
theorem exists_onMapped_eq {mapped : Option α} {next : α → Lowering}
    (he : (st.onMapped mapped next).error = none) :
    ∃ a, mapped = some a ∧ st.onMapped mapped next = next a := by
  cases mapped with
  | some a => exact ⟨a, rfl, rfl⟩
  | none => exact absurd he (by simp [onMapped])

theorem advances_warn (node : ObjcNode) (message : String) : st.Advances (st.warn node message) :=
  .of_graph rfl rfl (fun _ h => h) rfl

theorem advances_enterType (node : ObjcNode) (name : String) (kind : TypeKind) :
    st.Advances (st.enterType node name kind) := by
  refine ⟨length_le_edit_addChild _ _, overflow_edit _, fun hs hle _ => ?_⟩
  obtain ⟨id, g', hedit, hid, hs'⟩ := edit_addChild hs rfl hs.kind?_file hle
  rw [enterType, hedit]
  refine ⟨hs'.consistent, hs'.kind?_file, fun j hj => ?_, hs'.error_eq⟩
  rcases List.mem_cons.mp hj with he | hj
  · obtain rfl : j = id := by simpa using he
    exact hid
  · exact hs'.kind?_type j hj

theorem advances_addSuperclass (name : String) : st.Advances (st.addSuperclass name) := by
  unfold addSuperclass
  split
  · exact .refl st
  · rename_i id hid
    refine advances_edit (fun g => ?_) fun hs => ?_
    · rw [outcome_bind, outcome_look]
      split
      · split
        · exact outcome_setDecl_length
        · exact rfl
      · exact rfl
    · have hkind := hs.kind?_type id (mem_around_of_currentType? hid)
      rw [Succeeds, outcome_bind]
      -- Only a class gets a superclass; what else is around stays as it is.
      refine outcome_look_typed Decl.view_type hkind fun n d hn hd => ?_
      split
      · refine (succeeds_setDecl hn ?_).mono fun _ _ h => h.1
        rw [hd]
        exact ⟨fun list => by cases list <;> rfl, rfl⟩
      · exact rfl

theorem around_add (p : DeclId) (d : Decl) : (st.add p d).around = st.around := by
  unfold add edit
  split
  · rfl
  · rfl

theorem advances_addConformances (node : ObjcNode) (protocols : List String) :
    st.Advances (st.addConformances node protocols) := by
  unfold addConformances
  split
  · exact .refl st
  · rename_i id hid
    induction protocols generalizing st with
    | nil => exact .refl st
    | cons name protocols ih =>
      refine (advances_add_member hid rfl rfl).trans (ih ?_)
      rw [currentType?, around_add]
      exact hid

theorem advances_addProperty (node : ObjcNode) (name : String) (type : ObjcType)
    (attributes : List String) : st.Advances (st.addProperty node name type attributes) := by
  unfold addProperty
  split
  · exact advances_warn node _
  · exact advances_onMapped fun _ _ => advances_add_member ‹_› rfl rfl

theorem advances_addMethod (node : ObjcNode) (method : MethodDefinition) :
    st.Advances (st.addMethod node method) := by
  unfold addMethod
  split
  · exact advances_warn node _
  · exact advances_onMapped fun _ _ => advances_add_member ‹_› rfl rfl

theorem advances_setIvarAccess (word : String) : st.Advances (st.setIvarAccess word) := by
  unfold setIvarAccess
  split
  · rename_i access rest hst
    refine .of_graph rfl rfl (fun id hid => ?_) rfl
    rw [hst]
    simpa using hid
  · exact .refl st

theorem advances_addIvar (node : ObjcNode) (name : String) (type : ObjcType) :
    st.Advances (st.addIvar node name type) := by
  unfold addIvar
  split
  · exact advances_warn node _
  · exact advances_onMapped fun _ _ => advances_add_member ‹_› rfl rfl

theorem advances_addVariable (node : ObjcNode) (name : String) (type : ObjcType)
    (initial : Option Expr) : st.Advances (st.addVariable node name type initial) := by
  unfold addVariable
  split
  · exact .refl st
  · exact advances_onMapped fun _ _ => advances_add_file rfl rfl

theorem advances_addAlias (node : ObjcNode) (name : String) (type : ObjcType) :
    st.Advances (st.addAlias node name type) := by
  refine advances_onMapped fun aliased _ => ?_
  split
  · exact .refl st
  · exact advances_add_file rfl rfl

theorem advances_addDirective (text : String) : st.Advances (st.addDirective text) := by
  refine advances_edit (fun g => ?_) fun hs => ?_
  · rw [outcome_bind, outcome_look]
    split
    · exact outcome_setDecl_length
    · exact rfl
  · rw [Succeeds, outcome_bind]
    refine outcome_look_typed Decl.view_file hs.kind?_file fun n d hn hd => ?_
    refine (succeeds_setDecl hn ?_).mono fun _ _ h => h.1
    rw [hd]
    exact ⟨fun list => by cases list <;> rfl, rfl⟩

/-! ### The walk -/

theorem advances_enter (node : ObjcNode) (st : Lowering) : st.Advances (enter node st) := by
  unfold enter
  split
  · exact advances_enterType node _ _
  · exact advances_enterType node _ _
  · exact advances_enterType node _ _
  · exact advances_enterType node _ _
  · exact .of_graph rfl rfl (fun id hid => by simpa using hid) rfl
  · exact .refl st

theorem advances_visit (node : ObjcNode) (st : Lowering) : st.Advances (visit node st).1 := by
  unfold visit
  split
  · exact advances_addSuperclass _
  · exact advances_addConformances node _
  · exact advances_addProperty node _ _ _
  · exact advances_addMethod node _
  · exact advances_setIvarAccess _
  · exact advances_addIvar node _ _
  · exact advances_addVariable node _ _ _
  · exact advances_onMapped fun _ _ => advances_add_file rfl rfl
  · exact advances_addAlias node _ _
  · split_ifs
    · exact .of_graph rfl rfl (fun _ h => h) rfl
    · exact .of_graph rfl rfl (fun _ h => h) rfl
    · exact .refl st
  · exact advances_addDirective _
  · exact advances_warn node _
  · exact .refl st

theorem advances_exit (node : ObjcNode) (st : Lowering) : st.Advances (exit node st) := by
  have hpop : st.Advances { st with around := st.around.tail } :=
    .of_graph rfl rfl (fun _ h => List.mem_of_mem_tail h) rfl
  unfold exit
  split
  · exact hpop
  · exact hpop
  · exact hpop
  · exact hpop
  · exact hpop
  · exact .refl st

mutual

/-- **A walk over a tree keeps a sound state sound**, as long as there are numbers for the slots. -/
theorem advances_traverse : ∀ (n : ObjcNode) (st : Lowering), st.Advances (n.traverse visitor st)
  | ⟨kind, span, children⟩, st => by
    have hvisit := (advances_enter ⟨kind, span, children⟩ st).trans
      (advances_visit ⟨kind, span, children⟩ _)
    refine Advances.trans (hvisit.trans ?_) (advances_exit _ _)
    split
    · exact advances_traverseAll children _
    · exact .refl _

theorem advances_traverseAll : ∀ (ns : List ObjcNode) (st : Lowering),
    st.Advances (traverseAll visitor ns st)
  | [], st => .refl st
  | n :: ns, st => (advances_traverse n st).trans (advances_traverseAll ns _)

end

/-- At the start of a file there is the file and nothing else. -/
theorem sound_start (name : String) : (start name).Sound := by
  have hempty : ({} : Graph).slots.length < 2 ^ 32 := by decide
  have hadd := succeeds_addFile
    { sourcePath := Path.ofSource name, targetPath := Path.target (Path.ofSource name) } hempty
  obtain ⟨-, ho⟩ : _ ∧ (start name).graph.outline = _ := hadd.of_ok rfl
  have haround : (start name).around = [] := rfl
  refine ⟨?_, ?_, fun id hid => absurd (haround ▸ hid) (by simp), rfl⟩
  · rw [ho]
    exact (consistent_grow Outline.consistent_empty hempty _).linkFile
  · rfl

end Lowering

/-! ### Sources -/

/-- The state of the walk at the end of a source. -/
def Source.lowering (s : Source) : Lowering :=
  (ObjcNode.read s.name s.text).1.traverse Lowering.visitor (.start s.name)

/-- The number of slots that a source takes. -/
def Source.slots (s : Source) : Nat :=
  s.lowering.graph.slots.length

/-- The value that some characters write, with gaps for what cannot be held. -/
def Json.readChars? (cs : List Char) : Option Json :=
  match value (2 * cs.length + 2) maxDepth cs with
  | some (result, rest) => if (skipBlanks rest).isEmpty then some result else none
  | none => none

theorem Json.read?_eq (text : String) : read? text = readChars? text.toList := rfl

/-- The tree of a source whose text has these characters. -/
def Source.tree (s : Source) (cs : List Char) : ObjcNode :=
  ((Json.readChars? cs).bind ObjcNode.ofJson?).getD (.ofUnreadable s.text)

/-- Reading a source needs the characters of its text and nothing else of it. -/
theorem Source.fst_read (s : Source) :
    (ObjcNode.read s.name s.text).1 = s.tree s.text.toList := by
  rw [ObjcNode.read, tree, ← Json.read?_eq]
  cases (Json.read? s.text).bind ObjcNode.ofJson? <;> rfl

theorem Source.lowering_eq (s : Source) :
    s.lowering = (s.tree s.text.toList).traverse Lowering.visitor (.start s.name) := by
  rw [lowering, fst_read]

namespace Graph

/-- A tree has a graph if no edit has failed at the end of the walk over it. -/
theorem ofTree_eq_ok_iff {name : String} {tree : ObjcNode} {graph : Graph}
    {problems : List Diagnostic} : ofTree name tree = .ok (graph, problems) ↔
      (tree.traverse Lowering.visitor (.start name)).error = none ∧
      (tree.traverse Lowering.visitor (.start name)).graph = graph ∧
      (tree.traverse Lowering.visitor (.start name)).diagnostics = problems := by
  unfold ofTree
  cases herror : (tree.traverse Lowering.visitor (.start name)).error <;> simp [herror]

/-- A source has a graph if nothing went wrong in the walk over it. -/
theorem ofSource_eq_ok {s : Source} (h : s.lowering.error = none) : ofSource s.name s.text =
    .ok (s.lowering.graph, (ObjcNode.read s.name s.text).2 ++ s.lowering.diagnostics) := by
  have htree : ofTree s.name (ObjcNode.read s.name s.text).1 =
      .ok (s.lowering.graph, s.lowering.diagnostics) := ofTree_eq_ok_iff.mpr ⟨h, rfl, rfl⟩
  simp only [ofSource, htree]
  rfl

theorem ofSource_eq_error {s : Source} {cause : BuildError} (h : s.lowering.error = some cause) :
    ofSource s.name s.text = .error cause := by
  have htree : ofTree s.name (ObjcNode.read s.name s.text).1 = .error cause := by
    rw [Source.lowering] at h
    simp only [ofTree, h]
  simp only [ofSource, htree]
  rfl

/-- **Nothing goes wrong in the walk over a source unless a type overflows**, as long as there are
numbers for its slots. -/
theorem sound_lowering {s : Source} (hle : s.slots ≤ 2 ^ 32)
    (hroom : s.lowering.error ≠ some .overflow) : s.lowering.Sound :=
  (Lowering.advances_traverse _ _).sound (Lowering.sound_start s.name) hle hroom

/-- One more source is read if nothing goes wrong in it. -/
theorem addSource_eq_ok {s : Source} (read : Graph × List Diagnostic)
    (h : s.lowering.error = none) : addSource read s = .ok (read.1.merge s.lowering.graph,
      read.2 ++ ((ObjcNode.read s.name s.text).2 ++ s.lowering.diagnostics)) := by
  simp only [addSource, ofSource_eq_ok h]
  rfl

theorem addSource_eq_error {s : Source} {cause : BuildError} (read : Graph × List Diagnostic)
    (h : s.lowering.error = some cause) : addSource read s = .error (.ofBuild s.name cause) := by
  simp only [addSource, ofSource_eq_error h]
  rfl

/-- Nothing went wrong in sources that were read. -/
theorem error_of_foldlM_addSource {sources : List Source} {r : Graph × List Diagnostic} :
    ∀ {read : Graph × List Diagnostic}, sources.foldlM addSource read = .ok r →
      ∀ s ∈ sources, s.lowering.error = none := by
  induction sources with
  | nil => exact fun _ => List.forall_mem_nil _
  | cons s sources ih =>
    intro read h
    rw [List.foldlM_cons] at h
    cases herror : s.lowering.error with
    | some cause =>
      rw [addSource_eq_error read herror] at h
      exact absurd h (by simp [bind, Except.bind])
    | none =>
      rw [addSource_eq_ok read herror] at h
      exact List.forall_mem_cons.mpr ⟨herror, ih h⟩

/-- The graph of one source is what the walk over it has built. -/
theorem eq_of_ofSources_singleton {s : Source} {g : Graph} {problems : List Diagnostic}
    (h : ofSources [s] = .ok (g, problems)) : g = ({} : Graph).merge s.lowering.graph := by
  have herror : s.lowering.error = none := error_of_foldlM_addSource h s (List.mem_singleton_self s)
  rw [ofSources, List.foldlM_cons, addSource_eq_ok _ herror] at h
  exact (Prod.mk.inj (Except.ok.inj h)).1.symm

/-- More sources behind a consistent graph give a consistent graph. -/
theorem exists_foldlM_addSource (sources : List Source)
    (herror : ∀ s ∈ sources, s.lowering.error = none) :
    ∀ {g₀ : Graph} {problems₀ : List Diagnostic}, g₀.outline.Consistent none →
      g₀.slots.length + (sources.map Source.slots).sum ≤ 2 ^ 32 →
      ∃ g problems, sources.foldlM addSource (g₀, problems₀) = .ok (g, problems) ∧
        g.outline.Consistent none ∧
        g.slots.length = g₀.slots.length + (sources.map Source.slots).sum := by
  induction sources with
  | nil => exact fun {g₀ problems₀} hc _ => ⟨g₀, problems₀, rfl, hc, rfl⟩
  | cons s sources ih =>
    intro g₀ problems₀ hc hle
    rw [List.map_cons, List.sum_cons] at hle ⊢
    obtain ⟨hs, hrest⟩ := List.forall_mem_cons.mp herror
    -- The source fits on its own, as it fits behind the others.
    have hsound : s.lowering.Sound := sound_lowering (by omega) (by simp [hs])
    have hmerge : (g₀.merge s.lowering.graph).slots.length = g₀.slots.length + s.slots := by
      simp [merge, Source.slots]
    have hfits : g₀.slots.length + s.lowering.graph.slots.length ≤ 2 ^ 32 := by
      rw [← Source.slots]
      omega
    obtain ⟨g', problems', hok', hg', hslots'⟩ :=
      ih hrest (consistent_merge hc hsound.consistent hfits) (by rw [hmerge]; omega)
    refine ⟨g', problems', ?_, hg', by rw [hslots', hmerge]; omega⟩
    rw [List.foldlM_cons, addSource_eq_ok _ hs]
    exact hok'

/-- **Every list of sources gives a consistent graph**, whatever their texts are, as long as no type
in them overflows and there are numbers for their slots. -/
theorem exists_ofSources (sources : List Source) (herror : ∀ s ∈ sources, s.lowering.error = none)
    (hle : (sources.map Source.slots).sum ≤ 2 ^ 32) :
    ∃ g problems, ofSources sources = .ok (g, problems) ∧ g.outline.Consistent none ∧
      g.slots.length = (sources.map Source.slots).sum := by
  obtain ⟨g, problems, hok, hc, hslots⟩ :=
    exists_foldlM_addSource sources herror Outline.consistent_empty (by simpa using hle)
  exact ⟨g, problems, hok, hc, by simpa using hslots⟩

/-- A graph that some sources gave is consistent. -/
theorem consistent_of_ofSources {sources : List Source} {g : Graph} {problems : List Diagnostic}
    (h : ofSources sources = .ok (g, problems)) (hle : (sources.map Source.slots).sum ≤ 2 ^ 32) :
    g.outline.Consistent none ∧ g.slots.length = (sources.map Source.slots).sum := by
  obtain ⟨g', problems', h', hc, hslots⟩ :=
    exists_ofSources sources (error_of_foldlM_addSource h) hle
  obtain ⟨rfl, -⟩ := Prod.mk.inj (Except.ok.inj (h.symm.trans h'))
  exact ⟨hc, hslots⟩

/-- **A type that overflows ends the loading**, as long as there are numbers for the slots. -/
theorem ofSources_eq_overflow {sources : List Source}
    (hle : (sources.map Source.slots).sum ≤ 2 ^ 32)
    (h : ∃ s ∈ sources, s.lowering.error = some .overflow) :
    ofSources sources = .error .overflow := by
  suffices hfold : ∀ read, sources.foldlM addSource read = .error .overflow from hfold ({}, [])
  induction sources with
  | nil => exact absurd h (by simp)
  | cons s sources ih =>
    intro read
    rw [List.map_cons, List.sum_cons] at hle
    rw [List.foldlM_cons]
    by_cases hs : s.lowering.error = some .overflow
    · rw [addSource_eq_error read hs]
      rfl
    · -- The source is read, and the walk over one of the others comes to the type.
      rw [addSource_eq_ok read (sound_lowering (by omega) hs).error_eq]
      refine ih (by omega) ?_ _
      obtain ⟨s', hmem, hs'⟩ := h
      rcases List.mem_cons.mp hmem with rfl | hmem
      · exact absurd hs' hs
      · exact ⟨s', hmem, hs'⟩

end Graph

end ObjcSwift
