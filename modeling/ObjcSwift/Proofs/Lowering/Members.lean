import ObjcSwift.Proofs.Lowering.Shelving

/-!
# Members land in their own type and region

The walk keeps a stack of what is around the current node, and it adds a member to the innermost
type on it. After every tree the stack is as before (`Lowering.stays_traverse`), so this is the
innermost type around the node in the tree, and a walk adds what the visited nodes declare where it
belongs (`Lowering.shelves_traverse`), as long as there are numbers for the slots.
-/

namespace ObjcSwift

/-! ### The walk -/

/-- The type that something around the current node is. -/
def Surrounding.type? : Surrounding → Option DeclId
  | type id => some id
  | _ => none

namespace Lowering

open ObjcSwift.Graph ObjcSwift.Graph.Edit

variable {α : Type} {st st' : Lowering} {path : String} {outer : List ObjcNode} {n : ObjcNode}

/-- Where the walk stands inside some nodes. -/
def spot (st : Lowering) (outer : List ObjcNode) : Spot :=
  ⟨st.sourcePath, st.file, st.currentType?, outer.countP ObjcNode.declaresType⟩

theorem currentType?_eq (st : Lowering) :
    st.currentType? = (st.around.map Surrounding.type?).findSome? id := by
  rw [List.findSome?_map]
  unfold currentType?
  congr 1

theorem ownerName?_eq (st : Lowering) (id : DeclId) :
    st.ownerName? id = st.graph.selfName? id := by
  unfold ownerName? selfName? plain? Graph.type typed
  cases st.graph.get? id with
  | none => rfl
  | some d =>
    rw [Option.map_some, Option.bind_some, Decl.selfName?_plain]
    cases d <;> rfl

theorem Sound.ne_file (hs : st.Sound) {t : DeclId} (ht : st.currentType? = some t) :
    t ≠ st.file := by
  rintro rfl
  have hkind := hs.kind?_type _ (mem_around_of_currentType? ht)
  exact absurd (hkind.symm.trans hs.kind?_file) (by simp)

theorem Sound.known (hs : st.Sound) (outer : List ObjcNode) : (st.spot outer).Known st.graph := by
  refine ⟨toNat_lt_of_kind? hs.kind?_file, fun t ht => ⟨?_, hs.ne_file ht⟩⟩
  exact toNat_lt_of_kind? (hs.kind?_type t (mem_around_of_currentType? ht))

/-- Adding a declaration under an owner of the right kind. -/
theorem edit_addChild_adds {p : DeclId} {d : Decl} {list : ChildList}
    (hd : d.ownList? = some list) (hp : st.graph.kind? p = some list.home)
    (hle : (st.edit (addChild p d)).2.graph.slots.length ≤ 2 ^ 32) :
    st.graph.slots.length < 2 ^ 32 ∧ ∃ g', Adds st.graph p d g' ∧
      st.edit (addChild p d) = (some (.ofNat st.graph.slots.length), { st with graph := g' }) := by
  have hkind : (addChild p d).Outcome st.graph _ _ := outcome_addChild_kind?
  unfold edit EStateM.run at hle ⊢
  cases he : addChild p d st.graph with
  | error x g' => exact absurd hp ((hkind.of_error he).2 list hd)
  | ok id g' =>
    rw [he] at hle
    have hslots : g'.slots.length = st.graph.slots.length + 1 := (hkind.of_ok he).1
    have hlt : st.graph.slots.length < 2 ^ 32 := by
      simp only at hle
      omega
    obtain ⟨rfl, hadds⟩ := (outcome_addChild_adds hlt).of_ok he
    exact ⟨hlt, g', hadds, rfl⟩

theorem gains_add {p : DeclId} {d : Decl} {list : ChildList} (hs : st.Sound)
    (hd : d.ownList? = some list) (hlist : list ≠ .types)
    (hp : st.graph.kind? p = some list.home)
    (hle : (st.add p d).graph.slots.length ≤ 2 ^ 32) :
    Gains st.graph p [d] (st.add p d).graph := by
  obtain ⟨hlt, g', hadds, hedit⟩ := edit_addChild_adds hd hp hle
  rw [add, hedit]
  exact hadds.gains hs.consistent hlt fun h => hlist (Option.some.inj (hd.symm.trans h))

/-- A node that adds one declaration to the file. -/
theorem shelves_add_file {d : Decl} {list : ChildList} (hs : st.Sound)
    (hd : d.ownList? = some list) (hlist : list ≠ .types) (hhome : list.home = none)
    (hn : n.declaresType = false)
    (hentries : [some d.entry] = Visit.entries st.sourcePath ⟨n, outer, st.nonnull⟩)
    (hmembers : ∀ self, Visit.members st.sourcePath ⟨n, outer, st.nonnull⟩ self = [])
    (hle : (st.add st.file d).graph.slots.length ≤ 2 ^ 32) :
    Shelves (st.spot outer) st.graph [⟨n, outer, st.nonnull⟩] (st.add st.file d).graph := by
  have hgains := gains_add hs hd hlist (by rw [hhome]; exact hs.kind?_file) hle
  refine hgains.shelves hn hentries rfl (fun t ht => ?_) fun h => absurd rfl h
  rw [if_neg (hs.ne_file ht)]
  exact hmembers _

/-- A node that adds nothing. -/
theorem shelves_nothing (hs : st.Sound) (hn : n.declaresType = false)
    (hentries : Visit.entries st.sourcePath ⟨n, outer, st.nonnull⟩ = [])
    (hmembers : ∀ t, st.currentType? = some t →
      Visit.members st.sourcePath ⟨n, outer, st.nonnull⟩ (st.graph.selfName? t) = [])
    {g' : Graph} (hg : Gains st.graph st.file [] g') :
    Shelves (st.spot outer) st.graph [⟨n, outer, st.nonnull⟩] g' := by
  refine hg.shelves hn hentries.symm rfl (fun t ht => ?_) fun h => absurd rfl h
  rw [if_neg (hs.ne_file ht)]
  exact hmembers t ht

/-- **A member is added to the innermost type around it**, if there is one and its type is
mapped. -/
theorem shelves_member {message : String} {mapped : DeclId → Option α} {d : DeclId → α → Decl}
    {list : ChildList} (hs : st.Sound) (hat : At path ⟨outer, st.nonnull⟩ st)
    (hd : ∀ id a, (d id a).ownList? = some list) (hlist : list ≠ .types)
    (hhome : list.home = some .types) (hn : n.declaresType = false)
    (hheader : ∀ id a,
      (d id a).header.source = some (st.ref n) ∧ (d id a).header.nonnull = st.nonnull)
    (hlowered : Visit.lowered st.sourcePath ⟨n, outer, st.nonnull⟩ =
      if Visit.insideType ⟨n, outer, st.nonnull⟩ then
        [Visit.origin st.sourcePath ⟨n, outer, st.nonnull⟩ list] else [])
    (hmembers : ∀ id a, mapped id = some a →
      Visit.members st.sourcePath ⟨n, outer, st.nonnull⟩ (st.ownerName? id) = [(d id a).plain])
    (he : (match st.currentType? with
      | none => st.warn n message
      | some id => st.onMapped (mapped id) fun a => st.add id (d id a)).error = none)
    (hle : (match st.currentType? with
      | none => st.warn n message
      | some id => st.onMapped (mapped id) fun a => st.add id (d id a)).graph.slots.length ≤
        2 ^ 32) :
    Shelves (st.spot outer) st.graph [⟨n, outer, st.nonnull⟩] (match st.currentType? with
      | none => st.warn n message
      | some id => st.onMapped (mapped id) fun a => st.add id (d id a)).graph := by
  cases hid : st.currentType? with
  | none =>
    have hinside : Visit.insideType ⟨n, outer, st.nonnull⟩ = false := hat.insideType_of_none hid n
    refine shelves_nothing hs hn ?_ (fun t ht => ?_) (.refl _ _)
    · rw [Visit.entries, hlowered, hinside]
      rfl
    · rw [hid] at ht
      exact absurd ht (by simp)
  | some id =>
    have hinside : Visit.insideType ⟨n, outer, st.nonnull⟩ = true := hat.insideType_of_some hid n
    have hkind := hs.kind?_type id (mem_around_of_currentType? hid)
    rw [hid] at he hle
    obtain ⟨a, ha, hnext⟩ := exists_onMapped_eq he
    dsimp only at hle ⊢
    rw [hnext] at hle ⊢
    have hgains := gains_add hs (hd id a) hlist (by rw [hhome]; exact hkind) hle
    refine hgains.shelves hn ?_ rfl (fun t ht => ?_) fun _ => hid
    · change _ = (Visit.lowered st.sourcePath ⟨n, outer, st.nonnull⟩).map _
      rw [hlowered, hinside]
      simp [Decl.entry, Decl.origin, hd, hheader, Visit.origin, ref]
    · obtain rfl : id = t := Option.some.inj (hid.symm.trans ht)
      rw [if_pos rfl, ← ownerName?_eq]
      exact hmembers id a ha

/-- Rewriting what a declaration does not say on its own. -/
theorem gains_edit {e : Edit α} (p : DeclId)
    (hg : e.Outcome st.graph (fun _ g' => Gains st.graph p [] g') fun _ g' => g' = st.graph) :
    Gains st.graph p [] (st.edit e).2.graph := by
  unfold edit EStateM.run
  cases he : e st.graph with
  | ok a g' => exact hg.of_ok he
  | error x g' =>
    obtain rfl := hg.of_error he
    exact .refl _ p

theorem gains_setNode {g : Graph} {id p : DeclId} {m m' : GraphNode} (h : g.node? id = some m)
    (hparent : m'.parent = m.parent) (hplain : m'.decl.plain = m.decl.plain)
    (hd : m.decl.Alike m'.decl) : Gains g p [] (g.setNode id m') := by
  have ho := outline_setNode_of_alike h hparent hd
  refine .of_same rfl (readings_setNode h hplain) fun q list => ?_
  exact congrFun (congrFun (congrArg Outline.listOf ho) q) list

theorem gains_addSuperclass (name : String) (p : DeclId) :
    Gains st.graph p [] (st.addSuperclass name).graph := by
  unfold addSuperclass
  split
  · exact .refl _ p
  · refine gains_edit p (outcome_rewrite Decl.view_type fun m d hm hd => ?_)
    split
    · rename_i sup hsup
      rw [setDecl, outcome_modifyNode_some hm]
      refine gains_setNode hm rfl ?_ ?_
      · simp only [hd, Decl.plain, hsup]
      · rw [hd]
        exact ⟨fun list => by cases list <;> rfl, rfl⟩
    · exact .refl _ p

theorem gains_addDirective (text : String) (p : DeclId) :
    Gains st.graph p [] (st.addDirective text).graph := by
  refine gains_edit p (outcome_rewrite Decl.view_file fun m d hm hd => ?_)
  rw [setDecl, outcome_modifyNode_some hm]
  refine gains_setNode hm rfl ?_ ?_
  · rw [hd]
    rfl
  · rw [hd]
    exact ⟨fun list => by cases list <;> rfl, rfl⟩

/-- An edit changes the graph, and it may fail. -/
theorem exists_edit_eq (e : Edit α) (st : Lowering) :
    ∃ graph error, (st.edit e).2 = { st with graph, error } := by
  unfold edit EStateM.run
  cases e st.graph with
  | ok a g' => exact ⟨g', st.error, rfl⟩
  | error x g' => exact ⟨g', st.error.or (some (.edit x)), rfl⟩

theorem gains_addConformances {id : DeclId} (n : ObjcNode) (protocols : List String) :
    ∀ {st : Lowering}, st.Sound → st.currentType? = some id →
      (st.addConformances n protocols).error = none →
      (st.addConformances n protocols).graph.slots.length ≤ 2 ^ 32 →
      Gains st.graph id (protocols.map fun name => .conformance { name, header := st.header n })
        (st.addConformances n protocols).graph := by
  induction protocols with
  | nil =>
    intro st hs hid he hle
    simp only [addConformances, hid]
    exact .refl _ id
  | cons name protocols ih =>
    intro st hs hid he hle
    let d : Decl := .conformance { name, header := st.header n }
    have hid' : (st.add id d).currentType? = some id := by
      rw [currentType?, around_add]
      exact hid
    -- The type around is the same after each of them.
    have hrest : st.addConformances n (name :: protocols) =
        (st.add id d).addConformances n protocols := by
      simp only [addConformances, hid, hid', List.foldl_cons, d]
    rw [hrest] at he hle ⊢
    have hothers : (st.add id d).Advances ((st.add id d).addConformances n protocols) :=
      advances_addConformances n protocols
    have hkind := hs.kind?_type id (mem_around_of_currentType? hid)
    have hs' := (advances_add (d := d) rfl fun _ => hkind).sound_between hothers hs hle he
    have hheader : (st.add id d).header n = st.header n := by
      obtain ⟨graph, error, hst⟩ := exists_edit_eq (addChild id d) st
      rw [add, hst]
      rfl
    have hfirst : Gains st.graph id [d] (st.add id d).graph :=
      gains_add hs rfl (by decide) hkind (hothers.length_le.trans hle)
    have hgains := ih hs' hid' he hle
    rw [hheader] at hgains
    exact hfirst.trans hgains

theorem shelves_addConformances {protocols : List String} {span : Span} {children : List ObjcNode}
    (hs : st.Sound) (hat : At path ⟨outer, st.nonnull⟩ st)
    (hn : n = ⟨.protocolReferences protocols, span, children⟩)
    (he : (st.addConformances n protocols).error = none)
    (hle : (st.addConformances n protocols).graph.slots.length ≤ 2 ^ 32) :
    Shelves (st.spot outer) st.graph [⟨n, outer, st.nonnull⟩]
      (st.addConformances n protocols).graph := by
  subst hn
  cases hid : st.currentType? with
  | none =>
    have hinside (n : ObjcNode) : Visit.insideType ⟨n, outer, st.nonnull⟩ = false :=
      hat.insideType_of_none hid n
    refine shelves_nothing hs rfl ?_ (fun t ht => absurd (hid.symm.trans ht) (by simp)) ?_
    · simp [Visit.entries, Visit.lowered, hinside]
    · simp only [addConformances, hid]
      exact .refl _ _
  | some id =>
    have hinside (n : ObjcNode) : Visit.insideType ⟨n, outer, st.nonnull⟩ = true :=
      hat.insideType_of_some hid n
    refine (gains_addConformances _ protocols hs hid he hle).shelves rfl ?_ rfl (fun t ht => ?_)
      fun _ => hid
    · simp only [Visit.entries, Visit.lowered, hinside, if_true, List.map_map]
      rfl
    · obtain rfl : id = t := Option.some.inj (hid.symm.trans ht)
      rw [if_pos rfl, List.map_map]
      rfl

theorem shelves_addVariable {name : String} {type : ObjcType} {initial : Option Expr} {span : Span}
    {children : List ObjcNode} (hs : st.Sound) (hat : At path ⟨outer, st.nonnull⟩ st)
    (hn : n = ⟨.variableDeclaration name type initial, span, children⟩)
    (he : (st.addVariable n name type initial).error = none)
    (hle : (st.addVariable n name type initial).graph.slots.length ≤ 2 ^ 32) :
    Shelves (st.spot outer) st.graph [⟨n, outer, st.nonnull⟩]
      (st.addVariable n name type initial).graph := by
  subst hn
  unfold addVariable at he hle ⊢
  cases hid : st.currentType? with
  | some id =>
    have hinside (n : ObjcNode) : Visit.insideType ⟨n, outer, st.nonnull⟩ = true :=
      hat.insideType_of_some hid n
    refine shelves_nothing hs rfl ?_ (fun _ _ => rfl) (.refl _ _)
    simp [Visit.entries, Visit.lowered, hinside]
  | none =>
    have hinside (n : ObjcNode) : Visit.insideType ⟨n, outer, st.nonnull⟩ = false :=
      hat.insideType_of_none hid n
    rw [hid] at he hle
    obtain ⟨swift, -, hnext⟩ := exists_onMapped_eq he
    dsimp only at hle ⊢
    rw [hnext] at hle ⊢
    refine shelves_add_file hs rfl (by decide) rfl rfl ?_ (fun _ => rfl) hle
    simp only [Visit.entries, Visit.lowered, hinside]
    rfl

theorem shelves_addAlias {name : String} {type : ObjcType} {span : Span} {children : List ObjcNode}
    (hs : st.Sound) (hn : n = ⟨.typedef name type, span, children⟩)
    (he : (st.addAlias n name type).error = none)
    (hle : (st.addAlias n name type).graph.slots.length ≤ 2 ^ 32) :
    Shelves (st.spot outer) st.graph [⟨n, outer, st.nonnull⟩] (st.addAlias n name type).graph := by
  obtain ⟨aliased, haliased, hnext⟩ := exists_onMapped_eq he
  have hname : Visit.namesItself ⟨n, outer, st.nonnull⟩ = true ↔ aliased.name? = some name := by
    obtain ⟨-, rfl⟩ := ObjcType.toSwift?_eq_some_iff.mp haliased
    simp [Visit.namesItself, hn]
  subst hn
  rw [addAlias, hnext] at hle ⊢
  by_cases hself : aliased.name? = some name
  · rw [if_pos hself]
    refine shelves_nothing hs rfl ?_ (fun _ _ => rfl) (.refl _ _)
    simp [Visit.entries, Visit.lowered, hname.mpr hself]
  · rw [if_neg hself] at hle ⊢
    refine shelves_add_file hs rfl (by decide) rfl rfl ?_ (fun _ => rfl) hle
    have hother := Bool.eq_false_iff.mpr fun h => hself (hname.mp h)
    simp only [Visit.entries, Visit.lowered, hother]
    rfl

/-- **A visit adds what the node declares where it belongs**, unless the node is a type. -/
theorem shelves_visit (hs : st.Sound) (hat : At path ⟨outer, st.nonnull⟩ st)
    (hn : n.declaresType = false) (he : (visit n (enter n st)).1.error = none)
    (hle : (visit n (enter n st)).1.graph.slots.length ≤ 2 ^ 32) :
    Shelves (st.spot outer) st.graph [⟨n, outer, st.nonnull⟩]
      (visit n (enter n st)).1.graph := by
  obtain ⟨kind, span, children⟩ := n
  cases kind with
  | classInterface | classImplementation | classCategory | protocolDeclaration =>
    exact absurd hn (by simp [ObjcNode.declaresType])
  | propertyDefinition name type attributes =>
    refine shelves_member hs hat (fun _ _ => rfl) (by decide) rfl rfl (fun _ _ => ⟨rfl, rfl⟩) rfl
      (fun _ swift hswift => ?_) he hle
    obtain ⟨-, rfl⟩ := ObjcType.toSwift?_eq_some_iff.mp hswift
    rfl
  | methodDefinition method =>
    refine shelves_member hs hat (fun _ _ => rfl) (by decide) rfl rfl (fun _ _ => ⟨rfl, rfl⟩) rfl
      (fun _ signature hsignature => ?_) he hle
    obtain ⟨-, rfl⟩ := SignaturePlace.ofMethod?_eq_some_iff.mp hsignature
    rfl
  | ivarDeclaration name type =>
    refine shelves_member hs hat (fun _ _ => rfl) (by decide) rfl rfl (fun _ _ => ⟨rfl, rfl⟩) rfl
      (fun _ swift hswift => ?_) he hle
    obtain ⟨-, rfl⟩ := ObjcType.toSwift?_eq_some_iff.mp hswift
    rfl
  | protocolReferences protocols => exact shelves_addConformances hs hat rfl he hle
  | variableDeclaration name type initial => exact shelves_addVariable hs hat rfl he hle
  | functionDefinition name result parameters body =>
    change (st.addFunction _ name result parameters body).error = none at he
    obtain ⟨signature, -, hnext⟩ := exists_onMapped_eq he
    change (st.addFunction _ name result parameters body).graph.slots.length ≤ _ at hle
    change Shelves _ _ _ (st.addFunction _ name result parameters body).graph
    rw [addFunction, hnext] at hle ⊢
    exact shelves_add_file hs rfl (by decide) rfl rfl rfl (fun _ => rfl) hle
  | typedef name type => exact shelves_addAlias hs rfl he hle
  | superclassName name =>
    exact shelves_nothing hs rfl rfl (fun _ _ => rfl) (gains_addSuperclass name _)
  | directive text => exact shelves_nothing hs rfl rfl (fun _ _ => rfl) (gains_addDirective text _)
  | keyword word =>
    exact shelves_nothing hs rfl rfl (fun _ _ => rfl) (graph_setIvarAccess word ▸ .refl _ _)
  | identifier name =>
    have hsame := graph_visit_identifier (n := ⟨.identifier name, span, children⟩) rfl st
    exact shelves_nothing hs rfl rfl (fun _ _ => rfl) (hsame ▸ .refl _ _)
  | unknown | globalContext | ivarsList =>
    exact shelves_nothing hs rfl rfl (fun _ _ => rfl) (.refl _ _)

/-! ### What is around -/

/-- The file is the same, and so are the types around. -/
structure Stays (st st' : Lowering) : Prop where
  /-- The file. -/
  file_eq : st'.file = st.file
  /-- What is around, if only types count. -/
  around_eq : st'.around.map Surrounding.type? = st.around.map Surrounding.type?

theorem Stays.refl (st : Lowering) : Stays st st :=
  ⟨rfl, rfl⟩

theorem Stays.trans {st'' : Lowering} (h : Stays st st') (h' : Stays st' st'') : Stays st st'' :=
  ⟨h'.file_eq.trans h.file_eq, h'.around_eq.trans h.around_eq⟩

theorem stays_edit (e : Edit α) (st : Lowering) : Stays st (st.edit e).2 := by
  obtain ⟨graph, error, hst⟩ := exists_edit_eq e st
  rw [hst]
  exact ⟨rfl, rfl⟩

theorem stays_onMapped {mapped : Option α} {next : α → Lowering} (h : ∀ a, Stays st (next a)) :
    Stays st (st.onMapped mapped next) := by
  cases mapped with
  | some a => exact h a
  | none => exact ⟨rfl, rfl⟩

theorem stays_addConformances (n : ObjcNode) (protocols : List String) (st : Lowering) :
    Stays st (st.addConformances n protocols) := by
  unfold addConformances
  split
  · exact .refl st
  · rename_i id hid
    clear hid
    induction protocols generalizing st with
    | nil => exact .refl st
    | cons name protocols ih => exact (stays_edit _ st).trans (ih _)

theorem stays_enterType (n : ObjcNode) (name : String) (kind : TypeKind) (st : Lowering) :
    ∃ s, Stays { st with around := s :: st.around } (st.enterType n name kind) := by
  unfold enterType
  obtain ⟨graph, error, hst⟩ := exists_edit_eq
    (addChild st.file (.type { name, kind, header := st.header n })) st
  dsimp only
  rw [hst]
  exact ⟨_, rfl, rfl⟩

theorem stays_member {n : ObjcNode} {message : String} {mapped : DeclId → Option α}
    {d : DeclId → α → Decl} (st : Lowering) :
    Stays st (match st.currentType? with
      | none => st.warn n message
      | some id => st.onMapped (mapped id) fun a => st.add id (d id a)) := by
  split
  · exact ⟨rfl, rfl⟩
  · exact stays_onMapped fun _ => stays_edit _ st

/-- A node puts a type or a list of instance variables on the stack, or it leaves the file and the
types around as they are. -/
theorem stays_visit (n : ObjcNode) (st : Lowering) :
    match n.pushed? with
    | none => Stays st (visit n (enter n st)).1
    | some _ => ∃ s, Stays { st with around := s :: st.around } (visit n (enter n st)).1 := by
  obtain ⟨kind, span, children⟩ := n
  cases kind with
  | classInterface | classImplementation | classCategory | protocolDeclaration =>
    exact stays_enterType _ _ _ st
  | ivarsList => exact ⟨.ivars .enclosing, .refl _⟩
  | propertyDefinition | methodDefinition | ivarDeclaration => exact stays_member st
  | protocolReferences protocols => exact stays_addConformances _ protocols st
  | functionDefinition => exact stays_onMapped fun _ => stays_edit _ st
  | directive => exact stays_edit _ st
  | unknown | globalContext => exact ⟨rfl, rfl⟩
  | superclassName name =>
    show Stays st (st.addSuperclass name)
    unfold addSuperclass
    split
    · exact .refl st
    · exact stays_edit _ st
  | variableDeclaration name type initial =>
    show Stays st (st.addVariable _ name type initial)
    unfold addVariable
    split
    · exact .refl st
    · exact stays_onMapped fun _ => stays_edit _ st
  | typedef name type =>
    refine stays_onMapped fun aliased => ?_
    split
    · exact .refl st
    · exact stays_edit _ st
  | keyword word =>
    show Stays st (st.setIvarAccess word)
    unfold setIvarAccess
    split
    · rename_i hst
      exact ⟨rfl, by rw [hst]; rfl⟩
    · exact .refl st
  | identifier name =>
    show Stays st (visit ⟨.identifier name, span, children⟩ st).1
    rw [visit_identifier rfl]
    exact ⟨rfl, rfl⟩

/-- Leaving a node takes off what it has put on the stack. -/
theorem stays_exit (n : ObjcNode) (st st' : Lowering) :
    match n.pushed? with
    | none => Stays st st' → Stays st (exit n st')
    | some _ => ∀ s, Stays { st with around := s :: st.around } st' → Stays st (exit n st') := by
  have hpop (s : Surrounding) (h : Stays { st with around := s :: st.around } st') :
      Stays st { st' with around := st'.around.tail } := by
    refine ⟨h.file_eq, ?_⟩
    rw [List.map_tail, h.around_eq]
    rfl
  obtain ⟨kind, span, children⟩ := n
  cases kind with
  | classInterface | classImplementation | classCategory | protocolDeclaration | ivarsList =>
    exact hpop
  | _ => exact fun h => h

mutual

/-- **After a tree the stack is as before**: what was put on it was taken off again. -/
theorem stays_traverse : ∀ (n : ObjcNode) (st : Lowering), Stays st (n.traverse visitor st)
  | ⟨kind, span, children⟩, st => by
    let n : ObjcNode := ⟨kind, span, children⟩
    let st₁ := (visit n (enter n st)).1
    let st₂ := if (visit n (enter n st)).2 then traverseAll visitor children st₁ else st₁
    have hbelow : Stays st₁ st₂ := by
      simp only [st₂]
      split
      · exact stays_traverseAll children st₁
      · exact .refl st₁
    have hvisit := stays_visit n st
    have hexit := stays_exit n st st₂
    show Stays st (exit n st₂)
    cases hpush : n.pushed? with
    | none =>
      rw [hpush] at hvisit hexit
      exact hexit (hvisit.trans hbelow)
    | some isType =>
      rw [hpush] at hvisit hexit
      obtain ⟨s, hs⟩ := hvisit
      exact hexit s (hs.trans hbelow)

theorem stays_traverseAll : ∀ (ns : List ObjcNode) (st : Lowering),
    Stays st (traverseAll visitor ns st)
  | [], st => .refl st
  | n :: ns, st => (stays_traverse n st).trans (stays_traverseAll ns _)

end

/-! ### Trees -/

theorem Stays.currentType?_eq (h : Stays st st') : st'.currentType? = st.currentType? := by
  rw [Lowering.currentType?_eq, Lowering.currentType?_eq, h.around_eq]

/-- Where the walk stands, seen from the place in the tree. -/
theorem spot_eq {p p' : WalkPlace} {inner : List ObjcNode} (hat : At path p st)
    (hat' : At path p' st') (hfile : st'.file = st.file)
    (hcurrent : st'.currentType? = st.currentType?)
    (hdepth : inner.countP ObjcNode.declaresType = outer.countP ObjcNode.declaresType) :
    st'.spot inner = st.spot outer := by
  rw [spot, spot, hfile, hcurrent, hdepth, hat.sourcePath_eq, hat'.sourcePath_eq]

/-- A node that is no type leaves the innermost type around as it is. -/
theorem current_visit (hn : n.declaresType = false) (st : Lowering) :
    (visit n (enter n st)).1.file = st.file ∧
      (visit n (enter n st)).1.currentType? = st.currentType? := by
  have hstays := stays_visit n st
  obtain ⟨kind, span, children⟩ := n
  cases kind with
  | classInterface | classImplementation | classCategory | protocolDeclaration =>
    exact absurd hn (by simp [ObjcNode.declaresType])
  | ivarsList => exact ⟨rfl, rfl⟩
  | _ => exact ⟨Stays.file_eq hstays, Stays.currentType?_eq hstays⟩

theorem shelves_enterType {name : String} {kind : TypeKind} {g'' : Graph} (hs : st.Sound)
    (hn : n.declaresType = true)
    (hdecl : Visit.typeDecl? st.sourcePath ⟨n, outer, st.nonnull⟩ =
      some { name, kind, header := st.header n })
    (hplain : (Decl.type { name, kind, header := st.header n }).plain =
      .type { name, kind, header := st.header n })
    (hself : (Decl.type { name, kind, header := st.header n }).selfName? =
      Visit.selfName? ⟨n, outer, st.nonnull⟩)
    (hlowered : Visit.lowered st.sourcePath ⟨n, outer, st.nonnull⟩ =
      [Visit.origin st.sourcePath ⟨n, outer, st.nonnull⟩ .types])
    (hle : (st.enterType n name kind).graph.slots.length ≤ 2 ^ 32)
    (h : Shelves ((st.enterType n name kind).spot (n :: outer)) (st.enterType n name kind).graph
      (Visit.below ⟨n, outer, st.nonnull⟩) g'') :
    Shelves (st.spot outer) st.graph
      (⟨n, outer, st.nonnull⟩ :: Visit.below ⟨n, outer, st.nonnull⟩) g'' := by
  obtain ⟨hlt, g', hadds, hedit⟩ :=
    edit_addChild_adds (d := .type { name, kind, header := st.header n }) rfl hs.kind?_file hle
  have henter : st.enterType n name kind =
      { st with graph := g', around := .type (.ofNat st.graph.slots.length) :: st.around } := by
    rw [enterType, hedit]
  have hdepth : (n :: outer).countP ObjcNode.declaresType =
      outer.countP ObjcNode.declaresType + 1 := List.countP_cons_of_pos hn
  rw [henter, spot, hdepth] at h
  refine Shelves.enclose hadds hs.consistent hlt (hs.known outer) hn rfl hdecl hplain hself ?_ h
  change _ = (Visit.lowered st.sourcePath ⟨n, outer, st.nonnull⟩).map _
  rw [hlowered]
  rfl

mutual

/-- **A walk over a tree adds what the visited nodes declare where it belongs.** -/
theorem shelves_traverse : ∀ (n : ObjcNode) (outer : List ObjcNode) (st : Lowering), st.Sound →
    At path ⟨outer, st.nonnull⟩ st → (n.traverse visitor st).error = none →
      (n.traverse visitor st).graph.slots.length ≤ 2 ^ 32 →
      Shelves (st.spot outer) st.graph (n.visits outer st.nonnull).1 (n.traverse visitor st).graph
  | ⟨kind, span, children⟩, outer, st => by
    intro hs hat he hle
    let n : ObjcNode := ⟨kind, span, children⟩
    let st₁ := (visit n (enter n st)).1
    let st₂ := if (visit n (enter n st)).2 then traverseAll visitor children st₁ else st₁
    change (exit n st₂).error = none at he
    change (exit n st₂).graph.slots.length ≤ 2 ^ 32 at hle
    change Shelves _ _ _ (exit n st₂).graph
    rw [error_exit] at he
    rw [graph_exit] at hle ⊢
    have hadv : st₁.Advances st₂ := by
      simp only [st₂]
      split
      · exact advances_traverseAll children st₁
      · exact .refl st₁
    have hle₁ : st₁.graph.slots.length ≤ 2 ^ 32 := hadv.length_le.trans hle
    have hs₁ : st₁.Sound :=
      ((advances_enter n st).trans (advances_visit n _)).sound_between hadv hs hle he
    have hat₁ : At path ⟨n :: outer, n.nonnullAfter st.nonnull⟩ st₁ :=
      ((accounts_visit n).account hat hs₁.error_eq).1
    let below := if n.isUnknown then ([], n.nonnullAfter st.nonnull)
      else ObjcNode.visitsAll (n :: outer) (n.nonnullAfter st.nonnull) children
    -- What is inside a node that was not understood is not visited.
    have hbelow : Shelves (st₁.spot (n :: outer)) st₁.graph below.1 st₂.graph := by
      simp only [below]
      simp only [st₂] at he hle ⊢
      rw [snd_visit] at he hle ⊢
      cases hunknown : n.isUnknown with
      | true => exact .refl _ _
      | false =>
        rw [hunknown] at he hle
        have hall := shelves_traverseAll children (n :: outer) st₁ hs₁
        rw [hat₁.nonnull_eq] at hall
        exact hall hat₁ he hle
    rw [ObjcNode.visits]
    -- A type is a new place for what is inside it; inside other nodes the place stays.
    cases hn : n.declaresType with
    | true =>
      cases kind with
      | classInterface | classImplementation | classCategory | protocolDeclaration =>
        exact shelves_enterType hs rfl rfl rfl rfl rfl hle₁ hbelow
      | _ => exact absurd hn Bool.false_ne_true
    | false =>
      have hdepth : (n :: outer).countP ObjcNode.declaresType =
          outer.countP ObjcNode.declaresType := List.countP_cons_of_neg (by simp [hn])
      obtain ⟨hfile, hcurrent⟩ := current_visit hn st
      rw [spot_eq hat hat₁ hfile hcurrent hdepth] at hbelow
      exact (shelves_visit hs hat hn hs₁.error_eq hle₁).trans hbelow (hs.known outer)

theorem shelves_traverseAll : ∀ (ns : List ObjcNode) (outer : List ObjcNode) (st : Lowering),
    st.Sound → At path ⟨outer, st.nonnull⟩ st → (traverseAll visitor ns st).error = none →
      (traverseAll visitor ns st).graph.slots.length ≤ 2 ^ 32 →
        Shelves (st.spot outer) st.graph (ObjcNode.visitsAll outer st.nonnull ns).1
          (traverseAll visitor ns st).graph
  | [], outer, st => fun _ _ _ _ => .refl _ _
  | n :: ns, outer, st => by
    intro hs hat he hle
    let st₁ := n.traverse visitor st
    have hadv := advances_traverseAll ns st₁
    have hle₁ : st₁.graph.slots.length ≤ 2 ^ 32 := hadv.length_le.trans hle
    have hs₁ : st₁.Sound := (advances_traverse n st).sound_between hadv hs hle he
    have hat₁ : At path ⟨outer, (n.visits outer st.nonnull).2⟩ st₁ :=
      ((accounts_traverse n ⟨outer, st.nonnull⟩ st).account hat hs₁.error_eq).1
    have hstays := stays_traverse n st
    have hothers := shelves_traverseAll ns outer st₁ hs₁
    rw [hat₁.nonnull_eq, spot_eq hat hat₁ hstays.file_eq hstays.currentType?_eq rfl] at hothers
    rw [ObjcNode.visitsAll]
    exact (shelves_traverse n outer st hs hat hs₁.error_eq hle₁).trans (hothers hat₁ he hle)
      (hs.known outer)

end

end Lowering

/-- In a graph, a number is that of the type which a visited node declares. In each of its lists are
the members that the nodes which belong to it declare for this list, in order. -/
def Graph.Declares (path : String) (g : Graph) (id : DeclId) (v : Visit) : Prop :=
  ∃ d t, g.get? id = some (.type d) ∧ v.typeDecl? path = some t ∧ (Decl.type d).plain = .type t ∧
    ∀ list, ((Decl.type d).listOf list).map g.plain? =
      (Visit.membersIn path v.selfName? list v.own).map some

theorem Graph.Arrives.declares {path : String} {g g' : Graph} {id : DeclId} {v : Visit}
    (h : Graph.Arrives path g g' id v) : g'.Declares path id v := by
  obtain ⟨t, ht, hplain⟩ := h.plain?_eq
  obtain ⟨m, hm, hmt⟩ := Option.map_eq_some_iff.mp hplain
  obtain ⟨d, rfl⟩ : ∃ d, m = .type d := by
    cases m with
    | type d => exact ⟨d, rfl⟩
    | _ => exact absurd hmt (by simp [Decl.plain])
  obtain ⟨node, hnode, hd⟩ := Option.map_eq_some_iff.mp hm
  refine ⟨d, t, hm, ht, hmt, fun list => ?_⟩
  rw [← h.shelf_eq, Graph.shelf, Graph.listOf_of_node? hnode, hd]

/-- **Members land in their own type and region.** The graph of a tree has one file. Its types are
those that the visited nodes declare, one for each and in the same order, and the lists of a type
are filled in order by the visited nodes inside it whose innermost type it is; what is inside a node
is visited right after it. Slot by slot, the declarations but the file come from the visited nodes
and are told the region of their node. A node is in a region where pointers are nonnull by default
exactly if the last marker visited before it begins one. -/
theorem members_land_in_their_type (name : String) (tree : ObjcNode) (graph : Graph)
    (problems : List Diagnostic) (h : Graph.ofTree name tree = .ok (graph, problems))
    (hle : graph.slots.length ≤ 2 ^ 32) :
    let path := Path.ofSource name
    let visits := (tree.visits [] false).1
    (∃ id file, graph.files = [id] ∧ graph.get? id = some (.file file) ∧
      List.Forall₂ (graph.Declares path) file.types (visits.filter (·.node.declaresType))) ∧
    (∀ v ∈ visits, v.node.isUnknown = false → v :: v.below <:+: visits) ∧
    graph.entries = some (⟨none, none⟩, false) :: visits.flatMap (Visit.entries path) ∧
    ∀ before v after, visits = before ++ v :: after →
      (v.nonnull = true ↔ (before.filterMap (·.node.marker?)).getLast? = some true) := by
  intro path visits
  obtain ⟨he, rfl, -⟩ := Graph.ofTree_eq_ok_iff.mp h
  let last := tree.traverse Lowering.visitor (.start name)
  have hs := Lowering.sound_start name
  have hlast : last.Sound := (Lowering.advances_traverse tree _).sound hs hle (by simp [he])
  have hshelves : Graph.Shelves ⟨path, .ofNat 0, none, 0⟩ (Lowering.start name).graph visits
      last.graph := Lowering.shelves_traverse tree [] _ hs (Lowering.at_start name).1 he hle
  refine ⟨?_, ObjcNode.infix_visits tree [] false, ?_, fun _ _ _ => ObjcNode.nonnull_iff_marker⟩
  · have hkind : last.graph.kind? (.ofNat 0) = some none := by
      have hfirst : last.file = .ofNat 0 := (Lowering.stays_traverse tree (.start name)).file_eq
      rw [← hfirst]
      exact hlast.kind?_file
    obtain ⟨n, hn, hfile⟩ := Graph.exists_node?_of_kind? hkind
    obtain ⟨file, hdecl⟩ := Decl.view_file.exists_make n.decl hfile
    obtain ⟨ids, hids, harrive⟩ := hshelves.types
    have htypes : file.types = ids := by
      have hlist : last.graph.listOf (.ofNat 0) .types = ids := hids
      rw [← hlist, Graph.listOf_of_node? hn, hdecl]
      rfl
    refine ⟨.ofNat 0, file, hshelves.files_eq, ?_, htypes ▸ harrive.imp fun _ _ => (·.declares)⟩
    exact Option.map_eq_some_iff.mpr ⟨n, hn, hdecl⟩
  · obtain ⟨added, hplains, hadded⟩ := hshelves.plains
    rw [Graph.entries_eq, hplains, List.map_append, hadded]
    rfl

/-- A class with another one among its instance variables, which begins a region, and a property
before and after both. -/
def nestedInterfaces : ObjcNode :=
  let property (name : String) : ObjcNode :=
    { kind := .propertyDefinition name (.plain "int") [] }
  { kind := .globalContext
    children :=
      [{ kind := .classInterface "Outer"
         children :=
           [property "first",
             { kind := .ivarsList
               children :=
                 [{ kind := .classInterface "Inner"
                    children := [{ kind := .identifier nonnullBegin }, property "inner"] },
                   { kind := .ivarDeclaration "_last" (.plain "int") }] },
             property "last"] },
        property "stray"] }

/-- The inner class has its own property only, the outer one has the properties around it, and the
region goes on after the inner class. -/
theorem nestedInterfaces_members : ∃ graph problems,
    Graph.ofTree "Nested.h" nestedInterfaces = .ok (graph, problems) ∧
      graph.slots.length ≤ 2 ^ 32 ∧
      (∃ id file, graph.files = [id] ∧ graph.get? id = some (.file file) ∧
        List.Forall₂ (fun id names => ∃ d, graph.get? id = some (.type d) ∧ names =
          d.properties.map fun j => (graph.plain? j).bind fun d => d.property?.map (·.name))
          file.types [[some "first", some "last"], [some "inner"]]) ∧
      graph.entries.map (Option.map fun e => (e.1.list, e.2)) =
        [some (none, false), some (some .types, false), some (some .properties, false),
          some (some .types, false), some (some .properties, true), some (some .ivars, true),
          some (some .properties, true)] := by
  have hok : ∃ graph problems, Graph.ofTree "Nested.h" nestedInterfaces = .ok (graph, problems) ∧
      graph.slots.length ≤ 2 ^ 32 := ⟨_, _, rfl, by decide⟩
  obtain ⟨graph, problems, hok, hle⟩ := hok
  obtain ⟨⟨id, file, hfiles, hfile, htypes⟩, -, hentries, -⟩ :=
    members_land_in_their_type _ _ graph problems hok hle
  refine ⟨graph, problems, hok, hle, ⟨id, file, hfiles, hfile, ?_⟩, ?_⟩
  · have hnames : [[some "first", some "last"], [some "inner"]] =
        ((nestedInterfaces.visits [] false).1.filter (·.node.declaresType)).map fun v =>
          (Visit.membersIn (Path.ofSource "Nested.h") v.selfName? .properties v.own).map fun d =>
            d.property?.map (·.name) := by
      decide
    rw [hnames, List.forall₂_map_right_iff]
    refine htypes.imp fun t v ht => ?_
    obtain ⟨d, -, hd, -, -, hlists⟩ := ht
    refine ⟨d, hd, ?_⟩
    have hproperties := congrArg (List.map fun d => d.bind fun d => d.property?.map (·.name))
      (hlists .properties)
    rw [List.map_map, List.map_map] at hproperties
    exact hproperties.symm
  · rw [hentries]
    decide

end ObjcSwift
