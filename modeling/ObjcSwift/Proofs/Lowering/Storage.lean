import ObjcSwift.Proofs.Lowering.Account
import ObjcSwift.Proofs.Typing.Regions

/-!
# What the variables of a tree store

Properties, instance variables and global variables store a value of some type, weakly or not. Two
functions read the declared type and the attributes for that: one maps the type, the other one
finds the ownership. The graph of a tree has exactly the variables that the visited nodes declare,
with what the two functions say (`variables_of_ofTree`).

They do not agree on what is weak. The ownership is weak for the words `weak` and `__weak`, among
the attributes or around the type, whatever the type. The type is made optional for the attribute
`weak` and for `__weak` around the type, and only if it is **pointer-like**. So weak storage is
optional where the mapping reads the weakness, too, and elsewhere it is if something else asks for
an optional layer, such as the lack of any annotation outside a nonnull region
(`weak_storage_optional_iff`).
-/

namespace ObjcSwift

/-! ### Optional layers -/

namespace ObjcType

/-- Whether a place asks for an optional layer, `?` or `!`, around the type there. -/
def isLayeredAt (place : TypePlace) (t : ObjcType) : Bool :=
  t.isPointerLike && (t.isWeakAt place ||
    match t.nullabilityAt place with
    | some .nonnull => false
    | some _ => true
    | none => !(place.nonnull || t.isCallable))

/-- Whether this is an array or a pointer to one: an array of one element has the Swift type of
the element, layers included. -/
def isArrayLike (t : ObjcType) : Bool :=
  t.isFixedArray ||
    match t.base with
    | pointer p => p.isFixedArray
    | _ => false

variable {t : ObjcType} {place : TypePlace}

theorem isOptional_namedType (name : String) : (namedType name).isOptional = false := by
  unfold namedType
  split
  · rfl
  · split <;> rfl

theorem isOptional_core_generic (name : String) (ts : List ObjcType) (nonnull : Bool) :
    ((generic name ts).core nonnull).isOptional = false := by
  have hclass (us : List ObjcType) : (classWithProtocols name us).isOptional = false := by
    unfold classWithProtocols
    split
    · exact isOptional_namedType name
    · rfl
  match ts with
  | [] => simpa only [core] using isOptional_namedType name
  | [_] | [_, _] | _ :: _ :: _ :: _ =>
    simp only [core]
    split_ifs <;> first | rfl | exact hclass _

/-- **Only arrays are optional below their own layers.** -/
theorem isOptional_core (h : t.isArrayLike = false) (nonnull : Bool) :
    (t.core nonnull).isOptional = false := by
  rw [core_base]
  -- The base decides, and for a pointer the base of what it points to.
  cases hb : t.base with
  | void => rfl
  | plain name => simpa only [core] using isOptional_namedType name
  | id names =>
    simp only [core, objectType]
    split <;> rfl
  | generic name ts => exact isOptional_core_generic name ts nonnull
  | block | functionPointer => simp [core, SwiftType.isOptional]
  | fixedArray => simp [isArrayLike, isFixedArray, hb] at h
  | specified ws u => exact absurd hb (t.base_ne_modified.1 ws u)
  | qualified u ws => exact absurd hb (t.base_ne_modified.2 u ws)
  | pointer p =>
    have hcore := p.core_base
    cases hp : p.base with
    | void | id | pointer => simp [core, hp, SwiftType.isOptional]
    | plain name =>
      simp only [core, hp]
      split
      · rfl
      · split
        · rfl
        · exact isOptional_namedType name
    | generic name ts =>
      rw [show (pointer p).core nonnull = p.core false by simp [core, hp], hcore, hp]
      exact isOptional_core_generic name ts false
    | block | functionPointer => simp [core, hp, hcore, SwiftType.isOptional]
    | fixedArray => simp [isArrayLike, isFixedArray, hb, hp] at h
    | specified ws u => exact absurd hp (p.base_ne_modified.1 ws u)
    | qualified u ws => exact absurd hp (p.base_ne_modified.2 u ws)

/-- A type gets an optional layer exactly where the place asks for one. -/
theorem isOptional_placed (core : Bool → SwiftType) :
    (placed place t core).isOptional = (t.isLayeredAt place ||
      (core (place.nonnull || t.nullabilityAt place == some .nonnull)).isOptional) := by
  unfold placed isLayeredAt
  cases t.isPointerLike with
  | false => rfl
  | true =>
    cases t.isWeakAt place with
    | true => rfl
    | false =>
      cases hn : t.nullabilityAt place with
      | some n => cases n <;> rfl
      | none =>
        simp only [Bool.not_true, Bool.false_eq_true, if_false, Bool.true_and, Bool.false_or]
        cases place.nonnull || t.isCallable <;> rfl

theorem isOptional_toSwift (h : t.isArrayLike = false) :
    (t.toSwift place).isOptional = t.isLayeredAt place := by
  rw [toSwift, isOptional_placed, isOptional_core h, Bool.or_false]

theorem isLayeredAt_of_isWeakAt (hp : t.isPointerLike = true) (hw : t.isWeakAt place = true) :
    t.isLayeredAt place = true := by
  rw [isLayeredAt, hp, hw, Bool.true_or, Bool.and_true]

end ObjcType

/-! ### Weak words -/

namespace ObjcType

variable {t : ObjcType} {attributes : List String}

theorem exists_word_of_ownership (h : t.ownership attributes = .weak) :
    ∃ word ∈ attributes ++ t.modifiers, word = "weak" ∨ word = "__weak" := by
  unfold ownership at h
  dsimp only at h
  split at h
  · rename_i hany
    simpa only [List.any_eq_true, Bool.or_eq_true, beq_iff_eq] using hany
  · split at h <;> cases h

/-- **The mapping sees that storage is weak** if the attributes have no `__weak` and the type has
no `weak`. -/
theorem isWeakAt_of_ownership (h : t.ownership attributes = .weak) (ha : "__weak" ∉ attributes)
    (hm : "weak" ∉ t.modifiers) (nonnull : Bool) :
    t.isWeakAt (.ofAttributes attributes nonnull) = true := by
  -- Attributes and type each have a spelling of their own.
  obtain ⟨word, hword, rfl | rfl⟩ := exists_word_of_ownership h
  · have hattribute := (List.mem_append.mp hword).resolve_right hm
    simp [isWeakAt, TypePlace.ofAttributes, hattribute]
  · have hmodifier := (List.mem_append.mp hword).resolve_left ha
    simp [isWeakAt, hmodifier]

end ObjcType

/-! ### Variables -/

/-- A variable of a graph, of any kind. -/
structure StoredVariable where
  /-- Its name. -/
  name : String
  /-- What it stores. -/
  storage : Storage
  /-- Where it comes from. -/
  source : Option SourceRef

/-- The variable that a declaration is. -/
def Decl.stored? : Decl → Option StoredVariable
  | property d => some ⟨d.name, d.storage, d.header.source⟩
  | ivar d => some ⟨d.name, d.storage, d.header.source⟩
  | globalVariable d => some ⟨d.name, d.storage, d.header.source⟩
  | _ => none

theorem Decl.stored?_childless (d : Decl) : d.childless.stored? = d.stored? := by
  cases d <;> rfl

/-- The variables of a graph, in the order of their numbers. -/
def Graph.stored (g : Graph) : List StoredVariable :=
  (g.readings Decl.stored?).filterMap Option.join

/-- A variable as a node declares it. -/
structure DeclaredVariable where
  /-- Its name. -/
  name : String
  /-- Its type. -/
  type : ObjcType
  /-- The attributes of its declaration. -/
  attributes : List String := []
  /-- Whether it is a variable of the file, which `const` makes constant. -/
  isGlobal : Bool := false
  /-- Whether pointers are nonnull by default where it is declared. -/
  nonnull : Bool
  /-- Where it is declared. -/
  source : SourceRef

namespace DeclaredVariable

/-- What its declaration says about its type. -/
def place (x : DeclaredVariable) : TypePlace :=
  .ofAttributes x.attributes x.nonnull

/-- What it should store. -/
def storage (x : DeclaredVariable) : Storage where
  type := x.type.toSwift x.place
  ownership := x.type.ownership x.attributes
  constant := x.isGlobal && x.type.modifiers.contains "const"

/-- What it should be lowered to. -/
def lowered (x : DeclaredVariable) : StoredVariable :=
  ⟨x.name, x.storage, some x.source⟩

end DeclaredVariable

namespace Visit

/-- The variable that a node declares, unless it stands where it is left out. -/
def declared? (path : String) (v : Visit) : Option DeclaredVariable :=
  let source : SourceRef := ⟨some path, v.node.kind.label, v.node.span⟩
  match v.node.kind with
  | .propertyDefinition name type attributes =>
    if v.insideType then some { name, type, attributes, nonnull := v.nonnull, source } else none
  | .ivarDeclaration name type =>
    if v.insideType then some { name, type, nonnull := v.nonnull, source } else none
  | .variableDeclaration name type _ =>
    if v.insideType then none
    else some { name, type, isGlobal := true, nonnull := v.nonnull, source }
  | _ => none

/-- The variables that some visited nodes should be lowered to. -/
def stored (path : String) (visits : List Visit) : List StoredVariable :=
  (visits.filterMap (declared? path)).map DeclaredVariable.lowered

theorem stored_append (path : String) (vs ws : List Visit) :
    stored path (vs ++ ws) = stored path vs ++ stored path ws := by
  simp [stored]

end Visit

/-! ### The walk -/

namespace Lowering

open ObjcSwift.Graph ObjcSwift.Graph.Edit

variable {α : Type} {path : String} {p p' p'' : WalkPlace} {st st' st'' : Lowering}
  {xs ys : List StoredVariable}

/-- From one state of the walk to a later one, some variables are added, unless an edit fails. -/
structure Stores (path : String) (p : WalkPlace) (st : Lowering) (xs : List StoredVariable)
    (p' : WalkPlace) (st' : Lowering) : Prop where
  /-- That an edit has failed is not forgotten. -/
  error_eq : st'.error = none → st.error = none
  /-- The walk comes to the place, and these are the variables. -/
  stored : At path p st → st'.error = none →
    At path p' st' ∧ st'.graph.stored = st.graph.stored ++ xs

theorem Stores.refl (path : String) (p : WalkPlace) (st : Lowering) : Stores path p st [] p st :=
  ⟨fun he => he, fun hat _ => ⟨hat, (List.append_nil _).symm⟩⟩

theorem Stores.trans (h : Stores path p st xs p' st') (h' : Stores path p' st' ys p'' st'') :
    Stores path p st (xs ++ ys) p'' st'' := by
  refine ⟨fun he => h.error_eq (h'.error_eq he), fun hat he => ?_⟩
  obtain ⟨hat', hx⟩ := h.stored hat (h'.error_eq he)
  obtain ⟨hat'', hy⟩ := h'.stored hat' he
  exact ⟨hat'', by rw [hy, hx, List.append_assoc]⟩

/-- Where the walk comes to is known from its account. -/
theorem Accounts.stores {lowered : List Origin} {warned : List Diagnostic} {room : Prop}
    (h : Accounts path p st lowered warned room p' st')
    (hx : At path p st → st'.error = none → st'.graph.stored = st.graph.stored ++ xs) :
    Stores path p st xs p' st' :=
  ⟨h.error_eq, fun hat he => ⟨(h.account hat he).1, hx hat he⟩⟩

/-- What is stored after an edit that does not fail. -/
theorem stored_edit {e : Edit α} {Q : Graph → Prop}
    (ho : e.Outcome st.graph (fun _ g' => Q g') fun _ g' => g' = st.graph)
    (he : (st.edit e).2.error = none) : Q (st.edit e).2.graph := by
  unfold edit EStateM.run at he ⊢
  cases hrun : e st.graph with
  | ok a g' => exact ho.of_ok hrun
  | error x g' =>
    rw [hrun] at he
    -- A failed edit would have left its error, or an older one.
    cases hst : st.error <;> simp [hst] at he

theorem stored_add (owner : DeclId) (d : Decl) (he : (st.add owner d).error = none) :
    (st.add owner d).graph.stored = st.graph.stored ++ d.stored?.toList := by
  have h := stored_edit (outcome_addChild_readings Decl.stored?_childless owner d) he
  rw [Graph.stored, add, h, List.filterMap_append]
  cases d.stored? <;> simp [Graph.stored]

/-- Adding a declaration that is no variable. -/
theorem stored_add_other {owner : DeclId} {d : Decl} (hd : d.stored? = none)
    (he : (st.add owner d).error = none) : (st.add owner d).graph.stored = st.graph.stored := by
  rw [stored_add owner d he, hd]
  exact List.append_nil _

theorem error_of_add {owner : DeclId} {d : Decl} (he : (st.add owner d).error = none) :
    st.error = none := by
  unfold add edit EStateM.run at he
  cases hrun : addChild owner d st.graph with
  | ok a g' => simpa [hrun] using he
  | error x g' => cases hst : st.error <;> simp [hrun, hst] at he ⊢

/-- Rewriting a declaration adds no variable, if the declaration is none. -/
theorem stored_setNode {g : Graph} {id : DeclId} {n m : GraphNode} (h : g.node? id = some n)
    (hm : m.decl.stored? = n.decl.stored?) : (g.setNode id m).stored = g.stored := by
  rw [Graph.stored, readings_setNode h hm, Graph.stored]

theorem stored_addSuperclass (name : String) (he : (st.addSuperclass name).error = none) :
    (st.addSuperclass name).graph.stored = st.graph.stored := by
  unfold addSuperclass at he ⊢
  split at he
  · rfl
  · refine stored_edit (Q := fun g' => g'.stored = st.graph.stored) ?_ he
    refine outcome_rewrite Decl.view_type fun m d hm hd => ?_
    split
    · rw [setDecl, outcome_modifyNode_some hm]
      exact stored_setNode hm (by rw [hd]; rfl)
    · exact rfl

theorem stored_addDirective (text : String) (he : (st.addDirective text).error = none) :
    (st.addDirective text).graph.stored = st.graph.stored := by
  refine stored_edit (Q := fun g' => g'.stored = st.graph.stored) ?_ he
  refine outcome_rewrite Decl.view_file fun m d hm hd => ?_
  rw [setDecl, outcome_modifyNode_some hm]
  exact stored_setNode hm (by rw [hd]; rfl)

theorem stored_addConformances (n : ObjcNode) (protocols : List String)
    (he : (st.addConformances n protocols).error = none) :
    (st.addConformances n protocols).graph.stored = st.graph.stored := by
  unfold addConformances at he ⊢
  cases hid : st.currentType? with
  | none => rfl
  | some id =>
    rw [hid] at he
    have hfold : st.error = none ∧ (protocols.foldl (fun st name =>
        st.add id (.conformance { name, header := st.header n })) st).graph.stored =
          st.graph.stored := by
      clear hid
      induction protocols generalizing st with
      | nil => exact ⟨he, rfl⟩
      | cons name protocols ih =>
        obtain ⟨hadd, hrest⟩ := ih he
        exact ⟨error_of_add hadd, hrest.trans (stored_add_other rfl hadd)⟩
    exact hfold.2

/-- A declaration with a mapped type, which may be a variable, is stored as that variable. -/
theorem stored_add_mapped {mapped : Option SwiftType} {owner : DeclId} {d : SwiftType → Decl}
    {x : DeclaredVariable} (hmapped : mapped = x.type.toSwift? x.place)
    (hd : (d (x.type.toSwift x.place)).stored? = some x.lowered)
    (he : (st.onMapped mapped fun swift => st.add owner (d swift)).error = none) :
    (st.onMapped mapped fun swift => st.add owner (d swift)).graph.stored =
      st.graph.stored ++ [x.lowered] := by
  obtain ⟨swift, hswift, hadd⟩ := exists_onMapped_eq he
  obtain ⟨-, rfl⟩ := ObjcType.toSwift?_eq_some_iff.mp (hmapped.symm.trans hswift)
  rw [hadd] at he ⊢
  rw [stored_add owner _ he, hd]
  rfl

/-- A member of a type is stored if there is a type around it. -/
theorem stored_member {message : String} {n : ObjcNode} {mapped : Option SwiftType}
    {d : SwiftType → Decl} {x : DeclaredVariable} (hat : At path p st)
    (hmapped : mapped = x.type.toSwift? x.place)
    (hd : (d (x.type.toSwift x.place)).stored? = some x.lowered)
    (hx : (p.visit n).declared? path = if (p.visit n).insideType then some x else none)
    (he : (match st.currentType? with
      | none => st.warn n message
      | some id => st.onMapped mapped fun swift => st.add id (d swift)).error = none) :
    (match st.currentType? with
      | none => st.warn n message
      | some id => st.onMapped mapped fun swift => st.add id (d swift)).graph.stored =
        st.graph.stored ++ Visit.stored path [p.visit n] := by
  cases hid : st.currentType? with
  | none =>
    have hnone : (p.visit n).declared? path = none := by
      rw [hx, hat.insideType_of_none hid n]
      rfl
    simp [Visit.stored, hnone, warn]
  | some id =>
    have hsome : (p.visit n).declared? path = some x := by
      rw [hx, hat.insideType_of_some hid n]
      rfl
    rw [hid] at he
    simp only [stored_add_mapped hmapped hd he, Visit.stored, List.filterMap_cons, hsome]
    rfl

/-- A variable of the file is stored if there is no type around it. -/
theorem stored_global {n : ObjcNode} {mapped : Option SwiftType} {d : SwiftType → Decl}
    {x : DeclaredVariable} (hat : At path p st) (hmapped : mapped = x.type.toSwift? x.place)
    (hd : (d (x.type.toSwift x.place)).stored? = some x.lowered)
    (hx : (p.visit n).declared? path = if (p.visit n).insideType then none else some x)
    (he : (match st.currentType? with
      | some _ => st
      | none => st.onMapped mapped fun swift => st.add st.file (d swift)).error = none) :
    (match st.currentType? with
      | some _ => st
      | none => st.onMapped mapped fun swift => st.add st.file (d swift)).graph.stored =
        st.graph.stored ++ Visit.stored path [p.visit n] := by
  cases hid : st.currentType? with
  | some id =>
    have hnone : (p.visit n).declared? path = none := by
      rw [hx, hat.insideType_of_some hid n]
      rfl
    simp [Visit.stored, hnone]
  | none =>
    have hsome : (p.visit n).declared? path = some x := by
      rw [hx, hat.insideType_of_none hid n]
      rfl
    rw [hid] at he
    simp only [stored_add_mapped hmapped hd he, Visit.stored, List.filterMap_cons, hsome]
    rfl

/-- What is mapped for something else than a variable is not stored. -/
theorem stored_onMapped {mapped : Option α} {next : α → Lowering}
    (h : ∀ a, (next a).error = none → (next a).graph.stored = st.graph.stored)
    (he : (st.onMapped mapped next).error = none) :
    (st.onMapped mapped next).graph.stored = st.graph.stored := by
  obtain ⟨a, -, hnext⟩ := exists_onMapped_eq he
  rw [hnext] at he ⊢
  exact h a he

theorem stored_addMethod (n : ObjcNode) (method : MethodDefinition)
    (he : (st.addMethod n method).error = none) :
    (st.addMethod n method).graph.stored = st.graph.stored := by
  unfold addMethod at he ⊢
  split at he
  · rfl
  · exact stored_onMapped (fun _ he => stored_add_other rfl he) he

theorem stored_addAlias (n : ObjcNode) (name : String) (type : ObjcType)
    (he : (st.addAlias n name type).error = none) :
    (st.addAlias n name type).graph.stored = st.graph.stored := by
  refine stored_onMapped (fun aliased he => ?_) he
  by_cases hself : aliased.name? = some name
  · rw [if_pos hself]
  · rw [if_neg hself] at he ⊢
    exact stored_add_other rfl he

/-- **A visit stores the variable that the node declares where it stands**, and nothing else. -/
theorem stored_visit (n : ObjcNode) (hat : At path p st)
    (he : (visit n (enter n st)).1.error = none) :
    (visit n (enter n st)).1.graph.stored = st.graph.stored ++ Visit.stored path [p.visit n] := by
  obtain ⟨enclosing, nonnull⟩ := p
  obtain rfl : st.sourcePath = path := hat.sourcePath_eq
  obtain rfl : st.nonnull = nonnull := hat.nonnull_eq
  obtain ⟨kind, span, children⟩ := n
  cases kind with
  | propertyDefinition name type attributes => exact stored_member hat rfl rfl rfl he
  | ivarDeclaration name type => exact stored_member hat rfl rfl rfl he
  | variableDeclaration name type initial => exact stored_global hat rfl rfl rfl he
  | classInterface | classImplementation | classCategory | protocolDeclaration =>
    exact (stored_add_other rfl he).trans (List.append_nil _).symm
  | functionDefinition name result parameters body =>
    exact (stored_onMapped (fun _ he => stored_add_other rfl he) he).trans (List.append_nil _).symm
  | superclassName name => exact (stored_addSuperclass name he).trans (List.append_nil _).symm
  | protocolReferences protocols =>
    exact (stored_addConformances _ protocols he).trans (List.append_nil _).symm
  | directive text => exact (stored_addDirective text he).trans (List.append_nil _).symm
  | methodDefinition method =>
    exact (stored_addMethod _ method he).trans (List.append_nil _).symm
  | typedef name type => exact (stored_addAlias _ name type he).trans (List.append_nil _).symm
  | keyword word =>
    exact (congrArg Graph.stored (graph_setIvarAccess word)).trans (List.append_nil _).symm
  | identifier name =>
    have hsame := graph_visit_identifier (n := ⟨.identifier name, span, children⟩) rfl st
    exact (congrArg Graph.stored hsame).trans (List.append_nil _).symm
  | unknown | globalContext | ivarsList => exact (List.append_nil _).symm

theorem stores_walkRelation (path : String) : WalkRelation fun p st visits p' st' =>
    Stores path p st (Visit.stored path visits) p' st' where
  refl p st := .refl path p st
  trans h h' := by
    rw [Visit.stored_append]
    exact h.trans h'
  of_visit p st n := (accounts_visit n).stores (stored_visit n)
  of_exit p nonnull st n := (accounts_exit n p nonnull st).stores fun _ _ => by
    rw [graph_exit]
    exact (List.append_nil _).symm

/-- **A walk over a tree stores the variables that the visited nodes declare**, in order. -/
theorem stores_traverse (n : ObjcNode) (p : WalkPlace) (st : Lowering) :
    Stores path p st (Visit.stored path (n.visits p.enclosing p.nonnull).1)
      ⟨p.enclosing, (n.visits p.enclosing p.nonnull).2⟩ (n.traverse visitor st) :=
  (stores_walkRelation path).of_traverse n p st

end Lowering

/-! ### Trees -/

/-- **Weak storage is optional where the mapping sees that it is weak.** The variables of the graph
of a tree are those that the visited nodes declare where they stand, in order, with the type and
the ownership that their declarations give them. If such a variable is weak, its type is optional
as long as the declared type is pointer-like and no weak word is out of place: `__weak` among the
attributes, or `weak` around the type. In general, the type of a weak variable that has nothing to
do with arrays is optional exactly if its place asks for an optional layer. -/
theorem weak_storage_optional_iff (name : String) (tree : ObjcNode) (graph : Graph)
    (problems : List Diagnostic) (h : Graph.ofTree name tree = .ok (graph, problems)) :
    let declared := (tree.visits [] false).1.filterMap (Visit.declared? (Path.ofSource name))
    graph.stored = declared.map DeclaredVariable.lowered ∧
    ∀ x ∈ declared, x.storage.ownership = .weak →
      (x.type.isPointerLike = true → "__weak" ∉ x.attributes → "weak" ∉ x.type.modifiers →
        x.storage.type.isOptional = true) ∧
      (x.type.isArrayLike = false →
        (x.storage.type.isOptional = true ↔ x.type.isLayeredAt x.place = true)) := by
  intro declared
  refine ⟨?_, fun x _ hweak => ⟨fun hp ha hm => ?_, fun harray => ?_⟩⟩
  · obtain ⟨herror, rfl, -⟩ := Graph.ofTree_eq_ok_iff.mp h
    have hwalk : Lowering.Stores (Path.ofSource name) ⟨[], false⟩ (.start name) _ _ _ :=
      Lowering.stores_traverse tree ⟨[], false⟩ (.start name)
    exact (hwalk.stored (Lowering.at_start name).1 herror).2
  · have hlayer := ObjcType.isLayeredAt_of_isWeakAt hp
      (ObjcType.isWeakAt_of_ownership hweak ha hm x.nonnull)
    rw [DeclaredVariable.storage, ObjcType.toSwift, ObjcType.isOptional_placed]
    exact Bool.or_eq_true_iff.mpr (.inl hlayer)
  · rw [DeclaredVariable.storage, ObjcType.isOptional_toSwift harray]

/-- `Panel` has a weak instance variable `_view` and a property `title`, in a nonnull region. -/
def panelInterface (viewType : ObjcType) (titleAttribute : String) : ObjcNode :=
  { kind := .globalContext
    children :=
      [{ kind := .identifier nonnullBegin },
        { kind := .classInterface "Panel"
          children :=
            [{ kind := .ivarsList
               children :=
                 [{ kind := .ivarDeclaration "_view" (.specified ["__weak"] viewType) }] },
              { kind := .propertyDefinition "title" (.pointer (.plain "NSString"))
                  [titleAttribute] }] },
        { kind := .identifier nonnullEnd }] }

/-- With `View *` and the attribute `weak`, both are optional. -/
theorem panel_weak_storage_optional : ∃ graph,
    Graph.ofTree "Panel.m" (panelInterface (.pointer (.plain "View")) "weak") = .ok (graph, []) ∧
      graph.stored.map (·.storage.ownership) = [.weak, .weak] ∧
      ∀ x ∈ graph.stored, x.storage.type.isOptional = true := by
  have hok : ∃ graph, Graph.ofTree "Panel.m" (panelInterface (.pointer (.plain "View")) "weak") =
      .ok (graph, []) := ⟨_, rfl⟩
  obtain ⟨graph, hok⟩ := hok
  obtain ⟨hstored, hoptional⟩ := weak_storage_optional_iff _ _ graph [] hok
  refine ⟨graph, hok, ?_⟩
  rw [hstored]
  refine ⟨by decide, fun y hy => ?_⟩
  obtain ⟨x, hx, rfl⟩ := List.mem_map.mp hy
  have hwords : ∀ x ∈ (((panelInterface (.pointer (.plain "View")) "weak").visits [] false).1
      |>.filterMap (Visit.declared? "Panel.m")), x.storage.ownership = .weak ∧
        x.type.isPointerLike = true ∧ "__weak" ∉ x.attributes ∧ "weak" ∉ x.type.modifiers := by
    decide
  obtain ⟨hweak, hp, ha, hm⟩ := hwords x hx
  exact (hoptional x hx hweak).1 hp ha hm

/-- A type with a name of its own is no pointer for the mapping, and it reads no `__weak` among
attributes: both variables are weak, and none is optional. -/
theorem panel_weak_storage_is_not_optional : ∃ graph,
    Graph.ofTree "Panel.m" (panelInterface (.plain "ViewRef") "__weak") = .ok (graph, []) ∧
      graph.stored.map (fun x => (x.name, x.storage.ownership, x.storage.type)) =
        [("_view", .weak, .named "ViewRef"), ("title", .weak, .string)] ∧
      ∀ x ∈ graph.stored, x.storage.type.isOptional = false :=
  ⟨_, rfl, by decide, by decide⟩

end ObjcSwift
