import ObjcSwift.Lowering.FileGraph
import ObjcSwift.Proofs.Typing.Entries
import ObjcSwift.Proofs.Typing.Equations
import ObjcSwift.Proofs.Typing.Hierarchy
import ObjcSwift.Proofs.Typing.Sharpening

/-!
# Calls of declared initializers

A call of a type makes an instance of it, and what is expected of its arguments comes from an
initializer that accepts their labels. The initializers of a type are searched along its hierarchy,
but only those that belong to the type itself are found (`Catalog.overload?_init`), which is how the
built-in types declare theirs. An initializer declared by an instance method belongs to instances,
so its parameters are never asked for (`initializer_arguments_asked_by_class_methods_only`).

What a graph declares is in its catalogue under the name of the declaration, however many other
declarations have the name (`Catalog.hasMember_ofGraph`), and the hierarchy of a name starts with
what the name refers to. So a declared initializer is one of those that are searched, and whether it
is found is decided by its flag alone.
-/

namespace ObjcSwift

/-! ### Substituting nothing -/

namespace SwiftType

mutual

theorem substitute_nil : ∀ t : SwiftType, t.substitute [] = t
  | .named name => rfl
  | .generic name parameters => by rw [substitute, substituteAll_nil parameters]
  | .composition members => by rw [substitute, substituteAll_nil members]
  | .tuple members => by rw [substitute, substituteAll_nil members]
  | .block result parameters => by
    rw [substitute, substitute_nil result, substituteAll_nil parameters]
  | .optional inner => by rw [substitute, substitute_nil inner]
  | .implicitlyUnwrapped inner => by rw [substitute, substitute_nil inner]
  | .metatype inner => by rw [substitute, substitute_nil inner]
  | .nested parts => by rw [substitute, substituteAll_nil parts]

theorem substituteAll_nil : ∀ ts : List SwiftType, substituteAll [] ts = ts
  | [] => by rw [substituteAll]
  | t :: ts => by rw [substituteAll, substitute_nil t, substituteAll_nil ts]

end

end SwiftType

theorem Signature.substitute_nil (s : Signature) : s.substitute [] = s := by
  unfold substitute
  simp only [SwiftType.substitute_nil, List.map_id']

theorem Member.substitute_nil (m : Member) : m.substitute [] = m := by
  cases m with
  | method signature => rw [substitute, signature.substitute_nil]
  | _ => simp only [substitute, SwiftType.substitute_nil]

/-! ### The entry of a declaration -/

namespace Catalog

variable {g : Graph} {c below : Catalog} {name : String} {m : Member} {d : Decl}

/-- What a name refers to has a member. -/
def HasMember (c : Catalog) (name : String) (m : Member) : Prop :=
  ∃ t, c.type? name = some t ∧ m ∈ t.members

theorem hasMember_addType {t : KnownType} (hm : m ∈ t.members) :
    (c.addType t).HasMember t.name m := by
  refine ⟨(c.type? t.name).elim t (·.absorb t), ?_, ?_⟩
  · rw [type?_addType, if_pos rfl]
  · cases c.type? t.name with
    | none => exact hm
    | some u => exact List.mem_append_right u.members hm

theorem HasMember.addType (h : c.HasMember name m) (t : KnownType) :
    (c.addType t).HasMember name m := by
  obtain ⟨u, hu, hm⟩ := h
  by_cases ht : t.name = name
  · refine ⟨u.absorb t, ?_, List.mem_append_left t.members hm⟩
    rw [type?_addType, if_pos ht, hu]
    rfl
  · refine ⟨u, ?_, hm⟩
    rw [type?_addType, if_neg ht, hu]

theorem HasMember.layeredOn (h : c.HasMember name m) :
    (c.layeredOn below).HasMember name m := by
  obtain ⟨t, ht, hm⟩ := h
  unfold type? at ht
  refine ⟨t, ?_, hm⟩
  rw [type?, Catalog.layeredOn, List.find?_append, ht, Option.some_or]

/-- No declaration takes a member away. -/
theorem HasMember.declare (h : c.HasMember name m) (d : Decl) :
    (c.declare g d).HasMember name m := by
  cases d with
  | type d => exact h.addType _
  | typeAlias d =>
    rw [Catalog.declare]
    split
    · exact h.addType _
    · exact h
  | _ => exact h

/-- The declaration of a type adds its members. -/
theorem hasMember_declare {d : TypeDecl} (hm : m ∈ d.knownMembers g) :
    (c.declare g (.type d)).HasMember d.name m := by
  let entry := (c.start d.name d.knownKind).absorb (d.known g)
  have hname : entry.name = d.name := c.name_start d.name d.knownKind
  have hentry : m ∈ entry.members := List.mem_append_right (c.start d.name d.knownKind).members hm
  exact hname ▸ hasMember_addType hentry

theorem hasMember_foldl {ds : List Decl} {d : TypeDecl} (hm : m ∈ d.knownMembers g)
    (hd : .type d ∈ ds) : (ds.foldl (declare g) c).HasMember d.name m := by
  -- Once it is there, later declarations leave it there.
  have hkeep (ds : List Decl) (c : Catalog) (h : c.HasMember d.name m) :
      (ds.foldl (declare g) c).HasMember d.name m := by
    induction ds generalizing c with
    | nil => exact h
    | cons e ds ih => exact ih (c.declare g e) (h.declare e)
  induction ds generalizing c with
  | nil => exact absurd hd (by simp)
  | cons e ds ih =>
    rcases List.mem_cons.mp hd with rfl | hd
    · exact hkeep ds _ (hasMember_declare hm)
    · exact ih hd

/-- **What a type declares is in the catalogue of the graph**, under the name of the type. -/
theorem hasMember_ofGraph {t : DeclId} {d : TypeDecl} (ht : g.get? t = some (.type d))
    (hm : m ∈ d.knownMembers g) : (ofGraph g).HasMember d.name m := by
  refine HasMember.layeredOn ?_
  rw [declared_eq]
  refine hasMember_foldl hm (List.mem_filterMap.mpr ?_)
  obtain ⟨n, hn, hd⟩ := Option.map_eq_some_iff.mp ht
  exact ⟨some n, Graph.mem_slots_of_node? hn, congrArg some hd⟩

/-! ### Initializers -/

/-- The initializers in the hierarchy of a type, whether they belong to it or to its instances. -/
def initializers (c : Catalog) (name : String) : List Signature :=
  (c.hierarchy name).flatMap fun t =>
    (t.members.filterMap Member.signature?).filter (·.isInitializer)

/-- A type without supertype and protocols is all that its hierarchy has. -/
theorem hierarchy_eq_singleton {t : KnownType} (ht : c.type? name = some t)
    (hsupertype : t.supertype = none) (hconformances : t.conformances = []) :
    c.hierarchy name = [t] := by
  have hchain : superChain c.types name = ([t], withoutName name c.types) := by
    unfold superChain
    split
    · rename_i hnone
      exact absurd (ht.symm.trans hnone) (by simp)
    · rename_i u hu
      obtain rfl := Option.some.inj (ht.symm.trans hu)
      rw [hsupertype]
  rw [hierarchy, hchain]
  simp [hconformances, conformanceClosure]

theorem mem_initializers {s : Signature} (hs : s.isInitializer = true)
    (h : c.HasMember name (.method s)) : s ∈ c.initializers name := by
  obtain ⟨t, ht, hm⟩ := h
  refine List.mem_flatMap.mpr ⟨t, mem_hierarchy ht, List.mem_filter.mpr ⟨?_, hs⟩⟩
  exact List.mem_filterMap.mpr ⟨_, hm, rfl⟩

/-- **A call of a type looks for the initializers that belong to the type**, and takes the first of
them that accepts the labels. -/
theorem overload?_init (c : Catalog) (name : String) (arguments : List Argument) :
    overload? (c.members (.metatype (.named name)) "init" true) arguments =
      (c.initializers name).find? fun s =>
        s.isStatic && s.acceptsLabels (arguments.map (·.label)) := by
  have hmembers : c.members (.metatype (.named name)) "init" true =
      (c.hierarchy name).flatMap fun t => t.membersNamed "init" true := by
    simp [members, SwiftType.memberReceiver, searched, SwiftType.receiverNames,
      List.flatMap_map, Member.substitute_nil]
  have hsignatures (t : KnownType) : (t.membersNamed "init" true).filterMap Member.signature? =
      ((t.members.filterMap Member.signature?).filter (·.isInitializer)).filter (·.isStatic) := by
    rw [KnownType.membersNamed, List.filterMap_filter, List.filter_filterMap, List.filter_filterMap]
    refine List.filterMap_congr fun m _ => ?_
    -- Only methods have a signature, and theirs has the name and the flag of the member.
    cases m with
    | method s =>
      show (if s.name == "init" && s.isStatic == true then some s else none) = _
      cases hs : s.isStatic <;> cases hi : s.name == "init" <;>
        simp [Member.signature?, Signature.isInitializer, Option.filter, hs, hi]
    | _ => simp [Member.signature?]
  rw [overload?, hmembers, List.filterMap_flatMap]
  simp only [hsignatures]
  rw [← List.filter_flatMap, List.find?_filter]
  simp only [initializers, Bool.decide_and, Bool.decide_eq_true]

end Catalog

/-! ### What a name means -/

/-- Nothing bears a name that comes before types of the name: no local, neither `self` nor `super`,
no member of the surrounding type and no global. -/
structure Scope.LeavesToTypes (scope : Scope) (name : String) : Prop where
  /-- No local does. -/
  local_eq : scope.locals.lookup name = none
  /-- Neither `self` nor `super` does. -/
  special_eq : scope.special? name = none
  /-- No member of the surrounding type does. -/
  member_eq : scope.ownMember? name = none
  /-- No global does. -/
  global_eq : scope.catalog.global? name = none

theorem Scope.LeavesToTypes.typeOf_eq {scope : Scope} {name : String} {t : KnownType}
    (h : scope.LeavesToTypes name) (ht : scope.catalog.type? name = some t) :
    scope.typeOf name = .metatype (.named name) := by
  rw [typeOf, h.local_eq, h.special_eq, h.member_eq, h.global_eq, ht]
  rfl

/-! ### Arguments -/

/-- Arguments for which nothing is known are asked for what they were asked for before. -/
theorem expected_argumentsAnnotate_nil (scope : Scope) (arguments : List Argument) :
    (argumentsAnnotate scope [] arguments).map (·.value.expected) =
      arguments.map (·.value.expected) := by
  induction arguments with
  | nil => rfl
  | cons argument rest ih =>
    obtain ⟨label, value⟩ := argument
    simp only [argumentsAnnotate, List.map_cons, Expr.expected_annotate, List.tail_nil, ih]
    rfl

/-- As many arguments as parameters are asked for the types of the parameters. -/
theorem expected_argumentsAnnotate (scope : Scope) {parameters : List SwiftType}
    {arguments : List Argument} (h : parameters.length = arguments.length) :
    (argumentsAnnotate scope parameters arguments).map (·.value.expected) =
      parameters.map some := by
  induction arguments generalizing parameters with
  | nil => simpa [argumentsAnnotate] using h
  | cons argument rest ih =>
    obtain ⟨label, value⟩ := argument
    cases parameters with
    | nil => exact absurd h (by simp)
    | cons parameter parameters =>
      simp only [argumentsAnnotate, List.map_cons, Expr.expected_annotate, List.tail_cons,
        ih (Nat.succ.inj h)]
      rfl

/-! ### Calls -/

/-- Methods are static if they are class methods. -/
theorem SignaturePlace.isStatic_ofMethod (place : SignaturePlace) (method : MethodDefinition) :
    (place.ofMethod method).isStatic = method.isClassMethod := by
  unfold ofMethod
  split <;> rfl

/-- Which initializer is found, if no other one accepts the labels. -/
theorem Catalog.overload?_init_of_unique {c : Catalog} {name : String} {arguments : List Argument}
    {s : Signature} (hs : s ∈ c.initializers name)
    (haccepts : s.acceptsLabels (arguments.map (·.label)) = true)
    (hunique : ∀ s' ∈ c.initializers name,
      s'.acceptsLabels (arguments.map (·.label)) = true → s' = s) :
    overload? (c.members (.metatype (.named name)) "init" true) arguments =
      if s.isStatic then some s else none := by
  rw [c.overload?_init]
  cases hfound : (c.initializers name).find? fun s =>
      s.isStatic && s.acceptsLabels (arguments.map (·.label)) with
  | none =>
    have hnot := List.find?_eq_none.mp hfound s hs
    rw [if_neg (by simpa [haccepts] using hnot)]
  | some s' =>
    -- What is found accepts the labels, so it is the only one that does.
    have hfits := List.find?_some hfound
    obtain ⟨hstatic, hlabels⟩ := Bool.and_eq_true_iff.mp hfits
    obtain rfl := hunique s' (List.mem_of_find?_eq_some hfound) hlabels
    rw [if_pos hstatic]

/-- **A call of a type** makes an instance of it, and the initializer that is found says what its
arguments are asked for. -/
theorem Shape.annotate_typeCall {scope : Scope} {name : String} {callee : Expr}
    (hcallee : callee.shape = .identifier name)
    (hname : scope.typeOf name = .metatype (.named name)) (unwrap : Unwrap)
    (arguments : List Argument) (asked : Option SwiftType) :
    (Shape.suffixed callee unwrap (.call arguments)).annotate scope asked =
      let found := overload? (scope.catalog.members (.metatype (.named name)) "init" true) arguments
      let parameters := (found.map fun s => s.parameters.map (·.type)).getD []
      (.suffixed (callee.annotate scope callee.expected) unwrap
        (.call (argumentsAnnotate scope parameters arguments)), .named name) := by
  have htype : (callee.annotate scope callee.expected).type = .metatype (.named name) := by
    rw [Expr.annotate_eq, hcallee, Shape.annotate, hname]
    rfl
  rw [Shape.annotate_valueCall scope asked unwrap arguments (by simp [hcallee])]
  simp only [htype]
  rfl

/-- **Calls of declared initializers ask for parameters of class methods only.** Let a type declare
an initializer that was generated from a method, and let a call of the type have labels that this
initializer accepts, and no other one in the hierarchy of the type. Where the name of the type means
the type, the call makes an instance of it. Its arguments are asked for the types of the parameters
if the method is a class method; if it is an instance method, they are asked for whatever they were
asked for before. -/
theorem initializer_arguments_asked_by_class_methods_only (g : Graph) (scope : Scope)
    (hcatalog : scope.catalog = .ofGraph g) {t id : DeclId} {d : TypeDecl} {m : MethodDecl}
    (ht : g.get? t = some (.type d)) (hid : id ∈ d.methods) (hm : g.get? id = some (.method m))
    {place : SignaturePlace} {method : MethodDefinition}
    (hsignature : m.signature = place.ofMethod method) (hinit : m.signature.isInitializer = true)
    (hname : scope.LeavesToTypes d.name) {call callee : Expr} {unwrap : Unwrap}
    {arguments : List Argument} (hcall : call.shape = .suffixed callee unwrap (.call arguments))
    (hcallee : callee.shape = .identifier d.name)
    (haccepts : m.signature.acceptsLabels (arguments.map (·.label)) = true)
    (hunique : ∀ s ∈ scope.catalog.initializers d.name,
      s.acceptsLabels (arguments.map (·.label)) = true → s = m.signature)
    (asked : Option SwiftType) :
    let after := call.annotate scope asked
    after.resolved = some (.named d.name) ∧
      ∃ callee' arguments', after.shape = .suffixed callee' unwrap (.call arguments') ∧
        arguments'.map (·.value.expected) =
          if method.isClassMethod then m.signature.parameters.map fun p => some p.type
          else arguments.map (·.value.expected) := by
  intro after
  have hmember : Member.method m.signature ∈ d.knownMembers g := by
    refine List.mem_append_left _ (List.mem_append_right _ (List.mem_filterMap.mpr ⟨id, hid, ?_⟩))
    rw [hm]
    rfl
  have hhas : scope.catalog.HasMember d.name (.method m.signature) :=
    hcatalog ▸ Catalog.hasMember_ofGraph ht hmember
  have htype : scope.typeOf d.name = .metatype (.named d.name) := by
    obtain ⟨entry, hentry, -⟩ := hhas
    exact hname.typeOf_eq hentry
  -- Of the initializers that accept the labels, the call is resolved to this one.
  have hfound := Catalog.overload?_init_of_unique (Catalog.mem_initializers hinit hhas) haccepts
    hunique
  have hstatic : m.signature.isStatic = method.isClassMethod :=
    hsignature ▸ place.isStatic_ofMethod method
  have hafter := Shape.annotate_typeCall hcallee htype unwrap arguments asked
  rw [hfound, hstatic] at hafter
  have heq : after = ⟨_, some _, asked, call.source⟩ := Expr.annotate_eq scope asked call
  rw [hcall, hafter] at heq
  refine ⟨congrArg Expr.resolved heq, _, _, congrArg Expr.shape heq, ?_⟩
  cases method.isClassMethod with
  | false => exact expected_argumentsAnnotate_nil scope arguments
  | true =>
    have hlength : (m.signature.parameters.map (·.type)).length = arguments.length := by
      have hlabels : m.signature.labels = arguments.map (·.label) := by
        simpa [Signature.acceptsLabels] using haccepts
      simpa [Signature.labels] using congrArg List.length hlabels
    exact (expected_argumentsAnnotate scope hlength).trans List.map_map

/-- The method `initWithLimit:`, of the class or of its instances. -/
def initWithLimit (isClassMethod : Bool) : MethodDefinition :=
  ⟨isClassMethod, .void, .keywords [⟨some "initWithLimit", .plain "int", "limit"⟩], none⟩

/-- `Dial` declares a method. -/
def dialInterface (method : MethodDefinition) : ObjcNode :=
  { kind := .globalContext
    children := [{ kind := .classInterface "Dial"
                   children := [{ kind := .methodDefinition method }] }] }

/-- The graph in which `Dial` declares a method. -/
def dialGraph (method : MethodDefinition) : Graph :=
  match Graph.ofTree "Dial.h" (dialInterface method) with
  | .ok (graph, _) => graph
  | .error _ => {}

/-- `Dial(limit: 5)` -/
def dialCall : Expr :=
  (Expr.identifier "Dial").call [⟨some "limit", { shape := .constant (.int 5) }⟩]

/-- What names mean in a function of that graph. -/
def dialScope (method : MethodDefinition) : Scope :=
  .start (.ofGraph (dialGraph method)) {}

theorem initializers_dialScope (isClassMethod : Bool) :
    (dialScope (initWithLimit isClassMethod)).catalog.initializers "Dial" =
      [SignaturePlace.ofMethod {} (initWithLimit isClassMethod)] := by
  obtain ⟨entry, hentry, hsupertype, hconformances, hmembers⟩ : ∃ entry,
      (dialScope (initWithLimit isClassMethod)).catalog.type? "Dial" = some entry ∧
        entry.supertype = none ∧ entry.conformances = [] ∧
        entry.members = [.method (SignaturePlace.ofMethod {} (initWithLimit isClassMethod))] := by
    cases isClassMethod <;> exact ⟨_, rfl, rfl, rfl, rfl⟩
  rw [Catalog.initializers, Catalog.hierarchy_eq_singleton hentry hsupertype hconformances,
    List.flatMap_singleton, hmembers]
  rfl

theorem leavesToTypes_dialScope (isClassMethod : Bool) :
    (dialScope (initWithLimit isClassMethod)).LeavesToTypes "Dial" := by
  cases isClassMethod <;> exact ⟨rfl, rfl, rfl, by decide +kernel⟩

/-- The argument of the call is asked for an `Int32` if `initWithLimit:` is a class method. -/
theorem dial_class_method_asks : ∃ problems callee arguments,
    Graph.ofTree "Dial.h" (dialInterface (initWithLimit true)) =
      .ok (dialGraph (initWithLimit true), problems) ∧
    (dialCall.annotate (dialScope (initWithLimit true)) none).resolved = some (.named "Dial") ∧
    (dialCall.annotate (dialScope (initWithLimit true)) none).shape =
      .suffixed callee .none (.call arguments) ∧
    arguments.map (·.value.expected) = [some (.named "Int32")] := by
  obtain ⟨d, ht, hd, hid⟩ : ∃ d, (dialGraph (initWithLimit true)).get? ⟨1⟩ = some (.type d) ∧
      d.name = "Dial" ∧ ⟨2⟩ ∈ d.methods := ⟨_, rfl, rfl, .head _⟩
  obtain ⟨m, hm, hsignature⟩ : ∃ m, (dialGraph (initWithLimit true)).get? ⟨2⟩ = some (.method m) ∧
      m.signature = SignaturePlace.ofMethod {} (initWithLimit true) := ⟨_, rfl, rfl⟩
  have hcallee : (Expr.identifier "Dial").shape = .identifier d.name := by
    rw [hd]
    rfl
  have hunique : ∀ s ∈ (dialScope (initWithLimit true)).catalog.initializers d.name,
      s.acceptsLabels [some "limit"] = true → s = m.signature := by
    rw [hd, initializers_dialScope, hsignature]
    simp
  obtain ⟨hresolved, callee, arguments, hshape, hexpected⟩ :=
    initializer_arguments_asked_by_class_methods_only (dialGraph (initWithLimit true))
      (dialScope (initWithLimit true)) rfl ht hid hm hsignature (by rw [hsignature]; decide)
      (hd ▸ leavesToTypes_dialScope true) (show dialCall.shape = _ from rfl) hcallee
      (by rw [hsignature]; decide) hunique none
  rw [hd] at hresolved
  rw [hsignature] at hexpected
  exact ⟨_, callee, arguments, rfl, hresolved, hshape, hexpected⟩

/-- **Nothing is asked of the argument** if `initWithLimit:` is an instance method, though it is the
only initializer of the type. -/
theorem dial_instance_method_asks_nothing : ∃ problems callee arguments,
    Graph.ofTree "Dial.h" (dialInterface (initWithLimit false)) =
      .ok (dialGraph (initWithLimit false), problems) ∧
    (dialScope (initWithLimit false)).LeavesToTypes "Dial" ∧
    (dialScope (initWithLimit false)).catalog.initializers "Dial" =
      [⟨"init", [⟨some "limit", "limit", .named "Int32"⟩], .void, false⟩] ∧
    (dialCall.annotate (dialScope (initWithLimit false)) none).shape =
      .suffixed callee .none (.call arguments) ∧
    arguments.map (·.value.expected) = [none] := by
  have hname := leavesToTypes_dialScope false
  have htype : (dialScope (initWithLimit false)).typeOf "Dial" = .metatype (.named "Dial") :=
    hname.typeOf_eq rfl
  have hcallee : (Expr.identifier "Dial").shape = .identifier "Dial" := rfl
  have hcall := Shape.annotate_typeCall hcallee htype .none
    [⟨some "limit", { shape := .constant (.int 5) }⟩] none
  rw [Catalog.overload?_init, initializers_dialScope] at hcall
  exact ⟨_, _, _, rfl, hname, (initializers_dialScope false).trans rfl,
    (Expr.shape_annotate _ none dialCall).trans (congrArg Prod.fst hcall), rfl⟩

end ObjcSwift
