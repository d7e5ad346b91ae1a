import ObjcSwift.Pass.Idiom
import ObjcSwift.Proofs.Selector.Naming
import ObjcSwift.Proofs.Syntax.Walks

/-!
# Messages and the methods they are meant for

A method and the messages that send its selector are renamed in different places: the method when
its signature is made (`SignaturePlace.ofMethod`), a message to a new object when idioms are folded
(`Idiom.folder`). Each place has its own rule for the word after `initWith`, and the two have to
agree, as otherwise a call would not find its method any more.

They do, for every selector (`folded_sends_fit_signatures`). **Labels** are all that is at stake:
the folder reads an expression as a chain of suffixes, and for a message `T.alloc().k(…)` that chain
is two method calls on a name, whatever `k` and the arguments are. So it is the name `k` alone that
decides whether the message is folded, and the arguments are folded on their own beforehand, with
the labels they have.
-/

namespace ObjcSwift

/-! ### Messages to a new object -/

/-- The expression is `type.alloc()`, whatever stands in the slots of its nodes. -/
def IsAllocation (type : String) (e : Expr) : Prop :=
  ∃ root member : Expr, root.shape = .identifier type ∧
    member.shape = .suffixed root .none (.member "alloc") ∧
    e.shape = .suffixed member .none (.call [])

/-- The expression is `type.alloc().keyword(arguments)`, whatever stands in the slots of its
nodes. -/
def IsSend (type keyword : String) (arguments : List Argument) (e : Expr) : Prop :=
  ∃ object member : Expr, IsAllocation type object ∧
    member.shape = .suffixed object .none (.member keyword) ∧
    e.shape = .suffixed member .none (.call arguments)

/-- The labels of the arguments in a message: the first argument has none, and each of the others
has its keyword, unless that is missing or empty. -/
def Selector.sentLabels : Selector → List (Option String)
  | simple _ | keywords [] => []
  | keywords (_ :: rest) =>
    none :: rest.map fun part => if part.word = "" then none else some part.word

/-! ### Reading messages as chains -/

namespace Expr

variable {e receiver : Expr} {unwrap : Unwrap} {suffix : Suffix}

theorem links_of_suffixed (h : e.shape = .suffixed receiver unwrap suffix) :
    e.links = receiver.links ++ [⟨receiver, unwrap, suffix⟩] := by
  obtain ⟨shape, _, _, _⟩ := e
  subst h
  rw [links]

theorem chainRoot_of_suffixed (h : e.shape = .suffixed receiver unwrap suffix) :
    e.chainRoot = receiver.chainRoot := by
  obtain ⟨shape, _, _, _⟩ := e
  subst h
  rw [chainRoot]

theorem isSuffixed_of_suffixed (h : e.shape = .suffixed receiver unwrap suffix) :
    e.isSuffixed = true := by
  simp [isSuffixed, suffix?, h]

variable {name : String}

theorem links_of_identifier (h : e.shape = .identifier name) : e.links = [] := by
  obtain ⟨shape, _, _, _⟩ := e
  subst h
  simp [links]

theorem chainRoot_of_identifier (h : e.shape = .identifier name) : e.chainRoot = e := by
  obtain ⟨shape, _, _, _⟩ := e
  subst h
  simp [chainRoot]

end Expr

/-- The root of `type.alloc()` is the name, and its two links are one entry. -/
theorem IsAllocation.chain {type : String} {object : Expr} (h : IsAllocation type object) :
    object.chainRoot.shape = .identifier type ∧ ∃ root member : Expr,
      object.links = [⟨root, .none, .member "alloc"⟩, ⟨member, .none, .call []⟩] := by
  obtain ⟨root, member, hroot, hmember, hcall⟩ := h
  constructor
  · rw [Expr.chainRoot_of_suffixed hcall, Expr.chainRoot_of_suffixed hmember,
      Expr.chainRoot_of_identifier hroot, hroot]
  · refine ⟨root, member, ?_⟩
    rw [Expr.links_of_suffixed hcall, Expr.links_of_suffixed hmember,
      Expr.links_of_identifier hroot]
    rfl

/-- A message is two method calls on a name, one after the other. -/
theorem IsSend.chain {type keyword : String} {arguments : List Argument} {e : Expr}
    (h : IsSend type keyword arguments e) :
    (SuffixChain.ofExpr e).root.shape = .identifier type ∧ ∃ root object : Expr,
      (SuffixChain.ofExpr e).entries = [⟨root, .method "alloc" [] .none, .none⟩,
        ⟨object, .method keyword arguments .none, .none⟩] := by
  obtain ⟨object, member, hobject, hmember, hcall⟩ := h
  obtain ⟨hroot, root, allocated, hlinks⟩ := hobject.chain
  constructor
  · rw [SuffixChain.ofExpr, Expr.chainRoot_of_suffixed hcall, Expr.chainRoot_of_suffixed hmember,
      hroot]
  · refine ⟨root, object, ?_⟩
    rw [SuffixChain.ofExpr, Expr.links_of_suffixed hcall, Expr.links_of_suffixed hmember, hlinks]
    rfl

/-! ### What is folded -/

namespace Idiom

/-- Only chains of two entries whose second is a method call are folded. -/
theorem foldExpr?_eq_none_of_entries {e : Expr}
    (h : ∀ first receiver name arguments calleeUnwrap unwrap, (SuffixChain.ofExpr e).entries ≠
      [first, ⟨receiver, .method name arguments calleeUnwrap, unwrap⟩]) : foldExpr? e = none := by
  rw [foldExpr?, if_neg]
  intro hfits
  simp only [allocInit, Pattern.chain, Pattern.and, Pattern.entryCount, Pattern.entry,
    SuffixChain.entryAt?, Bool.and_eq_true, beq_iff_eq, Option.any_eq_true] at hfits
  obtain ⟨-, ⟨⟨-, hcount⟩, -⟩, second, hsecond, hmethod⟩ := hfits
  obtain ⟨first, second', hentries⟩ := List.length_eq_two.mp hcount
  obtain rfl : second' = second := by simpa [hentries] using hsecond
  unfold Pattern.methodWhere at hmethod
  obtain ⟨receiver, operation, unwrap⟩ := second'
  cases operation with
  | method name arguments calleeUnwrap => exact h _ _ _ _ _ _ hentries
  | _ => simp at hmethod

/-- A message to a new object is folded if and only if its name is that of an initializer. -/
theorem allocInit_send {type keyword : String} {arguments : List Argument} {e : Expr}
    (h : IsSend type keyword arguments e) (hself : type ≠ "self") (hsuper : type ≠ "super") :
    allocInit e = isInitializerName keyword := by
  obtain ⟨hroot, root, object, hentries⟩ := h.chain
  obtain ⟨object', member, hobject, hmember, hcall⟩ := h
  have hname : typeName (SuffixChain.ofExpr e).root = true := by
    simp [typeName, Expr.identifier?, hroot, hself, hsuper]
  simp [allocInit, Pattern.chain, Pattern.and, Pattern.root, Pattern.entryCount, Pattern.entry,
    Pattern.method, Pattern.methodWhere, Pattern.elements, SuffixChain.entryAt?,
    Expr.isSuffixed_of_suffixed hcall, hname, hentries]

theorem construction?_send {type keyword : String} {arguments : List Argument} {e : Expr}
    (h : IsSend type keyword arguments e) : construction? e =
      some
        { (Expr.identifier type).call (labelFirst keyword arguments) with source := e.source } := by
  obtain ⟨hroot, root, object, hentries⟩ := h.chain
  simp [construction?, Expr.identifier?, hroot, SuffixChain.entryAt?, hentries,
    ChainEntry.memberName?, ChainEntry.arguments?]

theorem foldExpr?_send {type keyword : String} {arguments : List Argument} {e : Expr}
    (h : IsSend type keyword arguments e) (hself : type ≠ "self") (hsuper : type ≠ "super") :
    foldExpr? e = if isInitializerName keyword then
      some { (Expr.identifier type).call (labelFirst keyword arguments) with source := e.source }
    else none := by
  rw [foldExpr?, allocInit_send h hself hsuper, construction?_send h]

/-! ### Folding from the leaves up -/

variable (catalog : Catalog)

theorem with_shape_eq {e : Expr} {shape : Shape} (h : e.shape = shape) :
    { e with shape := shape } = e := by
  obtain ⟨_, _, _, _⟩ := e
  subst h
  rfl

/-- An expression is folded after its children. -/
theorem edit_folder (e : Expr) (count : Nat) : e.edit (folder catalog) count =
    (folder catalog).exitExpr { e with shape := (e.shape.edit (folder catalog) count).1 }
      (e.shape.edit (folder catalog) count).2 := by
  obtain ⟨shape, resolved, expected, source⟩ := e
  rfl

theorem exitExpr_of_foldExpr?_eq_none {e : Expr} (h : foldExpr? e = none) (count : Nat) :
    (folder catalog).exitExpr e count = (e, count) := by
  simp [folder, h]

theorem exitExpr_of_foldExpr?_eq_some {e folded : Expr} (h : foldExpr? e = some folded)
    (count : Nat) : (folder catalog).exitExpr e count = (folded, count + 1) := by
  simp [folder, h]

variable {catalog} {e receiver : Expr} {count : Nat} {unwrap : Unwrap} {suffix : Suffix}

/-- Where nothing is folded in the receiver, it is the suffix that is folded next. -/
theorem edit_suffixed (he : e.shape = .suffixed receiver unwrap suffix)
    (hreceiver : receiver.edit (folder catalog) count = (receiver, count)) :
    e.edit (folder catalog) count = (folder catalog).exitExpr
      { e with shape := .suffixed receiver unwrap (suffix.edit (folder catalog) count).1 }
      (suffix.edit (folder catalog) count).2 := by
  rw [edit_folder, he, Shape.edit, hreceiver]

theorem edit_eq_self (he : e.shape = .suffixed receiver unwrap suffix)
    (hreceiver : receiver.edit (folder catalog) count = (receiver, count))
    (hsuffix : suffix.edit (folder catalog) count = (suffix, count))
    (hfold : foldExpr? e = none) : e.edit (folder catalog) count = (e, count) := by
  rw [edit_suffixed he hreceiver, hsuffix, with_shape_eq he,
    exitExpr_of_foldExpr?_eq_none catalog hfold]

variable (catalog count)

/-- Nothing is folded in `type.alloc()`: the chains of it and of what it consists of are too
short. -/
theorem edit_allocation {type : String} {object : Expr} (h : IsAllocation type object) :
    object.edit (folder catalog) count = (object, count) := by
  obtain ⟨root, member, hroot, hmember, hcall⟩ := h
  have hedit : root.edit (folder catalog) count = (root, count) := by
    have hfold : foldExpr? root = none := by
      refine foldExpr?_eq_none_of_entries fun _ _ _ _ _ _ hentries => ?_
      simp [SuffixChain.ofExpr, Expr.links_of_identifier hroot, SuffixChain.joinCalls] at hentries
    rw [edit_folder, hroot, Shape.edit, with_shape_eq hroot,
      exitExpr_of_foldExpr?_eq_none catalog hfold]
  have hedit' : member.edit (folder catalog) count = (member, count) := by
    refine edit_eq_self hmember hedit rfl (foldExpr?_eq_none_of_entries fun _ _ _ _ _ _ h => ?_)
    simp [SuffixChain.ofExpr, Expr.links_of_suffixed hmember, Expr.links_of_identifier hroot,
      SuffixChain.joinCalls] at h
  refine edit_eq_self hcall hedit' rfl (foldExpr?_eq_none_of_entries fun _ _ _ _ _ _ h => ?_)
  simp [SuffixChain.ofExpr, Expr.links_of_suffixed hcall, Expr.links_of_suffixed hmember,
    Expr.links_of_identifier hroot, SuffixChain.joinCalls] at h

/-- A message is folded once its arguments are. -/
theorem edit_send {type keyword : String} {arguments : List Argument}
    (h : IsSend type keyword arguments e) : ∃ e' : Expr,
      IsSend type keyword (argumentsEdit (folder catalog) arguments count).1 e' ∧
      e'.source = e.source ∧
      e.edit (folder catalog) count =
        (folder catalog).exitExpr e' (argumentsEdit (folder catalog) arguments count).2 := by
  obtain ⟨object, member, hobject, hmember, hcall⟩ := h
  have hedit : member.edit (folder catalog) count = (member, count) := by
    refine edit_eq_self hmember (edit_allocation catalog count hobject) rfl
      (foldExpr?_eq_none_of_entries fun _ _ _ _ _ _ h => ?_)
    -- The member is not called yet, so the second entry is no method call.
    obtain ⟨-, root, allocated, hlinks⟩ := hobject.chain
    simp [SuffixChain.ofExpr, Expr.links_of_suffixed hmember, hlinks, SuffixChain.joinCalls] at h
  let arguments' := (argumentsEdit (folder catalog) arguments count).1
  refine ⟨{ e with shape := .suffixed member .none (.call arguments') }, ?_, rfl, ?_⟩
  · exact ⟨object, member, hobject, hmember, rfl⟩
  · rw [edit_suffixed hcall hedit, Suffix.edit]

end Idiom

/-! ### The label of the first argument -/

namespace Idiom

theorem values_labelFirst (initializer : String) (arguments : List Argument) :
    (labelFirst initializer arguments).map (·.value) = arguments.map (·.value) := by
  unfold labelFirst
  split <;> rfl

/-- The two rules for the word after `initWith` agree on the names of initializers, where the word
is never empty. -/
theorem map_lowerFirst_afterInitWith? {name : String} (h : isInitializerName name = true) :
    (afterInitWith? name).map Text.lowerFirst = initializerLabel? name := by
  rcases isInitializerName_iff.mp h with rfl | ⟨word, hword, rfl⟩
  · decide
  · rw [initializerLabel?_initWith hword, afterInitWith?_eq_some.mpr rfl, Option.map_some]

end Idiom

namespace Selector

theorem sentLabels_eq_declaredLabels {s : Selector} (h : isInitializerName s.head = false) :
    s.sentLabels = s.declaredLabels := by
  match s with
  | .simple _ | .keywords [] => rfl
  | .keywords (first :: rest) =>
    change isInitializerName first.word = false at h
    simp [sentLabels, declaredLabels, h, SignaturePlace.keywordLabel?_eq]

/-- Once the first argument of an initializer has its label, a message has the labels that the
method declares. -/
theorem labels_labelFirst {s : Selector} {arguments : List Argument}
    (h : isInitializerName s.head = true) (hlabels : arguments.map (·.label) = s.sentLabels) :
    (Idiom.labelFirst s.head arguments).map (·.label) = s.declaredLabels := by
  match s with
  | .simple _ | .keywords [] =>
    obtain rfl : arguments = [] := by simpa [sentLabels] using hlabels
    rfl
  | .keywords (first :: rest) =>
    change isInitializerName first.word = true at h
    cases arguments with
    | nil => exact absurd hlabels (by simp [sentLabels])
    | cons argument others =>
      obtain ⟨label, value⟩ := argument
      simp only [sentLabels, List.map_cons, List.cons.injEq] at hlabels
      obtain ⟨rfl, hothers⟩ := hlabels
      simp [head, Idiom.labelFirst, declaredLabels, h, Idiom.map_lowerFirst_afterInitWith? h,
        hothers, SignaturePlace.keywordLabel?_eq]

end Selector

/-! ### Messages and methods -/

/-- **Messages still fit their methods.** Send the selector of a method to a new object of a named
type, with the labels that the selector asks for and any arguments. The arguments keep their labels
when the idioms in them are folded. If the method is an initializer, the message becomes `T(…)`: its
signature is named `init`, and it takes the labels that the call now has. If not, the message is
still that message, the name of the signature is the name sent, and it takes the labels as they
were. -/
theorem folded_sends_fit_signatures (catalog : Catalog) (place : SignaturePlace)
    (m : MethodDefinition) {type : String} (hself : type ≠ "self") (hsuper : type ≠ "super")
    {arguments : List Argument} (hlabels : arguments.map (·.label) = m.selector.sentLabels)
    {e : Expr} (hsend : IsSend type m.selector.head arguments e) (count : Nat) :
    ∃ folded count', argumentsEdit (Idiom.folder catalog) arguments count = (folded, count') ∧
      folded.map (·.label) = arguments.map (·.label) ∧
      if isInitializerName m.selector.head then
        ∃ arguments', e.edit (Idiom.folder catalog) count =
            ({ (Expr.identifier type).call arguments' with source := e.source }, count' + 1) ∧
          arguments'.length = arguments.length ∧
          arguments'.map (·.value) = folded.map (·.value) ∧
          (place.ofMethod m).name = "init" ∧
          (place.ofMethod m).acceptsLabels (arguments'.map (·.label)) = true
      else
        ∃ e', e.edit (Idiom.folder catalog) count = (e', count') ∧
          IsSend type m.selector.head folded e' ∧
          (place.ofMethod m).name = m.selector.head ∧
          (place.ofMethod m).acceptsLabels (arguments.map (·.label)) = true := by
  have hfolded := labels_argumentsEdit (Idiom.folder catalog) arguments count
  obtain ⟨e', hsend', hsource, hedit⟩ := Idiom.edit_send catalog count hsend
  have hfold := Idiom.foldExpr?_send hsend' hself hsuper
  generalize argumentsEdit (Idiom.folder catalog) arguments count = result at *
  obtain ⟨folded, count'⟩ := result
  refine ⟨folded, count', rfl, hfolded, ?_⟩
  split_ifs with hinit
  · have hvalues := Idiom.values_labelFirst m.selector.head folded
    refine ⟨Idiom.labelFirst m.selector.head folded, ?_, ?_, hvalues, ?_, ?_⟩
    · rw [if_pos hinit, hsource] at hfold
      rw [hedit, Idiom.exitExpr_of_foldExpr?_eq_some catalog hfold]
    · have hlength := congrArg List.length hvalues
      have hlength' := congrArg List.length hfolded
      simp only [List.length_map] at hlength hlength'
      rw [hlength, hlength']
    · rw [SignaturePlace.name_ofMethod, swiftName, if_pos hinit]
    · rw [Signature.acceptsLabels, SignaturePlace.labels_ofMethod, beq_iff_eq,
        Selector.labels_labelFirst hinit (hfolded.trans hlabels)]
  · refine ⟨e', ?_, hsend', ?_, ?_⟩
    · rw [if_neg hinit] at hfold
      rw [hedit, Idiom.exitExpr_of_foldExpr?_eq_none catalog hfold]
    · rw [SignaturePlace.name_ofMethod, swiftName, if_neg hinit]
    · rw [Signature.acceptsLabels, SignaturePlace.labels_ofMethod, beq_iff_eq, hlabels,
        Selector.sentLabels_eq_declaredLabels (Bool.eq_false_iff.mpr hinit)]

/-- `- (id)initWithFrame:(id)frame :(id)layer style:(id)style`, whose second keyword is missing. -/
def frameInitializer : MethodDefinition :=
  ⟨false, .id [], .keywords [⟨some "initWithFrame", .id [], "frame"⟩, ⟨none, .id [], "layer"⟩,
    ⟨some "style", .id [], "style"⟩], none⟩

/-- `View.alloc().initWithFrame(f, Layer.alloc().init(), style: g)` -/
def frameMessage : Expr :=
  (((Expr.identifier "View").dot "alloc").call []).dot "initWithFrame" |>.call
    [⟨none, .identifier "f"⟩,
      ⟨none, (((Expr.identifier "Layer").dot "alloc").call []).dot "init" |>.call []⟩,
      ⟨some "style", .identifier "g"⟩]

/-- The message becomes `View(frame: f, Layer(), style: g)`. -/
theorem folded_sends_fit_signatures_frame :
    ∃ arguments count, frameMessage.edit (Idiom.folder {}) 0 =
        ((Expr.identifier "View").call arguments, count) ∧ arguments.length = 3 ∧
      (SignaturePlace.ofMethod {} frameInitializer).acceptsLabels (arguments.map (·.label)) =
        true := by
  have hsend : IsSend "View" frameInitializer.selector.head
      [⟨none, .identifier "f"⟩,
        ⟨none, (((Expr.identifier "Layer").dot "alloc").call []).dot "init" |>.call []⟩,
        ⟨some "style", .identifier "g"⟩] frameMessage :=
    ⟨_, _, ⟨_, _, rfl, rfl, rfl⟩, rfl, rfl⟩
  obtain ⟨folded, count, -, -, h⟩ := folded_sends_fit_signatures {} {} frameInitializer
    (by decide) (by decide) rfl hsend 0
  rw [if_pos (by decide)] at h
  obtain ⟨arguments, hedit, hlength, -, -, hlabels⟩ := h
  exact ⟨arguments, count + 1, hedit, hlength, hlabels⟩

end ObjcSwift
