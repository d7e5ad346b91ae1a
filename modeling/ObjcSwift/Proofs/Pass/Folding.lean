import ObjcSwift.Proofs.Selector.Sends
import ObjcSwift.Proofs.Syntax.Settling
import ObjcSwift.Proofs.Typing.Tally
import Mathlib

/-!
# One walk folds every idiom

Idioms are folded in a single walk from the leaves up, and what is put in the place of a node is
never looked at again. Still nothing is left to fold afterwards (`idioms_are_folded_at_once`).

There are two kinds of new nodes that could be idioms themselves, or make one of a node above.

* `T.alloc().init…(…)` becomes `T(…)`. Its chain has a single entry, so it is no idiom. In the chain
  of a node above, there is now one entry where there were two; but the walk decides about the node
  above when it has seen the new entries, so no idiom appears that it misses.
* `if block != nil { block(a) }` becomes `block?(a)`. Its chain is that of the call in the branch,
  up to the way the callee is unwrapped, to which `allocInit` is blind. So it is no idiom if the
  call was none, and the call had been left before.
-/

namespace ObjcSwift

/-! ### Reading chains backwards -/

namespace SuffixChain

variable {links : List SuffixLink}

theorem joinCalls_eq_nil (h : joinCalls links = []) : links = [] := by
  unfold joinCalls at h
  split at h
  · rfl
  all_goals exact absurd h (List.cons_ne_nil _ _)

/-- A method call in a chain stands for a member access and the call after it. -/
theorem joinCalls_eq_method {receiver : Expr} {name : String} {arguments : List Argument}
    {calleeUnwrap unwrap : Unwrap} {entries : List ChainEntry}
    (h : joinCalls links = ⟨receiver, .method name arguments calleeUnwrap, unwrap⟩ :: entries) :
    ∃ callee rest, links = ⟨receiver, unwrap, .member name⟩ ::
      ⟨callee, calleeUnwrap, .call arguments⟩ :: rest ∧ joinCalls rest = entries := by
  unfold joinCalls at h
  split at h
  · exact absurd h (by simp)
  · simp only [List.cons.injEq, ChainEntry.mk.injEq, ChainOperation.method.injEq] at h
    obtain ⟨⟨rfl, ⟨rfl, rfl, rfl⟩, rfl⟩, hrest⟩ := h
    exact ⟨_, _, rfl, hrest⟩
  all_goals simp at h

end SuffixChain

namespace Expr

variable {e : Expr}

/-- The last link of an expression is its outermost suffix. -/
theorem shape_of_links (before : List SuffixLink) {receiver : Expr} {unwrap : Unwrap}
    {suffix : Suffix} (h : e.links = before ++ [⟨receiver, unwrap, suffix⟩]) :
    e.shape = .suffixed receiver unwrap suffix ∧ receiver.links = before := by
  unfold links at h
  split at h
  · obtain ⟨hbefore, hlink⟩ := List.append_inj' h rfl
    simp only [List.cons.injEq, SuffixLink.mk.injEq, and_true] at hlink
    obtain ⟨rfl, rfl, rfl⟩ := hlink
    exact ⟨rfl, hbefore⟩
  · exact absurd h (by simp)

/-- An expression without links is its own root. -/
theorem chainRoot_of_links (h : e.links = []) : e.chainRoot = e := by
  unfold links at h
  split at h
  · exact absurd h (by simp)
  · rename_i hshape
    rw [chainRoot]
    exact hshape

theorem shape_of_identifier? {name : String} (h : e.identifier? = some name) :
    e.shape = .identifier name := by
  unfold identifier? at h
  split at h
  · rename_i hshape
    rw [hshape, Option.some.inj h]
  · exact absurd h (by simp)

end Expr

/-! ### Making objects -/

/-- The expression is `type.alloc().keyword(arguments)`, however its receivers are unwrapped and
whatever stands in the slots of its nodes. -/
structure Makes (type keyword : String) (arguments : List Argument) (e : Expr) : Prop where
  /-- What the message is made of. -/
  shape : ∃ (root member object callee : Expr) (u₁ u₂ u₃ u₄ : Unwrap),
    root.shape = .identifier type ∧ member.shape = .suffixed root u₁ (.member "alloc") ∧
    object.shape = .suffixed member u₂ (.call []) ∧
    callee.shape = .suffixed object u₃ (.member keyword) ∧
    e.shape = .suffixed callee u₄ (.call arguments)
  /-- The receiver is not the object itself. -/
  ne_self : type ≠ "self"
  /-- Nor the object as one of its superclass. -/
  ne_super : type ≠ "super"
  /-- The message is that of an initializer. -/
  initializer : isInitializerName keyword = true

namespace Makes

variable {type keyword : String} {arguments : List Argument} {e : Expr}

theorem chain (h : Makes type keyword arguments e) :
    (SuffixChain.ofExpr e).root.shape = .identifier type ∧
      ∃ (root object : Expr) (u₁ u₂ u₃ u₄ : Unwrap), (SuffixChain.ofExpr e).entries =
        [⟨root, .method "alloc" [] u₂, u₁⟩, ⟨object, .method keyword arguments u₄, u₃⟩] := by
  obtain ⟨root, member, object, callee, u₁, u₂, u₃, u₄, hroot, hmember, hobject, hcallee, he⟩ :=
    h.shape
  constructor
  · rw [SuffixChain.ofExpr, Expr.chainRoot_of_suffixed he, Expr.chainRoot_of_suffixed hcallee,
      Expr.chainRoot_of_suffixed hobject, Expr.chainRoot_of_suffixed hmember,
      Expr.chainRoot_of_identifier hroot, hroot]
  · refine ⟨root, object, u₁, u₂, u₃, u₄, ?_⟩
    rw [SuffixChain.ofExpr, Expr.links_of_suffixed he, Expr.links_of_suffixed hcallee,
      Expr.links_of_suffixed hobject, Expr.links_of_suffixed hmember,
      Expr.links_of_identifier hroot]
    rfl

theorem allocInit (h : Makes type keyword arguments e) : Idiom.allocInit e = true := by
  obtain ⟨hroot, root, object, u₁, u₂, u₃, u₄, hentries⟩ := h.chain
  obtain ⟨_, _, _, _, _, _, _, _, -, -, -, -, he⟩ := h.shape
  have hname : Idiom.typeName (SuffixChain.ofExpr e).root = true := by
    simp [Idiom.typeName, Expr.identifier?, hroot, h.ne_self, h.ne_super]
  simp [Idiom.allocInit, Pattern.chain, Pattern.and, Pattern.root, Pattern.entryCount,
    Pattern.entry, Pattern.method, Pattern.methodWhere, Pattern.elements, SuffixChain.entryAt?,
    Expr.isSuffixed_of_suffixed he, hname, hentries, h.initializer]

theorem construction? (h : Makes type keyword arguments e) : Idiom.construction? e =
    some { (Expr.identifier type).call (Idiom.labelFirst keyword arguments) with
      source := e.source } := by
  obtain ⟨hroot, root, object, u₁, u₂, u₃, u₄, hentries⟩ := h.chain
  simp [Idiom.construction?, Expr.identifier?, hroot, SuffixChain.entryAt?, hentries,
    ChainEntry.memberName?, ChainEntry.arguments?]

/-- The outermost call may be unwrapped in another way, and have other slots. -/
theorem of_call {e' callee : Expr} {u u' : Unwrap} {suffix : Suffix}
    (h : Makes type keyword arguments e) (he : e.shape = .suffixed callee u suffix)
    (he' : e'.shape = .suffixed callee u' suffix) : Makes type keyword arguments e' := by
  obtain ⟨root, member, object, callee', u₁, u₂, u₃, u₄, hroot, hmember, hobject, hcallee, hcall⟩ :=
    h.shape
  rw [he, Shape.suffixed.injEq] at hcall
  obtain ⟨rfl, rfl, rfl⟩ := hcall
  exact ⟨⟨root, member, object, callee, u₁, u₂, u₃, u', hroot, hmember, hobject, hcallee, he'⟩,
    h.ne_self, h.ne_super, h.initializer⟩

end Makes

namespace Idiom

/-- **Only messages to new objects** are of the form `allocInit`. -/
theorem makes_of_allocInit {e : Expr} (h : allocInit e = true) :
    ∃ type keyword arguments, Makes type keyword arguments e := by
  simp only [allocInit, Pattern.chain, Pattern.and, Pattern.root, Pattern.entryCount, Pattern.entry,
    SuffixChain.entryAt?, Bool.and_eq_true, beq_iff_eq, Option.any_eq_true] at h
  obtain ⟨-, ⟨⟨hroot, hcount⟩, first, hfirst, halloc⟩, second, hsecond, hinit⟩ := h
  obtain ⟨type, htype, hnames⟩ := Option.any_eq_true _ _ |>.mp hroot
  simp only [Bool.and_eq_true, bne_iff_ne, ne_eq] at hnames
  -- The two entries are two method calls.
  obtain ⟨entry, entry', hentries⟩ := List.length_eq_two.mp hcount
  obtain rfl : entry = first := by simpa [hentries] using hfirst
  obtain rfl : entry' = second := by simpa [hentries] using hsecond
  obtain ⟨root, operation, u₁⟩ := entry
  obtain ⟨object, operation', u₃⟩ := entry'
  unfold Pattern.method at halloc
  unfold Pattern.methodWhere at hinit
  cases operation with
  | method name args u₂ =>
    cases operation' with
    | method keyword arguments u₄ =>
      simp only [Pattern.elements, List.length_nil, Bool.and_eq_true, beq_iff_eq,
        List.length_eq_zero_iff] at halloc
      obtain ⟨rfl, rfl, -⟩ := halloc
      -- They stand for four links, and the links for four suffixes.
      obtain ⟨member, rest, hlinks, hrest⟩ := SuffixChain.joinCalls_eq_method hentries
      obtain ⟨callee, rest', rfl, hrest'⟩ := SuffixChain.joinCalls_eq_method hrest
      obtain rfl := SuffixChain.joinCalls_eq_nil hrest'
      obtain ⟨hcall, hlinks⟩ := Expr.shape_of_links [_, _, _] hlinks
      obtain ⟨hcallee, hlinks⟩ := Expr.shape_of_links [_, _] hlinks
      obtain ⟨hobject, hlinks⟩ := Expr.shape_of_links [_] hlinks
      obtain ⟨hmember, hlinks⟩ := Expr.shape_of_links [] hlinks
      have hidentifier : root.shape = .identifier type := by
        refine Expr.shape_of_identifier? ?_
        rw [← htype, SuffixChain.ofExpr, Expr.chainRoot_of_suffixed hcall,
          Expr.chainRoot_of_suffixed hcallee, Expr.chainRoot_of_suffixed hobject,
          Expr.chainRoot_of_suffixed hmember, Expr.chainRoot_of_links hlinks]
      exact ⟨type, keyword, arguments, ⟨root, member, object, callee, u₁, u₂, u₃, u₄, hidentifier,
        hmember, hobject, hcallee, hcall⟩, hnames.1, hnames.2, hinit⟩
    | _ => simp at hinit
  | _ => simp at halloc

theorem allocInit_of_not_suffixed {e : Expr}
    (h : ∀ receiver unwrap suffix, e.shape ≠ .suffixed receiver unwrap suffix) :
    allocInit e = false := by
  refine Bool.eq_false_iff.mpr fun hfits => ?_
  obtain ⟨_, _, _, hmakes⟩ := makes_of_allocInit hfits
  obtain ⟨_, _, _, callee, _, _, _, u, -, -, -, -, he⟩ := hmakes.shape
  exact h callee u _ he

/-! ### Nodes with nothing to fold -/

/-- There is nothing to fold at the node. -/
def Folded (catalog : Catalog) : SyntaxNode → Prop
  | .expr e => allocInit e = false
  | .stmt s => foldBranch? catalog s = none

variable {catalog : Catalog}

/-- `T(…)` is no idiom: its chain is too short. -/
theorem allocInit_call_identifier (type : String) (arguments : List Argument)
    (source : Option SourceText) :
    allocInit { (Expr.identifier type).call arguments with source } = false := by
  refine Bool.eq_false_iff.mpr fun hfits => ?_
  obtain ⟨_, _, _, hmakes⟩ := makes_of_allocInit hfits
  obtain ⟨-, _, _, _, _, _, _, hentries⟩ := hmakes.chain
  simp [SuffixChain.ofExpr, Expr.call, Expr.suffixed, Expr.identifier, Expr.links,
    SuffixChain.joinCalls] at hentries

/-- Where the arguments of a message are folded, so is all of the object it makes. -/
theorem settled_construction {type keyword : String} {arguments : List Argument} {e : Expr}
    (h : Makes type keyword arguments e) (hs : e.shape.Settled (Folded catalog)) :
    Expr.Settled (Folded catalog)
      { (Expr.identifier type).call (labelFirst keyword arguments) with source := e.source } := by
  obtain ⟨_, _, _, callee, _, _, _, u, -, -, -, -, he⟩ := h.shape
  have harguments : ∀ value ∈ arguments.map (·.value), value.Settled (Folded catalog) := by
    intro value hvalue
    refine hs.subexpressions value ?_
    rw [he]
    exact List.mem_cons_of_mem _ hvalue
  have htype : (Expr.identifier type).Settled (Folded catalog) :=
    Expr.settled_iff.mpr ⟨allocInit_of_not_suffixed fun _ _ _ => by simp [Expr.identifier],
      List.forall_mem_nil _, List.forall_mem_nil _⟩
  refine Expr.settled_iff.mpr ⟨allocInit_call_identifier type _ _, ?_, List.forall_mem_nil _⟩
  rw [← values_labelFirst keyword] at harguments
  exact List.forall_mem_cons.mpr ⟨htype, harguments⟩

/-- Where the call in a branch is folded, so is the statement that takes the place of the
branch. -/
theorem settled_blockCall {s : Stmt} {call : Expr} (h : foldBranch? catalog s = some call)
    (hs : s.Below (Folded catalog)) : Stmt.Settled (Folded catalog) (.expressions [call]) := by
  unfold foldBranch? at h
  split at h
  · rename_i condition checked
    split at h
    · rename_i callee u arguments hshape
      split_ifs at h
      obtain rfl := Option.some.inj h
      -- The call that was checked stands in the only statement of the only body.
      have hstmt := hs.bodies [.expressions [checked]] List.mem_cons_self (.expressions [checked])
        List.mem_cons_self
      have hchecked := (Stmt.settled_iff.mp hstmt).2.subexpressions checked List.mem_cons_self
      obtain ⟨hidiom, hbelow⟩ := Expr.settled_iff.mp hchecked
      refine Stmt.settled_iff.mpr ⟨rfl, List.forall_mem_singleton.mpr ?_, List.forall_mem_nil _⟩
      refine Expr.settled_iff.mpr ⟨Bool.eq_false_iff.mpr fun hfits => ?_, ?_, List.forall_mem_nil _⟩
      · obtain ⟨_, _, _, hmakes⟩ := makes_of_allocInit hfits
        exact absurd (hmakes.of_call rfl hshape).allocInit (Bool.eq_false_iff.mp hidiom)
      · have hsubexpressions := hbelow.subexpressions
        rw [hshape] at hsubexpressions
        exact hsubexpressions
    · exact absurd h (by simp)
  · exact absurd h (by simp)

/-! ### The walk -/

variable (catalog)

/-- After the walk there is nothing to fold at any node. -/
theorem settles_folder : (folder catalog).Settles (Folded catalog) where
  skip_eq _ := rfl
  exitExpr e count hs := by
    by_cases h : allocInit e = true
    · obtain ⟨type, keyword, arguments, hmakes⟩ := makes_of_allocInit h
      rw [exitExpr_of_foldExpr?_eq_some catalog
        (by rw [foldExpr?, if_pos h, hmakes.construction?])]
      exact settled_construction hmakes hs
    · rw [exitExpr_of_foldExpr?_eq_none catalog (by rw [foldExpr?, if_neg h])]
      exact Expr.settled_iff.mpr ⟨Bool.eq_false_iff.mpr h, hs⟩
  exitStmt s count hs := by
    simp only [folder]
    split
    · rename_i call h
      exact settled_blockCall h hs
    · rename_i h
      exact Stmt.settled_iff.mpr ⟨h, hs⟩

/-- Where there is nothing to fold, the walk does nothing. -/
theorem restsOn_folder : (folder catalog).RestsOn (Folded catalog) where
  enter_eq _ _ := rfl
  exitExpr e count h := by
    refine exitExpr_of_foldExpr?_eq_none catalog ?_ count
    rw [foldExpr?, if_neg (Bool.eq_false_iff.mp h)]
  exitStmt s count h := by
    have h : foldBranch? catalog s = none := h
    simp only [folder, h]

end Idiom

/-- **One walk folds every idiom.** After a body is walked once, no expression in it makes an object
by `alloc` and an initializer, be it in an argument, in a nested statement or in a block. Walking
the result again counts nothing and gives the very same body, slots included. The first walk has
counted nothing exactly if it has changed nothing. -/
theorem idioms_are_folded_at_once (catalog : Catalog) (body : Body) (count : Nat) :
    let folded := Idiom.foldBody catalog body count
    (∀ e ∈ Body.allExpressions folded.1, Idiom.allocInit e = false) ∧
      (∀ count', Idiom.foldBody catalog folded.1 count' = (folded.1, count')) ∧
      (folded.2 = count ↔ folded.1 = body) := by
  intro folded
  have hsettled : ∀ s ∈ folded.1, s.Settled (Idiom.Folded catalog) :=
    settled_bodyEdit (Idiom.settles_folder catalog) body count
  have hrests : ∀ count', Idiom.foldBody catalog folded.1 count' = (folded.1, count') :=
    fun count' => bodyEdit_of_settled (Idiom.restsOn_folder catalog) folded.1 count' hsettled
  refine ⟨?_, hrests, (tally_bodyEdit (Idiom.counts_folder catalog) body count).eq_of_eq, ?_⟩
  · refine Body.forall_mem_allExpressions_iff.mpr fun s hs => ?_
    exact (hsettled s hs).everywhere fun _ h => h
  · -- A body that the walk gives back has been walked once already.
    intro hbody
    have hfolded := hrests count
    rw [hbody] at hfolded
    exact congrArg Prod.snd hfolded

/-- `if done { if done { done(T.alloc().init()) } }` -/
def nestedChecks : Body :=
  [.branch (.identifier "done") [.branch (.identifier "done")
    [.expressions [(Expr.identifier "done").call
      [⟨none, (((Expr.identifier "T").dot "alloc").call []).dot "init" |>.call []⟩]]] none] none]

-- What the inner branch becomes, `done?(T())`, is folded into the outer one in the same walk.
example : (Idiom.foldBody {} nestedChecks 0).2 = 3 := by decide +kernel

end ObjcSwift
