import ObjcSwift.Proofs.Reading.Formulas
import ObjcSwift.Proofs.Syntax.Shapes
import ObjcSwift.Swift.SuffixChain

/-!
# Chains lose nothing

A chain can be applied again: to its root the first entry, to what comes out the second one, and so
on. This gives the expression back that the chain was read from, and on the way the receivers of the
entries (`SuffixChain.chains_lose_nothing`). Only the slots of the suffixes themselves are lost, as
a chain does not keep them.

The links of an expression follow one another: each is applied to what the links before it make of
the root. Joining a member access with the call after it skips a link, and drops the receiver that
the call had; what is left still follows one another, in bigger steps (`SuffixChain.Follow`).
-/

namespace ObjcSwift

/-! ### The same up to slots -/

/-- Two expressions that differ at most in slots. -/
structure Expr.Agrees (a b : Expr) : Prop where
  /-- They are the same when their slots are emptied. -/
  plain_eq : a.plain = b.plain
  /-- They are of the same shapes. -/
  sameShape_eq : ∀ x, a.sameShape x = b.sameShape x

namespace Expr.Agrees

variable {a b c : Expr}

theorem refl (a : Expr) : a.Agrees a :=
  ⟨rfl, fun _ => rfl⟩

theorem trans (h : a.Agrees b) (h' : b.Agrees c) : a.Agrees c :=
  ⟨h.plain_eq.trans h'.plain_eq, fun x => (h.sameShape_eq x).trans (h'.sameShape_eq x)⟩

/-- The slots of an expression do not matter. -/
theorem of_shape (h : a.shape = b.shape) : a.Agrees b := by
  obtain ⟨shape, _, _, _⟩ := a
  obtain ⟨_, _, _, _⟩ := b
  obtain rfl : shape = _ := h
  refine ⟨rfl, fun x => ?_⟩
  obtain ⟨_, _, _, _⟩ := x
  rw [sameShape, sameShape]

/-- An expression without a NaN is of the shape of what agrees with it. -/
theorem sameShape (h : a.Agrees b) (hb : b.NaNFree) : a.sameShape b = true := by
  rw [h.sameShape_eq, b.sameShape_self hb]

end Expr.Agrees

/-! ### Applying suffixes -/

/-- The expression with a suffix applied to it, unwrapped before. -/
def Expr.suffixedBy (e : Expr) (unwrap : Unwrap) (suffix : Suffix) : Expr :=
  (e.suffixed suffix).withUnwrap unwrap

/-- What a link makes of an expression in the place of its receiver. -/
def SuffixLink.applyTo (link : SuffixLink) (e : Expr) : Expr :=
  e.suffixedBy link.unwrap link.suffix

/-- What an entry makes of an expression in the place of its receiver. The call of a method is the
access of the member, and then a call. -/
def ChainEntry.applyTo (entry : ChainEntry) (e : Expr) : Expr :=
  match entry.operation with
  | .member name => e.suffixedBy entry.unwrap (.member name)
  | .method name arguments calleeUnwrap =>
    (e.suffixedBy entry.unwrap (.member name)).suffixedBy calleeUnwrap (.call arguments)
  | .call arguments => e.suffixedBy entry.unwrap (.call arguments)
  | .subscript index => e.suffixedBy entry.unwrap (.subscript index)

theorem Expr.suffixedBy_eq (e : Expr) (unwrap : Unwrap) (suffix : Suffix) :
    e.suffixedBy unwrap suffix = { shape := .suffixed e unwrap suffix } := rfl

/-- The slots of a receiver do not matter. -/
theorem Expr.Agrees.suffixedBy {a b : Expr} (h : a.Agrees b) (unwrap : Unwrap) (suffix : Suffix) :
    (a.suffixedBy unwrap suffix).Agrees (b.suffixedBy unwrap suffix) := by
  rw [suffixedBy_eq, suffixedBy_eq]
  refine ⟨?_, fun x => ?_⟩
  · rw [plain_mk, plain_mk, Shape.plain_suffixed, Shape.plain_suffixed, h.plain_eq]
  · obtain ⟨shape, _, _, _⟩ := x
    rw [Expr.sameShape, Expr.sameShape]
    cases shape with
    | suffixed receiver _ _ => rw [Shape.same, Shape.same, h.sameShape_eq receiver]
    | _ => simp [Shape.same]

/-! ### Steps that follow one another -/

section Follow

variable {α : Type} (receiver : α → Expr) (apply : α → Expr → Expr)

/-- Every step is applied to what the steps before it make of the root. -/
def Follow : Expr → List α → Prop
  | _, [] => True
  | root, step :: rest => root.Agrees (receiver step) ∧ Follow (apply step root) rest

variable {receiver apply}

theorem follow_append {root : Expr} {steps rest : List α} :
    Follow receiver apply root (steps ++ rest) ↔ Follow receiver apply root steps ∧
      Follow receiver apply (steps.foldl (fun e step => apply step e) root) rest := by
  induction steps generalizing root with
  | nil => simp [Follow]
  | cons step steps ih => simp [Follow, ih, and_assoc]

end Follow

/-- The links of an expression follow one another from its root, up to the expression. -/
theorem Expr.follow_links (e : Expr) :
    Follow SuffixLink.receiver SuffixLink.applyTo e.chainRoot e.links ∧
      (e.links.foldl (fun e link => link.applyTo e) e.chainRoot).Agrees e := by
  fun_induction Expr.links e with
  | case1 receiver unwrap suffix resolved expected source ih =>
    rw [chainRoot, follow_append, List.foldl_append]
    refine ⟨⟨ih.1, ih.2, trivial⟩, ?_⟩
    exact (ih.2.suffixedBy unwrap suffix).trans (.of_shape rfl)
  | case2 e hshape =>
    have hroot : e.chainRoot = e := by
      rw [chainRoot]
      exact hshape
    rw [hroot]
    exact ⟨trivial, .refl e⟩

namespace SuffixChain

/-- The expression that entries make of a root, one after the other. -/
def rebuild (root : Expr) (entries : List ChainEntry) : Expr :=
  entries.foldl (fun e entry => entry.applyTo e) root

/-- **Joining calls changes the steps, and not where they lead.** -/
theorem follow_joinCalls {root : Expr} {links : List SuffixLink}
    (h : Follow SuffixLink.receiver SuffixLink.applyTo root links) :
    Follow ChainEntry.receiver ChainEntry.applyTo root (joinCalls links) ∧
      rebuild root (joinCalls links) = links.foldl (fun e link => link.applyTo e) root := by
  fun_induction joinCalls links generalizing root with
  | case1 => exact ⟨trivial, rfl⟩
  | case2 receiver unwrap name callee calleeUnwrap arguments rest ih =>
    -- Two links are one entry here, and the receiver of the second link is not kept.
    obtain ⟨hreceiver, -, hrest⟩ := h
    exact ⟨⟨hreceiver, (ih hrest).1⟩, (ih hrest).2⟩
  | case3 receiver unwrap name rest hrest ih => exact ⟨⟨h.1, (ih h.2).1⟩, (ih h.2).2⟩
  | case4 receiver unwrap arguments rest ih => exact ⟨⟨h.1, (ih h.2).1⟩, (ih h.2).2⟩
  | case5 receiver unwrap index rest ih => exact ⟨⟨h.1, (ih h.2).1⟩, (ih h.2).2⟩

/-! ### Neighbours in a chain -/

/-- The first entry is a plain call only if the first link is a call. -/
theorem exists_call_of_head?_joinCalls {links : List SuffixLink} {entry : ChainEntry}
    {arguments : List Argument} (h : entry ∈ (joinCalls links).head?)
    (hcall : entry.operation = .call arguments) :
    ∃ receiver unwrap rest, links = ⟨receiver, unwrap, .call arguments⟩ :: rest := by
  unfold joinCalls at h
  split at h
  all_goals
    simp only [List.head?_cons, List.head?_nil, Option.mem_some_iff, Option.not_mem_none] at h
  all_goals subst h
  all_goals simp_all

/-- **No member access is called right after it**, as the two are joined. -/
theorem isChain_joinCalls (links : List SuffixLink) :
    (joinCalls links).IsChain fun entry next =>
      entry.isMember = true → ∀ arguments, next.operation ≠ .call arguments := by
  fun_induction joinCalls links with
  | case1 => exact .nil
  | case2 receiver unwrap name callee calleeUnwrap arguments rest ih =>
    exact .cons ih fun next _ hmember => by simp [ChainEntry.isMember] at hmember
  | case3 receiver unwrap name rest hrest ih =>
    refine .cons ih fun next hnext _ arguments hcall => ?_
    obtain ⟨callee, calleeUnwrap, rest', rfl⟩ := exists_call_of_head?_joinCalls hnext hcall
    exact hrest callee calleeUnwrap arguments rest' rfl
  | case4 receiver unwrap arguments rest ih =>
    exact .cons ih fun next _ hmember => by simp [ChainEntry.isMember] at hmember
  | case5 receiver unwrap index rest ih =>
    exact .cons ih fun next _ hmember => by simp [ChainEntry.isMember] at hmember

theorem isSome_entryAt?_iff (chain : SuffixChain) (position : Nat) :
    (chain.entryAt? position).isSome = true ↔ 1 ≤ position ∧ position ≤ chain.entries.length := by
  cases position with
  | zero => simp [entryAt?]
  | succ position =>
    simp only [entryAt?, Option.isSome_iff_ne_none, ne_eq, List.getElem?_eq_none_iff]
    omega

end SuffixChain

theorem Expr.isSuffixed_chainRoot (e : Expr) : e.chainRoot.isSuffixed = false := by
  fun_induction Expr.chainRoot e with
  | case1 receiver unwrap suffix resolved expected source ih => exact ih
  | case2 e hshape =>
    obtain ⟨shape, resolved, expected, source⟩ := e
    cases shape with
    | suffixed receiver unwrap suffix =>
      exact absurd rfl (hshape receiver unwrap suffix resolved expected source)
    | _ => rfl

/-! ### Chains -/

namespace SuffixChain

/-- **Chains lose nothing.** The root of a chain is no suffix expression. The entries, applied to
the root from left to right, make the expression again, up to slots: the ways in which receivers are
unwrapped are there. The entries before an entry make its receiver. No plain member access is
followed by a plain call, and the positions of entries are the numbers from one to their count. -/
theorem chains_lose_nothing (e : Expr) :
    let chain := ofExpr e
    chain.root.isSuffixed = false ∧
    (rebuild chain.root chain.entries).plain = e.plain ∧
    (e.NaNFree → (rebuild chain.root chain.entries).sameShape e = true) ∧
    (∀ before entry after, chain.entries = before ++ entry :: after →
      (rebuild chain.root before).plain = entry.receiver.plain ∧
      (entry.receiver.NaNFree → (rebuild chain.root before).sameShape entry.receiver = true)) ∧
    (chain.entries.IsChain fun entry next =>
      entry.isMember = true → ∀ arguments, next.operation ≠ .call arguments) ∧
    ∀ position, (chain.entryAt? position).isSome = true ↔
      1 ≤ position ∧ position ≤ chain.entries.length := by
  intro chain
  obtain ⟨hlinks, hend⟩ := e.follow_links
  obtain ⟨hfollow, hrebuild⟩ := follow_joinCalls hlinks
  have hwhole : (rebuild chain.root chain.entries).Agrees e := hrebuild ▸ hend
  refine ⟨e.isSuffixed_chainRoot, hwhole.plain_eq, hwhole.sameShape, ?_, isChain_joinCalls e.links,
    chain.isSome_entryAt?_iff⟩
  intro before entry after hentries
  have hsplit : Follow ChainEntry.receiver ChainEntry.applyTo chain.root
      (before ++ entry :: after) := hentries ▸ hfollow
  have hreceiver := (follow_append.mp hsplit).2.1
  exact ⟨hreceiver.plain_eq, hreceiver.sameShape⟩

/-- `a?.b(x)!.c?(by: 1.5)[y]`, with a slot filled in the middle. -/
def longChain : Expr :=
  let b : Expr := { shape := .suffixed (.identifier "a") .safe (.member "b") }
  let bOfX : Expr :=
    { shape := .suffixed b .none (.call [⟨none, .identifier "x"⟩]), resolved := some .string }
  let c : Expr := { shape := .suffixed bOfX .force (.member "c") }
  let oneAndAHalf : Expr := { shape := .constant (.float ⟨0x3FF8000000000000⟩) }
  let cOfHalf : Expr := { shape := .suffixed c .safe (.call [⟨some "by", oneAndAHalf⟩]) }
  { shape := .suffixed cOfHalf .none (.subscript (.identifier "y")) }

/-- It has three entries. The first two make the receiver of the third, and all of them make the
expression again. -/
theorem chains_lose_nothing_longChain :
    let chain := ofExpr longChain
    longChain.NaNFree ∧ (rebuild chain.root chain.entries).sameShape longChain = true ∧
      ∃ first second third, chain.entries = [first, second] ++ third :: [] ∧
        (rebuild chain.root [first, second]).plain = third.receiver.plain := by
  have hfree : longChain.NaNFree := by
    simp [longChain, Expr.nanFree_mk, Expr.identifier, Shape.subexpressions, Shape.statements,
      Suffix.subexpressions]
    decide
  obtain ⟨-, -, hwhole, hreceiver, -⟩ := chains_lose_nothing longChain
  refine ⟨hfree, hwhole hfree, _, _, _, rfl, ?_⟩
  exact (hreceiver _ _ _ rfl).1

end SuffixChain

end ObjcSwift
