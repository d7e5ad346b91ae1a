import ObjcSwift.Proofs.Typing.Hierarchy
import ObjcSwift.Proofs.Typing.Sites
import ObjcSwift.Typing.Builtin
import Mathlib

/-!
# Chains degrade step by step

A chain of suffixes is annotated from the left to the right, and what goes wrong in one step shows
in the steps after it and nowhere else (`suffixes_degrade_step_by_step`): a step after something
unknown is unknown, a step after an optional is optional or unknown unless it forces the optional
open, and the part to the left of a step is annotated as if the step were not there.

There are two kinds of step, which go different ways. A member access, a subscript and the call of a
value are one suffix on one receiver (`Suffix.annotate_unknown`). A method call takes the method and
the call in one, with two unwrappings that may each make the result optional; all that is said about
it comes from the two ways in which such a call is typed (`Scope.callTyping_cases`).
-/

namespace ObjcSwift

/-! ### Looking through receivers -/

namespace SwiftType

theorem isUnknown_iff {t : SwiftType} : t.isUnknown = true ↔ t = unknown := by
  cases t <;> simp [isUnknown, unknown]

/-- The type is optional or unknown. -/
def IsOptionalOrUnknown (t : SwiftType) : Prop :=
  (∃ inner, t = optional inner) ∨ t = unknown

theorem opened_unknown (unwrap : Unwrap) : unknown.opened unwrap = (unknown, false) := rfl

/-- An optional that is not forced open makes the result optional. -/
theorem opened_optional {inner : SwiftType} {unwrap : Unwrap} (h : unwrap ≠ .force) :
    (optional inner).opened unwrap = (inner, true) := by
  cases unwrap with
  | force => exact absurd rfl h
  | _ => rfl

theorem chained_unknown (becomes : Bool) : unknown.chained becomes = unknown := by
  cases becomes <;> rfl

theorem isOptionalOrUnknown_chained (t : SwiftType) : (t.chained true).IsOptionalOrUnknown := by
  unfold chained
  split
  · exact .inl ⟨_, rfl⟩
  · split_ifs with h
    · exact .inl ⟨_, rfl⟩
    · exact .inr (isUnknown_iff.mp (by simpa using h))

theorem chained_closure_ne_unknown (s : Signature) (becomes : Bool) :
    s.closureType.chained becomes ≠ unknown := by
  cases becomes <;> simp [Signature.closureType, chained, isUnknown, unknown]

theorem callResult_unknown : unknown.callResult = unknown := rfl

end SwiftType

/-! ### Nothing is known of the unknown -/

namespace Catalog

variable {c : Catalog}

variable (hc : c.type? SwiftType.unknownName = none)
include hc

theorem searched_unknown : c.searched .unknown = [] := by
  simp [searched, SwiftType.unknown, SwiftType.receiverNames, hierarchy_eq_nil_iff.mpr hc]

theorem members_unknown (name : String) (isStatic : Bool) :
    c.members .unknown name isStatic = [] := by
  unfold members
  rw [show SwiftType.unknown.memberReceiver isStatic = (.unknown, isStatic) from rfl]
  simp [searched_unknown hc]

theorem subscript?_unknown : c.subscript? .unknown = none := by
  show (c.searched .unknown).findSome? _ = none
  rw [searched_unknown hc]
  rfl

end Catalog

/-! ### One step -/

section Steps

variable {scope : Scope}

/-- A step after something unknown gives something unknown. -/
theorem Suffix.annotate_unknown (hc : scope.catalog.type? SwiftType.unknownName = none)
    (suffix : Suffix) : (suffix.annotate scope .unknown).2 = .unknown := by
  cases suffix with
  | member name =>
    simp [Suffix.annotate, Catalog.member?, Catalog.members_unknown hc]
  | call arguments => rfl
  | subscript index =>
    simp [Suffix.annotate, Catalog.subscript?_unknown hc]

variable {target : SwiftType} {memberUnwrap unwrap : Unwrap} {name : String}
  {arguments : List Argument} {typing : CallTyping}

/-- A method call is typed in one of two ways: by a method that was chosen, or by the type of
whatever has the name. Either way the method is optional if its target was, and the call is if
either of the two was. -/
theorem Scope.callTyping_cases
    (h : scope.callTyping target memberUnwrap name unwrap arguments = typing) :
    (∃ signature : Signature,
      typing.callee = signature.closureType.chained (target.opened memberUnwrap).2 ∧
        typing.result = signature.result.chained
          ((target.opened memberUnwrap).2 || (typing.callee.opened unwrap).2)) ∨
    ∃ type : SwiftType, typing.callee = type.chained (target.opened memberUnwrap).2 ∧
      typing.result = (typing.callee.opened unwrap).1.callResult.chained
        ((target.opened memberUnwrap).2 || (typing.callee.opened unwrap).2) := by
  subst h
  unfold callTyping
  dsimp only
  split
  · exact .inl ⟨_, rfl, rfl⟩
  · exact .inr ⟨_, rfl, rfl⟩

/-- A method of something unknown is unknown. -/
theorem Scope.callee_unknown (hc : scope.catalog.type? SwiftType.unknownName = none) :
    (scope.callTyping .unknown memberUnwrap name unwrap arguments).callee = .unknown := by
  simp [callTyping, SwiftType.opened_unknown, Catalog.members_unknown hc, overload?,
    SwiftType.chained_unknown]

/-- A method of an optional that is not forced open is optional. -/
theorem Scope.callee_optional {inner : SwiftType} (hunwrap : memberUnwrap ≠ .force)
    (h : scope.callTyping (.optional inner) memberUnwrap name unwrap arguments = typing) :
    typing.callee.IsOptionalOrUnknown := by
  have hbecomes : ((SwiftType.optional inner).opened memberUnwrap).2 = true := by
    rw [SwiftType.opened_optional hunwrap]
  rcases callTyping_cases h with ⟨signature, hcallee, -⟩ | ⟨type, hcallee, -⟩
  · rw [hcallee, hbecomes]
    exact SwiftType.isOptionalOrUnknown_chained _
  · rw [hcallee, hbecomes]
    exact SwiftType.isOptionalOrUnknown_chained _

/-- Calling an unknown method gives something unknown. -/
theorem Scope.result_unknown
    (h : scope.callTyping target memberUnwrap name unwrap arguments = typing)
    (hunknown : typing.callee = .unknown) : typing.result = .unknown := by
  rcases callTyping_cases h with ⟨signature, hcallee, -⟩ | ⟨type, -, hresult⟩
  · -- A method that was chosen is a closure, and a closure is known.
    rw [hunknown] at hcallee
    exact absurd hcallee.symm (SwiftType.chained_closure_ne_unknown _ _)
  · rw [hresult, hunknown, SwiftType.opened_unknown, SwiftType.callResult_unknown,
      SwiftType.chained_unknown]

/-- Calling an optional method that is not forced open gives an optional. -/
theorem Scope.result_optional {inner : SwiftType} (hunwrap : unwrap ≠ .force)
    (h : scope.callTyping target memberUnwrap name unwrap arguments = typing)
    (hoptional : typing.callee = .optional inner) : typing.result.IsOptionalOrUnknown := by
  have hbecomes : (typing.callee.opened unwrap).2 = true := by
    rw [hoptional, SwiftType.opened_optional hunwrap]
  rcases callTyping_cases h with ⟨signature, -, hresult⟩ | ⟨type, -, hresult⟩
  · rw [hresult, hbecomes, Bool.or_true]
    exact SwiftType.isOptionalOrUnknown_chained _
  · rw [hresult, hbecomes, Bool.or_true]
    exact SwiftType.isOptionalOrUnknown_chained _

end Steps

/-! ### The part to the left -/

/-- The part of a chain to the left of its last step: the receiver, or the target of a method call,
whose last step is the method and the call together. -/
def Expr.left? (e : Expr) : Option Expr :=
  match e.shape with
  | .suffixed ⟨.suffixed target _ (.member _), _, _, _⟩ _ (.call _) => some target
  | .suffixed receiver _ _ => some receiver
  | _ => none

theorem Expr.left?_methodCall {e callee target : Expr} {memberUnwrap unwrap : Unwrap}
    {name : String} {arguments : List Argument}
    (h : e.shape = .suffixed callee unwrap (.call arguments))
    (hcallee : callee.shape = .suffixed target memberUnwrap (.member name)) :
    e.left? = some target := by
  obtain ⟨_, _, _, _⟩ := callee
  obtain rfl := hcallee
  rw [left?, h]

theorem Expr.left?_suffixed {e receiver : Expr} {unwrap : Unwrap} {suffix : Suffix}
    (h : e.shape = .suffixed receiver unwrap suffix)
    (hstep : (¬∃ target memberUnwrap name,
        receiver.shape = .suffixed target memberUnwrap (.member name)) ∨
      ∀ arguments, suffix ≠ .call arguments) : e.left? = some receiver := by
  rw [left?, h]
  split
  · rename_i hshape
    injection hshape with hreceiver _ hsuffix
    rcases hstep with hstep | hstep
    · exact absurd ⟨_, _, _, by rw [hreceiver]⟩ hstep
    · exact absurd hsuffix (hstep _)
  · rename_i hshape
    injection hshape with hreceiver
    rw [hreceiver]
  · rename_i hshape
    exact absurd rfl (hshape _ _ _)

theorem Expr.left?_eq_none {e : Expr} (h : e.suffix? = none) : e.left? = none := by
  rw [suffix?] at h
  rw [left?]
  split <;> simp_all

/-! ### Every step -/

/-- What a step of a chain does with what goes wrong to its left. -/
structure Site.Degrades (site : Site) : Prop where
  /-- A step after something unknown is unknown. -/
  unknown {receiver : Expr} {unwrap : Unwrap} {suffix : Suffix}
    (hsuffix : site.after.suffix? = some (receiver, unwrap, suffix))
    (hreceiver : receiver.resolved = some .unknown) : site.after.resolved = some .unknown
  /-- A step after an optional is optional or unknown, unless it forces the optional open. -/
  optional {receiver : Expr} {unwrap : Unwrap} {suffix : Suffix} {inner : SwiftType}
    (hsuffix : site.after.suffix? = some (receiver, unwrap, suffix))
    (hreceiver : receiver.resolved = some (.optional inner)) (hunwrap : unwrap ≠ .force) :
    ∃ type : SwiftType, site.after.resolved = some type ∧ type.IsOptionalOrUnknown
  /-- The part to the left is annotated as if it stood alone. -/
  left : site.after.left? =
    site.before.left?.map fun part => part.annotate site.scope part.expected

namespace Site

variable {site : Site}

/-- What is no step of a chain degrades nothing. -/
theorem degrades_of_suffix?_eq_none (hbefore : site.before.suffix? = none)
    (hafter : site.after.suffix? = none) : site.Degrades where
  unknown hsuffix _ := by simp [hafter] at hsuffix
  optional hsuffix _ _ := by simp [hafter] at hsuffix
  left := by rw [Expr.left?_eq_none hbefore, Expr.left?_eq_none hafter, Option.map_none]

/-- A step is judged by the types of its receiver and of itself. -/
theorem degrades_of_suffixed {receiver : Expr} {unwrap : Unwrap} {suffix : Suffix}
    {type : SwiftType} (hshape : site.after.shape = .suffixed receiver unwrap suffix)
    (htype : site.after.resolved = some type)
    (hunknown : receiver.resolved = some .unknown → type = .unknown)
    (hoptional : ∀ inner, receiver.resolved = some (.optional inner) → unwrap ≠ .force →
      type.IsOptionalOrUnknown)
    {part : Expr} (hbefore : site.before.left? = some part)
    (hafter : site.after.left? = some (part.annotate site.scope part.expected)) :
    site.Degrades := by
  have hsuffix? : site.after.suffix? = some (receiver, unwrap, suffix) := by
    rw [Expr.suffix?, hshape]
  refine ⟨fun hsuffix hreceiver => ?_, fun hsuffix hreceiver hunwrap => ?_, ?_⟩
  · rw [hsuffix?, Option.some.injEq, Prod.mk.injEq] at hsuffix
    obtain ⟨rfl, -⟩ := hsuffix
    rw [htype, hunknown hreceiver]
  · rw [hsuffix?, Option.some.injEq, Prod.mk.injEq, Prod.mk.injEq] at hsuffix
    obtain ⟨rfl, rfl, -⟩ := hsuffix
    exact ⟨type, htype, hoptional _ hreceiver hunwrap⟩
  · rw [hbefore, hafter, Option.map_some]

variable {scope : Scope} (hc : scope.catalog.type? SwiftType.unknownName = none)
include hc

/-- The method of a call degrades as a member access would. -/
theorem degrades_callee {callee target : Expr} {memberUnwrap unwrap : Unwrap} {name : String}
    {arguments : List Argument} {typing : CallTyping}
    (hshape : callee.shape = .suffixed target memberUnwrap (.member name))
    (htyping : scope.callTyping (target.annotate scope target.expected).type memberUnwrap name
      unwrap arguments = typing) :
    Degrades ⟨scope, callee, ⟨.suffixed (target.annotate scope target.expected) memberUnwrap
      (.member name), some typing.callee, callee.expected, callee.source⟩⟩ := by
  refine degrades_of_suffixed rfl rfl ?_ ?_ (Expr.left?_suffixed hshape (.inr (by simp)))
    (Expr.left?_suffixed rfl (.inr (by simp)))
  · intro hunknown
    rw [Expr.resolved_annotate, Option.some.injEq] at hunknown
    rw [← htyping, hunknown, Scope.callee_unknown hc]
  · intro inner hoptional hunwrap
    rw [Expr.resolved_annotate, Option.some.injEq] at hoptional
    rw [hoptional] at htyping
    exact Scope.callee_optional hunwrap htyping

/-- An annotated expression degrades. -/
theorem degrades_annotate (asked : Option SwiftType) (e : Expr) :
    Degrades ⟨scope, e, e.annotate scope asked⟩ := by
  obtain ⟨shape, resolved, expected, source⟩ := e
  rw [Expr.annotate_eq]
  cases shape with
  | binary lhs op rhs =>
    refine degrades_of_suffix?_eq_none rfl ?_
    simp only [Shape.annotate]
    split_ifs <;> rfl
  | suffixed receiver unwrap suffix =>
    rcases suffix.methodCall_or receiver with
      ⟨target, memberUnwrap, name, arguments, hcallee, rfl⟩ | hstep
    · rw [Shape.annotate_methodCall scope asked hcallee]
      refine degrades_of_suffixed rfl rfl ?_ ?_ (Expr.left?_methodCall rfl hcallee)
        (Expr.left?_methodCall rfl rfl)
      · intro hunknown
        exact Scope.result_unknown rfl (Option.some.inj hunknown)
      · intro inner hoptional hunwrap
        exact Scope.result_optional hunwrap rfl (Option.some.inj hoptional)
    · -- Annotating makes neither a member access of the receiver nor a call of the suffix.
      have hstep' : ∀ base, (¬∃ target memberUnwrap name,
          (receiver.annotate scope receiver.expected).shape =
            .suffixed target memberUnwrap (.member name)) ∨
          ∀ arguments, (suffix.annotate scope base).1 ≠ .call arguments := by
        intro base
        refine hstep.imp ?_ fun hcall => ?_
        · rintro hmember ⟨target, memberUnwrap, name, h⟩
          obtain ⟨target, h⟩ := Expr.exists_member_of_annotate scope _ h
          exact hmember ⟨target, memberUnwrap, name, h⟩
        · cases suffix with
          | call arguments => exact absurd rfl (hcall arguments)
          | _ => simp [Suffix.annotate]
      rw [Shape.annotate_suffixed hstep]
      refine degrades_of_suffixed rfl rfl ?_ ?_ (Expr.left?_suffixed rfl hstep)
        (Expr.left?_suffixed rfl (hstep' _))
      · intro hunknown
        rw [Expr.resolved_annotate, Option.some.injEq] at hunknown
        dsimp only
        rw [hunknown, SwiftType.opened_unknown, Suffix.annotate_unknown hc,
          SwiftType.chained_unknown]
      · intro inner hoptional hunwrap
        rw [Expr.resolved_annotate, Option.some.injEq] at hoptional
        dsimp only
        rw [hoptional, SwiftType.opened_optional hunwrap]
        exact SwiftType.isOptionalOrUnknown_chained _
  | _ => exact degrades_of_suffix?_eq_none rfl rfl

end Site

/-- The law of a step, for a catalogue in which the unknown type is not declared. -/
theorem Site.law_degrades {c : Catalog} (hc : c.type? SwiftType.unknownName = none) :
    Site.Law c Site.Degrades where
  annotated hscope := by
    subst hscope
    exact degrades_annotate hc
  callee hscope _ _ _ _ _ _ _ hshape htyping := by
    subst hscope
    exact degrades_callee hc hshape htyping

/-- **Chains degrade step by step.** In an annotated expression every step of a chain, at whatever
depth it stands, is unknown after something unknown and optional or unknown after an optional that
is not forced open, and what stands to its left is annotated as if it stood alone in its scope. -/
theorem suffixes_degrade_step_by_step (c : Catalog) (hc : c.type? SwiftType.unknownName = none)
    (context : BodyContext) (asked : Option SwiftType) (e : Expr) :
    let after := e.annotateIn c context asked
    let sites := e.sites (.start c context) after
    sites.map (·.before) = e.allExpressions ∧ sites.map (·.after) = after.allExpressions ∧
      ∀ site ∈ sites, site.Degrades := by
  have hcatalog : (Scope.start c context).catalog = c := rfl
  have hsurvey := e.survey (Site.law_degrades hc) hcatalog asked
  exact ⟨hsurvey.before_eq, hsurvey.after_eq, hsurvey.forall_mem⟩

/-- Strings, of which one method is known. -/
def shoutingStrings : Catalog where
  types :=
    [{ name := "String", kind := .structType
       members := [.method ⟨"uppercased", [], .string, false⟩] }]

/-- `title?.uppercased().missing.count` -/
def strayChain : Expr :=
  let method : Expr := { shape := .suffixed (.identifier "title") .safe (.member "uppercased") }
  ((method.call []).dot "missing").dot "count"

/-- The chain is optional up to the call, and unknown from the missing member on. -/
theorem suffixes_degrade_step_by_step_strayChain :
    shoutingStrings.type? SwiftType.unknownName = none ∧
      (let context : BodyContext := { parameters := [("title", .optional .string)] }
       let after := strayChain.annotateIn shoutingStrings context none
       (∀ site ∈ strayChain.sites (.start shoutingStrings context) after, site.Degrades) ∧
        after.allExpressions.map (·.resolved) =
          [some .unknown, some .unknown, some (.optional .string),
            some (.optional (.block .string [])), some (.optional .string)]) := by
  have hc : shoutingStrings.type? SwiftType.unknownName = none := by decide
  have h := suffixes_degrade_step_by_step shoutingStrings hc
    { parameters := [("title", .optional .string)] } none strayChain
  exact ⟨hc, h.2.2, by cbv⟩

end ObjcSwift
