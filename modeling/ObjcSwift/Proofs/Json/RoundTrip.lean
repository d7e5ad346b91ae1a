import ObjcSwift.Objc.Node.Codec
import ObjcSwift.Proofs.Json.Declarations
import Mathlib

/-!
# Nothing is lost in JSON

Types, expressions, bodies, source trees and graphs are read back from JSON as they were written
(`reading_gives_what_was_written`): reading succeeds, and gives the identical value, with its slots,
spans, unwrappings, owners and empty slots.

Floating-point literals that are not finite have no number in JSON; trees that hold one are left out
here, and no others. A source tree is the one place where reading looks at all of a record and not
only at its fields: everything in the kind of a node has to be held, and what is written is.
-/

namespace ObjcSwift

open Json

/-! ### Kinds of nodes -/

@[simp]
theorem KeywordPart.ofJsonIn?_toJson (form : PayloadForm) (p : KeywordPart) :
    ofJsonIn? form p.toJson = some p := by
  simp [toJson, ofJsonIn?]

@[simp]
theorem KeywordPart.isHeld_toJson (p : KeywordPart) : p.toJson.isHeld = true := by
  simp [toJson]

@[simp]
theorem Selector.ofJsonIn?_toJson (form : PayloadForm) (s : Selector) :
    ofJsonIn? form s.toJson = some s := by
  cases s with
  | simple name => simp [toJson, ofJsonIn?]
  | keywords parts =>
    have hparts : listOf (KeywordPart.ofJsonIn? form) (.list KeywordPart.toJson parts) =
        some parts :=
      listOf_map fun p _ => p.ofJsonIn?_toJson form
    simp [toJson, ofJsonIn?, hparts]

@[simp]
theorem Selector.isHeld_toJson (s : Selector) : s.toJson.isHeld = true := by
  cases s <;> simp [toJson]

@[simp]
theorem FunctionParameter.ofJsonIn?_toJson (form : PayloadForm) (p : FunctionParameter) :
    ofJsonIn? form p.toJson = some p := by
  simp [toJson, ofJsonIn?]

@[simp]
theorem FunctionParameter.isHeld_toJson (p : FunctionParameter) : p.toJson.isHeld = true := by
  simp [toJson]

theorem nullable_body (form : PayloadForm) {body : Option Body}
    (h : ∀ b, body = some b → ∀ s ∈ b, (SyntaxNode.stmt s).Everywhere Expr.IsFinite) :
    nullable (Body.ofJsonIn? form) (option Body.toJson body) = some body :=
  nullable_option fun b hb =>
    ⟨by simp [Body.toJson, bodyJson], Body.ofJsonIn?_toJson form (h b hb)⟩

theorem forall_mem_bodies {body : Option Body} {P : Expr → Prop} :
    (∀ e ∈ body.toList.flatMap Body.allExpressions, P e) ↔
      ∀ b, body = some b → ∀ s ∈ b, (SyntaxNode.stmt s).Everywhere P := by
  rw [Decl.forall_mem_bodies_iff]
  simp only [Option.mem_toList]

namespace NodeKind

/-- The expressions in the code that a node holds itself. -/
def expressions : NodeKind → List Expr
  | methodDefinition method => method.body.toList.flatMap Body.allExpressions
  | variableDeclaration _ _ initializer => initializer.toList.flatMap Expr.allExpressions
  | functionDefinition _ _ _ body => body.toList.flatMap Body.allExpressions
  | _ => []

@[simp]
theorem isHeld_toJson (kind : NodeKind) : kind.toJson.isHeld = true := by
  cases kind <;> simp [toJson, fields, MethodDefinition.fields]

theorem parts?_toJson (kind : NodeKind) :
    parts? kind.toJson = some (kind.fields.1, kind.toJson) := by
  cases kind <;> simp [toJson, parts?, fields, MethodDefinition.fields]

theorem ofParts?_toJson {kind : NodeKind} (h : ∀ e ∈ kind.expressions, e.IsFinite) :
    ofParts? kind.fields.1 kind.toJson = some kind := by
  cases kind
  all_goals
    rw [toJson, fields]
    dsimp only [ofParts?]
  case methodDefinition method =>
    have hbody := nullable_body .free (forall_mem_bodies.mp h)
    simp [MethodDefinition.ofJsonIn?, MethodDefinition.fields, hbody]
  case variableDeclaration name type initializer =>
    have hinitializer : nullable (Expr.ofJsonIn? .free) (option Expr.toJson initializer) =
        some initializer := by
      refine nullable_option fun e he => ⟨e.toJson_ne_null, Expr.ofJsonIn?_toJson .free ?_⟩
      refine Expr.forall_mem_allExpressions_iff.mp fun e' he' => h e' ?_
      exact List.mem_flatMap.mpr ⟨e, Option.mem_toList.mpr he, he'⟩
    simp [hinitializer]
  case functionDefinition name result parameters body =>
    have hbody := nullable_body .free (forall_mem_bodies.mp h)
    have hparameters : listOf (FunctionParameter.ofJsonIn? .free)
        (.list FunctionParameter.toJson parameters) = some parameters :=
      listOf_map fun p _ => p.ofJsonIn?_toJson .free
    simp [hbody, hparameters]
  all_goals simp [withString?, withType?, ObjcType.strings?]

/-- **The kind of a node is read back as it was written**, if its literals are finite. -/
theorem ofJson?_toJson {kind : NodeKind} (h : ∀ e ∈ kind.expressions, e.IsFinite) :
    ofJson? kind.toJson = some kind := by
  rw [ofJson?, parts?_toJson, Option.bind_eq_bind, Option.bind_some]
  dsimp only
  rw [if_pos kind.isHeld_toJson, ofParts?_toJson h]

end NodeKind

/-! ### Source trees -/

mutual

/-- The expressions in the code of a source tree. -/
def ObjcNode.expressions : ObjcNode → List Expr
  | ⟨kind, _, children⟩ => kind.expressions ++ nodesExpressions children

/-- The expressions in the code of several source trees. -/
def nodesExpressions : List ObjcNode → List Expr
  | [] => []
  | n :: ns => n.expressions ++ nodesExpressions ns

end

theorem nodesExpressions_eq_flatMap (ns : List ObjcNode) :
    nodesExpressions ns = ns.flatMap ObjcNode.expressions := by
  induction ns with
  | nil => rfl
  | cons n ns ih => rw [nodesExpressions, ih, List.flatMap_cons]

theorem nodeJsons_eq_map (ns : List ObjcNode) : nodeJsons ns = ns.map ObjcNode.toJson := by
  induction ns with
  | nil => rfl
  | cons n ns ih => rw [nodeJsons, ih, List.map_cons]

namespace ObjcNode

theorem sum_size_children_lt (n : ObjcNode) :
    (n.children.map fun c => c.toJson.size).sum < n.toJson.size := by
  obtain ⟨kind, span, _ | ⟨child, children⟩⟩ := n
  · simp [toJson]
  · simp [toJson, nodeJsons_eq_map, Function.comp_def]
    omega

theorem decode_succ (fuel : Nat) (n : ObjcNode)
    (h : ∀ c ∈ n.children, (∀ e ∈ c.expressions, e.IsFinite) → decode fuel c.toJson = some c)
    (hfinite : ∀ e ∈ n.expressions, e.IsFinite) : decode (fuel + 1) n.toJson = some n := by
  obtain ⟨kind, span, children⟩ := n
  rw [expressions, List.forall_mem_append, nodesExpressions_eq_flatMap] at hfinite
  obtain ⟨hkind, hbelow⟩ := hfinite
  have hread := NodeKind.ofJson?_toJson hkind
  have hchildren : listOf (decode fuel) (.arr (nodeJsons children)) = some children := by
    rw [nodeJsons_eq_map]
    refine listOf_map fun c hc => h c hc fun e he => hbelow e ?_
    exact List.mem_flatMap.mpr ⟨c, hc, he⟩
  cases children with
  | nil => simp [toJson, decode, hread]
  | cons child children => simp [toJson, decode, hread, hchildren]

/-- **A source tree is read back as it was written**, if its literals are finite. -/
theorem ofJson?_toJson {n : ObjcNode} (h : ∀ e ∈ n.expressions, e.IsFinite) :
    ofJson? n.toJson = some n :=
  parts_induction
    (P := fun fuel n => (∀ e ∈ n.expressions, e.IsFinite) → decode fuel n.toJson = some n)
    sum_size_children_lt decode_succ _ n (Nat.le_refl _) h

end ObjcNode

/-! ### All values -/

/-- **JSON loses nothing.** What is written of a type of either language is read back as the same
type. The same is so of an expression, a body, a source tree and a graph of declarations, well
formed or not, in which every floating-point literal is finite. -/
theorem reading_gives_what_was_written :
    (∀ t : SwiftType, SwiftType.ofJson? t.toJson = some t) ∧
    (∀ t : ObjcType, ObjcType.ofJson? t.toJson = some t) ∧
    (∀ e : Expr, (∀ e' ∈ e.allExpressions, e'.IsFinite) → Expr.ofJson? e.toJson = some e) ∧
    (∀ body : Body, (∀ e ∈ body.allExpressions, e.IsFinite) →
      Body.ofJson? (Body.toJson body) = some body) ∧
    (∀ n : ObjcNode, (∀ e ∈ n.expressions, e.IsFinite) → ObjcNode.ofJson? n.toJson = some n) ∧
    (∀ g : Graph, (∀ e ∈ g.expressions, e.IsFinite) → Graph.ofJson? g.toJson = some g) := by
  refine ⟨SwiftType.ofJson?_toJson, ObjcType.ofJson?_toJson, fun e h => ?_, fun body h => ?_,
    fun n h => ?_, fun g h => ?_⟩
  · exact Expr.ofJsonIn?_toJson .strict (Expr.forall_mem_allExpressions_iff.mp h)
  · exact Body.ofJsonIn?_toJson .strict (Body.forall_mem_allExpressions_iff.mp h)
  · exact ObjcNode.ofJson?_toJson h
  · exact Graph.ofJson?_toJson h

/-- `x * 0.5`, with types and source text in its slots. -/
def halved : Expr where
  shape := .binary { shape := .identifier "x", resolved := some (.named "Double") } .multiply
    { shape := .constant (.float ⟨0x3fe0000000000000⟩), expected := some (.named "Double") }
  resolved := some (.named "Double")
  source := some ⟨"x * 0.5", ⟨3, 8, 3, 15⟩⟩

theorem isFinite_halved : ∀ e ∈ halved.allExpressions, e.IsFinite := by
  simp [halved, Expr.allExpressions, Expr.preorder, preorder, SyntaxNode.children,
    Expr.subexpressions, Shape.subexpressions, SyntaxNode.expr?, Expr.IsFinite, Expr.constant?,
    Constant.IsFinite]
  decide

/-- A file with a variable that is `halved` at first, and an empty slot before the variable. -/
def halvedGraph : Graph where
  slots :=
    [some ⟨none, .file
      { sourcePath := "Ratio.m"
        targetPath := "Ratio.swift"
        globals := [⟨2⟩] }⟩,
      none,
      some ⟨some ⟨0⟩, .globalVariable
      { name := "ratio"
        storage := { type := .named "Double" }
        initial := some halved }⟩]
  files := [⟨0⟩]

/-- The source tree of such a file. -/
def halvedNode : ObjcNode where
  kind := .globalContext
  children := [{ kind := .variableDeclaration "ratio" (.plain "double") (some halved) }]

theorem reading_gives_what_was_written_halved :
    ((∀ e ∈ halved.allExpressions, e.IsFinite) ∧ Expr.ofJson? halved.toJson = some halved) ∧
    ((∀ e ∈ Body.allExpressions [.return (some halved)], e.IsFinite) ∧
      Body.ofJson? (Body.toJson [.return (some halved)]) = some [.return (some halved)]) ∧
    ((∀ e ∈ halvedNode.expressions, e.IsFinite) ∧
      ObjcNode.ofJson? halvedNode.toJson = some halvedNode) ∧
    ((∀ e ∈ halvedGraph.expressions, e.IsFinite) ∧
      Graph.ofJson? halvedGraph.toJson = some halvedGraph) := by
  obtain ⟨-, -, hexpr, hbody, hnode, hgraph⟩ := reading_gives_what_was_written
  have hreturn : ∀ e ∈ Body.allExpressions [.return (some halved)], e.IsFinite := by
    rw [Body.forall_mem_allExpressions_iff, List.forall_mem_singleton, SyntaxNode.everywhere_iff,
      SyntaxNode.forall_mem_children_stmt]
    simpa [Stmt.subexpressions, Stmt.bodies] using
      Expr.forall_mem_allExpressions_iff.mp isFinite_halved
  have htree : ∀ e ∈ halvedNode.expressions, e.IsFinite := by
    simpa [halvedNode, ObjcNode.expressions, nodesExpressions, NodeKind.expressions] using
      isFinite_halved
  have hgraph' : ∀ e ∈ halvedGraph.expressions, e.IsFinite := by
    simpa [halvedGraph, Graph.expressions, Decl.expressions, Decl.bodies, Expr.allExpressions] using
      isFinite_halved
  exact ⟨⟨isFinite_halved, hexpr halved isFinite_halved⟩, ⟨hreturn, hbody _ hreturn⟩,
    ⟨htree, hnode _ htree⟩, ⟨hgraph', hgraph _ hgraph'⟩⟩

end ObjcSwift
