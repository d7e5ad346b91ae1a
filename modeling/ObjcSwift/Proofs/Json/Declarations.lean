import ObjcSwift.Decl.Graph.Codec
import ObjcSwift.Proofs.Json.Trees
import Mathlib

/-!
# Graphs are read back as they were written

A graph is written slot by slot, with its empty slots, the owners of its nodes and its list of
files, and every declaration with all its fields. Reading gives the same graph back, whether it is
well formed or not (`Graph.ofJson?_toJson`); only floating-point literals in code have to be finite.
-/

namespace ObjcSwift

open Json

/-! ### Small parts -/

@[simp]
theorem DeclId.ofJson?_toJson (id : DeclId) : ofJson? id.toJson = some id := by
  rw [toJson, ofJson?, toUInt32?_nat, Option.map_some]

@[simp]
theorem declIds?_listJson (ids : List DeclId) : declIds? (DeclId.listJson ids) = some ids :=
  listOf_map fun id _ => id.ofJson?_toJson

@[simp]
theorem Access.ofJson?_caseName (a : Access) : ofJson? (.str a.caseName) = some a := by
  cases a <;> rfl

@[simp]
theorem Ownership.ofJson?_caseName (o : Ownership) : ofJson? (.str o.caseName) = some o := by
  cases o <;> rfl

@[simp]
theorem SourceRef.ofJson?_toJson (r : SourceRef) : ofJson? r.toJson = some r := by
  simp [toJson, ofJson?]

@[simp]
theorem nullable_sourceRef (source : Option SourceRef) :
    nullable SourceRef.ofJson? (option SourceRef.toJson source) = some source :=
  nullable_option fun r _ => ⟨by simp [SourceRef.toJson], r.ofJson?_toJson⟩

@[simp]
theorem Header.ofJson?_toJson (h : Header) : ofJson? h.toJson = some h := by
  simp [toJson, ofJson?]

@[simp]
theorem Storage.ofJson?_toJson (s : Storage) : ofJson? s.toJson = some s := by
  simp [toJson, ofJson?]

@[simp]
theorem Parameter.ofJson?_toJson (p : Parameter) : ofJson? p.toJson = some p := by
  simp [toJson, ofJson?]

@[simp]
theorem Signature.ofJson?_toJson (s : Signature) : ofJson? s.toJson = some s := by
  have hparameters : listOf Parameter.ofJson? (.list Parameter.toJson s.parameters) =
      some s.parameters :=
    listOf_map fun p _ => p.ofJson?_toJson
  simp [toJson, ofJson?, hparameters]

@[simp]
theorem PropertyAttribute.ofJson?_toJson (a : PropertyAttribute) : ofJson? a.toJson = some a := by
  cases a <;> simp [toJson, ofJson?]

@[simp]
theorem TypeKind.ofJson?_toJson (k : TypeKind) : ofJson? k.toJson = some k := by
  cases k
  case protocolDecl => simp [toJson, ofJson?]
  all_goals
    rw [toJson, ofJson?, if_neg (bareTag_obj_ne (by decide) _ _), tagged_obj]
    simp

/-! ### Code -/

theorem Code.ofJson?_toJson {code : Code} (h : code.Everywhere Expr.IsFinite) :
    ofJson? code.toJson = some code := by
  have hbody : Body.ofJson? (Body.toJson code.body) = some code.body := Body.ofJsonIn?_toJson _ h
  simp [toJson, ofJson?, hbody]

theorem nullable_code {code : Option Code} (h : ∀ c, code = some c → c.Everywhere Expr.IsFinite) :
    nullable Code.ofJson? (option Code.toJson code) = some code :=
  nullable_option fun c hc => ⟨by simp [Code.toJson], Code.ofJson?_toJson (h c hc)⟩

theorem Setter.ofJson?_toJson {s : Setter} (h : s.code.Everywhere Expr.IsFinite) :
    ofJson? s.toJson = some s := by
  simp [toJson, ofJson?, Code.ofJson?_toJson h]

theorem PropertyMode.ofJson?_toJson {mode : PropertyMode}
    (h : mode.Everywhere Expr.IsFinite) : ofJson? mode.toJson = some mode := by
  cases mode with
  | field => simp [toJson, ofJson?]
  | computed getter setter =>
    obtain ⟨hgetter, hsetter⟩ := h
    have hread : nullable Setter.ofJson? (option Setter.toJson setter) = some setter :=
      nullable_option fun s hs => ⟨by simp [Setter.toJson], Setter.ofJson?_toJson (hsetter s hs)⟩
    rw [toJson, ofJson?, if_neg (bareTag_obj_ne (by decide) _ _), tagged_obj]
    simp [Code.ofJson?_toJson hgetter, hread]
  | full getter setter =>
    obtain ⟨hgetter, hsetter⟩ := h
    rw [toJson, ofJson?, if_neg (bareTag_obj_ne (by decide) _ _), tagged_obj]
    simp [Code.ofJson?_toJson hgetter, Setter.ofJson?_toJson hsetter]

/-! ### Declarations -/

@[simp]
theorem FileDecl.ofJson?_toJson (d : FileDecl) : ofJson? d.toJson = some d := by
  simp [toJson, ofJson?]

@[simp]
theorem TypeDecl.ofJson?_toJson (d : TypeDecl) : ofJson? d.toJson = some d := by
  simp [toJson, ofJson?]

@[simp]
theorem IvarDecl.ofJson?_toJson (d : IvarDecl) : ofJson? d.toJson = some d := by
  simp [toJson, ofJson?]

@[simp]
theorem ConformanceDecl.ofJson?_toJson (d : ConformanceDecl) : ofJson? d.toJson = some d := by
  simp [toJson, ofJson?]

@[simp]
theorem AliasDecl.ofJson?_toJson (d : AliasDecl) : ofJson? d.toJson = some d := by
  simp [toJson, ofJson?]

theorem PropertyDecl.ofJson?_toJson {d : PropertyDecl}
    (h : ∀ e ∈ (Decl.property d).expressions, e.IsFinite) : ofJson? d.toJson = some d := by
  have hmode := PropertyMode.ofJson?_toJson (Decl.forall_mem_property_iff.mp h)
  have hattributes :
      listOf PropertyAttribute.ofJson? (.list PropertyAttribute.toJson d.attributes) =
        some d.attributes :=
    listOf_map fun a _ => a.ofJson?_toJson
  simp [toJson, ofJson?, hmode, hattributes]

theorem MethodDecl.ofJson?_toJson {d : MethodDecl}
    (h : ∀ e ∈ (Decl.method d).expressions, e.IsFinite) : ofJson? d.toJson = some d := by
  have hcode := nullable_code (Decl.forall_mem_method_iff.mp h)
  simp [toJson, ofJson?, hcode]

theorem FunctionDecl.ofJson?_toJson {d : FunctionDecl}
    (h : ∀ e ∈ (Decl.globalFunction d).expressions, e.IsFinite) : ofJson? d.toJson = some d := by
  have hcode := nullable_code (Decl.forall_mem_globalFunction_iff.mp h)
  simp [toJson, ofJson?, hcode]

theorem VariableDecl.ofJson?_toJson {d : VariableDecl}
    (h : ∀ e ∈ (Decl.globalVariable d).expressions, e.IsFinite) : ofJson? d.toJson = some d := by
  have hfinite := Decl.forall_mem_globalVariable_iff.mp h
  have hinitial : nullable Expr.ofJson? (option Expr.toJson d.initial) = some d.initial :=
    nullable_option fun e he => ⟨e.toJson_ne_null, Expr.ofJsonIn?_toJson _ (hfinite e he)⟩
  simp [toJson, ofJson?, hinitial]

/-- **A declaration is read back as it was written**, if its literals are finite. -/
theorem Decl.ofJson?_toJson {d : Decl} (h : ∀ e ∈ d.expressions, e.IsFinite) :
    ofJson? d.toJson = some d := by
  cases d
  all_goals
    rw [toJson, tag, recordJson, ofJson?, tagged_obj]
    dsimp only [Option.bind_eq_bind, Option.bind_some]
  case property d => simp [PropertyDecl.ofJson?_toJson h]
  case method d => simp [MethodDecl.ofJson?_toJson h]
  case globalFunction d => simp [FunctionDecl.ofJson?_toJson h]
  case globalVariable d => simp [VariableDecl.ofJson?_toJson h]
  all_goals simp

/-! ### Graphs -/

theorem GraphNode.ofJson?_toJson {n : GraphNode} (h : ∀ e ∈ n.decl.expressions, e.IsFinite) :
    ofJson? n.toJson = some n := by
  have hparent : nullable DeclId.ofJson? (option DeclId.toJson n.parent) = some n.parent :=
    nullable_option fun id _ => ⟨by simp [DeclId.toJson, nat], id.ofJson?_toJson⟩
  simp [toJson, ofJson?, hparent, Decl.ofJson?_toJson h]

/-- The expressions of a graph: those of all its declarations. -/
def Graph.expressions (g : Graph) : List Expr :=
  g.slots.flatMap fun slot => slot.toList.flatMap fun n => n.decl.expressions

/-- **A graph is read back as it was written**, if its literals are finite. -/
theorem Graph.ofJson?_toJson {g : Graph} (h : ∀ e ∈ g.expressions, e.IsFinite) :
    ofJson? g.toJson = some g := by
  have hslots :
      Json.listOf (nullable GraphNode.ofJson?) (.list (.option GraphNode.toJson) g.slots) =
        some g.slots := by
    refine Json.listOf_map fun slot hslot => nullable_option fun n hn => ?_
    refine ⟨by simp [GraphNode.toJson], GraphNode.ofJson?_toJson fun e he => h e ?_⟩
    exact List.mem_flatMap.mpr ⟨slot, hslot, List.mem_flatMap.mpr ⟨n, by simp [hn], he⟩⟩
  simp [toJson, ofJson?, hslots]

end ObjcSwift
