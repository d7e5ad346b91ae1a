import ObjcSwift.Proofs.Json.Types
import ObjcSwift.Proofs.Syntax.Expressions
import ObjcSwift.Swift.Expr.Codec
import Mathlib

/-!
# Syntax trees are read back as they were written

Expressions and statements are written with everything they hold: shapes, slots that are filled,
spans. Reading gives the same tree back, as long as its floating-point literals are finite, since
the others have no number in JSON.

The readers of shapes, suffixes and statements take the readers of what stands below as parameters.
Each is right on a node if these are right on its children (`shapeOf_toJson`,
`SyntaxNode.decode_succ`), and a node takes more space than its children
(`SyntaxNode.sum_size_children_lt`); the rest is `Json.parts_induction`.
-/

namespace ObjcSwift

/-! ### Leaves -/

@[simp]
theorem Span.ofJson?_toJson (s : Span) : ofJson? s.toJson = some s := by
  simp [toJson, ofJson?]

@[simp]
theorem Span.isHeld_toJson (s : Span) : s.toJson.isHeld = true := by
  simp [toJson]

@[simp]
theorem SourceText.ofJson?_toJson (s : SourceText) : ofJson? s.toJson = some s := by
  simp [toJson, ofJson?]

@[simp]
theorem SourceText.isHeld_toJson (s : SourceText) : s.toJson.isHeld = true := by
  simp [toJson]

@[simp]
theorem SourceText.toJson_ne_null (s : SourceText) : s.toJson ≠ .null := by
  simp [toJson]

theorem Operator.caseName_injective {a b : Operator} (h : a.caseName = b.caseName) : a = b := by
  cases a <;> cases b <;> first | rfl | simp [caseName] at h

@[simp]
theorem Operator.ofJsonIn?_toJson (form : Json.PayloadForm) (op : Operator) :
    ofJsonIn? form op.toJson = some op :=
  Json.enumOf_caseName op.mem_all (fun _ _ => caseName_injective) form

@[simp]
theorem Operator.isHeld_toJson (op : Operator) : op.toJson.isHeld = true := rfl

@[simp]
theorem Unwrap.ofJsonIn?_toJson (form : Json.PayloadForm) (unwrap : Unwrap) :
    ofJsonIn? form unwrap.toJson = some unwrap := by
  cases unwrap <;> rfl

@[simp]
theorem Unwrap.isHeld_toJson (unwrap : Unwrap) : unwrap.toJson.isHeld = true := rfl

@[simp]
theorem BlockParameter.ofJsonIn?_toJson (form : Json.PayloadForm) (p : BlockParameter) :
    ofJsonIn? form p.toJson = some p := by
  simp [toJson, ofJsonIn?]

@[simp]
theorem BlockParameter.isHeld_toJson (p : BlockParameter) : p.toJson.isHeld = true := by
  simp [toJson]

/-- A literal is a finite number, or no floating-point number at all. -/
def Constant.IsFinite (c : Constant) : Prop :=
  ∀ x, c = .float x → x.isFinite = true

theorem Constant.ofJsonIn?_toJson (form : Json.PayloadForm) {c : Constant} (h : c.IsFinite) :
    ofJsonIn? form c.toJson = some c := by
  cases c
  case nil => simp [toJson, ofJsonIn?]
  all_goals
    rw [toJson, ofJsonIn?, if_neg (Json.bareTag_obj_ne (by decide) _ form), Json.tagged_obj]
    dsimp only [Option.bind_eq_bind, Option.bind_some]
  case float x => simp [Json.toBinary64?_ofBinary64 (h x rfl)]
  all_goals simp

@[simp]
theorem Constant.isHeld_toJson (c : Constant) : c.toJson.isHeld = true := by
  cases c <;> simp [toJson]

/-- If the expression is a literal, it is a finite number or no floating-point number. -/
def Expr.IsFinite (e : Expr) : Prop :=
  ∀ c, e.constant? = some c → c.IsFinite

/-! ### Lists -/

theorem exprJsons_eq_map (es : List Expr) : exprJsons es = es.map Expr.toJson := by
  induction es with
  | nil => rfl
  | cons e es ih => rw [exprJsons, ih, List.map_cons]

theorem argumentJsons_eq_map (arguments : List Argument) :
    argumentJsons arguments = arguments.map fun a =>
      .obj [("label", .ofString? a.label), ("expression", a.value.toJson)] := by
  induction arguments with
  | nil => rfl
  | cons a arguments ih =>
    obtain ⟨label, value⟩ := a
    rw [argumentJsons, ih, List.map_cons]

theorem entryJsons_eq_map (entries : List Entry) :
    entryJsons entries = entries.map fun a =>
      .obj [("key", a.key.toJson), ("value", a.value.toJson)] := by
  induction entries with
  | nil => rfl
  | cons a entries ih =>
    obtain ⟨key, value⟩ := a
    rw [entryJsons, ih, List.map_cons]

theorem stmtJsons_eq_map (ss : List Stmt) : stmtJsons ss = ss.map Stmt.toJson := by
  induction ss with
  | nil => rfl
  | cons s ss ih => rw [stmtJsons, ih, List.map_cons]

theorem variableJsons_eq_map (declarations : List Variable) :
    variableJsons declarations = declarations.map fun v =>
      .obj [("name", .str v.name), ("ty", v.type.toJson), ("initialization", exprJson? v.initial),
        ("is_constant", .bool v.constant)] := by
  induction declarations with
  | nil => rfl
  | cons v declarations ih =>
    obtain ⟨name, type, initial, constant⟩ := v
    rw [variableJsons, ih, List.map_cons]

section Lists

variable {form : Json.PayloadForm} {expr : Json → Option Expr} {stmt : Json → Option Stmt}

@[simp]
theorem Expr.toJson_ne_null (e : Expr) : e.toJson ≠ .null := by
  obtain ⟨_, _, _, _⟩ := e
  simp [toJson]

theorem listOf_exprJsons {es : List Expr} (h : ∀ e ∈ es, expr e.toJson = some e) :
    Json.listOf expr (.arr (exprJsons es)) = some es := by
  rw [exprJsons_eq_map]
  exact Json.listOf_map h

theorem listOf_argumentJsons {arguments : List Argument}
    (h : ∀ a ∈ arguments, expr a.value.toJson = some a.value) :
    Json.listOf (argumentOf expr) (.arr (argumentJsons arguments)) = some arguments := by
  rw [argumentJsons_eq_map]
  refine Json.listOf_map fun a ha => ?_
  have hread := h a ha
  obtain ⟨label, value⟩ := a
  simp [argumentOf, show expr value.toJson = some value from hread]

theorem listOf_entryJsons {entries : List Entry}
    (h : ∀ a ∈ entries, expr a.key.toJson = some a.key ∧ expr a.value.toJson = some a.value) :
    Json.listOf (entryOf expr) (.arr (entryJsons entries)) = some entries := by
  rw [entryJsons_eq_map]
  refine Json.listOf_map fun a ha => ?_
  obtain ⟨hkey, hvalue⟩ := h a ha
  obtain ⟨key, value⟩ := a
  simp [entryOf, show expr key.toJson = some key from hkey,
    show expr value.toJson = some value from hvalue]

theorem nullable_exprJson? {value : Option Expr}
    (h : ∀ e, value = some e → expr e.toJson = some e) :
    Json.nullable expr (exprJson? value) = some value := by
  cases value with
  | none => rfl
  | some e => rw [exprJson?, Json.nullable_of_ne e.toJson_ne_null, h e rfl, Option.map_some]

theorem listOf_variableJsons {declarations : List Variable}
    (h : ∀ v ∈ declarations, ∀ e, v.initial = some e → expr e.toJson = some e) :
    Json.listOf (variableOf form expr) (.arr (variableJsons declarations)) = some declarations := by
  rw [variableJsons_eq_map]
  refine Json.listOf_map fun v hv => ?_
  have hinitial := nullable_exprJson? (h v hv)
  obtain ⟨name, type, initial, constant⟩ := v
  simp [variableOf, show Json.nullable expr (exprJson? initial) = some initial from hinitial]

theorem bodyOf_bodyJson {body : Body} (h : ∀ s ∈ body, stmt s.toJson = some s) :
    bodyOf stmt (bodyJson (stmtJsons body)) = some body := by
  rw [bodyJson, bodyOf, stmtJsons_eq_map]
  simp [Json.listOf_map h]

/-- The members of a record of slots give the slots back. -/
theorem slots_read (form : Json.PayloadForm) (kind : Json) (resolved expected : Option SwiftType)
    (source : Option SourceText) :
    let members := ("kind", kind) :: slotMembers resolved expected source
    (∀ {α : Type} (decode : Json → Option α), Json.field members "kind" decode = decode kind) ∧
      Json.field? members "resolved_type" (SwiftType.ofJsonIn? form) = some resolved ∧
      Json.field? members "expected_type" (SwiftType.ofJsonIn? form) = some expected ∧
      Json.field? members "source" SourceText.ofJson? = some source := by
  cases resolved <;> cases expected <;> cases source <;>
    simp [slotMembers, Json.nullable_of_ne]

end Lists

/-! ### Shapes and suffixes -/

section Shapes

variable {form : Json.PayloadForm} {expr : Json → Option Expr} {stmt : Json → Option Stmt}

theorem suffixOf_toJson {suffix : Suffix}
    (h : ∀ e ∈ suffix.subexpressions, expr e.toJson = some e) :
    suffixOf expr suffix.toJson = some suffix := by
  cases suffix
  all_goals
    rw [Suffix.toJson, suffixOf, Json.tagged_obj]
    dsimp only [Option.bind_eq_bind, Option.bind_some]
    dsimp only [Suffix.subexpressions] at h
  case member name => simp
  case call arguments => simp [listOf_argumentJsons (List.forall_mem_map.mp h)]
  case subscript index => simp [h index List.mem_cons_self]

/-- **A shape is read back if what stands below it is.** -/
theorem shapeOf_toJson {shape : Shape}
    (hexpr : ∀ e ∈ shape.subexpressions, expr e.toJson = some e)
    (hstmt : ∀ s ∈ shape.statements, stmt s.toJson = some s)
    (hfinite : ∀ c, shape = .constant c → c.IsFinite) :
    shapeOf form expr stmt shape.toJson = some shape := by
  cases shape
  all_goals
    rw [Shape.toJson, shapeOf, Json.tagged_obj]
    dsimp only [Option.bind_eq_bind, Option.bind_some]
    simp only [Shape.subexpressions, List.forall_mem_cons] at hexpr
  case identifier name | unknown text => simp
  case constant c => simp [Constant.ofJsonIn?_toJson form (hfinite c rfl)]
  case unary | binary | ternary | assignment | cast | parens => simp [hexpr]
  case sizeOfValue e => simp [hexpr]
  case sizeOfType type => simp
  case suffixed receiver unwrap suffix => simp [hexpr.1, suffixOf_toJson hexpr.2]
  case arrayLiteral elements => simp [listOf_exprJsons hexpr]
  case dictionaryLiteral entries =>
    have hentries : ∀ a ∈ entries,
        expr a.key.toJson = some a.key ∧ expr a.value.toJson = some a.value := by
      intro a ha
      exact ⟨hexpr a.key (List.mem_flatMap.mpr ⟨a, ha, by simp⟩),
        hexpr a.value (List.mem_flatMap.mpr ⟨a, ha, by simp⟩)⟩
    simp [listOf_entryJsons hentries]
  case block parameters result body =>
    have hparameters : Json.listOf (BlockParameter.ofJsonIn? form)
        (.arr (parameters.map BlockParameter.toJson)) = some parameters :=
      Json.listOf_map fun p _ => p.ofJsonIn?_toJson form
    have hbody : bodyOf stmt (bodyJson (stmtJsons body)) = some body := bodyOf_bodyJson hstmt
    simp [hparameters, hbody]

/-- **A statement with a payload is read back if what stands below it is.** -/
theorem stmtOf_toJson {s : Stmt} (hbreak : s ≠ .break) (hcontinue : s ≠ .continue)
    (hexpr : ∀ e ∈ s.subexpressions, expr e.toJson = some e)
    (hstmt : ∀ body ∈ s.bodies, ∀ t ∈ body, stmt t.toJson = some t) :
    stmtOf form expr stmt s.toJson = some s := by
  have hbody : ∀ body ∈ s.bodies, bodyOf stmt (bodyJson (stmtJsons body)) = some body :=
    fun body h => bodyOf_bodyJson (hstmt body h)
  cases s
  case «break» => exact absurd rfl hbreak
  case «continue» => exact absurd rfl hcontinue
  case' branch condition body otherwise => cases otherwise
  all_goals
    rw [Stmt.toJson, stmtOf, Json.tagged_obj]
    dsimp only [Option.bind_eq_bind, Option.bind_some]
    simp only [Stmt.subexpressions, Stmt.bodies, List.forall_mem_cons] at hexpr hbody
  case compound | whileLoop | repeatLoop | forIn => simp [hexpr, hbody]
  case branch.none => simp [hexpr, hbody]
  case branch.some otherwise =>
    obtain ⟨hbody, hrest⟩ := hbody
    have hotherwise := hrest otherwise (by simp)
    -- A second branch is written as an object, so it is not taken for `null`.
    have hsome : Json.nullable (bodyOf stmt) (bodyJson (stmtJsons otherwise)) =
        some (some otherwise) := by
      rw [Json.nullable_of_ne (by simp [bodyJson]), hotherwise, Option.map_some]
    simp [hexpr, hbody, hsome]
  case «return» value =>
    have hvalue := nullable_exprJson? fun e he => hexpr e (Option.mem_toList.mpr he)
    simp [hvalue]
  case expressions values => simp [listOf_exprJsons hexpr]
  case locals declarations =>
    have hdeclarations : Json.listOf (variableOf form expr) (.arr (variableJsons declarations)) =
        some declarations :=
      listOf_variableJsons fun v hv e he => hexpr e (List.mem_filterMap.mpr ⟨v, hv, he⟩)
    simp [hdeclarations]
  case unknown source => simp

end Shapes

/-- A statement with a payload is written with a tag of its own. -/
theorem Stmt.exists_toJson_eq {s : Stmt} (hbreak : s ≠ .break) (hcontinue : s ≠ .continue) :
    ∃ tag payload, s.toJson = .obj [(tag, payload)] ∧ tag ≠ "Break" ∧ tag ≠ "Continue" := by
  cases s
  case «break» => exact absurd rfl hbreak
  case «continue» => exact absurd rfl hcontinue
  case' branch condition body otherwise => cases otherwise
  all_goals exact ⟨_, _, by rw [Stmt.toJson], by decide, by decide⟩

/-! ### Sizes -/

theorem sum_size_arguments_le (arguments : List Argument) :
    ((arguments.map (·.value)).map fun e => e.toJson.size).sum ≤
      ((argumentJsons arguments).map Json.size).sum := by
  induction arguments with
  | nil => simp [argumentJsons]
  | cons a arguments ih =>
    obtain ⟨label, value⟩ := a
    simp only [argumentJsons, List.map_cons, List.sum_cons, Json.size_obj]
    simp only [List.map_map] at ih
    simp
    omega

theorem sum_size_entries_le (entries : List Entry) :
    ((entries.flatMap fun entry => [entry.key, entry.value]).map fun e => e.toJson.size).sum ≤
      ((entryJsons entries).map Json.size).sum := by
  induction entries with
  | nil => simp [entryJsons]
  | cons a entries ih =>
    obtain ⟨key, value⟩ := a
    simp only [entryJsons, List.map_cons, List.sum_cons, Json.size_obj, List.flatMap_cons]
    simp
    omega

theorem sum_size_variables_le (declarations : List Variable) :
    ((declarations.filterMap (·.initial)).map fun e => e.toJson.size).sum ≤
      ((variableJsons declarations).map Json.size).sum := by
  induction declarations with
  | nil => simp [variableJsons]
  | cons v declarations ih =>
    obtain ⟨name, type, _ | initial, constant⟩ := v
    · simp [variableJsons, exprJson?]
      omega
    · simp [variableJsons, exprJson?]
      omega

theorem Expr.sum_size_lt (e : Expr) :
    (e.shape.subexpressions.map fun e => e.toJson.size).sum +
      (e.shape.statements.map fun s => s.toJson.size).sum < e.toJson.size := by
  obtain ⟨shape, resolved, expected, source⟩ := e
  -- The slots and the source only add to the size.
  suffices h : (shape.subexpressions.map fun e => e.toJson.size).sum +
      (shape.statements.map fun s => s.toJson.size).sum ≤ shape.toJson.size by
    simp [Expr.toJson]
    omega
  cases shape
  case suffixed receiver unwrap suffix =>
    cases suffix
    case call arguments =>
      have hle := sum_size_arguments_le arguments
      simp [Shape.subexpressions, Shape.statements, Shape.toJson, Suffix.subexpressions,
        Suffix.toJson] at hle ⊢
      omega
    all_goals
      simp [Shape.subexpressions, Shape.statements, Shape.toJson, Suffix.subexpressions,
        Suffix.toJson]
      omega
  case dictionaryLiteral entries =>
    have hle := sum_size_entries_le entries
    simp [Shape.subexpressions, Shape.statements, Shape.toJson] at hle ⊢
    omega
  all_goals
    simp [Shape.subexpressions, Shape.statements, Shape.toJson, bodyJson, exprJsons_eq_map,
      stmtJsons_eq_map, Function.comp_def]
  all_goals omega

theorem Stmt.sum_size_lt (s : Stmt) :
    (s.subexpressions.map fun e => e.toJson.size).sum +
      (s.bodies.flatten.map fun s => s.toJson.size).sum < s.toJson.size := by
  cases s
  case' branch condition body otherwise => cases otherwise
  case' «return» value => cases value
  case locals declarations =>
    have hle := sum_size_variables_le declarations
    simp [Stmt.subexpressions, Stmt.bodies, Stmt.toJson] at hle ⊢
    omega
  all_goals
    simp [Stmt.subexpressions, Stmt.bodies, Stmt.toJson, bodyJson, exprJson?, exprJsons_eq_map,
      stmtJsons_eq_map, Function.comp_def]
  all_goals omega

/-! ### Held values -/

theorem Expr.isHeld_of_parts (e : Expr)
    (hexpr : ∀ e' ∈ e.shape.subexpressions, e'.toJson.isHeld = true)
    (hstmt : ∀ s ∈ e.shape.statements, s.toJson.isHeld = true) : e.toJson.isHeld = true := by
  obtain ⟨shape, resolved, expected, source⟩ := e
  have hslots : (slotMembers resolved expected source).all (fun m => m.2.isHeld) = true := by
    cases resolved <;> cases expected <;> cases source <;> simp [slotMembers]
  suffices h : shape.toJson.isHeld = true by
    simp [Expr.toJson, h, hslots]
  cases shape
  case suffixed receiver unwrap suffix =>
    cases suffix <;>
      simp_all [Shape.subexpressions, Suffix.subexpressions, Shape.toJson, Suffix.toJson,
        argumentJsons_eq_map]
  case dictionaryLiteral entries =>
    simp only [Shape.subexpressions, List.mem_flatMap] at hexpr
    simp only [Shape.toJson, entryJsons_eq_map, Json.isHeld_obj, Json.isHeld_arr, List.all_map,
      List.all_cons, List.all_nil, Bool.and_true, List.all_eq_true, Function.comp_apply]
    intro a ha
    rw [hexpr a.key ⟨a, ha, by simp⟩, hexpr a.value ⟨a, ha, by simp⟩, Bool.and_self]
  all_goals
    simp_all [Shape.subexpressions, Shape.statements, Shape.toJson, bodyJson, exprJsons_eq_map,
      stmtJsons_eq_map]

theorem Stmt.isHeld_of_parts (s : Stmt)
    (hexpr : ∀ e ∈ s.subexpressions, e.toJson.isHeld = true)
    (hstmt : ∀ body ∈ s.bodies, ∀ t ∈ body, t.toJson.isHeld = true) : s.toJson.isHeld = true := by
  cases s
  case' branch condition body otherwise => cases otherwise
  case' «return» value => cases value
  case locals declarations =>
    have hinitial : ∀ v ∈ declarations, (exprJson? v.initial).isHeld = true := by
      intro v hv
      cases hv' : v.initial with
      | none => rfl
      | some e => exact hexpr e (List.mem_filterMap.mpr ⟨v, hv, hv'⟩)
    simp_all [Stmt.toJson, variableJsons_eq_map]
  all_goals
    simp_all [Stmt.subexpressions, Stmt.bodies, Stmt.toJson, bodyJson, exprJson?, exprJsons_eq_map,
      stmtJsons_eq_map]

/-! ### Trees -/

namespace SyntaxNode

/-- A node as JSON. -/
def toJson : SyntaxNode → Json
  | expr e => e.toJson
  | stmt s => s.toJson

/-- The node is read back with some fuel. -/
def ReadBack (form : Json.PayloadForm) (fuel : Nat) : SyntaxNode → Prop
  | expr e => Expr.decode form fuel e.toJson = some e
  | stmt s => Stmt.decode form fuel s.toJson = some s

variable {form : Json.PayloadForm} {fuel : Nat}

theorem readBack_expr {e : Expr}
    (hexpr : ∀ e' ∈ e.shape.subexpressions, Expr.decode form fuel e'.toJson = some e')
    (hstmt : ∀ s ∈ e.shape.statements, Stmt.decode form fuel s.toJson = some s)
    (hfinite : e.IsFinite) : Expr.decode form (fuel + 1) e.toJson = some e := by
  obtain ⟨shape, resolved, expected, source⟩ := e
  have hshape : shapeOf form (Expr.decode form fuel) (Stmt.decode form fuel) shape.toJson =
      some shape :=
    shapeOf_toJson hexpr hstmt (by rintro c rfl; exact hfinite c rfl)
  obtain ⟨hkind, hresolved, hexpected, hsource⟩ :=
    slots_read form shape.toJson resolved expected source
  rw [Expr.toJson, Expr.decode, Json.record?_obj, Option.bind_eq_bind, Option.bind_some]
  simp [hkind, hresolved, hexpected, hsource, hshape]

theorem readBack_stmt {s : Stmt}
    (hexpr : ∀ e ∈ s.subexpressions, Expr.decode form fuel e.toJson = some e)
    (hstmt : ∀ body ∈ s.bodies, ∀ t ∈ body, Stmt.decode form fuel t.toJson = some t) :
    Stmt.decode form (fuel + 1) s.toJson = some s := by
  by_cases hbreak : s = .break
  · subst hbreak
    simp [Stmt.toJson, Stmt.decode]
  by_cases hcontinue : s = .continue
  · subst hcontinue
    simp [Stmt.toJson, Stmt.decode]
  have hread : stmtOf form (Expr.decode form fuel) (Stmt.decode form fuel) s.toJson = some s :=
    stmtOf_toJson hbreak hcontinue hexpr hstmt
  obtain ⟨tag, payload, htag, hnebreak, hnecontinue⟩ := Stmt.exists_toJson_eq hbreak hcontinue
  rw [Stmt.decode]
  split
  · exact absurd ‹_› (htag ▸ Json.bareTag_obj_ne hnebreak payload form)
  · exact absurd ‹_› (htag ▸ Json.bareTag_obj_ne hnecontinue payload form)
  · exact hread

theorem readBack_succ (n : SyntaxNode)
    (h : ∀ c ∈ n.children true, c.Everywhere Expr.IsFinite → c.ReadBack form fuel)
    (hfinite : n.Everywhere Expr.IsFinite) : n.ReadBack form (fuel + 1) := by
  obtain ⟨hroot, hbelow⟩ := everywhere_iff.mp hfinite
  have hchildren : ∀ c ∈ n.children true, c.ReadBack form fuel :=
    fun c hc => h c hc (hbelow c hc)
  cases n with
  | expr e =>
    obtain ⟨hexpr, hstmt⟩ := forall_mem_children_expr.mp hchildren
    exact readBack_expr hexpr hstmt (hroot e rfl)
  | stmt s =>
    obtain ⟨hexpr, hstmt⟩ := forall_mem_children_stmt.mp hchildren
    exact readBack_stmt hexpr hstmt

theorem sum_size_children_lt (n : SyntaxNode) :
    ((n.children true).map fun c => c.toJson.size).sum < n.toJson.size := by
  cases n with
  | expr e =>
    have hlt := e.sum_size_lt
    rw [children_expr, List.map_append, List.sum_append, List.map_map, List.map_map]
    exact hlt
  | stmt s =>
    have hlt := s.sum_size_lt
    rw [children, List.map_append, List.sum_append, List.map_map, List.map_map]
    exact hlt

theorem isHeld_toJson (n : SyntaxNode) : n.toJson.isHeld = true := by
  refine Json.parts_induction (P := fun _ n => n.toJson.isHeld = true) sum_size_children_lt ?_ _ n
    (Nat.le_refl _)
  intro _ n h
  cases n with
  | expr e =>
    obtain ⟨hexpr, hstmt⟩ := forall_mem_children_expr.mp h
    exact e.isHeld_of_parts hexpr hstmt
  | stmt s =>
    obtain ⟨hexpr, hstmt⟩ := forall_mem_children_stmt.mp h
    exact s.isHeld_of_parts hexpr hstmt

end SyntaxNode

/-- **An expression is read back as it was written**, if its literals are finite. -/
theorem Expr.ofJsonIn?_toJson (form : Json.PayloadForm) {e : Expr}
    (h : (SyntaxNode.expr e).Everywhere Expr.IsFinite) : ofJsonIn? form e.toJson = some e :=
  Json.parts_induction (P := fun fuel n => n.Everywhere Expr.IsFinite → n.ReadBack form fuel)
    SyntaxNode.sum_size_children_lt (fun _ => SyntaxNode.readBack_succ) _ (.expr e)
    (Nat.le_refl _) h

/-- **A body is read back as it was written**, if its literals are finite. -/
theorem Body.ofJsonIn?_toJson (form : Json.PayloadForm) {body : Body}
    (h : ∀ s ∈ body, (SyntaxNode.stmt s).Everywhere Expr.IsFinite) :
    ofJsonIn? form (toJson body) = some body := by
  refine bodyOf_bodyJson fun s hs => ?_
  refine Json.parts_induction (P := fun fuel n => n.Everywhere Expr.IsFinite → n.ReadBack form fuel)
    SyntaxNode.sum_size_children_lt (fun _ => SyntaxNode.readBack_succ) _ (.stmt s) ?_ (h s hs)
  have hle := List.le_sum_of_mem (List.mem_map_of_mem (f := fun s => s.toJson.size) hs)
  simp [Body.toJson, bodyJson, stmtJsons_eq_map, Function.comp_def, SyntaxNode.toJson]
  omega

@[simp]
theorem Expr.isHeld_toJson (e : Expr) : e.toJson.isHeld = true :=
  (SyntaxNode.expr e).isHeld_toJson

@[simp]
theorem Body.isHeld_toJson (body : Body) : (toJson body).isHeld = true := by
  have hstmt : ∀ s : Stmt, s.toJson.isHeld = true := fun s => (SyntaxNode.stmt s).isHeld_toJson
  simp [toJson, bodyJson, stmtJsons_eq_map, hstmt]

end ObjcSwift
