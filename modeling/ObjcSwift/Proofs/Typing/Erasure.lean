import ObjcSwift.Proofs.Typing.Coverage
import ObjcSwift.Proofs.Typing.Faces
import ObjcSwift.Typing.Bodies

/-!
# What annotating leaves alone

An expression has two slots for types, one for the type that was found and one for the type that its
surroundings ask for. Annotating fills these slots and does nothing else: a tree is the same before
and after when all its slots are emptied.

Emptying the slots is an edit of the tree (`eraser`), so it reaches what every edit reaches. The
**bare** form of a declaration, and of a graph, has all slots in it emptied, and annotating any
declarations of a graph keeps it (`Graph.outcome_forM_annotate_bare`).
-/

namespace ObjcSwift

/-! ### Trees -/

/-- Empties both slots of every expression. -/
def eraser : Editor Unit where
  exitExpr e _ := ({ e with resolved := none, expected := none }, ())

theorem Expr.edit_eraser (shape : Shape) (resolved expected : Option SwiftType)
    (source : Option SourceText) :
    Expr.edit eraser ⟨shape, resolved, expected, source⟩ () =
      (⟨(shape.edit eraser ()).1, none, none, source⟩, ()) := rfl

mutual

/-- **Annotating an expression fills slots and does nothing else.** -/
theorem Expr.erase_annotate (scope : Scope) (asked : Option SwiftType) :
    ∀ e : Expr, (e.annotate scope asked).edit eraser () = e.edit eraser ()
  | ⟨shape, _, _, source⟩ => by
    rw [Expr.annotate, Expr.edit_eraser, Expr.edit_eraser, Shape.erase_annotate scope asked shape]

theorem Shape.erase_annotate (scope : Scope) (asked : Option SwiftType) :
    ∀ shape : Shape, (shape.annotate scope asked).1.edit eraser () = shape.edit eraser ()
  | .identifier _ => rfl
  | .constant _ => rfl
  | .unary op operand => by
    simp only [Shape.annotate, Shape.edit, operand.erase_annotate scope]
  | .binary lhs op rhs => by
    simp only [Shape.annotate]
    split <;> simp only [Shape.edit, lhs.erase_annotate scope, rhs.erase_annotate scope]
  | .ternary condition ifTrue ifFalse => by
    simp only [Shape.annotate, Shape.edit, condition.erase_annotate scope,
      ifTrue.erase_annotate scope, ifFalse.erase_annotate scope]
  | .assignment lhs op rhs => by
    simp only [Shape.annotate, Shape.edit, lhs.erase_annotate scope, rhs.erase_annotate scope]
  | .suffixed receiver unwrap (.member name) => by
    rw [Shape.annotate_suffixed (.inr (by simp))]
    simp only [Suffix.annotate, Shape.edit, receiver.erase_annotate scope]
  | .suffixed receiver unwrap (.call arguments) => by
    have hreceiver := receiver.erase_annotate scope receiver.expected
    by_cases hmethod : ∃ target memberUnwrap name,
        receiver.shape = .suffixed target memberUnwrap (.member name)
    · -- The callee takes the type of the method, and its slots are emptied anyway. Below it stands
      -- the target, which is annotated as in a callee that is annotated like other expressions.
      obtain ⟨_, _, _, _⟩ := receiver
      obtain ⟨target, memberUnwrap, name, rfl⟩ := hmethod
      have htarget : ((target.annotate scope target.expected).edit eraser ()).1 =
          (target.edit eraser ()).1 := by
        rw [Expr.annotate, Shape.annotate_suffixed (.inr (by simp))] at hreceiver
        simpa only [Expr.edit_eraser, Shape.edit, Suffix.annotate, Suffix.edit, Prod.mk.injEq,
          Expr.mk.injEq, Shape.suffixed.injEq, and_true] using hreceiver
      simp only [Shape.annotate, Shape.edit, Suffix.edit, Expr.edit_eraser, htarget,
        erase_argumentsAnnotate scope _ arguments]
    · rw [Shape.annotate_suffixed (.inl hmethod)]
      simp only [Suffix.annotate, Shape.edit, Suffix.edit, hreceiver,
        erase_argumentsAnnotate scope _ arguments]
  | .suffixed receiver unwrap (.subscript index) => by
    rw [Shape.annotate_suffixed (.inr (by simp))]
    simp only [Suffix.annotate, Shape.edit, Suffix.edit, receiver.erase_annotate scope,
      index.erase_annotate scope]
  | .cast expression target => by
    simp only [Shape.annotate, Shape.edit, expression.erase_annotate scope]
  | .sizeOfValue expression => by
    simp only [Shape.annotate, Shape.edit, expression.erase_annotate scope]
  | .sizeOfType _ => rfl
  | .parens inner => by
    simp only [Shape.annotate, Shape.edit, inner.erase_annotate scope]
  | .arrayLiteral elements => by
    simp only [Shape.annotate, Shape.edit, erase_exprsAnnotate scope _ elements]
  | .dictionaryLiteral entries => by
    simp only [Shape.annotate, Shape.edit, erase_entriesAnnotate scope entries]
  | .block parameters result body => by
    simp only [Shape.annotate, Shape.edit, erase_bodyAnnotate _ body]
  | .unknown _ => rfl

theorem erase_exprsAnnotate (scope : Scope) (asked : Option SwiftType) :
    ∀ es : List Expr, exprsEdit eraser (exprsAnnotate scope asked es) () = exprsEdit eraser es ()
  | [] => rfl
  | e :: es => by
    simp only [exprsAnnotate, exprsEdit, e.erase_annotate scope, erase_exprsAnnotate scope asked es]

theorem erase_argumentsAnnotate (scope : Scope) :
    ∀ (parameters : List SwiftType) (arguments : List Argument),
      argumentsEdit eraser (argumentsAnnotate scope parameters arguments) () =
        argumentsEdit eraser arguments ()
  | _, [] => rfl
  | parameters, ⟨_, value⟩ :: rest => by
    simp only [argumentsAnnotate, argumentsEdit, value.erase_annotate scope,
      erase_argumentsAnnotate scope parameters.tail rest]

theorem erase_entriesAnnotate (scope : Scope) :
    ∀ entries : List Entry,
      entriesEdit eraser (entriesAnnotate scope entries) () = entriesEdit eraser entries ()
  | [] => rfl
  | ⟨key, value⟩ :: rest => by
    simp only [entriesAnnotate, entriesEdit, key.erase_annotate scope, value.erase_annotate scope,
      erase_entriesAnnotate scope rest]

theorem erase_bodyAnnotate (scope : Scope) :
    ∀ body : List Stmt, bodyEdit eraser (bodyAnnotate scope body) () = bodyEdit eraser body ()
  | [] => rfl
  | s :: ss => by
    simp only [bodyAnnotate, bodyEdit, s.erase_annotate scope, erase_bodyAnnotate _ ss]

theorem erase_variablesAnnotate (scope : Scope) :
    ∀ declarations : List Variable,
      variablesEdit eraser (variablesAnnotate scope declarations) () =
        variablesEdit eraser declarations ()
  | [] => rfl
  | ⟨_, _, none, _⟩ :: rest => by
    simp only [variablesAnnotate, variablesEdit, erase_variablesAnnotate _ rest]
  | ⟨_, _, some initial, _⟩ :: rest => by
    simp only [variablesAnnotate, variablesEdit, initial.erase_annotate scope,
      erase_variablesAnnotate _ rest]

theorem Stmt.erase_annotate (scope : Scope) :
    ∀ s : Stmt, (s.annotate scope).edit eraser () = s.edit eraser ()
  | .compound body => by
    simp only [Stmt.annotate, Stmt.edit, erase_bodyAnnotate scope body]
    rfl
  | .branch condition body none => by
    simp only [Stmt.annotate, Stmt.edit, condition.erase_annotate scope,
      erase_bodyAnnotate scope body]
    rfl
  | .branch condition body (some otherwise) => by
    simp only [Stmt.annotate, Stmt.edit, condition.erase_annotate scope,
      erase_bodyAnnotate scope body, erase_bodyAnnotate scope otherwise]
    rfl
  | .whileLoop condition body => by
    simp only [Stmt.annotate, Stmt.edit, condition.erase_annotate scope,
      erase_bodyAnnotate scope body]
    rfl
  | .repeatLoop body condition => by
    simp only [Stmt.annotate, Stmt.edit, condition.erase_annotate scope,
      erase_bodyAnnotate scope body]
    rfl
  | .forIn binding sequence body => by
    simp only [Stmt.annotate, Stmt.edit, sequence.erase_annotate scope, erase_bodyAnnotate _ body]
    rfl
  | .return none => rfl
  | .return (some value) => by
    simp only [Stmt.annotate, Stmt.edit, value.erase_annotate scope]
    rfl
  | .expressions values => by
    simp only [Stmt.annotate, Stmt.edit, erase_ownAnnotate scope values]
    rfl
  | .locals declarations => by
    simp only [Stmt.annotate, Stmt.edit, erase_variablesAnnotate scope declarations]
    rfl
  | .break => rfl
  | .continue => rfl
  | .unknown _ => rfl

theorem erase_ownAnnotate (scope : Scope) :
    ∀ es : List Expr, exprsEdit eraser (ownAnnotate scope es) () = exprsEdit eraser es ()
  | [] => rfl
  | e :: es => by
    simp only [ownAnnotate, exprsEdit, e.erase_annotate scope, erase_ownAnnotate scope es]

end

/-! ### Declarations -/

/-- A function body with all slots emptied. -/
def Code.bare (code : Code) : Code :=
  { code with body := (bodyEdit eraser code.body ()).1 }

/-- A setter with all slots emptied. -/
def Setter.bare (s : Setter) : Setter :=
  { s with code := s.code.bare }

/-- The accessors of a property with all slots emptied. -/
def PropertyMode.bare : PropertyMode → PropertyMode
  | .field => .field
  | .computed getter setter => .computed getter.bare (setter.map Setter.bare)
  | .full getter setter => .full getter.bare setter.bare

/-- The declaration with the slots of all expressions in it emptied. -/
def Decl.bare : Decl → Decl
  | method d => method { d with code := d.code.map Code.bare }
  | globalFunction d => globalFunction { d with code := d.code.map Code.bare }
  | property d => property { d with mode := d.mode.bare }
  | globalVariable d =>
    globalVariable { d with initial := d.initial.map fun e => (e.edit eraser ()).1 }
  | d => d

/-- A declaration with all slots emptied, and its owner. -/
def GraphNode.bare (n : GraphNode) : GraphNode :=
  { n with decl := n.decl.bare }

/-- The graph with the slots of all expressions in it emptied. -/
def Graph.bare (g : Graph) : Graph :=
  { g with slots := g.slots.map (Option.map GraphNode.bare) }

theorem Code.bare_annotate (c : Catalog) (context : BodyContext) (code : Code) :
    (code.annotate c context).bare = code.bare := by
  unfold bare annotate Body.annotate
  rw [erase_bodyAnnotate]

theorem Setter.bare_annotate (c : Catalog) (base : BodyContext) (p : PropertyDecl) (s : Setter) :
    (s.annotate c base p).bare = s.bare := by
  unfold bare annotate
  rw [Code.bare_annotate]

theorem PropertyDecl.bare_annotateMode (c : Catalog) (base : BodyContext) (p : PropertyDecl) :
    (p.annotateMode c base).bare = p.mode.bare := by
  unfold annotateMode
  cases p.mode with
  | field => rfl
  | computed getter setter =>
    cases setter <;> simp [PropertyMode.bare, Code.bare_annotate, Setter.bare_annotate]
  | full getter setter => simp [PropertyMode.bare, Code.bare_annotate, Setter.bare_annotate]

namespace Graph

variable {g : Graph} {id : DeclId} {n : GraphNode}

/-- **Annotating a declaration fills slots and does nothing else.** -/
theorem bare_annotateDecl (c : Catalog) (g : Graph) (id : DeclId) (d : Decl) :
    (annotateDecl c g id d).bare = d.bare := by
  cases d with
  | method d => cases h : d.code <;> simp [annotateDecl, Decl.bare, h, Code.bare_annotate]
  | globalFunction d => cases h : d.code <;> simp [annotateDecl, Decl.bare, h, Code.bare_annotate]
  | property d => simp [annotateDecl, Decl.bare, PropertyDecl.bare_annotateMode]
  | globalVariable d =>
    cases h : d.initial <;>
      simp [annotateDecl, Decl.bare, h, Expr.annotateIn, Expr.erase_annotate]
  | _ => rfl

theorem bare_annotated (c : Catalog) (g : Graph) (id : DeclId) :
    (annotated c g id).bare = g.bare := by
  unfold annotated
  cases hn : g.node? id with
  | none => rfl
  | some n =>
    have hbare : GraphNode.bare { n with decl := annotateDecl c g id n.decl } = n.bare := by
      rw [GraphNode.bare, GraphNode.bare, bare_annotateDecl]
    unfold bare
    rw [map_slots_setNode hn hbare]
    rfl

theorem bare_foldl_annotated (c : Catalog) {ids : List DeclId} :
    (ids.foldl (annotated c) g).bare = g.bare := by
  induction ids generalizing g with
  | nil => rfl
  | cons id ids ih => exact ih.trans (bare_annotated c g id)

/-- **Annotating declarations of a graph keeps its bare form.** -/
theorem outcome_forM_annotate_bare (c : Catalog) (ids : List DeclId) :
    (ids.forM (annotate c)).Outcome g (fun _ g' => g'.bare = g.bare) fun _ _ => True := by
  refine Edit.outcome_forM (fun _ g' => g'.bare = g.bare) (fun id rest g' h => ?_) ids rfl
  rw [annotate, Edit.outcome_bind, Edit.outcome_node]
  split
  · exact (bare_annotated c g' id).trans h
  · trivial

/-- Bare forms have the faces of what they are made from. -/
theorem face_of_bare {g' : Graph} (h : g'.bare = g.bare) : g'.face = g.face := by
  have hface : ∀ g : Graph, g.bare.face = g.face := by
    intro g
    have hnode : ∀ n : GraphNode, n.bare.face = n.face := by
      rintro ⟨parent, d⟩
      cases d <;> rfl
    simp only [bare, face, List.map_map, Function.comp_def, Option.map_map, hnode]
  rw [← hface g', h, hface]

end Graph

end ObjcSwift
