import ObjcSwift.Swift.Expr

/-!
# Equality of shape

Two expressions are **of the same shape** when they differ at most in their slots, at any depth.
Floating-point literals are compared by value, so an expression with a NaN in it is not even of the
same shape as itself.
-/

namespace ObjcSwift

mutual

/-- Whether two expressions have the same shape. -/
def Expr.sameShape : Expr → Expr → Bool
  | ⟨a, _, _, _⟩, ⟨b, _, _, _⟩ => a.same b

/-- Whether two shapes are the same. -/
def Shape.same : Shape → Shape → Bool
  | .identifier a, .identifier b => a == b
  | .constant a, .constant b => a.same b
  | .unary o a, .unary p b => o == p && a.sameShape b
  | .binary a o b, .binary c p d => a.sameShape c && o == p && b.sameShape d
  | .ternary a b c, .ternary d e f => a.sameShape d && b.sameShape e && c.sameShape f
  | .assignment a o b, .assignment c p d => a.sameShape c && o == p && b.sameShape d
  | .suffixed a u s, .suffixed b v t => a.sameShape b && s.same t && u == v
  | .cast a t, .cast b u => a.sameShape b && t == u
  | .sizeOfValue a, .sizeOfValue b => a.sameShape b
  | .sizeOfType t, .sizeOfType u => t == u
  | .parens a, .parens b => a.sameShape b
  | .arrayLiteral as, .arrayLiteral bs => sameShapes as bs
  | .dictionaryLiteral as, .dictionaryLiteral bs => sameEntries as bs
  | .block ps r as, .block qs s bs => ps == qs && r == s && sameStmts as bs
  | .unknown a, .unknown b => a == b
  | _, _ => false

/-- Whether two suffixes are the same. -/
def Suffix.same : Suffix → Suffix → Bool
  | .member a, .member b => a == b
  | .call as, .call bs => sameArguments as bs
  | .subscript a, .subscript b => a.sameShape b
  | _, _ => false

/-- Whether two lists of expressions have the same shapes. -/
def sameShapes : List Expr → List Expr → Bool
  | [], [] => true
  | a :: as, b :: bs => a.sameShape b && sameShapes as bs
  | _, _ => false

/-- Whether two argument lists are the same. -/
def sameArguments : List Argument → List Argument → Bool
  | [], [] => true
  | ⟨l, a⟩ :: as, ⟨m, b⟩ :: bs => l == m && a.sameShape b && sameArguments as bs
  | _, _ => false

/-- Whether two lists of dictionary entries are the same. -/
def sameEntries : List Entry → List Entry → Bool
  | [], [] => true
  | ⟨k, a⟩ :: as, ⟨l, b⟩ :: bs => k.sameShape l && a.sameShape b && sameEntries as bs
  | _, _ => false

/-- Whether two bodies are the same. -/
def sameStmts : List Stmt → List Stmt → Bool
  | [], [] => true
  | a :: as, b :: bs => a.same b && sameStmts as bs
  | _, _ => false

/-- Whether two lists of variable declarations are the same. -/
def sameVariables : List Variable → List Variable → Bool
  | [], [] => true
  | ⟨n, t, none, c⟩ :: as, ⟨m, u, none, d⟩ :: bs =>
    n == m && t == u && c == d && sameVariables as bs
  | ⟨n, t, some a, c⟩ :: as, ⟨m, u, some b, d⟩ :: bs =>
    n == m && t == u && a.sameShape b && c == d && sameVariables as bs
  | _, _ => false

/-- Whether two statements are the same. -/
def Stmt.same : Stmt → Stmt → Bool
  | .compound a, .compound b => sameStmts a b
  | .branch a b none, .branch c d none => a.sameShape c && sameStmts b d
  | .branch a b (some e), .branch c d (some f) => a.sameShape c && sameStmts b d && sameStmts e f
  | .whileLoop a b, .whileLoop c d => a.sameShape c && sameStmts b d
  | .repeatLoop b a, .repeatLoop d c => sameStmts b d && a.sameShape c
  | .forIn n a b, .forIn m c d => n == m && a.sameShape c && sameStmts b d
  | .return none, .return none => true
  | .return (some a), .return (some b) => a.sameShape b
  | .expressions as, .expressions bs => sameShapes as bs
  | .locals as, .locals bs => sameVariables as bs
  | .break, .break => true
  | .continue, .continue => true
  | .unknown a, .unknown b => a == b
  | _, _ => false

end

end ObjcSwift
