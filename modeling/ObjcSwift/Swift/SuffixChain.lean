import ObjcSwift.Swift.Expr

/-!
# Suffix chains

Suffixes nest inside out: the outermost node of `a.b(x).c` is the access `.c`. A **chain** is the
same expression read from left to right: the innermost receiver that is no suffix, and the
operations applied to it one after the other.

A member access that is called at once is one operation, a method call; so `a.b(x).c[y]` has three
entries, `b(x)` on `a`, `.c` and `[y]`.
-/

namespace ObjcSwift

/-- One suffix of a nested expression, with the receiver it is applied to. -/
structure SuffixLink where
  /-- The receiver. -/
  receiver : Expr
  /-- How the receiver is unwrapped. -/
  unwrap : Unwrap
  /-- The suffix. -/
  suffix : Suffix

/-- An operation of a chain. -/
inductive ChainOperation
  /-- `.name`, not called at once. -/
  | member (name : String)
  /-- `.name(arguments)`, where the member may be unwrapped before it is called. -/
  | method (name : String) (arguments : List Argument) (calleeUnwrap : Unwrap)
  /-- `(arguments)` on something that is no member access. -/
  | call (arguments : List Argument)
  /-- `[index]` -/
  | subscript (index : Expr)

/-- An operation of a chain with what it is applied to. -/
structure ChainEntry where
  /-- What the operation is applied to. -/
  receiver : Expr
  /-- The operation. -/
  operation : ChainOperation
  /-- How the receiver is unwrapped. -/
  unwrap : Unwrap

/-- An expression read from left to right. -/
structure SuffixChain where
  /-- The innermost receiver. -/
  root : Expr
  /-- The operations, leftmost first. -/
  entries : List ChainEntry

/-- The innermost receiver of nested suffixes. -/
def Expr.chainRoot : Expr → Expr
  | ⟨.suffixed receiver _ _, _, _, _⟩ => receiver.chainRoot
  | e => e

/-- The nested suffixes of an expression, leftmost first. -/
def Expr.links : Expr → List SuffixLink
  | ⟨.suffixed receiver unwrap suffix, _, _, _⟩ => receiver.links ++ [⟨receiver, unwrap, suffix⟩]
  | _ => []

namespace SuffixChain

/-- Joins every member access with the call right after it. -/
def joinCalls : List SuffixLink → List ChainEntry
  | [] => []
  | ⟨receiver, unwrap, .member name⟩ :: ⟨_, calleeUnwrap, .call arguments⟩ :: rest =>
    ⟨receiver, .method name arguments calleeUnwrap, unwrap⟩ :: joinCalls rest
  | ⟨receiver, unwrap, .member name⟩ :: rest => ⟨receiver, .member name, unwrap⟩ :: joinCalls rest
  | ⟨receiver, unwrap, .call arguments⟩ :: rest =>
    ⟨receiver, .call arguments, unwrap⟩ :: joinCalls rest
  | ⟨receiver, unwrap, .subscript index⟩ :: rest =>
    ⟨receiver, .subscript index, unwrap⟩ :: joinCalls rest

/-- The chain of an expression. -/
def ofExpr (e : Expr) : SuffixChain :=
  ⟨e.chainRoot, joinCalls e.links⟩

/-- The entry at a position counted from one. -/
def entryAt? (chain : SuffixChain) : (position : Nat) → Option ChainEntry
  | 0 => none
  | position + 1 => chain.entries[position]?

end SuffixChain

namespace ChainEntry

/-- Whether the entry calls something. -/
def isCall (entry : ChainEntry) : Bool :=
  match entry.operation with
  | .method _ _ _ | .call _ => true
  | _ => false

/-- Whether the entry is a member access that is not called. -/
def isMember (entry : ChainEntry) : Bool :=
  match entry.operation with
  | .member _ => true
  | _ => false

/-- Whether the entry is a subscript. -/
def isSubscript (entry : ChainEntry) : Bool :=
  match entry.operation with
  | .subscript _ => true
  | _ => false

/-- The name of the member that is accessed or called. -/
def memberName? (entry : ChainEntry) : Option String :=
  match entry.operation with
  | .member name | .method name _ _ => some name
  | _ => none

/-- The arguments of the call. -/
def arguments? (entry : ChainEntry) : Option (List Argument) :=
  match entry.operation with
  | .method _ arguments _ | .call arguments => some arguments
  | _ => none

end ChainEntry

end ObjcSwift
