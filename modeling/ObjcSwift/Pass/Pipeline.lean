import ObjcSwift.Pass.AccessorMerge
import ObjcSwift.Pass.Idiom
import ObjcSwift.Pass.TypeMerge

/-!
# Passes

A **pass** edits a graph of declarations as a whole. Passes run one after the other, and after each
of them owners and lists have to agree everywhere.

The passes of a run share a catalogue of the declarations. It is made before the first pass, and a
pass that merges types or properties makes it again.
-/

namespace ObjcSwift

/-- The passes. -/
inductive Pass
  /-- Merge the declarations of each type. -/
  | mergeTypes
  /-- Take nullability over from protocols. -/
  | propagateNullability
  /-- Merge accessors into properties. -/
  | mergeProperties
  /-- Fold idioms in bodies. -/
  | foldIdioms
deriving DecidableEq

/-- Why running passes failed. -/
inductive PassError
  /-- A pass failed. -/
  | failed (pass : Pass) (cause : GraphError)
  /-- A pass left owners and lists that do not agree. -/
  | broken (pass : Pass) (cause : GraphError)
  /-- There is no pass of that name. -/
  | unknown (name : String)
deriving DecidableEq

namespace Pass

/-- The name of a pass. -/
def name : Pass → String
  | mergeTypes => "file-type-merging"
  | propagateNullability => "protocol-nullability-propagation"
  | mergeProperties => "property-merge"
  | foldIdioms => "ast-rewriting"

/-- The passes in the order in which they run when nothing else is asked for. -/
def standard : List Pass :=
  [mergeTypes, propagateNullability, mergeProperties, foldIdioms]

/-- The pass of a name. -/
def ofName? (name : String) : Option Pass :=
  standard.find? (·.name == name)

/-- The passes of several names; the first unknown name is an error. -/
def ofNames (names : List String) : Except PassError (List Pass) :=
  names.mapM fun name =>
    match ofName? name with
    | some pass => .ok pass
    | none => .error (.unknown name)

/-- Runs a pass with a catalogue, and gives the catalogue for the passes after it. -/
def apply (catalog : Catalog) : Pass → Graph.Edit Catalog
  | mergeTypes => do
    let changed ← TypeMerge.mergeAll
    if changed then return .ofGraph (← get) else return catalog
  | propagateNullability => do
    ProtocolNullability.propagate
    return catalog
  | mergeProperties => AccessorMerge.mergeAll catalog
  | foldIdioms => do
    Idiom.foldAll catalog
    return catalog

/-- Runs a pass and checks what it left behind. -/
def run (catalog : Catalog) (pass : Pass) : EStateM PassError Graph Catalog := fun g =>
  match pass.apply catalog g with
  | .error cause g => .error (.failed pass cause) g
  | .ok catalog g =>
    match g.verify with
    | .error cause => .error (.broken pass cause) g
    | .ok _ => .ok catalog g

/-- Runs several passes, up to the first that fails. -/
def runAll (catalog : Catalog) : List Pass → EStateM PassError Graph Catalog
  | [] => return catalog
  | pass :: rest => do runAll (← pass.run catalog) rest

end Pass

namespace PassError

/-- The pass that an error is blamed on. -/
def pass? : PassError → Option Pass
  | failed pass _ | broken pass _ => some pass
  | unknown _ => none

/-- The error in words. -/
def message : PassError → String
  | failed pass cause => "pass `" ++ pass.name ++ "` failed: " ++ cause.message
  | broken pass cause =>
    "graph integrity check after pass `" ++ pass.name ++ "` failed: " ++ cause.message
  | unknown name => "unknown intention pass `" ++ name ++ "`"

end PassError

end ObjcSwift
