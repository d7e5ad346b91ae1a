import ObjcSwift.Decl.Graph.Edit

/-!
# Passing nullability on

A type written without nullability is implicitly unwrapped. Where a second declaration of the same
thing says more, its type is taken; a type that says something itself is kept.

The pass in this module takes the nullability of protocol methods over to the methods that implement
them, in the classes and extensions that list the protocol.
-/

namespace ObjcSwift

/-- The type of another declaration, if this one is implicitly unwrapped, the other is not, and they
agree below their optional layers; otherwise this one. -/
def SwiftType.takeNullability (t other : SwiftType) : SwiftType :=
  if t.isImplicitlyUnwrapped && !other.isImplicitlyUnwrapped && t.base == other.base then other
  else t

/-- Parameters with the nullability of other parameters, pairwise as far as there are any. -/
def takeParameters : List Parameter → List Parameter → List Parameter
  | p :: ps, q :: qs => { p with type := p.type.takeNullability q.type } :: takeParameters ps qs
  | ps, _ => ps

/-- A signature with the nullability of another one. -/
def Signature.takeNullability (s other : Signature) : Signature :=
  { s with
    parameters := takeParameters s.parameters other.parameters
    result := s.result.takeNullability other.result }

/-- Whether two signatures are those of one method: both static or not, and of the same selector
shape. -/
def Signature.sameMethod (s t : Signature) : Bool :=
  s.isStatic == t.isStatic && s.sameSelector t

namespace ProtocolNullability

/-- The signatures of the methods of a type. -/
def methodSignatures (g : Graph) (d : TypeDecl) : Except GraphError (List Signature) :=
  d.methods.mapM fun id => return (← g.method id).signature

/-- The name of a protocol with the signatures of its methods, if a declaration is one. -/
def protocol? (g : Graph) (id : DeclId) : Except GraphError (Option (String × List Signature)) := do
  let d ← g.type id
  if d.isProtocol then return some (d.name, ← methodSignatures g d) else return none

/-- The names of the protocols of a graph, with the signatures of their methods. -/
def protocolMethods (g : Graph) : Except GraphError (List (String × List Signature)) := do
  return (← g.typeIds.mapM (protocol? g)).reduceOption

/-- The methods that a type has to implement, protocol by protocol in the order it lists them. -/
def requirements (g : Graph) (protocols : List (String × List Signature)) (d : TypeDecl) :
    Except GraphError (List Signature) := do
  let names ← d.conformances.mapM fun id => return (← g.conformance id).name
  return names.flatMap fun name =>
    (protocols.filter fun (protocol, _) => protocol == name).flatMap (·.2)

/-- The methods of a type whose signatures change, with their new signatures. -/
def methodUpdates (g : Graph) (protocols : List (String × List Signature)) (d : TypeDecl) :
    Except GraphError (List (DeclId × Signature)) := do
  if d.isProtocol then return []
  let required ← requirements g protocols d
  if required.isEmpty then return []
  let updates ← d.methods.mapM fun id => do
    let signature := (← g.method id).signature
    return match required.find? (·.sameMethod signature) with
      | some requirement =>
        let taken := signature.takeNullability requirement
        if taken = signature then none else some (id, taken)
      | none => none
  return updates.reduceOption

/-- The methods of a graph whose signatures change, with their new signatures. -/
def nullabilityUpdates (g : Graph) : Except GraphError (List (DeclId × Signature)) := do
  let protocols ← protocolMethods g
  if protocols.isEmpty then return []
  let updates ← g.typeIds.mapM fun id => do methodUpdates g protocols (← g.type id)
  return updates.flatten

/-- Gives a method another signature. -/
def setSignature (update : DeclId × Signature) : Graph.Edit Unit := do
  let m ← Graph.look (·.method update.1)
  Graph.setDecl update.1 (.method { m with signature := update.2 })

/-- Takes the nullability of protocol methods over to the methods that implement them. -/
def propagate : Graph.Edit Unit := do
  let updates ← Graph.look nullabilityUpdates
  updates.forM setSignature

end ProtocolNullability

end ObjcSwift
