import ObjcSwift.Proofs.Pass.Commutation
import ObjcSwift.Proofs.Pass.Requirements
import Mathlib

/-!
# Passing nullability on refines signatures, and does nothing else

Passing nullability on reads what protocols require and writes signatures. What is required of a
type can be said without the pass: the signatures that the protocols of its conformances declare
(`Graph.requirementsOf`). The pass gives every method outside of protocols a signature that is
**refined** by these requirements (`Signature.Refines`): it differs at implicitly unwrapped
positions only, and there it takes the type of the first requirement for the method.

Since protocols are left alone, the same is required afterwards, and a position that was refined is
not implicitly unwrapped any more. So there is nothing left for a second run
(`nullability_is_only_refined`).

All changes are collected before the first is made. So if the pass fails, at a list that names a
file, it has changed nothing.
-/

namespace ObjcSwift

open ObjcSwift.Graph ObjcSwift.Graph.Edit

/-! ### Signatures -/

namespace SwiftType

/-- What was taken is not implicitly unwrapped, so it is not replaced again. -/
theorem takeNullability_takeNullability (t u : SwiftType) :
    (t.takeNullability u).takeNullability u = t.takeNullability u := by
  by_cases h : t.isImplicitlyUnwrapped && !u.isImplicitlyUnwrapped && t.base == u.base
  · rw [show t.takeNullability u = u by rw [takeNullability, if_pos h]]
    simp [takeNullability]
  · rw [show t.takeNullability u = t by rw [takeNullability, if_neg h], takeNullability, if_neg h]

end SwiftType

theorem takeParameters_takeParameters (ps qs : List Parameter) :
    takeParameters (takeParameters ps qs) qs = takeParameters ps qs := by
  fun_induction takeParameters ps qs with
  | case1 p ps q qs ih =>
    simp only [takeParameters, ih, SwiftType.takeNullability_takeNullability]
  | case2 ps qs h =>
    unfold takeParameters
    split
    · exact absurd rfl (h _ _ _ _ rfl)
    · rfl

theorem map_type_takeParameters {ps qs : List Parameter} (h : ps.length = qs.length) :
    (takeParameters ps qs).map (·.type) =
      List.zipWith SwiftType.takeNullability (ps.map (·.type)) (qs.map (·.type)) := by
  fun_induction takeParameters ps qs with
  | case1 p ps q qs ih => simp [ih (by simpa using h)]
  | case2 ps qs hne =>
    -- One of the lists is empty, and so is the other.
    cases ps with
    | nil => rfl
    | cons p ps =>
      cases qs with
      | nil => exact absurd h (by simp)
      | cons q qs => exact absurd rfl (hne _ _ _ _ rfl)

namespace Signature

/-- The types in a signature, position by position: the result, and then the parameters. -/
def positions (s : Signature) : List SwiftType :=
  s.result :: s.parameters.map (·.type)

/-- A signature is another one refined by requirements: it is the same up to the optional layers of
its types. What was explicit is kept. What was implicitly unwrapped is replaced by the type at that
position of the first requirement for the method, if that is explicit and the same below its
optional layers, and by nothing else. -/
structure Refines (s' s : Signature) (required : List Signature) : Prop where
  /-- The names are the same. -/
  name_eq : s'.name = s.name
  /-- Both are static or neither is. -/
  isStatic_eq : s'.isStatic = s.isStatic
  /-- The labels are the same. -/
  labels_eq : s'.labels = s.labels
  /-- The parameters have the same names. -/
  names_eq : s'.parameters.map (·.name) = s.parameters.map (·.name)
  /-- There are as many positions, and the types at them are the same below their optional
  layers. -/
  base_eq : s'.positions.map SwiftType.base = s.positions.map SwiftType.base
  /-- An explicit type is kept. -/
  kept : ∀ (i : Nat) (t : SwiftType), s.positions[i]? = some t → t.isImplicitlyUnwrapped = false →
    s'.positions[i]? = some t
  /-- A type that was replaced was implicitly unwrapped, and what replaces it is the explicit type
  of the first requirement. -/
  changed : ∀ (i : Nat) (t t' : SwiftType), s.positions[i]? = some t →
    s'.positions[i]? = some t' → t' ≠ t →
      t.isImplicitlyUnwrapped = true ∧ t'.isImplicitlyUnwrapped = false ∧
        ∃ requirement, required.find? (·.sameMethod s) = some requirement ∧
          requirement.positions[i]? = some t'
  /-- An implicitly unwrapped type is replaced if the first requirement has one that may replace
  it. -/
  taken : ∀ (requirement : Signature) (i : Nat) (t u : SwiftType),
    required.find? (·.sameMethod s) = some requirement → s.positions[i]? = some t →
      requirement.positions[i]? = some u → t.isImplicitlyUnwrapped = true →
      u.isImplicitlyUnwrapped = false → t.base = u.base → s'.positions[i]? = some u

variable {s other : Signature} {required : List Signature}

theorem length_eq_of_sameMethod (h : other.sameMethod s = true) :
    s.parameters.length = other.parameters.length := by
  simp only [sameMethod, sameSelector, Bool.and_eq_true, beq_iff_eq] at h
  have hlabels := congrArg List.length h.2.2
  simpa [labels] using hlabels.symm

theorem positions_takeNullability (h : s.parameters.length = other.parameters.length) :
    (s.takeNullability other).positions =
      List.zipWith SwiftType.takeNullability s.positions other.positions := by
  rw [positions, takeNullability, map_type_takeParameters h]
  rfl

theorem labels_takeNullability (s other : Signature) :
    (s.takeNullability other).labels = s.labels := by
  have h := congrArg (List.map Parameter.label) (takeParameters_plain s.parameters other.parameters)
  rwa [List.map_map, List.map_map] at h

theorem names_takeNullability (s other : Signature) :
    (s.takeNullability other).parameters.map (·.name) = s.parameters.map (·.name) := by
  have h := congrArg (List.map Parameter.name) (takeParameters_plain s.parameters other.parameters)
  rwa [List.map_map, List.map_map] at h

theorem base_positions_takeNullability (s other : Signature) :
    (s.takeNullability other).positions.map SwiftType.base = s.positions.map SwiftType.base := by
  have h := congrArg (List.map Parameter.type) (takeParameters_plain s.parameters other.parameters)
  rw [List.map_map, List.map_map] at h
  simp only [positions, List.map_cons, List.map_map]
  exact congrArg₂ List.cons (SwiftType.base_takeNullability s.result other.result) h

theorem sameMethod_takeNullability (t s other : Signature) :
    t.sameMethod (s.takeNullability other) = t.sameMethod s := by
  rw [sameMethod, sameMethod, sameSelector, sameSelector, labels_takeNullability]
  rfl

theorem Refines.refl (h : required.find? (·.sameMethod s) = none) : s.Refines s required where
  name_eq := rfl
  isStatic_eq := rfl
  labels_eq := rfl
  names_eq := rfl
  base_eq := rfl
  kept _ _ ht _ := ht
  changed i t t' ht ht' hne := absurd (Option.some.inj (ht'.symm.trans ht)) hne
  taken requirement _ _ _ hfind := absurd (h.symm.trans hfind) (by simp)

theorem refines_takeNullability (h : required.find? (·.sameMethod s) = some other) :
    (s.takeNullability other).Refines s required := by
  have hlength := length_eq_of_sameMethod (by simpa using List.find?_some h)
  have hpositions : other.positions.length = s.positions.length := by simp [positions, hlength]
  -- What becomes of a position is said by the type at the position of the requirement.
  have hget : ∀ (i : Nat) (t : SwiftType), s.positions[i]? = some t → ∃ u,
      other.positions[i]? = some u ∧
        (s.takeNullability other).positions[i]? = some (t.takeNullability u) := by
    intro i t ht
    have hi : i < other.positions.length := by
      rw [hpositions]
      exact (List.getElem?_eq_some_iff.mp ht).1
    refine ⟨other.positions[i], List.getElem?_eq_getElem hi, ?_⟩
    rw [positions_takeNullability hlength, List.getElem?_zipWith, ht, List.getElem?_eq_getElem hi]
  refine ⟨rfl, rfl, labels_takeNullability s other, names_takeNullability s other,
    base_positions_takeNullability s other, ?_, ?_, ?_⟩
  · intro i t ht hexplicit
    obtain ⟨u, -, hnew⟩ := hget i t ht
    rw [hnew, SwiftType.takeNullability, hexplicit]
    rfl
  · intro i t t' ht ht' hne
    obtain ⟨u, hu, hnew⟩ := hget i t ht
    obtain rfl : t.takeNullability u = t' := Option.some.inj (hnew.symm.trans ht')
    unfold SwiftType.takeNullability at hne ⊢
    split_ifs at hne ⊢ with htake
    · simp only [Bool.and_eq_true, Bool.not_eq_true'] at htake
      exact ⟨htake.1.1, htake.1.2, other, h, hu⟩
    · exact absurd rfl hne
  · intro requirement i t u hfind ht hu himplicit hexplicit hbase
    obtain rfl : other = requirement := Option.some.inj (h.symm.trans hfind)
    obtain ⟨u', hu', hnew⟩ := hget i t ht
    obtain rfl : u' = u := Option.some.inj (hu'.symm.trans hu)
    rw [hnew, SwiftType.takeNullability, himplicit, hexplicit, hbase]
    simp

/-- **Requirements refine a signature.** -/
theorem refines_refinedBy (s : Signature) (required : List Signature) :
    (s.refinedBy required).Refines s required := by
  unfold refinedBy
  split
  · exact refines_takeNullability ‹_›
  · exact .refl ‹_›

/-- Requirements that have refined a signature refine it no further. -/
theorem refinedBy_refinedBy (s : Signature) (required : List Signature) :
    (s.refinedBy required).refinedBy required = s.refinedBy required := by
  cases h : required.find? (·.sameMethod s) with
  | none =>
    have hs : s.refinedBy required = s := by rw [refinedBy, h]
    rw [hs, hs]
  | some other =>
    have hs : s.refinedBy required = s.takeNullability other := by rw [refinedBy, h]
    rw [hs, refinedBy]
    simp only [sameMethod_takeNullability, h]
    simp only [takeNullability, takeParameters_takeParameters,
      SwiftType.takeNullability_takeNullability]

end Signature

/-! ### What is required of a type -/

namespace Graph

variable {α : Type} {g : Graph} {id : DeclId}

/-- The signatures of the methods of a type. -/
def signaturesOf (g : Graph) (d : TypeDecl) : List Signature :=
  (g.among Decl.method? d.methods).map (·.signature)

/-- The signatures that the protocols of a name declare. -/
def protocolSignatures (g : Graph) (name : String) : List Signature :=
  ((g.among Decl.type? g.typeIds).filter fun d => d.isProtocol && d.name == name).flatMap
    g.signaturesOf

/-- The signatures that are required of a type: those that the protocols of its conformances
declare, in the order of the conformances, and for each of them in the order of the graph. -/
def requirementsOf (g : Graph) (d : TypeDecl) : List Signature :=
  (g.among Decl.conformance? d.conformances).flatMap fun c => g.protocolSignatures c.name

/-- The declaration of a method in a type that is no protocol. -/
def IsImplementation (g : Graph) (id : DeclId) (d : TypeDecl) (m : MethodDecl) : Prop :=
  ∃ type, g.node? id = some ⟨some type, .method m⟩ ∧ g.get? type = some (.type d) ∧
    d.isProtocol = false

end Graph

namespace ProtocolNullability

variable {g : Graph} {id : DeclId} {d : TypeDecl} {protocols : List (String × List Signature)}
  {updates : List (DeclId × Signature)}

/-- The name of a type with the signatures of its methods, if it is a protocol. -/
def face? (g : Graph) (d : TypeDecl) : Option (String × List Signature) :=
  if d.isProtocol then some (d.name, g.signaturesOf d) else none

/-- What is read of a type is its name with the signatures of its methods, if it is a protocol. -/
theorem protocol?_eq {protocol : Option (String × List Signature)}
    (h : protocol? g id = .ok protocol) :
    protocol? g id = do return face? g (← g.type id) := by
  obtain ⟨d, hd, hread⟩ := bind_eq_ok.mp h
  unfold protocol?
  rw [hd]
  change (if d.isProtocol then _ else _) = Except.ok (face? g d)
  unfold face?
  split_ifs at hread ⊢
  · obtain ⟨signatures, hsignatures, -⟩ := bind_eq_ok.mp hread
    rw [hsignatures, eq_among_of_mapM_typed Decl.view_method hsignatures]
    rfl
  · rfl

/-- The protocols that are read are those among the types of the graph. -/
theorem protocolMethods_eq (h : protocolMethods g = .ok protocols) :
    protocols = ((g.among Decl.type? g.typeIds).filter (·.isProtocol)).map fun d =>
      (d.name, g.signaturesOf d) := by
  obtain ⟨found, hfound, h⟩ := bind_eq_ok.mp h
  have hread : g.typeIds.mapM (fun t => do return face? g (← g.type t)) = .ok found := by
    refine (mapM_congr fun t ht => ?_).trans hfound
    obtain ⟨protocol, hprotocol⟩ := exists_ok_of_mapM hfound t ht
    exact (protocol?_eq hprotocol).symm
  have hfilter : ∀ ds : List TypeDecl, (ds.map (face? g)).reduceOption =
      (ds.filter (·.isProtocol)).map fun d => (d.name, g.signaturesOf d) := by
    intro ds
    induction ds with
    | nil => rfl
    | cons d ds ih =>
      cases h : d.isProtocol <;> simp [face?, h, ih]
  rw [← hfilter, ← eq_among_of_mapM_typed Decl.view_type hread]
  exact (Except.ok.inj h).symm

/-- What the pass takes from protocols is what the protocols of the conformances declare. -/
theorem requirements_eq {signatures : List Signature}
    (hprotocols : protocolMethods g = .ok protocols)
    (h : requirements g protocols d = .ok signatures) : signatures = g.requirementsOf d := by
  obtain ⟨names, hnames, h⟩ := bind_eq_ok.mp h
  obtain rfl := Except.ok.inj h
  rw [eq_among_of_mapM_typed Decl.view_conformance hnames, protocolMethods_eq hprotocols,
    requirementsOf, List.flatMap_map]
  refine List.flatMap_congr fun c _ => ?_
  rw [protocolSignatures, List.filter_map, List.flatMap_map, List.filter_filter]
  simp only [Function.comp_def, Bool.and_comm]

/-- Without protocols nothing is required. -/
theorem requirementsOf_eq_nil (h : protocolMethods g = .ok []) : g.requirementsOf d = [] := by
  have hnone := List.map_eq_nil_iff.mp (protocolMethods_eq h).symm
  rw [requirementsOf, List.flatMap_eq_nil_iff]
  intro c _
  rw [protocolSignatures, ← List.filter_filter, List.filter_comm, hnone]
  rfl

/-- **The requirements that the pass collects** are the signatures that the protocols of the
conformances declare. -/
theorem required_eq_requirementsOf (hok : nullabilityUpdates g = .ok updates)
    (ht : id ∈ g.typeIds) (hd : g.get? id = some (.type d)) (hno : d.isProtocol = false) :
    required g d = g.requirementsOf d := by
  obtain ⟨protocols, hprotocols, -⟩ := bind_eq_ok.mp hok
  cases hread : requirements g protocols d with
  | ok signatures => rw [required_eq hprotocols hread, requirements_eq hprotocols hread]
  | error x =>
    -- Conformances that cannot be read are not looked at, so there are no protocols.
    have hnil : protocols = [] := by
      by_contra hne
      obtain ⟨d', us, hd', hus⟩ := exists_methodUpdates hprotocols hok hne ht
      obtain rfl : d = d' := Except.ok.inj ((type_of_get? hd).symm.trans hd')
      rw [methodUpdates, hno, if_neg (by simp)] at hus
      obtain ⟨signatures, hsignatures, -⟩ := bind_eq_ok.mp hus
      exact absurd (hread.symm.trans hsignatures) (by simp)
    rw [requirementsOf_eq_nil (hnil ▸ hprotocols)]
    by_contra hsome
    obtain ⟨protocols', hprotocols', hrequired⟩ := exists_protocols_of_required hsome
    obtain rfl : protocols = protocols' := Except.ok.inj (hprotocols.symm.trans hprotocols')
    exact absurd (hread.symm.trans hrequired) (by simp)

/-- Of the type in which an implementation stands, its requirements are required. -/
theorem requiredAt_of_isImplementation (hwf : g.WellFormed)
    (hok : nullabilityUpdates g = .ok updates) {m : MethodDecl} (h : g.IsImplementation id d m) :
    requiredAt g id = g.requirementsOf d := by
  obtain ⟨type, hn, hd, hprotocol⟩ := h
  rw [requiredAt_of_parent? (parent?_of_node? hn) hd, hprotocol, if_neg (by simp),
    required_eq_requirementsOf hok (hwf.mem_typeIds hd) hd hprotocol]

/-- What stands nowhere but in a protocol is not refined. -/
theorem refined_eq_self (hwf : g.WellFormed) {m : MethodDecl} (hm : g.get? id = some (.method m))
    (h : ∀ d m, ¬g.IsImplementation id d m) (s : Signature) : refined g id s = s := by
  obtain ⟨type, d, hparent, hd, hid⟩ := hwf.exists_type_of_method hm
  have hprotocol : d.isProtocol = true := by
    by_contra hno
    obtain ⟨⟨parent, decl⟩, hn, rfl⟩ := exists_node?_of_get? hm
    obtain rfl : parent = some type := by simpa [parent?, hn] using hparent
    exact h d m ⟨type, hn, hd, by simpa using hno⟩
  rw [refined, requiredAt_of_parent? hparent hd, hprotocol]
  rfl

/-- Where nullability was passed on, an implementation has a signature that is refined by what is
required of it. -/
theorem node?_resign_refined (hwf : g.WellFormed) (hok : nullabilityUpdates g = .ok updates)
    {m : MethodDecl} (h : g.IsImplementation id d m) : ∃ s,
      (g.resign (refined g)).node? id = (g.node? id).map (fun n =>
        { n with decl := .method { m with signature := s } }) ∧
      s.Refines m.signature (g.requirementsOf d) := by
  refine ⟨refined g id m.signature, ?_, ?_⟩
  · obtain ⟨type, hn, -⟩ := h
    rw [node?_resign, hn]
    rfl
  · rw [refined, requiredAt_of_isImplementation hwf hok h]
    exact Signature.refines_refinedBy m.signature _

/-- Everything else is as it was. -/
theorem node?_resign_refined_other (hwf : g.WellFormed) (h : ∀ d m, ¬g.IsImplementation id d m) :
    (g.resign (refined g)).node? id = g.node? id := by
  rw [node?_resign]
  cases hn : g.node? id with
  | none => rfl
  | some n =>
    obtain ⟨parent, decl⟩ := n
    cases decl with
    | method m =>
      have hm : g.get? id = some (.method m) := get?_of_node? hn
      simp only [Option.map_some, GraphNode.resign, Decl.resign, refined_eq_self hwf hm h]
    | _ => rfl

/-! ### The second run -/

/-- A resigning that leaves the methods of protocols alone leaves the protocols alone. -/
theorem protocolMethods_resign {u : DeclId → Signature → Signature}
    (h : ∀ t d, g.get? t = some (.type d) → d.isProtocol = true →
      ∀ id ∈ d.methods, ∀ m, g.get? id = some (.method m) → u id m.signature = m.signature) :
    protocolMethods (g.resign u) = protocolMethods g := by
  unfold protocolMethods
  rw [typeIds_resign, mapM_congr fun t _ => ?_]
  have htype : (g.resign u).type t = g.type t := typed_resign fun f d => by cases d <;> rfl
  unfold protocol?
  rw [htype]
  cases ht : g.type t with
  | error x => rfl
  | ok d =>
    change (if d.isProtocol then _ else _) = if d.isProtocol then _ else _
    split_ifs with hprotocol
    · have hsignatures : methodSignatures (g.resign u) d = methodSignatures g d := by
        refine mapM_congr fun id hid => ?_
        rw [method_resign]
        cases hm : g.method id with
        | error x => rfl
        | ok m =>
          exact congrArg Except.ok (h t d ((typed_eq_ok_iff Decl.view_type).mp ht) hprotocol id hid
            m ((typed_eq_ok_iff Decl.view_method).mp hm))
      rw [hsignatures]
    · rfl

theorem requirements_resign {u : DeclId → Signature → Signature} :
    requirements (g.resign u) protocols d = requirements g protocols d := by
  have hconformance : ∀ c, (g.resign u).conformance c = g.conformance c :=
    fun c => typed_resign fun f d => by cases d <;> rfl
  simp only [requirements, hconformance]

/-- The methods of a type that were refined are not changed any more. -/
theorem methodUpdates_resign_refined (hwf : g.WellFormed)
    (hprotocols : protocolMethods g = .ok protocols) (hd : g.get? id = some (.type d))
    {us : List (DeclId × Signature)} (h : methodUpdates g protocols d = .ok us) :
    methodUpdates (g.resign (refined g)) protocols d = .ok [] := by
  unfold methodUpdates at h ⊢
  rw [requirements_resign]
  split_ifs at h ⊢ with hprotocol
  · rfl
  · obtain ⟨signatures, hsignatures, h⟩ := bind_eq_ok.mp h
    rw [hsignatures]
    change (if signatures.isEmpty then _ else _) = _
    split_ifs at h ⊢ with hempty
    · rfl
    · obtain ⟨found, hfound, -⟩ := bind_eq_ok.mp h
      refine bind_eq_ok.mpr ⟨d.methods.map fun _ => none, mapM_eq_ok fun m hm => ?_, ?_⟩
      · obtain ⟨_, hfound⟩ := exists_ok_of_mapM hfound m hm
        obtain ⟨method, hmethod, -⟩ := bind_eq_ok.mp hfound
        have hat : requiredAt g m = signatures := by
          rw [requiredAt_of_mem hwf hd hm ((typed_eq_ok_iff Decl.view_method).mp hmethod),
            if_neg hprotocol, required_eq hprotocols hsignatures]
        have hsettled := Signature.refinedBy_refinedBy method.signature signatures
        rw [method_resign, hmethod]
        refine congrArg Except.ok ?_
        simp only [refined, hat]
        -- A signature that was refined takes nothing over.
        cases hfind : signatures.find? (·.sameMethod (method.signature.refinedBy signatures)) with
        | none => rfl
        | some requirement =>
          rw [Signature.refinedBy, hfind] at hsettled
          exact if_pos hsettled
      · exact congrArg Except.ok (by simp [List.reduceOption])

/-- **Where nullability was passed on, there is nothing left to change.** -/
theorem nullabilityUpdates_resign_refined (hwf : g.WellFormed)
    (hok : nullabilityUpdates g = .ok updates) :
    nullabilityUpdates (g.resign (refined g)) = .ok [] := by
  obtain ⟨protocols, hprotocols, -⟩ := bind_eq_ok.mp hok
  -- What is required is read off protocols, and their methods are not refined.
  have hsame : protocolMethods (g.resign (refined g)) = .ok protocols := by
    rw [protocolMethods_resign fun t d hd hprotocol id hid m hm => ?_, hprotocols]
    rw [refined, requiredAt_of_mem hwf hd hid hm, hprotocol]
    rfl
  refine bind_eq_ok.mpr ⟨protocols, hsame, ?_⟩
  split_ifs with hempty
  · rfl
  · rw [typeIds_resign]
    refine bind_eq_ok.mpr ⟨g.typeIds.map fun _ => [], mapM_eq_ok fun t ht => ?_, ?_⟩
    · have htype : (g.resign (refined g)).type t = g.type t :=
        typed_resign fun f d => by cases d <;> rfl
      obtain ⟨d, us, hd, hus⟩ := exists_methodUpdates hprotocols hok (by simpa using hempty) ht
      rw [htype, hd]
      exact methodUpdates_resign_refined hwf hprotocols ((typed_eq_ok_iff Decl.view_type).mp hd) hus
    · exact congrArg Except.ok (by simp)

/-- Without changes, passing nullability on leaves the graph alone. -/
theorem propagate_of_settled (h : nullabilityUpdates g = .ok []) : propagate g = .ok () g := by
  change EStateM.bind (look nullabilityUpdates) (fun updates => updates.forM setSignature) g = _
  rw [EStateM.bind, look_of_ok h]
  rfl

end ProtocolNullability

/-! ### The pass -/

namespace Pass

variable {g g' : Graph} {c c' : Catalog}

/-- Of a consistent graph, a pass that has succeeded passes the check after it. -/
theorem run_of_apply {pass : Pass} (hc : g.outline.Consistent none)
    (hle : g.slots.length ≤ 2 ^ 32) (h : pass.apply c g = .ok c' g') :
    pass.run c g = .ok c' g' := by
  obtain ⟨c₁, g₁, hrun, -⟩ := exists_run pass hc hle
  obtain ⟨rfl, rfl⟩ := EStateM.Result.ok.inj ((apply_of_run hrun).symm.trans h)
  exact hrun

/-- If the changes cannot be collected, none of them is made. -/
theorem apply_propagateNullability_of_error {x : GraphError}
    (h : ProtocolNullability.nullabilityUpdates g = .error x) (c : Catalog) :
    apply c propagateNullability g = .error x g := by
  have hpropagate : ProtocolNullability.propagate g = .error x g := by
    change EStateM.bind (look ProtocolNullability.nullabilityUpdates) _ g = _
    rw [EStateM.bind, look_of_error h]
  change EStateM.bind ProtocolNullability.propagate (fun _ => pure c) g = _
  rw [EStateM.bind, hpropagate]

end Pass

/-- **Passing nullability on refines signatures, and does nothing else.** On a well-formed graph
whose slots all have a number, the pass fails before it changes anything, which takes a list that
names a file, or it succeeds. Then the files and slots are the same, the methods of classes and
extensions get signatures that are refined by what the protocols of their type require of it, and
keep everything else, and all other declarations are the same. Running the pass a second time
changes nothing. Where no list names a file, the graph passes the check after the pass both
times. -/
theorem nullability_is_only_refined (g : Graph) (hwf : g.WellFormed)
    (hle : g.slots.length ≤ 2 ^ 32) (c : Catalog) :
    (∃ x, Pass.propagateNullability.apply c g = .error x g ∧ ∃ id ∈ g.files, id ∈ g.listed) ∨
    ∃ g', Pass.propagateNullability.apply c g = .ok c g' ∧
      g'.files = g.files ∧ g'.slots.length = g.slots.length ∧
      (∀ id d m, g.IsImplementation id d m → ∃ s,
        g'.node? id = (g.node? id).map (fun n =>
          { n with decl := .method { m with signature := s } }) ∧
        s.Refines m.signature (g.requirementsOf d)) ∧
      (∀ id, (∀ d m, ¬g.IsImplementation id d m) → g'.node? id = g.node? id) ∧
      Pass.propagateNullability.apply c g' = .ok c g' ∧
      ((∀ id ∈ g.files, id ∉ g.listed) → Pass.propagateNullability.run c g = .ok c g' ∧
        Pass.propagateNullability.run c g' = .ok c g') := by
  cases hok : ProtocolNullability.nullabilityUpdates g with
  | error x =>
    refine Or.inl ⟨x, Pass.apply_propagateNullability_of_error hok c, ?_⟩
    by_contra hfiles
    have hfiles : ∀ id ∈ g.files, id ∉ g.listed := by simpa using hfiles
    obtain ⟨_, hok', -⟩ :=
      ProtocolNullability.finds_nullabilityUpdates (consistent_of_wellFormed hwf hfiles)
    exact absurd (hok'.symm.trans hok) (by simp)
  | ok updates =>
    have hpropagate := ProtocolNullability.propagate_eq hwf hle hok
    have hfirst := Pass.apply_propagateNullability_of_ok hpropagate c
    have hlength : (g.resign (ProtocolNullability.refined g)).slots.length = g.slots.length :=
      length_resign
    -- The second time, no changes are collected.
    have hsecond : Pass.propagateNullability.apply c (g.resign (ProtocolNullability.refined g)) =
        .ok c (g.resign (ProtocolNullability.refined g)) :=
      Pass.apply_propagateNullability_of_ok
        (ProtocolNullability.propagate_of_settled
          (ProtocolNullability.nullabilityUpdates_resign_refined hwf hok)) c
    refine Or.inr ⟨_, hfirst, rfl, hlength,
      fun id d m h => ProtocolNullability.node?_resign_refined hwf hok h,
      fun id h => ProtocolNullability.node?_resign_refined_other hwf h, hsecond, fun hfiles => ?_⟩
    -- Where owners and lists agree, they still do, as the outline is the same.
    have hc := consistent_of_wellFormed hwf hfiles
    have hc' : (g.resign (ProtocolNullability.refined g)).outline.Consistent none := by
      rw [(ProtocolNullability.succeeds_propagate hc).of_ok hpropagate]
      exact hc
    exact ⟨Pass.run_of_apply hc hle hfirst, Pass.run_of_apply hc' (hlength ▸ hle) hsecond⟩

/-- The class `Feed` takes over from the protocol `Titled` that its title may be missing. -/
theorem nullability_is_only_refined_titledGraph :
    titledGraph.WellFormed ∧ (∀ id ∈ titledGraph.files, id ∉ titledGraph.listed) ∧
      titledGraph.slots.length ≤ 2 ^ 32 ∧
      ∃ g', Pass.propagateNullability.run {} titledGraph = .ok {} g' ∧
        (∃ s, g'.node? ⟨7⟩ = some ⟨some ⟨4⟩, .method { signature := s }⟩ ∧
          s.name = "title" ∧ s.result = .optional (.named "String")) ∧
        Pass.propagateNullability.run {} g' = .ok {} g' := by
  have hle : titledGraph.slots.length ≤ 2 ^ 32 := by decide_cbv
  obtain ⟨hwf, hfiles⟩ := wellFormed_runScript hle
  have hnode : titledGraph.node? ⟨7⟩ = some ⟨some ⟨4⟩, .method
      { signature := ⟨"title", [], .implicitlyUnwrapped (.named "String"), false⟩ }⟩ := by cbv
  obtain ⟨d, hd, hprotocol, hfind⟩ : ∃ d, titledGraph.get? ⟨4⟩ = some (.type d) ∧
      d.isProtocol = false ∧ (titledGraph.requirementsOf d).find?
        (·.sameMethod ⟨"title", [], .implicitlyUnwrapped (.named "String"), false⟩) =
          some ⟨"title", [], .optional (.named "String"), false⟩ :=
    ⟨_, by cbv, by cbv, by cbv⟩
  obtain ⟨_, -, id, hid, hlisted⟩ | ⟨g', -, -, -, hmethods, -, -, hrun⟩ :=
    nullability_is_only_refined titledGraph hwf hle {}
  · exact absurd hlisted (hfiles id hid)
  · obtain ⟨hrun, hagain⟩ := hrun hfiles
    obtain ⟨s, hs, hrefines⟩ := hmethods ⟨7⟩ d _ ⟨⟨4⟩, hnode, hd, hprotocol⟩
    refine ⟨hwf, hfiles, hle, g', hrun, ⟨s, by rw [hs, hnode]; rfl, hrefines.name_eq, ?_⟩, hagain⟩
    exact Option.some.inj (hrefines.taken _ 0 _ _ hfind rfl rfl rfl rfl rfl)

end ObjcSwift
