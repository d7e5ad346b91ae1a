import ObjcSwift.Proofs.Pass.Rewriting
import ObjcSwift.Proofs.Pass.Signatures
import ObjcSwift.Proofs.Pass.Trimming

/-!
# Passing nullability on, all at once

The pass that takes nullability over from protocols collects changes and makes them one after the
other. On a well-formed graph where the changes can be collected this comes to resigning the graph
once, with a function that says for each method what its new signature is
(`ProtocolNullability.propagate_eq`). The new signature depends on the methods that are required of
the type in which the method stands, and on nothing else in the graph.

Where no method hides that it returns nothing, the new signature is close to the old one
(`ProtocolNullability.close_raised`).

What is required of a type are signatures of protocol methods, found by the names of the
conformances of the type. Trimming a consistent graph leaves all of that alone, so it changes no new
signature either (`ProtocolNullability.raised_of_trims`).
-/

namespace ObjcSwift

open ObjcSwift.Graph ObjcSwift.Graph.Edit

variable {g g' : Graph} {id : DeclId}

namespace Graph

/-- No method of a graph returns nothing under optional layers. -/
def PlainVoid (g : Graph) : Prop :=
  ∀ id m, g.get? id = some (.method m) → ¬m.signature.HidesVoid

/-- What a declaration of a consistent graph lists is there. -/
theorem node?_ne_none_of_mem (hc : g.outline.Consistent none) {p : DeclId} {n : GraphNode}
    {list : ChildList} (hn : g.node? p = some n) (h : id ∈ n.decl.listOf list) :
    g.node? id ≠ none := by
  obtain ⟨m, hm, -⟩ := exists_node?_of_kind? (kind?_of_mem_decl hc hn h)
  simp [hm]

theorem type_of_get? {d : TypeDecl} (h : g.get? id = some (.type d)) : g.type id = .ok d :=
  (typed_eq_ok_iff Decl.view_type).mpr h

theorem bind_type?_eq_some {t : DeclId} {d : TypeDecl} :
    (g.get? t).bind Decl.type? = some d ↔ g.get? t = some (.type d) := by
  cases g.get? t with
  | none => simp
  | some decl => simp [Decl.view_type.eq_some_iff]

theorem method_of_get? {m : MethodDecl} (h : g.get? id = some (.method m)) :
    g.method id = .ok m :=
  (typed_eq_ok_iff Decl.view_method).mpr h

/-- In a consistent graph, what is of a kind that stands in a list stands in that list of an owner
of the right kind. -/
theorem exists_owner_of_kind? (hc : g.outline.Consistent none) {list : ChildList}
    (h : g.kind? id = some (some list)) :
    ∃ p owner, g.parent? id = some p ∧ g.node? p = some owner ∧ owner.decl.ownList? = list.home ∧
      id ∈ owner.decl.listOf list := by
  obtain ⟨n, hn, hkind⟩ := exists_node?_of_kind? h
  have hfile : id ∉ g.files := by
    intro hf
    rw [kind?_of_mem_files hc hf] at h
    exact absurd h (by simp)
  obtain ⟨p, hp⟩ := exists_parent_of_not_mem_files hc hn hfile
  obtain ⟨owner, list', ho, hlist, -, hmem⟩ := exists_owner hc hn hp
  obtain rfl : list = list' := Option.some.inj (hkind.symm.trans hlist)
  have hid := (hmem list).mpr rfl
  exact ⟨p, owner, (parent?_of_node? hn).trans hp, ho, Decl.ownList?_of_mem_listOf hid, hid⟩

/-- What stands in a list of types is a type of the graph, if every file is a file of the graph. -/
theorem mem_typeIds_of_mem_listOf (hfiles : ∀ f file, g.get? f = some (.file file) → f ∈ g.files)
    {f : DeclId} (h : id ∈ g.listOf f .types) : id ∈ g.typeIds := by
  obtain ⟨owner, ho, -, hkind⟩ := place?_of_mem_listOf h
  obtain ⟨file, hfile⟩ := Decl.view_file.exists_make owner.decl hkind
  rw [typeIds_eq, List.mem_flatMap]
  exact ⟨f, hfiles f file (by rw [get?, ho, Option.map_some, hfile]), h⟩

theorem mem_typeIds_of_kind? (hc : g.outline.Consistent none)
    (h : g.kind? id = some (some .types)) : id ∈ g.typeIds := by
  obtain ⟨f, owner, -, ho, -, hid⟩ := exists_owner_of_kind? hc h
  refine mem_typeIds_of_mem_listOf (fun f file hfile => ?_) (by rwa [listOf_of_node? ho])
  exact (mem_files_iff_get? hc).mpr ⟨file, hfile⟩

namespace WellFormed

/-- In a well-formed graph, what is of a kind that stands in a list stands in that list of the owner
that it names. -/
theorem exists_mem_listOf (hwf : g.WellFormed) {d : Decl} (hd : g.get? id = some d)
    {list : ChildList} (hkind : d.ownList? = some list) :
    ∃ p, g.parent? id = some p ∧ id ∈ g.listOf p list := by
  obtain ⟨n, hn, rfl⟩ := exists_node?_of_get? hd
  obtain ⟨p, list', hplace, hmem⟩ := hwf.stands hn (hwf.not_mem_files hn hkind)
  obtain ⟨hp, hlist⟩ := Place.mk.inj hplace
  obtain rfl : list = list' := Option.some.inj (hkind.symm.trans hlist)
  exact ⟨p, (parent?_of_node? hn).trans hp, hmem⟩

theorem mem_typeIds (hwf : g.WellFormed) {d : TypeDecl} (hd : g.get? id = some (.type d)) :
    id ∈ g.typeIds := by
  obtain ⟨f, -, hid⟩ := hwf.exists_mem_listOf hd rfl
  exact mem_typeIds_of_mem_listOf (fun f file hfile => (hwf.mem_files_iff f).mpr ⟨file, hfile⟩) hid

/-- A method of a well-formed graph stands in a type, which lists it. -/
theorem exists_type_of_method (hwf : g.WellFormed) {m : MethodDecl}
    (hm : g.get? id = some (.method m)) :
    ∃ t d, g.parent? id = some t ∧ g.get? t = some (.type d) ∧ id ∈ d.methods := by
  obtain ⟨t, hp, hid⟩ := hwf.exists_mem_listOf hm rfl
  obtain ⟨owner, ho, hmem, hkind⟩ := place?_of_mem_listOf hid
  obtain ⟨d, hd⟩ := Decl.view_type.exists_make owner.decl hkind
  exact ⟨t, d, hp, by rw [get?, ho, Option.map_some, hd], by rwa [hd] at hmem⟩

/-- A method that a type of a well-formed graph lists names the type as its owner. -/
theorem parent?_of_mem_methods (hwf : g.WellFormed) {t : DeclId} {d : TypeDecl} {m : MethodDecl}
    (hd : g.get? t = some (.type d)) (hid : id ∈ d.methods) (hm : g.get? id = some (.method m)) :
    g.parent? id = some t := by
  obtain ⟨owner, ho, hdecl⟩ := exists_node?_of_get? hd
  obtain ⟨n, hn, hmethod⟩ := exists_node?_of_get? hm
  obtain ⟨p, hp, hmem⟩ := hwf.exists_mem_listOf hm rfl
  have hlist : id ∈ g.listOf t .methods := by
    rw [listOf_of_node? ho, hdecl]
    exact hid
  have hkind : n.decl.ownList? = some .methods := by
    rw [hmethod]
    rfl
  have hfile := hwf.not_mem_files hn hkind
  rw [hp, (hwf.eq_of_mem_listOf hn hfile hmem hlist).1]

end WellFormed

end Graph

/-- The signature with the nullability of the first requirement that is meant for it, if there is
one. -/
def Signature.refinedBy (s : Signature) (required : List Signature) : Signature :=
  match required.find? (·.sameMethod s) with
  | some requirement => s.takeNullability requirement
  | none => s

namespace ProtocolNullability

/-- The methods that a type has to implement; none if a lookup fails. -/
def required (g : Graph) (d : TypeDecl) : List Signature :=
  match protocolMethods g >>= fun protocols => requirements g protocols d with
  | .ok signatures => signatures
  | .error _ => []

/-- The methods that are required of the type in which a method stands. Of a protocol nothing is
required. -/
def requiredAt (g : Graph) (id : DeclId) : List Signature :=
  match ((g.parent? id).bind g.get?).bind Decl.type? with
  | some d => if d.isProtocol then [] else required g d
  | none => []

/-- The signature that a method gets when nullability is passed on to it. -/
def refined (g : Graph) (id : DeclId) (s : Signature) : Signature :=
  s.refinedBy (requiredAt g id)

/-- The same for the methods whose result does not hide that there is none; the others are left
alone. -/
def raised (g : Graph) (id : DeclId) (s : Signature) : Signature :=
  if s.HidesVoid then s
  else
    match (requiredAt g id).find? (·.sameMethod s) with
    | some requirement => s.takeNullability requirement
    | none => s

theorem close_raised (g : Graph) (id : DeclId) (s : Signature) : (raised g id s).Close s := by
  unfold raised
  split_ifs with hvoid
  · exact .refl s
  · split
    · exact Signature.close_takeNullability hvoid _
    · exact .refl s

/-! ### The changes that are collected -/

theorem mem_methodUpdates {protocols : List (String × List Signature)} {d : TypeDecl}
    {updates : List (DeclId × Signature)} (h : methodUpdates g protocols d = .ok updates)
    {s : Signature} :
    (id, s) ∈ updates ↔ d.isProtocol = false ∧ id ∈ d.methods ∧ ∃ required m requirement,
      requirements g protocols d = .ok required ∧ g.method id = .ok m ∧
        required.find? (·.sameMethod m.signature) = some requirement ∧
        s = m.signature.takeNullability requirement ∧ s ≠ m.signature := by
  unfold methodUpdates at h
  split_ifs at h with hprotocol
  · obtain rfl : [] = updates := Except.ok.inj h
    simp [hprotocol]
  · obtain ⟨required, hrequired, h⟩ := bind_eq_ok.mp h
    -- If nothing is required, no method is looked at.
    split_ifs at h with hempty
    · obtain rfl : [] = updates := Except.ok.inj h
      simp [hprotocol, hrequired, List.isEmpty_iff.mp hempty]
    · obtain ⟨found, hfound, h⟩ := bind_eq_ok.mp h
      obtain rfl : found.reduceOption = updates := Except.ok.inj h
      rw [List.reduceOption_mem_iff, mem_mapM_iff hfound]
      constructor
      · rintro ⟨j, hj, hupdate⟩
        obtain ⟨m, hm, hupdate⟩ := bind_eq_ok.mp hupdate
        have hupdate := Except.ok.inj hupdate
        split at hupdate
        · rename_i requirement hfind
          dsimp only at hupdate
          split_ifs at hupdate with hsame
          obtain ⟨rfl, rfl⟩ := Prod.mk.inj (Option.some.inj hupdate)
          exact ⟨by simpa using hprotocol, hj, required, m, requirement, hrequired, hm, hfind, rfl,
            hsame⟩
        · exact absurd hupdate (by simp)
      · rintro ⟨-, hid, required', m, requirement, hrequired', hm, hfind, rfl, hne⟩
        obtain rfl : required = required' := Except.ok.inj (hrequired.symm.trans hrequired')
        refine ⟨id, hid, bind_eq_ok.mpr ⟨m, hm, congrArg Except.ok ?_⟩⟩
        simp only [hfind, if_neg hne]

theorem required_eq {protocols : List (String × List Signature)} {d : TypeDecl}
    {signatures : List Signature} (hprotocols : protocolMethods g = .ok protocols)
    (h : requirements g protocols d = .ok signatures) : required g d = signatures := by
  unfold required
  rw [bind_eq_ok.mpr ⟨protocols, hprotocols, h⟩]

/-- If something is required of a type, the protocols and the conformances could be read. -/
theorem exists_protocols_of_required {d : TypeDecl} (h : required g d ≠ []) :
    ∃ protocols, protocolMethods g = .ok protocols ∧
      requirements g protocols d = .ok (required g d) := by
  unfold required at h ⊢
  cases hread : protocolMethods g >>= fun protocols => requirements g protocols d with
  | ok signatures => exact bind_eq_ok.mp hread
  | error x =>
    rw [hread] at h
    exact absurd rfl h

/-- Of the methods of a type, the same is required as of the type in which they stand. -/
theorem requiredAt_of_parent? {t : DeclId} {d : TypeDecl} (hp : g.parent? id = some t)
    (hd : g.get? t = some (.type d)) :
    requiredAt g id = if d.isProtocol then [] else required g d := by
  rw [requiredAt, hp, Option.bind_some, hd]
  rfl

/-- Of the methods that a type lists, the same is required as of the type. -/
theorem requiredAt_of_mem (hwf : g.WellFormed) {t : DeclId} {d : TypeDecl} {m : MethodDecl}
    (hd : g.get? t = some (.type d)) (hid : id ∈ d.methods) (hm : g.get? id = some (.method m)) :
    requiredAt g id = if d.isProtocol then [] else required g d :=
  requiredAt_of_parent? (hwf.parent?_of_mem_methods hd hid hm) hd

theorem requirements_nil {d : TypeDecl} {signatures : List Signature}
    (h : requirements g [] d = .ok signatures) : signatures = [] := by
  obtain ⟨names, -, h⟩ := bind_eq_ok.mp h
  rw [← Except.ok.inj h]
  simp

/-- If changes are collected, they are collected of every type, unless there are no protocols. -/
theorem exists_methodUpdates {protocols : List (String × List Signature)}
    {updates : List (DeclId × Signature)} (hprotocols : protocolMethods g = .ok protocols)
    (h : nullabilityUpdates g = .ok updates) (hne : protocols ≠ []) {t : DeclId}
    (ht : t ∈ g.typeIds) :
    ∃ d us, g.type t = .ok d ∧ methodUpdates g protocols d = .ok us := by
  obtain ⟨protocols', hprotocols', h⟩ := bind_eq_ok.mp h
  obtain rfl : protocols = protocols' := Except.ok.inj (hprotocols.symm.trans hprotocols')
  rw [if_neg (by simpa using hne)] at h
  obtain ⟨found, hfound, -⟩ := bind_eq_ok.mp h
  obtain ⟨us, hus⟩ := exists_ok_of_mapM hfound t ht
  obtain ⟨d, hd, hus⟩ := bind_eq_ok.mp hus
  exact ⟨d, us, hd, hus⟩

/-- A change that is collected is one of the changes of some type. -/
theorem mem_nullabilityUpdates_iff {protocols : List (String × List Signature)}
    {updates : List (DeclId × Signature)} (hprotocols : protocolMethods g = .ok protocols)
    (h : nullabilityUpdates g = .ok updates) {u : DeclId × Signature} :
    u ∈ updates ↔ ∃ t ∈ g.typeIds, ∃ d us, g.type t = .ok d ∧
      methodUpdates g protocols d = .ok us ∧ u ∈ us := by
  obtain ⟨protocols', hprotocols', h⟩ := bind_eq_ok.mp h
  obtain rfl : protocols = protocols' := Except.ok.inj (hprotocols.symm.trans hprotocols')
  split_ifs at h with hempty
  · obtain rfl : [] = updates := Except.ok.inj h
    obtain rfl := List.isEmpty_iff.mp hempty
    refine ⟨fun hu => absurd hu (by simp), ?_⟩
    rintro ⟨t, -, d, us, -, hus, hu⟩
    obtain ⟨-, -, required, m, requirement, hrequired, -, hfind, -⟩ := (mem_methodUpdates hus).mp hu
    rw [requirements_nil hrequired] at hfind
    exact absurd hfind (by simp)
  · obtain ⟨found, hfound, h⟩ := bind_eq_ok.mp h
    obtain rfl : found.flatten = updates := Except.ok.inj h
    rw [List.mem_flatten]
    constructor
    · rintro ⟨us, hus, hu⟩
      obtain ⟨t, ht, htype⟩ := (mem_mapM_iff hfound).mp hus
      obtain ⟨d, hd, hus⟩ := bind_eq_ok.mp htype
      exact ⟨t, ht, d, us, hd, hus, hu⟩
    · rintro ⟨t, ht, d, us, hd, hus, hu⟩
      exact ⟨us, (mem_mapM_iff hfound).mpr ⟨t, ht, bind_eq_ok.mpr ⟨d, hd, hus⟩⟩, hu⟩

/-- **The collected changes are the methods whose signature is refined.** -/
theorem mem_nullabilityUpdates (hwf : g.WellFormed) {updates : List (DeclId × Signature)}
    (h : nullabilityUpdates g = .ok updates) {s : Signature} :
    (id, s) ∈ updates ↔ ∃ m, g.get? id = some (.method m) ∧ s = refined g id m.signature ∧
      s ≠ m.signature := by
  obtain ⟨protocols, hprotocols, -⟩ := bind_eq_ok.mp h
  rw [mem_nullabilityUpdates_iff hprotocols h]
  constructor
  · rintro ⟨t, -, d, us, hd, hus, hu⟩
    obtain ⟨hprotocol, hid, required, m, requirement, hrequired, hm, hfind, rfl, hne⟩ :=
      (mem_methodUpdates hus).mp hu
    have htype : g.get? t = some (.type d) := (typed_eq_ok_iff Decl.view_type).mp hd
    have hmethod : g.get? id = some (.method m) := (typed_eq_ok_iff Decl.view_method).mp hm
    refine ⟨m, hmethod, ?_, hne⟩
    rw [refined, Signature.refinedBy, requiredAt_of_mem hwf htype hid hmethod, hprotocol,
      if_neg (by simp), required_eq hprotocols hrequired, hfind]
  · rintro ⟨m, hmethod, rfl, hne⟩
    obtain ⟨t, d, hparent, htype, hid⟩ := hwf.exists_type_of_method hmethod
    -- A signature that is refined has a requirement, so the type is no protocol.
    rw [refined, Signature.refinedBy, requiredAt_of_parent? hparent htype] at hne ⊢
    split_ifs at hne ⊢ with hprotocol
    · exact absurd rfl hne
    · cases hfind : (required g d).find? (·.sameMethod m.signature) with
      | none =>
        rw [hfind] at hne
        exact absurd rfl hne
      | some requirement =>
        rw [hfind] at hne
        -- So there are protocols, and the changes of the type have been collected.
        have hsome : required g d ≠ [] := fun hnil => by simp [hnil] at hfind
        obtain ⟨protocols', hprotocols', hrequired⟩ := exists_protocols_of_required hsome
        obtain rfl : protocols = protocols' := Except.ok.inj (hprotocols.symm.trans hprotocols')
        have hprotocols_ne : protocols ≠ [] := by
          rintro rfl
          exact hsome (requirements_nil hrequired)
        have ht := hwf.mem_typeIds htype
        obtain ⟨d', us, hd, hus⟩ := exists_methodUpdates hprotocols h hprotocols_ne ht
        obtain rfl : d = d' := Except.ok.inj ((type_of_get? htype).symm.trans hd)
        exact ⟨t, ht, d, us, hd, hus, (mem_methodUpdates hus).mpr
          ⟨by simpa using hprotocol, hid, required g d, m, requirement, hrequired,
            method_of_get? hmethod, hfind, rfl, hne⟩⟩

/-! ### Making the changes -/

/-- A graph is resigned as far as it has got: what is not resigned yet is still to be changed. -/
structure Resigning (g : Graph) (rest : List (DeclId × Signature)) (g' : Graph) : Prop where
  /-- The files are the same. -/
  files_eq : g'.files = g.files
  /-- The number of slots is the same. -/
  length_eq : g'.slots.length = g.slots.length
  /-- A declaration has been resigned, or is as before and will be. -/
  node?_eq : ∀ id, g'.node? id = (g.resign (refined g)).node? id ∨
    g'.node? id = g.node? id ∧ ∃ s, (id, s) ∈ rest

/-- A method that is to get the signature of a resigning, and may have it already, has it then. -/
theorem succeeds_setSignature_resigning {rest : List (DeclId × Signature)} {m : MethodDecl}
    (hm : g.get? id = some (.method m))
    (h : Resigning g ((id, refined g id m.signature) :: rest) g') :
    (setSignature (id, refined g id m.signature)).Succeeds g'
      fun _ g'' => Resigning g rest g'' := by
  obtain ⟨n, hn, hdecl⟩ := exists_node?_of_get? hm
  -- The method may have its new signature already; with it, both are the same method.
  obtain ⟨m', hn', hm'⟩ : ∃ m', g'.node? id = some { n with decl := .method m' } ∧
      MethodDecl.mk (refined g id m.signature) m'.code m'.header =
        ⟨refined g id m.signature, m.code, m.header⟩ := by
    obtain ⟨parent, decl⟩ := n
    obtain rfl : decl = .method m := hdecl
    rcases h.node?_eq id with hnew | ⟨hold, -⟩
    · refine ⟨{ m with signature := refined g id m.signature }, ?_, rfl⟩
      rw [hnew, node?_resign, hn]
      rfl
    · exact ⟨m, by rw [hold, hn], rfl⟩
  have hlook : g'.method id = .ok m' := by
    rw [Graph.method, typed, get?, hn']
    rfl
  rw [Succeeds, setSignature, outcome_bind, outcome_look_ok hlook, setDecl,
    outcome_modifyNode_some hn']
  refine ⟨h.files_eq, by simpa [setNode] using h.length_eq, fun j => ?_⟩
  rw [node?_setNode hn']
  split_ifs with hj
  · left
    rw [hj, node?_resign, hn, Option.map_some, GraphNode.resign, hdecl, hm']
    rfl
  · rcases h.node?_eq j with hnew | ⟨hold, s, hs⟩
    · exact Or.inl hnew
    · refine Or.inr ⟨hold, s, ?_⟩
      rcases List.mem_cons.mp hs with hs | hs
      · exact absurd (congrArg Prod.fst hs) hj
      · exact hs

/-- **Passing nullability on resigns the graph once**, if the changes can be collected. -/
theorem propagate_eq (hwf : g.WellFormed) (hle : g.slots.length ≤ 2 ^ 32)
    {updates : List (DeclId × Signature)} (hok : nullabilityUpdates g = .ok updates) :
    propagate g = .ok () (g.resign (refined g)) := by
  have hmem : ∀ {j s}, (j, s) ∈ updates ↔ _ := fun {_ _} => mem_nullabilityUpdates hwf hok
  -- Where no change was collected, resigning changes nothing.
  have hstart : Resigning g updates g := by
    refine ⟨rfl, rfl, fun j => ?_⟩
    cases hn : g.node? j with
    | none => exact Or.inl (by rw [node?_resign, hn]; rfl)
    | some n =>
      obtain ⟨parent, decl⟩ := n
      cases decl with
      | method m =>
        have hm : g.get? j = some (.method m) := get?_of_node? hn
        by_cases hsame : refined g j m.signature = m.signature
        · left
          rw [node?_resign, hn, Option.map_some, GraphNode.resign, Decl.resign, hsame]
        · exact Or.inr ⟨rfl, _, hmem.mpr ⟨m, hm, rfl, hsame⟩⟩
      | _ => exact Or.inl (by rw [node?_resign, hn]; rfl)
  have hrun : (updates.forM setSignature).Succeeds g fun _ g' => Resigning g [] g' := by
    refine (outcome_forM (fun rest g' => Resigning g rest g' ∧ ∀ u ∈ rest, u ∈ updates)
      (fun u rest g' h => ?_) updates ⟨hstart, fun _ hu => hu⟩).mono (fun _ _ h => h.1)
      fun _ _ hx => hx
    obtain ⟨j, s⟩ := u
    obtain ⟨m, hm, rfl, -⟩ := hmem.mp (h.2 (j, s) List.mem_cons_self)
    refine (succeeds_setSignature_resigning hm h.1).mono fun _ g'' h'' => ?_
    exact ⟨h'', fun v hv => h.2 v (List.mem_cons_of_mem _ hv)⟩
  have hall : propagate.Succeeds g fun _ g' => g' = g.resign (refined g) := by
    rw [Succeeds, propagate, outcome_bind, outcome_look_ok hok]
    refine hrun.mono fun _ g' h => ?_
    have hlength : (g.resign (refined g)).slots.length = g.slots.length := length_resign
    refine ext_node? h.files_eq (h.length_eq.trans hlength.symm) (hlength ▸ hle) fun j => ?_
    exact (h.node?_eq j).resolve_right fun hold => by simp at hold
  obtain ⟨_, _, hok', rfl⟩ := hall.exists_ok
  exact hok'

/-- If no method hides that it returns nothing, all new signatures are close to the old ones. -/
theorem resign_raised (hle : g.slots.length ≤ 2 ^ 32) (hvoid : g.PlainVoid) :
    g.resign (raised g) = g.resign (refined g) := by
  refine ext_node? rfl (length_resign.trans length_resign.symm) (length_resign.symm ▸ hle)
    fun j => ?_
  rw [node?_resign, node?_resign]
  cases hn : g.node? j with
  | none => rfl
  | some n =>
    obtain ⟨parent, decl⟩ := n
    cases decl with
    | method m =>
      have hplain := hvoid j m (get?_of_node? hn)
      simp only [Option.map_some, GraphNode.resign, Decl.resign, raised, if_neg hplain, refined,
        Signature.refinedBy]
    | _ => rfl

/-! ### Requirements after trimming -/

section

variable (hc : g.outline.Consistent none) (hc' : g'.outline.Consistent none) (h : g.Trims g')
include hc hc' h

theorem listOf_of_trims {p : DeclId} {list : ChildList} (hne : list ≠ .methods) :
    g'.listOf p list = g.listOf p list := by
  refine h.listOf_eq hc hc' fun id hid => ?_
  obtain ⟨n, hn, hkind⟩ := exists_node?_of_kind? (kind?_of_mem_listOf hc hid)
  obtain ⟨n', hn', -⟩ := h.kept_of_kind hn (by simpa [hkind] using hne)
  simp [hn']

theorem typeIds_of_trims : g'.typeIds = g.typeIds := by
  rw [typeIds_eq, typeIds_eq, h.files_eq]
  exact List.flatMap_congr fun f _ => listOf_of_trims hc hc' h (by simp)

/-- Types keep their conformances, and protocols keep their methods. -/
theorem type_of_trims {t : DeclId} {d : TypeDecl} (hd : g.get? t = some (.type d)) :
    ∃ d', g'.get? t = some (.type d') ∧ d'.name = d.name ∧ d'.kind = d.kind ∧
      d'.conformances = d.conformances ∧ (d.isProtocol = true → d'.methods = d.methods) := by
  obtain ⟨d', hd', hname, hkind⟩ := h.type_forth hd
  obtain ⟨n, hn, hdecl⟩ := exists_node?_of_get? hd
  obtain ⟨n', hn', hdecl'⟩ := exists_node?_of_get? hd'
  have hlists : ∀ list, g'.listOf t list = g.listOf t list →
      (Decl.type d').listOf list = (Decl.type d).listOf list := by
    intro list hlist
    rwa [listOf_of_node? hn', listOf_of_node? hn, hdecl, hdecl'] at hlist
  refine ⟨d', hd', hname, hkind, hlists .conformances (listOf_of_trims hc hc' h (by simp)),
    fun hprotocol => hlists .methods (h.listOf_eq hc hc' fun id hid hgone => ?_)⟩
  -- A method of a protocol is not gone, as it stands in the protocol and nowhere else.
  obtain ⟨m, hm, hp, -⟩ := exists_node?_of_place? (hc.mem_listOf_iff.mp hid)
  obtain ⟨-, t', hp', d₀, hd₀, himpl⟩ := h.gone id m hm hgone
  obtain rfl : t' = t := by simpa using hp'.symm.trans hp
  obtain rfl : d₀ = d := by simpa [hd] using hd₀.symm
  exact absurd hprotocol (by simp [himpl])

theorem protocol?_of_trims {t : DeclId} (ht : t ∈ g.typeIds) : protocol? g' t = protocol? g t := by
  obtain ⟨d, htype, -⟩ : Finds (g.type t) _ :=
    finds_typed Decl.view_type (kind?_of_mem_typeIds hc ht)
  have hd : g.get? t = some (.type d) := (typed_eq_ok_iff Decl.view_type).mp htype
  obtain ⟨d', hd', hname, hkind, -, hmethods⟩ := type_of_trims hc hc' h hd
  obtain ⟨n', hn', hdecl'⟩ := exists_node?_of_get? hd'
  have hprotocol : d'.isProtocol = d.isProtocol := by
    rw [TypeDecl.isProtocol, TypeDecl.isProtocol, hkind]
  unfold protocol?
  rw [htype, type_of_get? hd']
  change (if d'.isProtocol then _ else _) = if d.isProtocol then _ else _
  rw [hprotocol]
  split_ifs with hp
  · have hsignatures : methodSignatures g' d' = methodSignatures g d := by
      unfold methodSignatures
      rw [hmethods hp]
      -- The methods of a protocol are not trimmed, so they are read as before.
      refine mapM_congr fun m hm => ?_
      have hm' : m ∈ n'.decl.listOf .methods := by
        rw [hdecl']
        change m ∈ d'.methods
        rwa [hmethods hp]
      exact h.typed_eq (node?_ne_none_of_mem hc' hn' hm') fun _ _ ht => ht.method?_eq
    rw [hname, hsignatures]
  · rfl

theorem protocolMethods_of_trims : protocolMethods g' = protocolMethods g := by
  unfold protocolMethods
  rw [typeIds_of_trims hc hc' h, mapM_congr fun t ht => protocol?_of_trims hc hc' h ht]

theorem requirements_of_trims {t : DeclId} {d d' : TypeDecl} (hd : g.get? t = some (.type d))
    (hd' : g'.get? t = some (.type d')) (protocols : List (String × List Signature)) :
    requirements g' protocols d' = requirements g protocols d := by
  obtain ⟨d₀, hd₀, -, -, hconformances, -⟩ := type_of_trims hc hc' h hd
  obtain rfl : d' = d₀ := by simpa [hd'] using hd₀
  obtain ⟨n', hn', hdecl'⟩ := exists_node?_of_get? hd'
  have hnames : (d'.conformances.mapM fun c => (do return (← g'.conformance c).name)) =
      (d'.conformances.mapM fun c => (do return (← g.conformance c).name) :
        Except GraphError (List String)) := by
    refine mapM_congr fun c hc => ?_
    have hc : c ∈ n'.decl.listOf .conformances := by
      rw [hdecl']
      exact hc
    exact h.typed_eq (node?_ne_none_of_mem hc' hn' hc) fun _ _ ht => ht.conformance?_eq
  unfold requirements
  rw [hnames, hconformances]

theorem required_of_trims {t : DeclId} {d d' : TypeDecl} (hd : g.get? t = some (.type d))
    (hd' : g'.get? t = some (.type d')) : required g' d' = required g d := by
  unfold required
  simp only [protocolMethods_of_trims hc hc' h, requirements_of_trims hc hc' h hd hd']

/-- Trimming changes nothing in what is required of the types that methods stand in. -/
theorem requiredAt_of_trims (hid : g'.node? id ≠ none) : requiredAt g' id = requiredAt g id := by
  obtain ⟨n', hn'⟩ := Option.ne_none_iff_exists'.mp hid
  obtain ⟨n, hn, hparent, -⟩ := h.kept id n' hn'
  have hp : g'.parent? id = g.parent? id := by
    rw [parent?, parent?, hn', hn]
    exact hparent
  unfold requiredAt
  rw [hp]
  cases g.parent? id with
  | none => rfl
  | some t =>
    rw [Option.bind_some, Option.bind_some]
    cases hd : (g.get? t).bind Decl.type? with
    | some d =>
      have htype := bind_type?_eq_some.mp hd
      obtain ⟨d', hd', -, hkind, -⟩ := type_of_trims hc hc' h htype
      have hprotocol : d'.isProtocol = d.isProtocol := by
        rw [TypeDecl.isProtocol, TypeDecl.isProtocol, hkind]
      rw [bind_type?_eq_some.mpr hd']
      simp only [hprotocol, required_of_trims hc hc' h htype hd']
    | none =>
      -- Trimming makes no types.
      have hnone : (g'.get? t).bind Decl.type? = none := by
        rw [Option.eq_none_iff_forall_ne_some]
        intro d' hd'
        obtain ⟨d, htype, -⟩ := h.type_back (bind_type?_eq_some.mp hd')
        rw [bind_type?_eq_some.mpr htype] at hd
        exact absurd hd (by simp)
      rw [hnone]

/-- **Trimming a consistent graph changes no new signature.** -/
theorem raised_of_trims (hid : g'.node? id ≠ none) : raised g' id = raised g id := by
  funext s
  rw [raised, raised, requiredAt_of_trims hc hc' h hid]

end

end ProtocolNullability

end ObjcSwift
