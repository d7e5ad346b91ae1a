import ObjcSwift.Pass.Idiom
import ObjcSwift.Pass.Nullability
import ObjcSwift.Proofs.Pass.Steps

/-!
# Passes that rewrite declarations

Passing nullability on and folding idioms rewrite signatures and bodies. Neither links, unlinks nor
removes anything: both succeed on every consistent graph, and **keep its outline**. What has to be
seen is that the numbers they work from are numbers of declarations of the right kind, and stay so.
-/

namespace ObjcSwift

open ObjcSwift.Graph ObjcSwift.Graph.Edit

variable {g : Graph} {id : DeclId}

/-! ### Passing nullability on -/

namespace ProtocolNullability

variable {n : GraphNode} {d : TypeDecl}

theorem finds_methodSignatures (hc : g.outline.Consistent none) (hn : g.node? id = some n)
    (hd : n.decl = .type d) : Finds (methodSignatures g d) fun _ => True := by
  have hmethods : ∀ m ∈ d.methods,
      Finds (do return (← g.method m).signature : Except GraphError Signature) fun _ => True := by
    intro m hm
    have hkind := kind?_of_mem_decl hc hn (hd ▸ hm : m ∈ n.decl.listOf .methods)
    exact (finds_typed Decl.view_method hkind).bind fun _ _ => finds_pure trivial
  exact (finds_mapM_all hmethods).mono fun _ _ => trivial

theorem finds_protocolMethods (hc : g.outline.Consistent none) :
    Finds (protocolMethods g) fun _ => True := by
  have hprotocol : ∀ id ∈ g.typeIds, Finds (protocol? g id) fun _ => True := by
    intro id hid
    refine (finds_typed Decl.view_type (kind?_of_mem_typeIds hc hid)).bind ?_
    rintro d ⟨n, hn, hd⟩
    split_ifs
    · exact (finds_methodSignatures hc hn hd).bind fun _ _ => finds_pure trivial
    · exact finds_pure trivial
  exact (finds_mapM_all hprotocol).bind fun _ _ => finds_pure trivial

theorem finds_requirements (hc : g.outline.Consistent none) (hn : g.node? id = some n)
    (hd : n.decl = .type d) (protocols : List (String × List Signature)) :
    Finds (requirements g protocols d) fun _ => True := by
  have hnames : ∀ c ∈ d.conformances,
      Finds (do return (← g.conformance c).name : Except GraphError String) fun _ => True := by
    intro c hmem
    have hkind := kind?_of_mem_decl hc hn (hd ▸ hmem : c ∈ n.decl.listOf .conformances)
    exact (finds_typed Decl.view_conformance hkind).bind fun _ _ => finds_pure trivial
  exact (finds_mapM_all hnames).bind fun _ _ => finds_pure trivial

/-- What changes is methods. -/
theorem finds_methodUpdates (hc : g.outline.Consistent none) (hn : g.node? id = some n)
    (hd : n.decl = .type d) (protocols : List (String × List Signature)) :
    Finds (methodUpdates g protocols d) fun updates =>
      ∀ u ∈ updates, g.kind? u.1 = some (some .methods) := by
  unfold methodUpdates
  split_ifs
  · exact finds_pure (by simp)
  · refine (finds_requirements hc hn hd protocols).bind fun required _ => ?_
    split_ifs
    · exact finds_pure (by simp)
    · refine Finds.bind (P := fun updates => ∀ u ∈ updates, ∀ v ∈ u,
        g.kind? (Prod.fst v) = some (some .methods)) (finds_mapM_all fun m hm => ?_) ?_
      · have hkind := kind?_of_mem_decl hc hn (hd ▸ hm : m ∈ n.decl.listOf .methods)
        refine (finds_typed Decl.view_method hkind).bind fun method _ => finds_pure fun v hv => ?_
        split at hv
        · dsimp only at hv
          split_ifs at hv
          · exact absurd hv (by simp)
          · obtain rfl := Option.mem_some_iff.mp hv
            exact hkind
        · exact absurd hv (by simp)
      · intro updates hupdates
        refine finds_pure fun u hu => hupdates (some u) ?_ u rfl
        exact List.reduceOption_mem_iff.mp hu

theorem finds_nullabilityUpdates (hc : g.outline.Consistent none) :
    Finds (nullabilityUpdates g) fun updates =>
      ∀ u ∈ updates, g.kind? u.1 = some (some .methods) := by
  refine (finds_protocolMethods hc).bind fun protocols _ => ?_
  split_ifs
  · exact finds_pure (by simp)
  · have htypes : ∀ id ∈ g.typeIds,
        Finds (do methodUpdates g protocols (← g.type id)) fun updates =>
          ∀ u ∈ updates, g.kind? u.1 = some (some .methods) := by
      intro id hid
      refine (finds_typed Decl.view_type (kind?_of_mem_typeIds hc hid)).bind ?_
      rintro d ⟨n, hn, hd⟩
      exact finds_methodUpdates hc hn hd protocols
    refine (finds_mapM_all htypes).bind fun updates hupdates => finds_pure fun u hu => ?_
    obtain ⟨us, hus, hmem⟩ := List.mem_flatten.mp hu
    exact hupdates us hus u hmem

theorem succeeds_setSignature {u : DeclId × Signature} (hu : g.kind? u.1 = some (some .methods)) :
    (setSignature u).Succeeds g fun _ g' => g'.outline = g.outline := by
  rw [Succeeds, setSignature, outcome_bind]
  refine outcome_look_typed Decl.view_method hu fun n m hn hm => ?_
  refine (succeeds_setDecl hn ?_).mono fun _ _ h => h.1
  rw [hm]
  exact ⟨fun list => by cases list <;> rfl, rfl⟩

/-- **Passing nullability on succeeds and keeps the outline.** -/
theorem succeeds_propagate (hc : g.outline.Consistent none) :
    propagate.Succeeds g fun _ g' => g'.outline = g.outline := by
  obtain ⟨updates, hok, hupdates⟩ := finds_nullabilityUpdates hc
  rw [Succeeds, propagate, outcome_bind, outcome_look_ok hok]
  -- What is left to change is methods, as at the start.
  refine (outcome_forM (fun rest g' => g'.outline = g.outline ∧ ∀ u ∈ rest, u ∈ updates)
    (fun u rest g' h => ?_) updates ⟨rfl, fun _ hu => hu⟩).mono (fun _ _ h => h.1) fun _ _ hx => hx
  have hu : g'.kind? u.1 = some (some .methods) := by
    rw [kind?_of_outline h.1]
    exact hupdates u (h.2 u List.mem_cons_self)
  refine (succeeds_setSignature hu).mono fun _ g'' h'' => ?_
  exact ⟨h''.trans h.1, fun v hv => h.2 v (List.mem_cons_of_mem u hv)⟩

end ProtocolNullability

/-! ### Folding idioms -/

namespace Idiom

theorem alike_foldDecl (c : Catalog) (d : Decl) : d.Alike (foldDecl c d).1 := by
  cases d with
  | method d =>
    obtain ⟨signature, code, header⟩ := d
    cases code <;> exact ⟨fun list => by cases list <;> rfl, rfl⟩
  | globalFunction d =>
    obtain ⟨signature, code, header⟩ := d
    cases code <;> exact ⟨fun list => by cases list <;> rfl, rfl⟩
  | globalVariable d =>
    obtain ⟨name, storage, initial, header⟩ := d
    cases initial <;> exact ⟨fun list => by cases list <;> rfl, rfl⟩
  | _ => exact ⟨fun list => by cases list <;> rfl, rfl⟩

theorem succeeds_foldIn {c : Catalog} (hid : g.kind? id ≠ none) :
    (foldIn c id).Succeeds g fun _ g' => g'.outline = g.outline := by
  obtain ⟨kind, hkind⟩ := Option.ne_none_iff_exists'.mp hid
  obtain ⟨n, hn, -⟩ := exists_node?_of_kind? hkind
  rw [Succeeds, foldIn, outcome_bind, outcome_node_some hn, outcome_bind]
  exact (succeeds_setDecl hn (alike_foldDecl c n.decl)).mono fun _ _ h => h.1

/-- **Folding idioms succeeds and keeps the outline.** -/
theorem succeeds_foldAll {c : Catalog} (hle : g.slots.length ≤ 2 ^ 32) :
    (foldAll c).Succeeds g fun _ g' => g'.outline = g.outline := by
  have howners : ∀ id ∈ g.codeOwners, g.kind? id ≠ none :=
    fun id hid => kind?_of_mem_codeOwners hle hid
  rw [Succeeds, foldAll, outcome_bind, outcome_get, outcome_bind]
  -- What is folded in, and what is left, carries code in the graph at the start.
  refine (outcome_filterM (fun kept rest g' => g'.outline = g.outline ∧
    (∀ id ∈ kept, id ∈ g.codeOwners) ∧ ∀ id ∈ rest, id ∈ g.codeOwners)
    (fun kept id rest g' h => ?_) ⟨rfl, by simp, fun _ h => h⟩).mono (fun touched g' h => ?_)
    fun _ _ hx => hx
  · obtain ⟨ho, hkept, hrest⟩ := h
    have hid : id ∈ g.codeOwners := hrest id List.mem_cons_self
    have hrest' : ∀ j ∈ rest, j ∈ g.codeOwners := fun j hj => hrest j (List.mem_cons_of_mem id hj)
    refine (succeeds_foldIn (by rw [kind?_of_outline ho]; exact howners id hid)).mono
      fun b g'' ho' => ⟨ho'.trans ho, fun j hj => ?_, hrest'⟩
    cases b with
    | false => exact hkept j hj
    | true =>
      rcases List.mem_cons.mp hj with rfl | hj
      · exact hid
      · exact hkept j hj
  · obtain ⟨ho, htouched, -⟩ := h
    refine (succeeds_forM_annotate fun id hid => ?_).mono fun _ g'' h' => h'.1.trans ho
    rw [kind?_of_outline ho]
    exact howners id (htouched id (by simpa using hid))

end Idiom

end ObjcSwift
