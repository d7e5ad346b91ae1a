import Mathlib
import ObjcSwift.Typing.Lookup

/-!
# The hierarchy of a type

The hierarchy of a name is exact on every catalogue, also where supertypes or conformances go in
rings (`Catalog.hierarchy_is_exact`): it starts with the chain of supertypes, up to the first one
that is unknown or stands in the chain already (`Catalog.IsSuperChain`), and goes on with the other
types that conformances lead to, each once and those that fewer steps lead to first
(`Catalog.ConformsIn`).

Both searches carry the types that were not seen yet (`Unseen`). The second one has a queue besides,
in which every name has a **rank**, the number of steps after which it was queued. Ranks grow along
the queue, and never by more than one, so what is found is never nearer than what was found before.
-/

namespace ObjcSwift

variable {c : Catalog} {types unseen : List KnownType} {seen : List String} {name q : String}
  {t u : KnownType} {n k : Nat}

theorem name_of_find? (h : types.find? (·.name == q) = some t) : t.name = q := by
  simpa using List.find?_some h

/-- Nothing is found under a name that was left out, and the same as before under any other. -/
theorem find?_withoutName :
    (withoutName name types).find? (·.name == q) = some t ↔
      q ≠ name ∧ types.find? (·.name == q) = some t := by
  rw [withoutName, List.find?_filter]
  by_cases hq : q = name
  · subst hq
    have hnone : types.find? (fun u => decide ((u.name != q) = true ∧ (u.name == q) = true)) =
        none := List.find?_eq_none.mpr fun u _ => by simp
    rw [hnone]
    simp
  · have hsame : (fun u : KnownType => decide ((u.name != name) = true ∧ (u.name == q) = true)) =
        (·.name == q) := by
      funext u
      by_cases hu : u.name = q <;> simp [hu, hq]
    rw [hsame]
    simp [hq]

namespace Catalog

/-! ### What the hierarchy has to be -/

/-- The supertype of a type, if it is known. -/
def supertype? (c : Catalog) (t : KnownType) : Option KnownType :=
  t.supertype.bind c.type?

/-- **The chain of supertypes of a name**: it starts with what the name refers to, goes from each
type to its supertype, and ends where that is unknown or stands in the chain already. -/
structure IsSuperChain (c : Catalog) (name : String) (chain : List KnownType) : Prop where
  /-- It starts with what the name refers to. -/
  head?_eq : chain.head? = c.type? name
  /-- It goes from each type to its supertype. -/
  steps : chain.IsChain fun t u => c.supertype? t = some u
  /-- No type comes twice. -/
  nodup : (chain.map (·.name)).Nodup
  /-- It does not end before it has to. -/
  stops : ∀ t ∈ chain.getLast?, ∀ u, c.supertype? t = some u → u ∈ chain

/-- So many conformances lead from the types of a chain to a known type. -/
inductive ConformsIn (c : Catalog) (chain : List KnownType) : Nat → KnownType → Prop
  /-- The types of the chain. -/
  | start {t : KnownType} (h : t ∈ chain) : ConformsIn c chain 0 t
  /-- One more conformance. -/
  | step {n : Nat} {t u : KnownType} {name : String} (h : ConformsIn c chain n t)
      (hname : name ∈ t.conformances) (hu : c.type? name = some u) : ConformsIn c chain (n + 1) u

theorem name_of_type? (h : c.type? q = some t) : t.name = q :=
  name_of_find? h

theorem type?_of_supertype? (h : c.supertype? t = some u) : c.type? u.name = some u := by
  obtain ⟨supertype, -, hu⟩ := Option.bind_eq_some_iff.mp h
  rwa [name_of_type? hu]

end Catalog

/-- The types of a catalogue that were not seen, as far as names find them. -/
def Unseen (c : Catalog) (seen : List String) (unseen : List KnownType) : Prop :=
  ∀ q t, unseen.find? (·.name == q) = some t ↔ q ∉ seen ∧ c.type? q = some t

theorem Unseen.withoutName (h : Unseen c seen unseen) (name : String) :
    Unseen c (name :: seen) (withoutName name unseen) := fun q t => by
  rw [find?_withoutName, h q t, List.mem_cons, not_or, and_assoc]

/-- It does not matter in which order names were seen. -/
theorem Unseen.congr {seen' : List String} (h : Unseen c seen unseen)
    (hseen : ∀ q, q ∈ seen' ↔ q ∈ seen) : Unseen c seen' unseen := fun q t => by
  rw [h q t, hseen]

/-! ### The chain of supertypes -/

/-- The chain from a name on, when some names were seen before, and the types that are left. -/
structure SuperChainFrom (c : Catalog) (seen : List String) (name : String)
    (found : List KnownType × List KnownType) : Prop where
  /-- It starts with what the name refers to, unless that was seen before. -/
  head? : ∀ t, found.1.head? = some t ↔ name ∉ seen ∧ c.type? name = some t
  /-- It goes from each type to its supertype. -/
  steps : found.1.IsChain fun t u => c.supertype? t = some u
  /-- Its types are those that their names refer to. -/
  known : ∀ t ∈ found.1, c.type? t.name = some t
  /-- No type comes twice. -/
  nodup : (found.1.map (·.name)).Nodup
  /-- No type was seen before. -/
  fresh : ∀ t ∈ found.1, t.name ∉ seen
  /-- It ends where the supertype is unknown, was seen before or stands in the chain. -/
  stops : ∀ t ∈ found.1.getLast?, ∀ u, c.supertype? t = some u →
    u.name ∈ seen ∨ u.name ∈ found.1.map (·.name)
  /-- The types of the chain have been seen then. -/
  left : Unseen c (found.1.map (·.name) ++ seen) found.2

/-- A chain goes on with a type in front of it. -/
theorem SuperChainFrom.cons {supertype : String} {chain rest : List KnownType}
    (ht : c.type? name = some t) (hnew : name ∉ seen) (hsuper : t.supertype = some supertype)
    (h : SuperChainFrom c (name :: seen) supertype (chain, rest)) :
    SuperChainFrom c seen name (t :: chain, rest) where
  head? u := by simp [hnew, ht]
  steps := by
    refine List.isChain_cons.mpr ⟨fun u hu => ?_, h.steps⟩
    rw [Catalog.supertype?, hsuper]
    exact ((h.head? u).mp hu).2
  known u hu := by
    rcases List.mem_cons.mp hu with rfl | hu
    · rwa [Catalog.name_of_type? ht]
    · exact h.known u hu
  nodup := by
    refine List.nodup_cons.mpr ⟨fun hmem => ?_, h.nodup⟩
    obtain ⟨u, hu, hun⟩ := List.mem_map.mp hmem
    exact h.fresh u hu (by simp [hun, Catalog.name_of_type? ht])
  fresh u hu := by
    rcases List.mem_cons.mp hu with rfl | hu
    · rwa [Catalog.name_of_type? ht]
    · exact fun hs => h.fresh u hu (List.mem_cons_of_mem name hs)
  stops := by
    have hname : t.name = name := Catalog.name_of_type? ht
    intro v hv u hu
    cases chain with
    | nil =>
      -- There is no next type, so the supertype was seen before or is the type itself.
      obtain rfl : t = v := by simpa using hv
      rw [Catalog.supertype?, hsuper] at hu
      have hseen : supertype ∈ name :: seen := by
        by_contra hs
        simpa using (h.head? u).mpr ⟨hs, hu⟩
      rw [Catalog.name_of_type? hu]
      simpa [hname, or_comm] using hseen
    | cons x xs =>
      rw [List.getLast?_cons_cons] at hv
      have hlast := h.stops v hv u hu
      simp only [List.map_cons, List.mem_cons, hname] at hlast ⊢
      tauto
  left := by
    refine h.left.congr fun q => ?_
    simp only [List.map_cons, List.cons_append, List.mem_cons, List.mem_append,
      Catalog.name_of_type? ht]
    tauto

theorem superChainFrom (h : Unseen c seen unseen) :
    SuperChainFrom c seen name (superChain unseen name) := by
  fun_induction superChain unseen name generalizing seen with
  | case1 unseen name hnone =>
    refine ⟨fun t => ?_, .nil, by simp, .nil, by simp, by simp, h⟩
    rw [← h, hnone]
    simp
  | case2 unseen name t ht hroot =>
    obtain ⟨hnew, ht⟩ := (h name t).mp ht
    have hname : t.name = name := Catalog.name_of_type? ht
    refine ⟨fun u => ?_, .singleton t, ?_, by simp, ?_, ?_, ?_⟩
    · simp [hnew, ht]
    · simpa [hname] using ht
    · simpa [hname] using hnew
    · simp [Catalog.supertype?, hroot]
    · simpa [hname] using h.withoutName name
  | case3 unseen name t ht supertype hsuper chain rest hrec ih =>
    obtain ⟨hnew, ht⟩ := (h name t).mp ht
    have hrest := ih (h.withoutName name)
    rw [hrec] at hrest
    exact hrest.cons ht hnew hsuper

/-! ### Conformances -/

/-- A type is found from a queue of names with ranks: under a queued name, after as many steps as
its rank, or one step after a type that lists its name. -/
inductive FoundIn (unseen : List KnownType) (queue : List (String × Nat)) : Nat → KnownType → Prop
  /-- A queued name. -/
  | queued {q : String} {k : Nat} {t : KnownType} (h : (q, k) ∈ queue)
      (ht : unseen.find? (·.name == q) = some t) : FoundIn unseen queue k t
  /-- A conformance of a type that is found. -/
  | step {q : String} {k : Nat} {t u : KnownType} (h : FoundIn unseen queue k t)
      (hq : q ∈ t.conformances) (hu : unseen.find? (·.name == q) = some u) :
      FoundIn unseen queue (k + 1) u

/-- The ranks in a queue grow, by one at most. -/
def Ranked (queue : List (String × Nat)) : Prop :=
  queue.Pairwise fun a b => a.2 ≤ b.2 ∧ b.2 ≤ a.2 + 1

/-- The queue after a type was found: the names of its conformances are one step farther. -/
def requeue (queue : List (String × Nat)) (k : Nat) (t : KnownType) : List (String × Nat) :=
  queue ++ t.conformances.map fun q => (q, k + 1)

variable {queue : List (String × Nat)}

theorem map_fst_requeue :
    (requeue queue k t).map Prod.fst = queue.map Prod.fst ++ t.conformances := by
  simp [requeue, Function.comp_def]

theorem mem_requeue {p : String × Nat} :
    p ∈ requeue queue k t ↔ p ∈ queue ∨ p.1 ∈ t.conformances ∧ p.2 = k + 1 := by
  obtain ⟨q, j⟩ := p
  simp [requeue, eq_comm]

theorem Ranked.requeue (h : Ranked ((name, k) :: queue)) (t : KnownType) :
    Ranked (requeue queue k t) := by
  obtain ⟨hhead, hqueue⟩ := List.pairwise_cons.mp h
  refine List.pairwise_append.mpr ⟨hqueue, ?_, ?_⟩
  · rw [List.pairwise_map]
    exact List.pairwise_of_forall_sublist fun _ => ⟨le_rfl, by omega⟩
  · intro a ha b hb
    obtain ⟨q, -, rfl⟩ := List.mem_map.mp hb
    have := hhead a ha
    dsimp only at this ⊢
    omega

namespace FoundIn

/-- A name that was found is among the types that are searched. -/
theorem exists_find? (h : FoundIn unseen queue n t) :
    ∃ q, unseen.find? (·.name == q) = some t := by
  cases h with
  | queued _ ht => exact ⟨_, ht⟩
  | step _ _ hu => exact ⟨_, hu⟩

/-- Nothing is nearer than the queue. -/
theorem le (h : FoundIn unseen queue n t) (hk : ∀ p ∈ queue, k ≤ p.2) : k ≤ n := by
  induction h with
  | queued hq _ => exact hk _ hq
  | step _ _ _ ih => exact Nat.le_succ_of_le ih

theorem mono {queue' : List (String × Nat)} (h : FoundIn unseen queue n t)
    (hqueue : ∀ p ∈ queue, p ∈ queue' ∨ unseen.find? (·.name == p.1) = none) :
    FoundIn unseen queue' n t := by
  induction h with
  | queued hq ht =>
    rcases hqueue _ hq with hq | hnone
    · exact .queued hq ht
    · exact absurd (hnone.symm.trans ht) (by simp)
  | step _ hq hu ih => exact .step ih hq hu

/-- What is found after a type was taken from the queue was found before. -/
theorem of_taken (ht : unseen.find? (·.name == name) = some t)
    (h : FoundIn (withoutName name unseen) (requeue queue k t) n u) :
    FoundIn unseen ((name, k) :: queue) n u := by
  induction h with
  | @queued q j u hq hu =>
    have hu := (find?_withoutName.mp hu).2
    rcases mem_requeue.mp hq with hq | ⟨hq, rfl⟩
    · exact .queued (List.mem_cons_of_mem _ hq) hu
    · exact .step (.queued List.mem_cons_self ht) hq hu
  | step _ hq hu ih => exact .step ih hq (find?_withoutName.mp hu).2

/-- **What was found before is found as near after the nearest type was taken**, apart from that
type. -/
theorem taken (ht : unseen.find? (·.name == name) = some t) (hk : ∀ p ∈ queue, k ≤ p.2)
    (h : FoundIn unseen ((name, k) :: queue) n u) :
    u = t ∨ ∃ m ≤ n, FoundIn (withoutName name unseen) (requeue queue k t) m u := by
  have hsame {q : String} {v : KnownType} (hv : unseen.find? (·.name == q) = some v)
      (hq : q = name) : v = t := by
    subst hq
    exact Option.some.inj (hv.symm.trans ht)
  induction h with
  | @queued q j u hq hu =>
    by_cases hqn : q = name
    · exact .inl (hsame hu hqn)
    · refine .inr ⟨j, le_rfl, .queued (mem_requeue.mpr (.inl ?_)) (find?_withoutName.mpr ⟨hqn, hu⟩)⟩
      simpa [hqn] using hq
  | @step q j v u hv hq hu ih =>
    by_cases hqn : q = name
    · exact .inl (hsame hu hqn)
    have hu' := find?_withoutName.mpr ⟨hqn, hu⟩
    rcases ih with rfl | ⟨m, hm, hv'⟩
    · -- The type that was taken is nearest, so its conformances are not queued too far.
      have hkj : k ≤ j := hv.le (by simpa using hk)
      exact .inr ⟨k + 1, by omega, .queued (mem_requeue.mpr (.inr ⟨hq, rfl⟩)) hu'⟩
    · exact .inr ⟨m + 1, by omega, .step hv' hq hu'⟩

end FoundIn

/-- What the search from a queue gives. -/
structure Searched (unseen : List KnownType) (queue : List (String × Nat))
    (found : List KnownType) : Prop where
  /-- Everything that the queue leads to. -/
  mem_iff : ∀ t, t ∈ found ↔ ∃ n, FoundIn unseen queue n t
  /-- No type comes twice. -/
  nodup : (found.map (·.name)).Nodup
  /-- What comes first is as near. -/
  nearest : found.Pairwise fun t u =>
    ∀ n, FoundIn unseen queue n u → ∃ m ≤ n, FoundIn unseen queue m t

variable {found : List KnownType}

/-- Nothing is found from an empty queue. -/
theorem searched_nil : Searched unseen [] [] := by
  refine ⟨fun t => ⟨by simp, ?_⟩, .nil, .nil⟩
  rintro ⟨n, h⟩
  exact absurd (h.le (k := n + 1) (by simp)) (by omega)

/-- A name that finds nothing may as well not be queued. -/
theorem Searched.skip (hnone : unseen.find? (·.name == name) = none)
    (h : Searched unseen queue found) : Searched unseen ((name, k) :: queue) found := by
  have hiff (n : Nat) (t : KnownType) :
      FoundIn unseen queue n t ↔ FoundIn unseen ((name, k) :: queue) n t := by
    refine ⟨fun h => h.mono fun p hp => .inl (List.mem_cons_of_mem _ hp), fun h => h.mono ?_⟩
    rintro p hp
    rcases List.mem_cons.mp hp with rfl | hp
    · exact .inr hnone
    · exact .inl hp
  obtain ⟨hmem, hnodup, hnearest⟩ := h
  simp only [hiff] at hmem hnearest
  exact ⟨hmem, hnodup, hnearest⟩

/-- **The type that the first name finds comes before what is found from the queue after it.** -/
theorem Searched.cons (ht : unseen.find? (·.name == name) = some t)
    (hk : ∀ p ∈ queue, k ≤ p.2)
    (h : Searched (withoutName name unseen) (requeue queue k t) found) :
    Searched unseen ((name, k) :: queue) (t :: found) := by
  have hself : FoundIn unseen ((name, k) :: queue) k t := .queued List.mem_cons_self ht
  -- The rest is found where its name has been taken out.
  have hne : ∀ u ∈ found, u.name ≠ t.name := by
    intro u hu
    obtain ⟨n, hn⟩ := (h.mem_iff u).mp hu
    obtain ⟨q, hq⟩ := hn.exists_find?
    rw [name_of_find? hq, name_of_find? ht]
    exact (find?_withoutName.mp hq).1
  refine ⟨fun u => ?_, ?_, ?_⟩
  · rw [List.mem_cons, h.mem_iff]
    constructor
    · rintro (rfl | ⟨n, hn⟩)
      · exact ⟨k, hself⟩
      · exact ⟨n, hn.of_taken ht⟩
    · rintro ⟨n, hn⟩
      exact (hn.taken ht hk).imp_right fun ⟨m, _, hm⟩ => ⟨m, hm⟩
  · refine List.nodup_cons.mpr ⟨fun hname => ?_, h.nodup⟩
    obtain ⟨u, hu, hun⟩ := List.mem_map.mp hname
    exact hne u hu hun
  · -- It is found at distance `k`, and everything queued is at least that far.
    refine List.pairwise_cons.mpr ⟨fun u _ n hn => ⟨k, hn.le (by simpa using hk), hself⟩, ?_⟩
    refine h.nearest.imp_of_mem ?_
    intro v u _ hu hvu n hn
    rcases hn.taken ht hk with rfl | ⟨m, hm, hfound⟩
    · exact absurd rfl (hne u hu)
    · obtain ⟨l, hl, hv⟩ := hvu m hfound
      exact ⟨l, hl.trans hm, hv.of_taken ht⟩

theorem searched_conformanceClosure (hranked : Ranked queue) :
    Searched unseen queue (conformanceClosure unseen (queue.map Prod.fst)) := by
  generalize hnames : queue.map Prod.fst = names
  fun_induction conformanceClosure unseen names generalizing queue with
  | case1 unseen =>
    obtain rfl := List.map_eq_nil_iff.mp hnames
    exact searched_nil
  | case2 unseen name names hnone ih =>
    obtain ⟨⟨name, k⟩, queue, rfl, rfl, rfl⟩ := List.map_eq_cons_iff.mp hnames
    exact (ih (List.pairwise_cons.mp hranked).2 rfl).skip hnone
  | case3 unseen name names t ht ih =>
    obtain ⟨⟨name, k⟩, queue, rfl, rfl, rfl⟩ := List.map_eq_cons_iff.mp hnames
    have hk : ∀ p ∈ queue, k ≤ p.2 := fun p hp => ((List.pairwise_cons.mp hranked).1 p hp).1
    exact (ih (hranked.requeue t) map_fst_requeue).cons ht hk

/-! ### The hierarchy -/

namespace Catalog

theorem hierarchy_eq (c : Catalog) (name : String) :
    ∃ chain rest, c.hierarchy name =
        chain ++ conformanceClosure rest (chain.flatMap (·.conformances)) ∧
      SuperChainFrom c [] name (chain, rest) :=
  ⟨_, _, rfl, superChainFrom fun q t => by simp [type?]⟩

/-- The chain from a name on, when nothing was seen before, is the chain of its supertypes. -/
theorem isSuperChain {chain rest : List KnownType} (h : SuperChainFrom c [] name (chain, rest)) :
    c.IsSuperChain name chain where
  head?_eq := Option.ext fun t => by simpa using h.head? t
  steps := h.steps
  nodup := h.nodup
  stops t ht u hu := by
    have hname := (h.stops t ht u hu).resolve_left (by simp)
    obtain ⟨v, hv, hvu⟩ := List.mem_map.mp hname
    have hvu := (h.known v hv).symm.trans (hvu ▸ type?_of_supertype? hu)
    rwa [← Option.some.inj hvu]

/-- The conformances of a chain as a queue, one step away from it. -/
def chainQueue (chain : List KnownType) : List (String × Nat) :=
  (chain.flatMap (·.conformances)).map fun q => (q, 1)

section Chain

variable {chain rest : List KnownType}

theorem mem_chainQueue {p : String × Nat} :
    p ∈ chainQueue chain ↔ (∃ t ∈ chain, p.1 ∈ t.conformances) ∧ p.2 = 1 := by
  obtain ⟨q, j⟩ := p
  simp [chainQueue, eq_comm]

theorem ranked_chainQueue (chain : List KnownType) : Ranked (chainQueue chain) := by
  rw [Ranked, chainQueue, List.pairwise_map]
  exact List.pairwise_of_forall_sublist fun _ => ⟨le_rfl, by omega⟩

/-- Types that were not seen are found exactly as conformances lead to them, if the chain was
seen. -/
theorem conformsIn_of_foundIn (hrest : Unseen c (chain.map (·.name)) rest)
    (h : FoundIn rest (chainQueue chain) n t) : c.ConformsIn chain n t := by
  induction h with
  | queued hq ht =>
    obtain ⟨⟨u, hu, hqu⟩, rfl⟩ := mem_chainQueue.mp hq
    exact .step (.start hu) hqu ((hrest _ _).mp ht).2
  | step _ hq hu ih => exact .step ih hq ((hrest _ _).mp hu).2

/-- Leaving the chain and coming back to it is no shortcut. -/
theorem exists_foundIn (hrest : Unseen c (chain.map (·.name)) rest)
    (hchain : ∀ t ∈ chain, c.type? t.name = some t) (h : c.ConformsIn chain n t) :
    t ∈ chain ∨ ∃ m ≤ n, FoundIn rest (chainQueue chain) m t := by
  induction h with
  | start h => exact .inl h
  | @step n t u q h hq hu ih =>
    by_cases hseen : q ∈ chain.map (·.name)
    · obtain ⟨v, hv, rfl⟩ := List.mem_map.mp hseen
      obtain rfl := Option.some.inj (hu.symm.trans (hchain v hv))
      exact .inl hv
    · have hu := (hrest q u).mpr ⟨hseen, hu⟩
      rcases ih with ht | ⟨m, hm, hfound⟩
      · exact .inr ⟨1, by omega, .queued (mem_chainQueue.mpr ⟨⟨t, ht, hq⟩, rfl⟩) hu⟩
      · exact .inr ⟨m + 1, by omega, .step hfound hq hu⟩

end Chain

/-- The hierarchy of a name starts with what the name refers to. -/
theorem head?_hierarchy (c : Catalog) (name : String) :
    (c.hierarchy name).head? = c.type? name := by
  obtain ⟨chain, rest, heq, hchain⟩ := c.hierarchy_eq name
  have hhead : chain.head? = c.type? name := Option.ext fun t => by simpa using hchain.head? t
  rw [heq, ← hhead]
  cases chain with
  | nil => simp [conformanceClosure]
  | cons t chain => rfl

theorem hierarchy_eq_nil_iff : c.hierarchy name = [] ↔ c.type? name = none := by
  rw [← head?_hierarchy, List.head?_eq_none_iff]

theorem mem_hierarchy (ht : c.type? name = some t) : t ∈ c.hierarchy name :=
  List.mem_of_head? ((c.head?_hierarchy name).trans ht)

/-- **The hierarchy of a name is exact.** On every catalogue it is the chain of supertypes of the
name, and then the types outside the chain to which one or more conformances lead from it, those to
which fewer lead first. No name comes twice, and only an unknown name has no hierarchy. -/
theorem hierarchy_is_exact (c : Catalog) (name : String) :
    (∃ chain protocols, c.hierarchy name = chain ++ protocols ∧ c.IsSuperChain name chain ∧
      (∀ t, t ∈ protocols ↔ t ∉ chain ∧ ∃ n, c.ConformsIn chain (n + 1) t) ∧
      protocols.Pairwise fun t u =>
        ∀ n, c.ConformsIn chain n u → ∃ m ≤ n, c.ConformsIn chain m t) ∧
    ((c.hierarchy name).map (·.name)).Nodup ∧
    (c.hierarchy name = [] ↔ c.type? name = none) := by
  obtain ⟨chain, rest, heq, hchain⟩ := c.hierarchy_eq name
  have hrest : Unseen c (chain.map (·.name)) rest := hchain.left.congr fun q => by simp
  have hqueue : (chainQueue chain).map Prod.fst = chain.flatMap (·.conformances) := by
    simp [chainQueue, Function.comp_def]
  obtain ⟨hmem, hnodup, hnearest⟩ :=
    hqueue ▸ searched_conformanceClosure (ranked_chainQueue chain)
  rw [heq]
  generalize conformanceClosure rest (chain.flatMap (·.conformances)) = protocols at *
  -- What is searched has been cleared of the names in the chain.
  have hnew : ∀ t ∈ protocols, t.name ∉ chain.map (·.name) := by
    intro t ht
    obtain ⟨n, hn⟩ := (hmem t).mp ht
    obtain ⟨q, hq⟩ := hn.exists_find?
    rw [name_of_find? hq]
    exact ((hrest q t).mp hq).1
  refine ⟨⟨chain, protocols, rfl, isSuperChain hchain, fun t => ?_, ?_⟩, ?_, ?_⟩
  · constructor
    · intro ht
      obtain ⟨n, hn⟩ := (hmem t).mp ht
      -- What the chain conforms to is queued at distance one.
      have hpos : 1 ≤ n := hn.le fun p hp => (mem_chainQueue.mp hp).2.ge
      refine ⟨fun hc => hnew t ht (List.mem_map_of_mem hc), n - 1, ?_⟩
      rw [Nat.sub_add_cancel hpos]
      exact conformsIn_of_foundIn hrest hn
    · rintro ⟨hc, n, hn⟩
      obtain ⟨m, -, hm⟩ := (exists_foundIn hrest hchain.known hn).resolve_left hc
      exact (hmem t).mpr ⟨m, hm⟩
  · refine hnearest.imp_of_mem ?_
    intro t u _ hu htu n hn
    have hc : u ∉ chain := fun hc => hnew u hu (List.mem_map_of_mem hc)
    obtain ⟨m, hm, hfound⟩ := (exists_foundIn hrest hchain.known hn).resolve_left hc
    obtain ⟨l, hl, ht⟩ := htu m hfound
    exact ⟨l, hl.trans hm, conformsIn_of_foundIn hrest ht⟩
  · rw [List.map_append, List.nodup_append']
    refine ⟨hchain.nodup, hnodup, fun q hq hq' => ?_⟩
    obtain ⟨t, ht, rfl⟩ := List.mem_map.mp hq'
    exact hnew t ht hq
  · rw [← heq]
    exact hierarchy_eq_nil_iff

end Catalog

end ObjcSwift
