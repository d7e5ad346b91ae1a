import ObjcSwift.Pass.TypeMerge
import ObjcSwift.Proofs.Graph.Outline
import Mathlib

/-!
# Lists of properties that absorb others

A property **is absorbed** by the first one in a list with its name that is static if it is, which
takes its nullability and its attributes; where there is none, it comes last
(`PropertyList.absorb`). So the one that is first with a key is known from the numbers and keys
alone, and absorbing more of them changes neither.

Attributes only grow on the way. An attribute of a property that is left is one of some property
that was merged into it, itself included (`PropertyList.accounts_foldl_absorb`).

A type has such a list in a graph (`Graph.propertiesOf`): the properties that its own list of
numbers stands for, in order. What absorbs a property there is found by looking through the numbers,
and rewritten in place.
-/

namespace ObjcSwift

/-! ### Absorbing properties -/

/-- What properties of a type are told apart by. -/
def PropertyDecl.key (p : PropertyDecl) : String × Bool :=
  (p.name, p.isStatic)

/-- Properties with their numbers. -/
abbrev PropertyList :=
  List (DeclId × PropertyDecl)

namespace PropertyList

open TypeMerge

/-- Properties after one more was absorbed: the first one like it joins it, and where there is
none, it comes last. -/
def absorb : PropertyList → DeclId × PropertyDecl → PropertyList
  | [], x => [x]
  | y :: ys, x =>
    if y.2.key = x.2.key then (y.1, joinProperties y.2 x.2) :: ys else y :: absorb ys x

/-- The first of some properties with a key. -/
def keeper? (ps : PropertyList) (key : String × Bool) : Option DeclId :=
  (ps.find? (·.2.key = key)).map (·.1)

variable {own donated : PropertyList} {x y : DeclId × PropertyDecl}

theorem key_joinProperties (p q : PropertyDecl) : (joinProperties p q).key = p.key := rfl

/-- **Attributes are united** when properties are joined. -/
theorem mem_attributes_joinProperties {p q : PropertyDecl} {a : PropertyAttribute} :
    a ∈ (joinProperties p q).attributes ↔ a ∈ p.attributes ∨ a ∈ q.attributes := by
  rw [joinProperties]
  generalize p.attributes = kept
  induction q.attributes generalizing kept with
  | nil => simp
  | cons b others ih =>
    rw [List.foldl_cons, ih, List.mem_cons]
    split_ifs with hb
    · have hmem : b ∈ kept := List.contains_iff_mem.mp hb
      constructor
      · rintro (h | h)
        exacts [.inl h, .inr (.inr h)]
      · rintro (h | rfl | h)
        exacts [.inl h, .inl hmem, .inr h]
    · rw [List.mem_append, List.mem_singleton, or_assoc]

/-- A property is absorbed by the first one with its key, or comes last. -/
theorem absorb_cases (own : PropertyList) (x : DeclId × PropertyDecl) :
    (∃ before y after, own = before ++ y :: after ∧ (∀ z ∈ before, z.2.key ≠ x.2.key) ∧
      y.2.key = x.2.key ∧ absorb own x = before ++ (y.1, joinProperties y.2 x.2) :: after) ∨
    (∀ z ∈ own, z.2.key ≠ x.2.key) ∧ absorb own x = own ++ [x] := by
  induction own with
  | nil => exact .inr ⟨by simp, rfl⟩
  | cons y ys ih =>
    by_cases hy : y.2.key = x.2.key
    · exact .inl ⟨[], y, ys, rfl, by simp, hy, by rw [absorb, if_pos hy, List.nil_append]⟩
    · rw [absorb, if_neg hy]
      rcases ih with ⟨before, z, after, rfl, hbefore, hz, he⟩ | ⟨hnone, he⟩
      · exact .inl ⟨y :: before, z, after, rfl, List.forall_mem_cons.mpr ⟨hy, hbefore⟩, hz,
          by rw [he]; rfl⟩
      · exact .inr ⟨List.forall_mem_cons.mpr ⟨hy, hnone⟩, by rw [he]; rfl⟩

/-- What is first with a key is known from numbers and keys. -/
theorem keeper?_congr {ps qs : PropertyList}
    (h : ps.map (fun z => (z.1, z.2.key)) = qs.map fun z => (z.1, z.2.key))
    (key : String × Bool) : keeper? ps key = keeper? qs key := by
  have hlabels (ps : PropertyList) : keeper? ps key =
      ((ps.map fun z => (z.1, z.2.key)).find? (·.2 = key)).map (·.1) := by
    rw [keeper?, List.find?_map, Option.map_map]
    rfl
  rw [hlabels, hlabels, h]

theorem keeper?_of_forall_ne {before after : PropertyList} {key : String × Bool}
    (h : ∀ z ∈ before, z.2.key ≠ key) (hy : y.2.key = key) :
    keeper? (before ++ y :: after) key = some y.1 := by
  have hnone : before.find? (·.2.key = key) = none := by
    simpa [List.find?_eq_none] using fun a b hab => h (a, b) hab
  rw [keeper?, List.find?_append, hnone, Option.none_or, List.find?_cons_of_pos (by simpa using hy)]
  rfl

/-- A later property with a key that is there already is never first. -/
theorem keeper?_append_cons {after : PropertyList} (h : ∃ y ∈ own, y.2.key = x.2.key)
    (key : String × Bool) : keeper? (own ++ x :: after) key = keeper? (own ++ after) key := by
  obtain ⟨y, hy, hxy⟩ := h
  rw [keeper?, keeper?, List.find?_append, List.find?_append]
  by_cases hx : x.2.key = key
  · have hsome : (own.find? (·.2.key = key)).isSome := by
      rw [List.find?_isSome]
      exact ⟨y, hy, by simpa using hxy.trans hx⟩
    obtain ⟨z, hz⟩ := Option.isSome_iff_exists.mp hsome
    rw [hz, Option.some_or, Option.some_or]
  · rw [List.find?_cons_of_neg (by simpa using hx)]

/-- What is left of some properties after they absorbed others is accounted for: it was there at the
start, and its attributes are its own and those of the others that it is first to be like. -/
def Accounts (own donated : PropertyList) (q : DeclId × PropertyDecl) : Prop :=
  ∃ e, (q.1, e) ∈ own ++ donated ∧ ∀ a, a ∈ q.2.attributes ↔ a ∈ e.attributes ∨
    ∃ x ∈ donated, keeper? (own ++ donated) x.2.key = some q.1 ∧ a ∈ x.2.attributes

/-- What is accounted for after the first of the others was joined is so before. -/
theorem Accounts.of_joined {before after : PropertyList} {q : DeclId × PropertyDecl}
    (hnodup : (((before ++ y :: after) ++ x :: donated).map (·.1)).Nodup)
    (hbefore : ∀ z ∈ before, z.2.key ≠ x.2.key) (hy : y.2.key = x.2.key)
    (h : Accounts (before ++ (y.1, joinProperties y.2 x.2) :: after) donated q) :
    Accounts (before ++ y :: after) (x :: donated) q := by
  obtain ⟨e, he, hattributes⟩ := h
  -- The one that is joined keeps its number and key, so nothing else changes.
  have hlabels : ((before ++ (y.1, joinProperties y.2 x.2) :: after) ++ donated).map
      (fun z => (z.1, z.2.key)) =
        ((before ++ y :: after) ++ donated).map fun z => (z.1, z.2.key) := by
    simp [key_joinProperties]
  have hkeeper (key : String × Bool) :
      keeper? ((before ++ (y.1, joinProperties y.2 x.2) :: after) ++ donated) key =
        keeper? ((before ++ y :: after) ++ x :: donated) key :=
    (keeper?_congr hlabels key).trans (keeper?_append_cons ⟨y, by simp, hy⟩ key).symm
  have hx : keeper? ((before ++ y :: after) ++ x :: donated) x.2.key = some y.1 := by
    rw [List.append_assoc, List.cons_append]
    exact keeper?_of_forall_ne hbefore hy
  simp only [hkeeper] at hattributes
  by_cases hq : q.1 = y.1
  · have hnodup' : (((before ++ (y.1, joinProperties y.2 x.2) :: after) ++ donated).map
        (·.1)).Nodup := hnodup.sublist (by simp)
    have hjoin : (q.1, e) = (y.1, joinProperties y.2 x.2) :=
      List.inj_on_of_nodup_map hnodup' he (by simp) hq
    obtain rfl : e = joinProperties y.2 x.2 := congrArg Prod.snd hjoin
    refine ⟨y.2, by simp [hq], fun a => ?_⟩
    rw [hattributes, mem_attributes_joinProperties]
    simp only [List.exists_mem_cons_iff, hx, hq, true_and, or_assoc]
  · refine ⟨e, ?_, fun a => ?_⟩
    · simp only [List.append_assoc, List.cons_append, List.mem_append, List.mem_cons,
        Prod.mk.injEq, hq, false_and, false_or] at he ⊢
      tauto
    · have hxq : some y.1 ≠ some q.1 := fun h => hq (Option.some.inj h).symm
      simp only [hattributes, List.exists_mem_cons_iff, hx, hxq, false_and, false_or]

/-- What is accounted for after the first of the others came last is so before. -/
theorem Accounts.of_added {q : DeclId × PropertyDecl}
    (hnodup : ((own ++ x :: donated).map (·.1)).Nodup) (hnone : ∀ z ∈ own, z.2.key ≠ x.2.key)
    (h : Accounts (own ++ [x]) donated q) : Accounts own (x :: donated) q := by
  obtain ⟨e, he, hattributes⟩ := h
  have hassoc : (own ++ [x]) ++ donated = own ++ x :: donated := (List.append_cons ..).symm
  have hx : keeper? (own ++ x :: donated) x.2.key = some x.1 := keeper?_of_forall_ne hnone rfl
  rw [hassoc] at he
  simp only [hassoc] at hattributes
  refine ⟨e, he, fun a => ?_⟩
  rw [hattributes, List.exists_mem_cons_iff, hx]
  refine ⟨Or.imp_right .inr, ?_⟩
  rintro (ha | ⟨hxq, ha⟩ | ha)
  · exact .inl ha
  · obtain rfl : (q.1, e) = x :=
      List.inj_on_of_nodup_map hnodup he (by simp) (Option.some.inj hxq).symm
    exact .inl ha
  · exact .inr ha

/-- **A property has the attributes of those merged into it**, if no two of them have the same
number. -/
theorem accounts_foldl_absorb (hnodup : ((own ++ donated).map (·.1)).Nodup)
    {q : DeclId × PropertyDecl} (hq : q ∈ donated.foldl absorb own) : Accounts own donated q := by
  induction donated generalizing own with
  | nil => exact ⟨q.2, by simpa using hq, fun a => by simp⟩
  | cons x donated ih =>
    rw [List.foldl_cons] at hq
    rcases absorb_cases own x with ⟨before, y, after, rfl, hbefore, hy, habsorb⟩ | ⟨hnone, habsorb⟩
    · rw [habsorb] at hq
      exact .of_joined hnodup hbefore hy (ih (hnodup.sublist (by simp)) hq)
    · rw [habsorb] at hq
      exact .of_added hnodup hnone (ih (by simpa using hnodup) hq)

/-- The properties that some numbers stand for. -/
def read (property? : DeclId → Option PropertyDecl) (ids : List DeclId) : PropertyList :=
  ids.filterMap fun id => (property? id).map (id, ·)

/-- Whether a number stands for a property with a key. -/
def hasKey (property? : DeclId → Option PropertyDecl) (key : String × Bool) (id : DeclId) : Bool :=
  (property? id).any (·.key = key)

variable {f f' : DeclId → Option PropertyDecl} {ids : List DeclId} {id kept : DeclId}
  {p q : PropertyDecl}

theorem read_congr (h : ∀ id ∈ ids, f id = f' id) : read f ids = read f' ids :=
  List.filterMap_congr fun id hid => by rw [h id hid]

theorem read_append_singleton (hid : f id = some p) :
    read f (ids ++ [id]) = read f ids ++ [(id, p)] := by
  simp [read, hid]

theorem read_cons (hid : f id = some p) : read f (id :: ids) = (id, p) :: read f ids := by
  rw [read, List.filterMap_cons, hid]
  rfl

theorem mem_read : (id, p) ∈ read f ids ↔ id ∈ ids ∧ f id = some p := by
  simp only [read, List.mem_filterMap, Option.map_eq_some_iff, Prod.mk.injEq]
  constructor
  · rintro ⟨j, hj, q, hq, rfl, rfl⟩
    exact ⟨hj, hq⟩
  · rintro ⟨hid, hp⟩
    exact ⟨id, hid, p, hp, rfl, rfl⟩

theorem map_read : (read f ids).map (·.1) = ids.filter fun id => (f id).isSome := by
  induction ids with
  | nil => rfl
  | cons id ids ih =>
    cases hid : f id with
    | none => rw [List.filter_cons_of_neg (by simp [hid]), ← ih, read, read,
        List.filterMap_cons_none (by rw [hid]; rfl)]
    | some p => rw [List.filter_cons_of_pos (by simp [hid]), read_cons hid, List.map_cons, ih]

/-- A property that nothing is like comes last. -/
theorem absorb_read_none
    (h : ids.find? (hasKey f p.key) = none) :
    absorb (read f ids) (id, p) = read f ids ++ [(id, p)] := by
  rcases absorb_cases (read f ids) (id, p) with ⟨before, y, after, he, -, hy, -⟩ | ⟨-, habsorb⟩
  · have hmem : (y.1, y.2) ∈ read f ids := by rw [he]; simp
    obtain ⟨hin, hread⟩ := mem_read.mp hmem
    have hnone := List.find?_eq_none.mp h y.1 hin
    simp [hasKey, hread, hy] at hnone
  · exact habsorb

/-- What is like a property joins it. -/
theorem absorb_read_some (hnodup : ids.Nodup)
    (h : ids.find? (hasKey f p.key) = some kept)
    (hq : f kept = some q) :
    absorb (read f ids) (id, p) =
      read (Function.update f kept (some (joinProperties q p))) ids := by
  induction ids with
  | nil => exact absurd h (by simp)
  | cons j ids ih =>
    obtain ⟨hj, hnodup⟩ := List.nodup_cons.mp hnodup
    by_cases hlike : hasKey f p.key j = true
    · rw [List.find?_cons_of_pos hlike] at h
      obtain rfl : j = kept := Option.some.inj h
      have hkey : q.key = p.key := by simpa [hasKey, hq] using hlike
      have hrest : read (Function.update f j (some (joinProperties q p))) ids = read f ids :=
        read_congr fun k hk => Function.update_of_ne (ne_of_mem_of_not_mem hk hj) ..
      rw [read_cons hq, read_cons (Function.update_self ..), hrest, absorb, if_pos hkey]
    · rw [List.find?_cons_of_neg hlike] at h
      have hne : j ≠ kept := fun he => hj (he ▸ List.mem_of_find?_eq_some h)
      have hsame : Function.update f kept (some (joinProperties q p)) j = f j :=
        Function.update_of_ne hne ..
      cases hf : f j with
      | none =>
        rw [read, List.filterMap_cons_none (by rw [hf]; rfl), ← read, ih hnodup h, read, read,
          List.filterMap_cons_none (by rw [hsame, hf]; rfl)]
      | some r =>
        have hkey : r.key ≠ p.key := by simpa [hasKey, hf] using hlike
        rw [read_cons hf, read_cons (hsame.trans hf), absorb, if_neg hkey, ih hnodup h]

end PropertyList

/-! ### The properties of a type -/

theorem Decl.property?_childless (d : Decl) : d.childless.property? = d.property? := by
  cases d <;> rfl

namespace Graph

/-- The property with a number. -/
def property? (g : Graph) (id : DeclId) : Option PropertyDecl :=
  (g.get? id).bind Decl.property?

/-- The properties of a type, in order. -/
def propertiesOf (g : Graph) (t : DeclId) : PropertyList :=
  PropertyList.read g.property? (g.listOf t .properties)

/-- The properties of a type are known from its list and the properties in it. -/
theorem propertiesOf_eq {g g' : Graph} {t : DeclId}
    (hlist : g'.listOf t .properties = g.listOf t .properties)
    (hsame : ∀ id ∈ g.listOf t .properties, g'.property? id = g.property? id) :
    g'.propertiesOf t = g.propertiesOf t := by
  rw [propertiesOf, hlist]
  exact PropertyList.read_congr hsame

theorem property?_of_node? {g : Graph} {id : DeclId} {n : GraphNode} (hn : g.node? id = some n) :
    g.property? id = n.decl.property? := by
  rw [property?, get?, hn]
  rfl

/-- Only what is listed as one is a property. -/
theorem property?_eq_none {d : Decl} {list : Option ChildList} (hd : d.ownList? = list)
    (hne : list ≠ some .properties) : d.property? = none := by
  subst hd
  cases d with
  | property p => exact absurd rfl hne
  | _ => rfl

end Graph

end ObjcSwift
