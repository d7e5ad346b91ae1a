import ObjcSwift.Proofs.Graph.Rows
import ObjcSwift.Proofs.Pass.Refinement
import ObjcSwift.Proofs.Pass.Types

/-!
# What merging types must not lose

Merging the declarations of a type moves members about and removes some of them, one edit after the
other. No single declaration has to survive this; what has to is what is **filed**. A member is
filed under two keys (`Graph.filed?`): that of its type, which all declarations of the type share,
and its own, by which it is told apart from the other members. A member may go if its like is filed
under the same keys, and it may move to another type if that one has the same key.

So one graph **unifies** another (`Unifies`) if the same is filed in both, with a body where there
was one, if the types that are left are what they were, and if what takes no part
(`Graph.TakesPart`) is untouched. The relation is transitive, so it is settled edit by edit. The
pass makes three kinds of edit, each of which changes one row of the graph (`Graph.Enters`).

| edit | theorem |
|---|---|
| rewriting a type or a member | `Unifies.of_rewrite` |
| moving a member | `Unifies.of_move` |
| removing a member, or a type without members | `Unifies.of_drop` |

Removing a member is where something could be lost: the member that is kept must have a body if the
removed one had. This is why the pass rewrites the one before it removes the other.
-/

namespace ObjcSwift

open ObjcSwift.Graph ObjcSwift.Graph.Edit

/-! ### Keys -/

/-- What the members of a type are told apart by. -/
inductive MemberKey
  /-- The protocol of a conformance. -/
  | conformance (name : String)
  /-- A property, static or not. -/
  | property (name : String) (isStatic : Bool)
  /-- An instance variable. -/
  | ivar (name : String)
  /-- The selector shape of a method, static or not. -/
  | method (name : String) (labels : List (Option String)) (isStatic : Bool)
deriving DecidableEq

namespace Decl

/-- What a declaration of a type has in common with those it is merged with. -/
def mergeKey? : Decl → Option MergeKey
  | type d => d.mergeKey?
  | _ => none

/-- Whether a type is an extension. -/
def isExtension? : Decl → Option Bool
  | type d => some d.isExtension
  | _ => none

/-- What a member of a type is told apart by. -/
def memberKey? : Decl → Option MemberKey
  | conformance d => some (.conformance d.name)
  | property d => some (.property d.name d.isStatic)
  | ivar d => some (.ivar d.name)
  | method d => some (.method d.signature.name d.signature.labels d.signature.isStatic)
  | _ => none

/-- The body of a method. -/
def code? : Decl → Option Code
  | method d => d.code
  | _ => none

/-! None of this depends on what a declaration owns. -/

theorem mergeKey?_childless (d : Decl) : d.childless.mergeKey? = d.mergeKey? := by
  cases d <;> rfl

theorem isExtension?_childless (d : Decl) : d.childless.isExtension? = d.isExtension? := by
  cases d <;> rfl

theorem memberKey?_childless (d : Decl) : d.childless.memberKey? = d.memberKey? := by
  cases d <;> rfl

theorem code?_childless (d : Decl) : d.childless.code? = d.code? := by
  cases d <;> rfl

end Decl

namespace Graph

variable (g : Graph)

/-- What a type has in common with those it is merged with. -/
def mergeKey? (id : DeclId) : Option MergeKey :=
  (g.get? id).bind Decl.mergeKey?

/-- Whether a type is an extension. -/
def isExtension? (id : DeclId) : Option Bool :=
  (g.get? id).bind Decl.isExtension?

/-- What a member of a type is told apart by. -/
def memberKey? (id : DeclId) : Option MemberKey :=
  (g.get? id).bind Decl.memberKey?

/-- The body of a method. -/
def methodCode? (id : DeclId) : Option Code :=
  (g.get? id).bind Decl.code?

/-- What the type that a declaration stands in has in common with those it is merged with. -/
def groupOf? (id : DeclId) : Option MergeKey :=
  (g.parent? id).bind g.mergeKey?

/-- Under which keys a member of a type is filed: that of its type, and its own. -/
def filed? (id : DeclId) : Option (MergeKey × MemberKey) :=
  (g.groupOf? id).bind fun key => (g.memberKey? id).map fun member => (key, member)

/-- What merging types may change: the types that are merged, their members, and the files. -/
def TakesPart (id : DeclId) : Prop :=
  g.kind? id = some none ∨ g.mergeKey? id ≠ none ∨ g.groupOf? id ≠ none

end Graph

/-- Only types have a key. -/
theorem Graph.kind?_of_mergeKey? {g : Graph} {id : DeclId} {key : MergeKey}
    (h : g.mergeKey? id = some key) : g.kind? id = some (some .types) := by
  obtain ⟨d, hd, hkey⟩ := Option.bind_eq_some_iff.mp h
  obtain ⟨n, hn, rfl⟩ := exists_node?_of_get? hd
  rw [kind?_of_node? hn]
  cases hdecl : n.decl with
  | type d => rfl
  | _ => exact absurd hkey (by simp [hdecl, Decl.mergeKey?])

/-! ### The relation -/

/-- **Nothing is lost from one graph to the other**, though declarations have been merged. -/
structure Unifies (g g' : Graph) : Prop where
  /-- The other graph is an edited one. -/
  edited : Edited (fun _ => True) g g'
  /-- What is left of types is what it was, in its file. -/
  type_eq : ∀ t, g'.kind? t = some (some .types) → g'.mergeKey? t = g.mergeKey? t ∧
    g'.isExtension? t = g.isExtension? t ∧ g'.parent? t = g.parent? t
  /-- A type is still declared. -/
  key_forth : ∀ t key, g.mergeKey? t = some key → ∃ t', g'.mergeKey? t' = some key
  /-- What is left of members is filed where it was. -/
  filed_back : ∀ id x, g'.filed? id = some x → g.filed? id = some x
  /-- Under each keys there is still a member. -/
  filed_forth : ∀ id x, g.filed? id = some x → ∃ id', g'.filed? id' = some x
  /-- A body was that of a method under the same keys. -/
  code_back : ∀ id x code, g'.filed? id = some x → g'.methodCode? id = some code →
    ∃ id', g.filed? id' = some x ∧ g.methodCode? id' = some code
  /-- Where there was a body, there is one. -/
  code_forth : ∀ id x, g.filed? id = some x → g.methodCode? id ≠ none →
    ∃ id', g'.filed? id' = some x ∧ g'.methodCode? id' ≠ none
  /-- What does not take part is the same. -/
  node?_eq : ∀ id, ¬g.TakesPart id → g'.node? id = g.node? id
  /-- Files are the same but for their lists. -/
  row?_file : ∀ f, g.kind? f = some none → g'.row? f = g.row? f
  /-- There are the same files. -/
  files_eq : g'.files = g.files

namespace Unifies

variable {g g' g'' : Graph}

theorem refl (hc : g.outline.Consistent none) : Unifies g g where
  edited := .refl hc
  type_eq _ _ := ⟨rfl, rfl, rfl⟩
  key_forth t _ h := ⟨t, h⟩
  filed_back _ _ h := h
  filed_forth id _ h := ⟨id, h⟩
  code_back id _ _ h hcode := ⟨id, h, hcode⟩
  code_forth id _ h hcode := ⟨id, h, hcode⟩
  node?_eq _ _ := rfl
  row?_file _ _ := rfl
  files_eq := rfl

/-- A type that is merged has the key that it had. -/
theorem mergeKey?_back (h : Unifies g g') {t : DeclId} {key : MergeKey}
    (ht : g'.mergeKey? t = some key) : g.mergeKey? t = some key := by
  rw [← (h.type_eq t (kind?_of_mergeKey? ht)).1, ht]

/-- **The only body under some keys stays the only one**: one that is there was one under these
keys, and there was no other. -/
theorem sole_body (h : Unifies g g') {id : DeclId} {x : MergeKey × MemberKey} {code : Code}
    (hid : g.filed? id = some x) (hcode : g.methodCode? id = some code)
    (hsole : ∀ id', g.filed? id' = some x → g.methodCode? id' ≠ none → id' = id) :
    ∃ id', g'.filed? id' = some x ∧ g'.methodCode? id' = some code := by
  obtain ⟨id', hid', hbody⟩ := h.code_forth id x hid (by simp [hcode])
  obtain ⟨code', hcode'⟩ := Option.ne_none_iff_exists'.mp hbody
  obtain ⟨first, hfirst, hold⟩ := h.code_back id' x code' hid' hcode'
  obtain rfl := hsole first hfirst (by simp [hold])
  obtain rfl : code = code' := Option.some.inj (hcode.symm.trans hold)
  exact ⟨id', hid', hcode'⟩

/-- What takes no part does not do so later. -/
theorem not_takesPart (h : Unifies g g') {id : DeclId} (hid : ¬g.TakesPart id) :
    ¬g'.TakesPart id := by
  have hnode := h.node?_eq id hid
  have hget : g'.get? id = g.get? id := congrArg (Option.map GraphNode.decl) hnode
  have hparent : g'.parent? id = g.parent? id := congrArg (Option.bind · GraphNode.parent) hnode
  refine fun hid' => hid ?_
  rcases hid' with hkind | hkey | hgroup
  · left
    rwa [kind?, hnode] at hkind
  · right; left
    rwa [Graph.mergeKey?, hget] at hkey
  · right; right
    obtain ⟨key, hkey⟩ := Option.ne_none_iff_exists'.mp hgroup
    rw [groupOf?, hparent] at hkey
    obtain ⟨t, ht, hkey⟩ := Option.bind_eq_some_iff.mp hkey
    rw [groupOf?, ht, Option.bind_some, h.mergeKey?_back hkey]
    simp

theorem trans (h : Unifies g g') (h' : Unifies g' g'') : Unifies g g'' where
  edited := h.edited.trans h'.edited
  type_eq t ht := by
    obtain ⟨hkey', hextension', hparent'⟩ := h'.type_eq t ht
    obtain ⟨hkey, hextension, hparent⟩ := h.type_eq t (h'.edited.kind?_back t _ ht)
    exact ⟨hkey'.trans hkey, hextension'.trans hextension, hparent'.trans hparent⟩
  key_forth t key ht := by
    obtain ⟨t', ht'⟩ := h.key_forth t key ht
    exact h'.key_forth t' key ht'
  filed_back id x hid := h.filed_back id x (h'.filed_back id x hid)
  filed_forth id x hid := by
    obtain ⟨id', hid'⟩ := h.filed_forth id x hid
    exact h'.filed_forth id' x hid'
  code_back id x code hid hcode := by
    obtain ⟨id', hid', hcode'⟩ := h'.code_back id x code hid hcode
    exact h.code_back id' x code hid' hcode'
  code_forth id x hid hcode := by
    obtain ⟨id', hid', hcode'⟩ := h.code_forth id x hid hcode
    exact h'.code_forth id' x hid' hcode'
  node?_eq id hid := (h'.node?_eq id (h.not_takesPart hid)).trans (h.node?_eq id hid)
  row?_file f hf := by
    have hrow := h.row?_file f hf
    refine (h'.row?_file f ?_).trans hrow
    rw [kind?_eq_row?, hrow, ← kind?_eq_row?, hf]
  files_eq := h'.files_eq.trans h.files_eq

end Unifies

/-! ### One row at a time -/

section Steps

variable {g g' : Graph} {id p : DeclId} {decl d : Decl} {list : ChildList} {owners : List DeclId}
  {row : Option GraphNode}

/-- What an edit of one row has to keep for nothing to be lost, if the row and the owners whose
lists change along take part. -/
theorem Unifies.of_enters (he : Edited (fun _ => True) g g') (h : g.Enters id row owners g')
    (hn : g.node? id = some ⟨some p, decl⟩) (hlist : decl.ownList? = some list)
    (hid : g.TakesPart id) (howners : ∀ j ∈ owners, g.TakesPart j)
    (htype : ∀ t, g'.kind? t = some (some .types) → g'.mergeKey? t = g.mergeKey? t ∧
      g'.isExtension? t = g.isExtension? t ∧ g'.parent? t = g.parent? t)
    (hkey : ∀ t key, g.mergeKey? t = some key → ∃ t', g'.mergeKey? t' = some key)
    (hback : ∀ j x, g'.filed? j = some x → g.filed? j = some x)
    (hforth : ∀ j x, g.filed? j = some x → ∃ j', g'.filed? j' = some x)
    (hcode : ∀ j x code, g'.filed? j = some x → g'.methodCode? j = some code →
      ∃ j', g.filed? j' = some x ∧ g.methodCode? j' = some code)
    (hcode' : ∀ j x, g.filed? j = some x → g.methodCode? j ≠ none →
      ∃ j', g'.filed? j' = some x ∧ g'.methodCode? j' ≠ none) :
    Unifies g g' where
  edited := he
  type_eq := htype
  key_forth := hkey
  filed_back := hback
  filed_forth := hforth
  code_back := hcode
  code_forth := hcode'
  node?_eq j hj := h.node?_eq j (fun he => hj (he ▸ hid)) fun hm => hj (howners j hm)
  row?_file f hf := by
    rw [h.row?_eq, Function.update_of_ne]
    rintro rfl
    rw [kind?_of_node? hn, hlist] at hf
    simp at hf
  files_eq := h.files_eq (by rw [parent?, hn]; simp)

/-- An edit that changes neither keys nor where members are filed loses nothing but bodies. -/
theorem Unifies.of_filed?_eq (he : Edited (fun _ => True) g g') (h : g.Enters id row owners g')
    (hn : g.node? id = some ⟨some p, decl⟩) (hlist : decl.ownList? = some list)
    (hid : g.TakesPart id) (howners : ∀ j ∈ owners, g.TakesPart j)
    (hkey : g'.mergeKey? = g.mergeKey?) (hextension : g'.isExtension? = g.isExtension?)
    (hparent : ∀ t, g'.kind? t = some (some .types) → g'.parent? t = g.parent? t)
    (hfiled : g'.filed? = g.filed?)
    (hcode : ∀ j x code, g.filed? j = some x → g'.methodCode? j = some code →
      ∃ j', g.filed? j' = some x ∧ g.methodCode? j' = some code)
    (hcode' : ∀ j, g.methodCode? j ≠ none → g'.methodCode? j ≠ none) :
    Unifies g g' := by
  refine .of_enters he h hn hlist hid howners (fun t ht => ⟨?_, ?_, hparent t ht⟩)
    (fun t key ht => ⟨t, ?_⟩) (fun j x hj => ?_) (fun j x hj => ⟨j, ?_⟩)
    (fun j x code hj hx => hcode j x code ?_ hx) fun j x hj hx => ⟨j, ?_, hcode' j hx⟩
  · rw [hkey]
  · rw [hextension]
  · rw [hkey, ht]
  all_goals simpa [hfiled] using hj

/-- What rewriting a declaration does to what is read off from a graph, if keys are kept. -/
theorem Graph.Enters.rewrite (h : g.Enters id (some ⟨some p, d.childless⟩) owners g')
    (hn : g.node? id = some ⟨some p, decl⟩) (hkey : d.mergeKey? = decl.mergeKey?)
    (hextension : d.isExtension? = decl.isExtension?) (hmember : d.memberKey? = decl.memberKey?) :
    g'.mergeKey? = g.mergeKey? ∧ g'.isExtension? = g.isExtension? ∧ g'.parent? = g.parent? ∧
      g'.filed? = g.filed? ∧
      ∀ j, g'.methodCode? j = if j = id then d.code? else g.methodCode? j := by
  have hkeys : g'.mergeKey? = g.mergeKey? :=
    funext (h.read_eq_self hn Decl.mergeKey?_childless hkey)
  have hparent : g'.parent? = g.parent? := by
    funext j
    rw [h.parent?_eq]
    split_ifs with hj
    · rw [hj, parent?, hn]
      rfl
    · rfl
  refine ⟨hkeys, funext (h.read_eq_self hn Decl.isExtension?_childless hextension), hparent,
    funext fun j => ?_, fun j => ?_⟩
  · have hmembers : g'.memberKey? j = g.memberKey? j :=
      h.read_eq_self hn Decl.memberKey?_childless hmember j
    rw [filed?, filed?, groupOf?, groupOf?, hparent, hkeys, hmembers]
  · refine (h.read_eq Decl.code?_childless j).trans ?_
    split_ifs
    · exact Decl.code?_childless d
    · rfl

/-- **Rewriting** a type or a member so that it has the keys it had, and no body but one that is
filed under them. -/
theorem Unifies.of_rewrite (he : Edited (fun _ => True) g g')
    (h : g.Enters id (some ⟨some p, d.childless⟩) [] g') (hn : g.node? id = some ⟨some p, decl⟩)
    (hlist : decl.ownList? = some list) (hid : g.TakesPart id)
    (hkey : d.mergeKey? = decl.mergeKey?) (hextension : d.isExtension? = decl.isExtension?)
    (hmember : d.memberKey? = decl.memberKey?)
    (hcode : ∀ code, d.code? = some code →
      ∃ j, g.filed? j = g.filed? id ∧ g.methodCode? j = some code)
    (hcode' : decl.code? ≠ none → d.code? ≠ none) : Unifies g g' := by
  obtain ⟨hkeys, hextensions, hparent, hfiled, hcodes⟩ := h.rewrite hn hkey hextension hmember
  refine .of_filed?_eq he h hn hlist hid (by simp) hkeys hextensions
    (fun t _ => by rw [hparent]) hfiled (fun j x code hj hx => ?_) fun j hx => ?_
  · rw [hcodes] at hx
    split_ifs at hx with hji
    · obtain ⟨j', hj', hcode⟩ := hcode code hx
      exact ⟨j', by rw [hj', ← hji, hj], hcode⟩
    · exact ⟨j, hj, hx⟩
  · rw [hcodes]
    split_ifs with hji
    · refine hcode' ?_
      rwa [hji, methodCode?, get?, hn] at hx
    · exact hx

/-- **Moving** a member to a type with the key of its own. -/
theorem Unifies.of_move {q : DeclId} {key : MergeKey} (he : Edited (fun _ => True) g g')
    (h : g.Enters id (some ⟨some q, decl.childless⟩) [q, p] g')
    (hn : g.node? id = some ⟨some p, decl⟩) (hlist : decl.ownList? = some list)
    (hne : list ≠ .types) (hp : g.mergeKey? p = some key) (hq : g.mergeKey? q = some key) :
    Unifies g g' := by
  have hkeys : g'.mergeKey? = g.mergeKey? :=
    funext (h.read_eq_self hn Decl.mergeKey?_childless rfl)
  have hcodes : g'.methodCode? = g.methodCode? :=
    funext (h.read_eq_self hn Decl.code?_childless rfl)
  have hparent : g.parent? id = some p := parent?_of_node? hn
  have hfiled : g'.filed? = g.filed? := by
    funext j
    have hmembers : g'.memberKey? j = g.memberKey? j :=
      h.read_eq_self hn Decl.memberKey?_childless rfl j
    -- It stands in another type now, but in one of the same key.
    have hgroup : g'.groupOf? j = g.groupOf? j := by
      rw [groupOf?, groupOf?, h.parent?_eq, hkeys]
      split_ifs with hj
      · rw [hj, hparent]
        exact hq.trans hp.symm
      · rfl
    rw [filed?, filed?, hgroup, hmembers]
  have hpart : ∀ {t}, g.mergeKey? t = some key → g.TakesPart t :=
    fun ht => .inr (.inl (by simp [ht]))
  refine .of_filed?_eq he h hn hlist (.inr (.inr ?_)) (fun j hj => ?_) hkeys
    (funext (h.read_eq_self hn Decl.isExtension?_childless rfl)) (fun t ht => ?_) hfiled
    (fun j x code hj hx => ⟨j, hj, by rwa [← hcodes]⟩) fun j hx => by rwa [hcodes]
  · rw [groupOf?, hparent, Option.bind_some, hp]
    simp
  · rcases List.mem_pair.mp hj with rfl | rfl
    · exact hpart hq
    · exact hpart hp
  · rw [h.parent?_eq, if_neg]
    rintro rfl
    have hkind := he.kind?_back t _ ht
    rw [kind?_of_node? hn, hlist] at hkind
    exact hne (by simpa using hkind)

/-- Where members are filed after a declaration was dropped that nothing stood in. -/
theorem Graph.Enters.filed?_drop (h : g.Enters id none owners g')
    (hempty : ∀ j, g.parent? j ≠ some id) (j : DeclId) :
    g'.filed? j = if j = id then none else g.filed? j := by
  have hkeys (t : DeclId) : g'.mergeKey? t = if t = id then none else g.mergeKey? t :=
    h.read_eq Decl.mergeKey?_childless t
  have hmember : g'.memberKey? j = if j = id then none else g.memberKey? j :=
    h.read_eq Decl.memberKey?_childless j
  rw [filed?, groupOf?, h.parent?_eq, hmember]
  split_ifs
  · rfl
  · rw [filed?, groupOf?]
    cases hparent : g.parent? j with
    | none => rfl
    | some t =>
      -- The type that a member stands in is not what is dropped.
      have ht : t ≠ id := fun he => hempty j (he ▸ hparent)
      rw [Option.bind_some, Option.bind_some, hkeys, if_neg ht]

/-- **Dropping** what nothing stands in, if another type has its key and another member is filed
under its keys, with a body if it has one. -/
theorem Unifies.of_drop (he : Edited (fun _ => True) g g') (h : g.Enters id none [p] g')
    (hn : g.node? id = some ⟨some p, decl⟩) (hlist : decl.ownList? = some list)
    (hid : g.TakesPart id) (hp : g.TakesPart p) (hempty : ∀ j, g.parent? j ≠ some id)
    (hkey : ∀ key, g.mergeKey? id = some key → ∃ kept ≠ id, g.mergeKey? kept = some key)
    (hfiled : ∀ x, g.filed? id = some x → ∃ kept ≠ id, g.filed? kept = some x ∧
      (g.methodCode? id ≠ none → g.methodCode? kept ≠ none)) : Unifies g g' := by
  have hkeys : ∀ j, g'.mergeKey? j = if j = id then none else g.mergeKey? j :=
    h.read_eq Decl.mergeKey?_childless
  have hcodes : ∀ j, g'.methodCode? j = if j = id then none else g.methodCode? j :=
    h.read_eq Decl.code?_childless
  have hothers := h.filed?_drop hempty
  have hback : ∀ j x, g'.filed? j = some x → g.filed? j = some x := by
    intro j x hj
    rw [hothers] at hj
    split_ifs at hj
    exact hj
  refine .of_enters he h hn hlist hid (fun j hj => List.mem_singleton.mp hj ▸ hp)
    (fun t ht => ?_) (fun t key ht => ?_) hback (fun j x hj => ?_)
    (fun j x code hj hx => ⟨j, hback j x hj, ?_⟩) fun j x hj hx => ?_
  · have hne := h.ne_of_kind? ht
    rw [hkeys, h.parent?_eq, if_neg hne, if_neg hne]
    exact ⟨rfl, (h.read_eq Decl.isExtension?_childless t).trans (if_neg hne), rfl⟩
  · by_cases hti : t = id
    · obtain ⟨kept, hkept, hsame⟩ := hkey key (hti ▸ ht)
      exact ⟨kept, by rw [hkeys, if_neg hkept, hsame]⟩
    · exact ⟨t, by rw [hkeys, if_neg hti, ht]⟩
  · by_cases hji : j = id
    · obtain ⟨kept, hkept, hsame, -⟩ := hfiled x (hji ▸ hj)
      exact ⟨kept, by rw [hothers, if_neg hkept, hsame]⟩
    · exact ⟨j, by rw [hothers, if_neg hji, hj]⟩
  · rw [hcodes] at hx
    split_ifs at hx
    exact hx
  · by_cases hji : j = id
    · obtain ⟨kept, hkept, hsame, hbody⟩ := hfiled x (hji ▸ hj)
      refine ⟨kept, by rw [hothers, if_neg hkept, hsame], ?_⟩
      rw [hcodes, if_neg hkept]
      exact hbody (hji ▸ hx)
    · exact ⟨j, by rw [hothers, if_neg hji, hj], by rwa [hcodes, if_neg hji]⟩

end Steps

end ObjcSwift
