import ObjcSwift.Proofs.Graph.Lookups
import ObjcSwift.Proofs.Graph.Scripts
import ObjcSwift.Typing.Snapshot

/-!
# The entries of the catalogue of a graph

A name that no type alias bears refers to what the types of that name declare together, in the order
of their numbers, after what is built in. `Catalog.graph_entries_are_complete` says so for the whole
entry: no member that is listed is left out, none comes twice, and which superclass counts is
decided by the first declaration that has one.

A declaration is folded into what its name refers to by then (`Catalog.type?_declare_type`). Whether
that is a built-in type, an earlier declaration or nothing at all makes no difference but for where
the entry starts.
-/

namespace ObjcSwift

variable {g : Graph} {c : Catalog} {name : String} {d : TypeDecl}

/-! ### What the entry has to be -/

/-- The types of a name, in the order of their numbers. -/
def Graph.typesNamed (g : Graph) (name : String) : List TypeDecl :=
  (g.live.filterMap (·.2.type?)).filter (·.name == name)

/-- What is listed, files left out. -/
def Graph.withoutFiles (g : Graph) (ids : List DeclId) : List DeclId :=
  ids.filter fun id => id ∉ g.files

namespace TypeDecl

/-- The members that a type declares: properties, then methods, then instance variables, each in the
order of its list, whatever files are in it. This fails if something else that is listed cannot be
found. -/
def declaredMembers (g : Graph) (d : TypeDecl) : Except GraphError (List Member) := do
  let properties ← (g.withoutFiles d.properties).mapM fun id => do
    let p ← g.property id
    return Member.property p.name p.storage.type p.isStatic
  let methods ← (g.withoutFiles d.methods).mapM fun id =>
    do return Member.method (← g.method id).signature
  let ivars ← (g.withoutFiles d.ivars).mapM fun id => do
    let v ← g.ivar id
    return Member.field v.name v.storage.type
  return properties ++ methods ++ ivars

/-- The names of the protocols that a type lists, whatever files it lists among them. This fails if
something else that is listed cannot be found. -/
def declaredConformances (g : Graph) (d : TypeDecl) : Except GraphError (List String) :=
  (g.withoutFiles d.conformances).mapM fun id => do return (← g.conformance id).name

end TypeDecl

namespace Graph.WellFormed

variable {α β : Type} {view : Decl → Option α} {make : α → Decl} {list : ChildList} {n : GraphNode}

/-- In a well-formed graph, what a declaration lists can be looked up, unless it is a file; and
files are passed over where declarations of another kind are read. -/
theorem mapM_withoutFiles (hwf : g.WellFormed) (expected : String)
    (hv : Decl.View view make (some list)) (hfile : ∀ f, view (.file f) = none) (f : α → β)
    (hn : some n ∈ g.slots) :
    ((g.withoutFiles (n.decl.listOf list)).mapM fun id =>
      (do return f (← g.typed id expected view) : Except GraphError β)) =
        .ok ((g.among view (n.decl.listOf list)).map f) := by
  have hkinds : ∀ id ∈ g.withoutFiles (n.decl.listOf list), g.kind? id = some (some list) := by
    intro id hid
    obtain ⟨hmem, hf⟩ := List.mem_filter.mp hid
    exact hwf.kind?_of_mem_slots hn hmem (by simpa using hf)
  have hamong : g.among view (g.withoutFiles (n.decl.listOf list)) =
      g.among view (n.decl.listOf list) := by
    rw [among, withoutFiles, List.filterMap_filter]
    refine List.filterMap_congr fun id _ => ?_
    split_ifs with hf
    · rfl
    · obtain ⟨file, hget⟩ := (hwf.mem_files_iff id).mp (by simpa using hf)
      rw [hget, Option.bind_some, hfile]
  rw [mapM_typed_eq expected hv f hkinds, hamong]

end Graph.WellFormed

namespace TypeDecl

variable {parent : Option DeclId}

/-- Looking up everything but files that a type lists gives its members. -/
theorem declaredMembers_eq (hwf : g.WellFormed) (hd : some ⟨parent, .type d⟩ ∈ g.slots) :
    d.declaredMembers g = .ok (d.knownMembers g) := by
  have hproperties := hwf.mapM_withoutFiles "property" Decl.view_property (fun _ => rfl)
    (fun p => Member.property p.name p.storage.type p.isStatic) hd
  have hmethods := hwf.mapM_withoutFiles "method" Decl.view_method (fun _ => rfl)
    (fun m => Member.method m.signature) hd
  have hivars := hwf.mapM_withoutFiles "instance variable" Decl.view_ivar (fun _ => rfl)
    (fun v => Member.field v.name v.storage.type) hd
  simp only [Graph.among, List.map_filterMap, Option.map_eq_bind] at hproperties hmethods hivars
  exact bind_eq_ok.mpr ⟨_, hproperties, bind_eq_ok.mpr ⟨_, hmethods,
    bind_eq_ok.mpr ⟨_, hivars, rfl⟩⟩⟩

theorem declaredConformances_eq (hwf : g.WellFormed) (hd : some ⟨parent, .type d⟩ ∈ g.slots) :
    d.declaredConformances g = .ok (d.known g).conformances := by
  have hnames := hwf.mapM_withoutFiles "protocol conformance" Decl.view_conformance (fun _ => rfl)
    (·.name) hd
  rwa [Graph.among, List.map_filterMap] at hnames

end TypeDecl

/-! ### Names added to names -/

namespace KnownType

theorem addNames_append (names ns ms : List String) :
    addNames names (ns ++ ms) = addNames (addNames names ns) ms := by
  induction ns generalizing names with
  | nil => rfl
  | cons n ns ih => exact ih _

theorem addNames_cons (names ns : List String) (n : String) :
    addNames names (n :: ns) = addNames (if n ∈ names then names else names ++ [n]) ns := by
  simp [addNames]

theorem mem_addNames {names ns : List String} {n : String} :
    n ∈ addNames names ns ↔ n ∈ names ∨ n ∈ ns := by
  induction ns generalizing names with
  | nil => simp [addNames]
  | cons m ns ih =>
    rw [addNames_cons, ih]
    split
    · next hm =>
      constructor
      · exact Or.imp_right (List.mem_cons_of_mem m)
      · rintro (h | h)
        · exact .inl h
        · rcases List.mem_cons.mp h with rfl | h
          · exact .inl hm
          · exact .inr h
    · simp [or_assoc]

/-- It does not matter whether repetitions are left out before. -/
theorem addNames_addNames (names ms ns : List String) :
    addNames names (addNames ms ns) = addNames (addNames names ms) ns := by
  induction ns generalizing ms with
  | nil => rfl
  | cons n ns ih =>
    rw [addNames_cons, ih, addNames_cons]
    congr 1
    by_cases hn : n ∈ ms
    · rw [if_pos hn, if_pos (mem_addNames.mpr (.inr hn))]
    · rw [if_neg hn, addNames_append]
      exact addNames_cons (addNames names ms) [] n

theorem addNames_eq_append (names ns : List String) :
    addNames names ns = names ++ (ns.removeAll names).eraseDups := by
  induction ns generalizing names with
  | nil => simp [addNames, List.removeAll]
  | cons n ns ih =>
    rw [addNames_cons, ih]
    by_cases hn : n ∈ names
    · simp [List.removeAll, hn]
    · have hrest : ns.removeAll (names ++ [n]) =
          (ns.removeAll names).filter fun m => !m == n := by
        simp only [List.removeAll, List.filter_filter]
        exact List.filter_congr fun m _ => by by_cases hm : m = n <;> simp [hm]
      have hcons : (n :: ns).removeAll names = n :: ns.removeAll names := by
        simp [List.removeAll, hn]
      rw [if_neg hn, hrest, hcons, List.eraseDups_cons, List.append_assoc]
      rfl

/-- **Adding names keeps the first place of each.** -/
theorem addNames_eq_eraseDups {names : List String} (h : names.Nodup) (ns : List String) :
    addNames names ns = (names ++ ns).eraseDups := by
  have hself : ∀ {names : List String}, names.Nodup → names.eraseDups = names := by
    intro names h
    induction h with
    | nil => rfl
    | @cons n names hn _ ih =>
      have hsame : names.filter (fun m => !m == n) = names :=
        List.filter_eq_self.mpr fun m hm => by simpa using (hn m hm).symm
      rw [List.eraseDups_cons, hsame, ih]
  rw [addNames_eq_append, List.eraseDups_append, hself h]

/-- An entry that starts from nothing adds what is folded into it. -/
theorem absorb_blank (t u : KnownType) (name : String) (kind : KnownKind) :
    t.absorb (({ name, kind } : KnownType).absorb u) = t.absorb u := by
  simp [absorb, addNames_addNames, addNames]

end KnownType

/-! ### One more declaration -/

namespace Catalog

theorem type?_layeredOn (c below : Catalog) (name : String) :
    (c.layeredOn below).type? name = (c.type? name).or (below.type? name) :=
  List.find?_append

/-- What an entry starts from: a copy of the built-in type, or nothing. -/
def blank (name : String) (kind : KnownKind) : KnownType :=
  (builtin.type? name).getD { name, kind }

/-- **One more type** is folded into what its name refers to, and other names are not concerned. -/
theorem type?_addType (c : Catalog) (t : KnownType) (name : String) :
    (c.addType t).type? name =
      if t.name = name then some ((c.type? name).elim t (·.absorb t)) else c.type? name := by
  show (insertType t c.types).find? _ = if _ then some ((c.types.find? _).elim t _) else
    c.types.find? _
  -- An entry of the same name is replaced where it stands; the entries before it are passed by.
  induction c.types with
  | nil => by_cases ht : t.name = name <;> simp [insertType, ht]
  | cons u us ih =>
    have hpos {v : KnownType} {vs : List KnownType} (hv : v.name = name) :
        (v :: vs).find? (·.name == name) = some v := List.find?_cons_of_pos (by simpa using hv)
    have hneg {v : KnownType} {vs : List KnownType} (hv : v.name ≠ name) :
        (v :: vs).find? (·.name == name) = vs.find? (·.name == name) :=
      List.find?_cons_of_neg (by simpa using hv)
    rw [insertType]
    by_cases hut : u.name = t.name
    · rw [if_pos (by simpa using hut)]
      by_cases hname : u.name = name
      · rw [if_pos (hut.symm.trans hname), hpos hname, hpos (v := u.absorb t) hname]
        rfl
      · rw [if_neg fun ht => hname (hut.trans ht), hneg hname, hneg (v := u.absorb t) hname]
    · rw [if_neg (by simpa using hut)]
      by_cases hname : u.name = name
      · rw [if_neg fun ht => hut (hname.trans ht.symm), hpos hname, hpos hname]
      · rw [hneg hname, hneg hname, ih]

theorem name_start (c : Catalog) (name : String) (kind : KnownKind) :
    (c.start name kind).name = name := by
  unfold start
  split
  · rename_i t _ ht
    simpa using List.find?_some ht
  · rfl

/-- **One more declaration** is folded into what its name refers to, or into a blank entry. -/
theorem type?_declare_type (c : Catalog) (g : Graph) (d : TypeDecl) (name : String) :
    (c.declare g (.type d)).type? name =
      if d.name = name then
        some (((c.type? name).getD (blank name d.knownKind)).absorb (d.known g))
      else c.type? name := by
  have hname : ((c.start d.name d.knownKind).absorb (d.known g)).name = d.name :=
    c.name_start d.name d.knownKind
  rw [declare, type?_addType, hname]
  by_cases hd : d.name = name
  · subst hd
    rw [if_pos rfl, if_pos rfl, start, blank]
    cases c.type? d.name with
    | none => cases builtin.type? d.name <;> rfl
    | some t =>
      -- The name is declared already, so what is folded in starts from nothing.
      exact congrArg some (t.absorb_blank (d.known g) d.name d.knownKind)
  · rw [if_neg hd, if_neg hd]

/-- Other declarations do not concern a name, unless they are aliases that bear it. -/
theorem type?_declare_other {d : Decl} (hd : d.type? = none)
    (halias : ∀ a, d = .typeAlias a → a.name ≠ name) :
    (c.declare g d).type? name = c.type? name := by
  cases d with
  | type d => simp [Decl.type?] at hd
  | typeAlias a =>
    rw [declare]
    split
    · rw [type?_addType, if_neg (halias a rfl)]
    · rfl
  | _ => rfl

/-- What a name refers to after some declarations of types of that name. -/
def entryAfter (g : Graph) (name : String) (e : Option KnownType) (ds : List TypeDecl) :
    Option KnownType :=
  ds.foldl (fun e d => some ((e.getD (blank name d.knownKind)).absorb (d.known g))) e

/-- **Of all declarations, only the types of a name concern it**, if no alias bears it. -/
theorem type?_foldl_declare {ds : List Decl} (halias : ∀ a, .typeAlias a ∈ ds → a.name ≠ name)
    (c : Catalog) :
    (ds.foldl (declare g) c).type? name =
      entryAfter g name (c.type? name) ((ds.filterMap Decl.type?).filter (·.name == name)) := by
  induction ds generalizing c with
  | nil => rfl
  | cons d ds ih =>
    rw [List.foldl_cons, ih fun a ha => halias a (List.mem_cons_of_mem d ha), List.filterMap_cons]
    cases hd : d.type? with
    | none =>
      rw [type?_declare_other hd fun a ha => halias a (ha ▸ List.mem_cons_self)]
    | some t =>
      obtain rfl : d = .type t := (Decl.view_type.eq_some_iff d t).mp hd
      rw [type?_declare_type]
      by_cases ht : t.name = name
      · rw [if_pos ht, List.filter_cons_of_pos (by simpa using ht)]
        rfl
      · rw [if_neg ht, List.filter_cons_of_neg (by simpa using ht)]

/-- What an entry has to say after some declarations of types of its name. -/
structure IsEntry (g : Graph) (name : String) (ds : List TypeDecl) (t : KnownType) : Prop where
  /-- The built-in members come first. -/
  members_eq : t.members =
    (builtin.type? name).elim [] (·.members) ++ ds.flatMap (·.knownMembers g)
  /-- So do the built-in conformances. -/
  conformances_eq : t.conformances = KnownType.addNames
    ((builtin.type? name).elim [] (·.conformances)) (ds.flatMap fun d => (d.known g).conformances)
  /-- The built-in supertype counts, and then the first one. -/
  supertype_eq : t.supertype =
    ((builtin.type? name).bind (·.supertype)).or (ds.findSome? TypeDecl.superclass?)

theorem isEntry_blank (g : Graph) (name : String) (kind : KnownKind) :
    IsEntry g name [] (blank name kind) := by
  rw [blank]
  cases h : builtin.type? name <;>
    exact ⟨by simp [h], by simp [h, KnownType.addNames], by simp [h]⟩

/-- One more declaration says what it declares at the end. -/
theorem IsEntry.absorb {ds : List TypeDecl} {t : KnownType} (h : IsEntry g name ds t)
    (d : TypeDecl) : IsEntry g name (ds ++ [d]) (t.absorb (d.known g)) where
  members_eq := by
    rw [List.flatMap_append, ← List.append_assoc, ← h.members_eq]
    simp [KnownType.absorb, TypeDecl.known]
  conformances_eq := by
    rw [List.flatMap_append, KnownType.addNames_append, ← h.conformances_eq]
    simp [KnownType.absorb]
  supertype_eq := by
    rw [List.findSome?_append, ← Option.or_assoc, ← h.supertype_eq]
    simp [KnownType.absorb, TypeDecl.known]

theorem entryAfter_append (g : Graph) (name : String) (ds : List TypeDecl) (d : TypeDecl) :
    entryAfter g name none (ds ++ [d]) =
      some (((entryAfter g name none ds).getD (blank name d.knownKind)).absorb (d.known g)) := by
  simp [entryAfter]

/-- A name of some type refers to an entry of all types of the name. -/
theorem exists_isEntry (g : Graph) (name : String) {ds : List TypeDecl} (hds : ds ≠ []) :
    ∃ t, entryAfter g name none ds = some t ∧ IsEntry g name ds t := by
  induction ds using List.reverseRecOn with
  | nil => exact absurd rfl hds
  | append_singleton ds d ih =>
    rw [entryAfter_append]
    refine ⟨_, rfl, IsEntry.absorb ?_ d⟩
    by_cases hempty : ds = []
    · subst hempty
      exact isEntry_blank g name d.knownKind
    · obtain ⟨t, ht, hentry⟩ := ih hempty
      rwa [ht]

/-- What a name without alias refers to in the catalogue of a graph is decided by its types. -/
theorem type?_ofGraph (halias : ∀ id a, (id, Decl.typeAlias a) ∈ g.live → a.name ≠ name) :
    (ofGraph g).type? name =
      (entryAfter g name none (g.typesNamed name)).or (builtin.type? name) := by
  have hdeclared : declared g = (g.live.map (·.2)).foldl (declare g) {} := by
    rw [declared, List.foldl_map]
  have hlive : ∀ a, Decl.typeAlias a ∈ g.live.map (·.2) → a.name ≠ name := by
    intro a ha
    obtain ⟨⟨id, d⟩, hmem, rfl⟩ := List.mem_map.mp ha
    exact halias id a hmem
  rw [ofGraph, type?_layeredOn, hdeclared, type?_foldl_declare hlive, List.filterMap_map]
  rfl

/-- Built-in types list no protocol twice. -/
theorem nodup_builtin_conformances (name : String) :
    ((builtin.type? name).elim [] (·.conformances)).Nodup := by
  have hall : ∀ t ∈ builtin.types, t.conformances.Nodup := by decide
  cases h : builtin.type? name with
  | none => exact List.nodup_nil
  | some t => exact hall t (List.mem_of_find?_eq_some h)

end Catalog

/-- A type of a name has a slot. -/
theorem Graph.mem_slots_of_mem_typesNamed (h : d ∈ g.typesNamed name) :
    ∃ parent, some ⟨parent, .type d⟩ ∈ g.slots := by
  obtain ⟨hd, -⟩ := List.mem_filter.mp h
  obtain ⟨⟨id, decl⟩, hlive, hdecl⟩ := List.mem_filterMap.mp hd
  obtain rfl : decl = .type d := (Decl.view_type.eq_some_iff decl d).mp hdecl
  obtain ⟨⟨slot, i⟩, hslot, hnode⟩ := List.mem_filterMap.mp hlive
  obtain ⟨⟨parent, decl⟩, rfl, heq⟩ := Option.map_eq_some_iff.mp hnode
  obtain ⟨-, rfl⟩ := Prod.mk.inj heq
  exact ⟨parent, List.fst_mem_of_mem_zipIdx hslot⟩

namespace Catalog

/-- **The catalogue of a graph lists every declaration once.** A name without type and alias refers
to what is built in. Otherwise everything that the types of the name list can be found, files
excepted, and the entry says the built-in members and then those of each type, in the order of the
types; the built-in conformances and then theirs, each once; and the built-in supertype, or else the
first superclass of them all. -/
theorem graph_entries_are_complete (g : Graph) (hwf : g.WellFormed) {name : String}
    (halias : ∀ id a, (id, Decl.typeAlias a) ∈ g.live → a.name ≠ name) :
    (g.typesNamed name = [] → (ofGraph g).type? name = builtin.type? name) ∧
    (g.typesNamed name ≠ [] → ∃ t members conformances,
      (ofGraph g).type? name = some t ∧
      (g.typesNamed name).mapM (TypeDecl.declaredMembers g) = .ok members ∧
      (g.typesNamed name).mapM (TypeDecl.declaredConformances g) = .ok conformances ∧
      t.members = (builtin.type? name).elim [] (·.members) ++ members.flatten ∧
      t.conformances =
        ((builtin.type? name).elim [] (·.conformances) ++ conformances.flatten).eraseDups ∧
      t.supertype = ((builtin.type? name).bind (·.supertype)).or
        ((g.typesNamed name).findSome? TypeDecl.superclass?)) := by
  rw [type?_ofGraph halias]
  constructor
  · intro hnone
    rw [hnone]
    rfl
  · intro hsome
    obtain ⟨t, ht, hentry⟩ := exists_isEntry g name hsome
    have hmembers : (g.typesNamed name).mapM (TypeDecl.declaredMembers g) = .ok _ :=
      mapM_eq_ok fun d hd =>
        (Graph.mem_slots_of_mem_typesNamed hd).elim fun _ => TypeDecl.declaredMembers_eq hwf
    have hconformances : (g.typesNamed name).mapM (TypeDecl.declaredConformances g) = .ok _ :=
      mapM_eq_ok fun d hd =>
        (Graph.mem_slots_of_mem_typesNamed hd).elim fun _ => TypeDecl.declaredConformances_eq hwf
    refine ⟨t, _, _, by rw [ht]; rfl, hmembers, hconformances, hentry.members_eq, ?_,
      hentry.supertype_eq⟩
    rw [hentry.conformances_eq,
      KnownType.addNames_eq_eraseDups (nodup_builtin_conformances name)]
    rfl

/-- Two files declare `NSObject`, which is built in: a category of it, and a class of that name. -/
def objectScript : List Graph.Command :=
  [.addFile ⟨"Titles.h", "Titles.swift", {}, [], [], [], [], []⟩,
    .addChild ⟨0⟩ (.type { name := "NSObject", kind := .extensionDecl (some "Titles") }),
    .addChild ⟨1⟩ (.property { name := "title", storage := { type := .string } }),
    .addChild ⟨1⟩ (.conformance { name := "NSObjectProtocol" }),
    .addChild ⟨1⟩ (.conformance { name := "Titled" }),
    .addFile ⟨"Object.m", "Object.swift", {}, [], [], [], [], []⟩,
    .addChild ⟨5⟩ (.type { name := "NSObject", kind := .classDecl (some "Root") }),
    .addChild ⟨6⟩ (.ivar { name := "_title", storage := { type := .string } }),
    .addChild ⟨6⟩ (.conformance { name := "Titled" })]

/-- The graph that the script builds. -/
def objectGraph : Graph :=
  Graph.runScript objectScript {}

/-- The copy of what is built in comes once, and the superclass counts. -/
theorem graph_entries_are_complete_objectGraph :
    objectGraph.WellFormed ∧
      (∀ id a, (id, Decl.typeAlias a) ∈ objectGraph.live → a.name ≠ "NSObject") ∧
      ((ofGraph objectGraph).type? "NSObject").map
        (fun t => (t.members.map Member.name, t.conformances, t.supertype)) =
        some (["init", "hash", "copy", "mutableCopy", "title", "_title"],
          ["NSObjectProtocol", "Titled"], some "Root") ∧
      ∃ t members conformances,
        (ofGraph objectGraph).type? "NSObject" = some t ∧
        (objectGraph.typesNamed "NSObject").mapM (TypeDecl.declaredMembers objectGraph) =
          .ok members ∧
        (objectGraph.typesNamed "NSObject").mapM (TypeDecl.declaredConformances objectGraph) =
          .ok conformances ∧
        t.members = (builtin.type? "NSObject").elim [] (·.members) ++ members.flatten ∧
        t.conformances =
          ((builtin.type? "NSObject").elim [] (·.conformances) ++ conformances.flatten).eraseDups ∧
        t.supertype = ((builtin.type? "NSObject").bind (·.supertype)).or
          ((objectGraph.typesNamed "NSObject").findSome? TypeDecl.superclass?) := by
  have hle : objectGraph.slots.length ≤ 2 ^ 32 := by decide_cbv
  obtain ⟨hwf, -⟩ := Graph.wellFormed_runScript hle
  have hnone : objectGraph.live.all fun p => p.2.typeAlias?.isNone := by decide_cbv
  have halias : ∀ id a, (id, Decl.typeAlias a) ∈ objectGraph.live → a.name ≠ "NSObject" :=
    fun id a h => absurd (List.all_eq_true.mp hnone _ h) (by simp [Decl.typeAlias?])
  have hnamed : (objectGraph.typesNamed "NSObject").length = 2 := by decide_cbv
  refine ⟨hwf, halias, by decide_cbv, ?_⟩
  exact (graph_entries_are_complete objectGraph hwf halias).2
    fun hnil => absurd hnamed (by simp [hnil])

end Catalog

end ObjcSwift
