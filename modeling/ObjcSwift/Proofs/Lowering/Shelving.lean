import ObjcSwift.Proofs.Lowering.Account
import ObjcSwift.Proofs.Lowering.Nesting

/-!
# Adding what visited nodes declare

What some visited nodes do to a graph is said from the graph before to the graph after
(`Graph.Shelves`): the types among the nodes are added to the file, **each with the members of the
nodes that belong to it**, the nodes that belong to the innermost type around add to its members,
and nothing else of the graph before changes.

There are three ways to get there. Some declarations are added under one owner (`Graph.Gains`), or
a type is added with what is inside it (`Graph.Shelves.enclose`), and one comes after the other
(`Graph.Shelves.trans`). A type is entered, filled and left, so while it is filled it is the
innermost one around; this is where a type and its members come together.
-/

namespace ObjcSwift

/-! ### What is read off a graph -/

namespace Decl

/-- Where a declaration comes from, and its region. -/
def entry (d : Decl) : Origin × Bool :=
  (d.origin, d.header.nonnull)

/-- The type that `instancetype` stands for in a type; in a protocol it stands for none. -/
def selfName? : Decl → Option String
  | type d => if d.isProtocol then none else some d.name
  | _ => none

theorem plain_childless (d : Decl) : d.childless.plain = d.plain := by
  cases d <;> rfl

theorem ownList?_plain (d : Decl) : d.plain.ownList? = d.ownList? := by
  cases d <;> rfl

theorem entry_plain (d : Decl) : d.plain.entry = d.entry := by
  cases d <;> rfl

theorem selfName?_plain (d : Decl) : d.plain.selfName? = d.selfName? := by
  cases d with
  | type d =>
    obtain ⟨name, kind⟩ := d
    cases kind <;> rfl
  | _ => rfl

end Decl

namespace Graph

open Edit

variable {g g' g'' : Graph} {id p : DeclId} {d : Decl}

/-- What the declarations of a graph say on their own, slot by slot. -/
def plains (g : Graph) : List (Option Decl) :=
  g.readings Decl.plain

/-- What a declaration says on its own. -/
def plain? (g : Graph) (id : DeclId) : Option Decl :=
  (g.get? id).map Decl.plain

/-- Where the declarations of a graph come from, with their regions, slot by slot. -/
def entries (g : Graph) : List (Option (Origin × Bool)) :=
  g.readings Decl.entry

/-- What the declarations in one of the lists of an owner say on their own. -/
def shelf (g : Graph) (p : DeclId) (list : ChildList) : List (Option Decl) :=
  (g.listOf p list).map g.plain?

/-- The type that `instancetype` stands for in a type of a graph. -/
def selfName? (g : Graph) (id : DeclId) : Option String :=
  (g.plain? id).bind Decl.selfName?

theorem length_plains (g : Graph) : g.plains.length = g.slots.length :=
  List.length_map _

theorem plain?_eq (g : Graph) (id : DeclId) : g.plain? id = (g.plains[id.toNat]?).join := by
  rw [plain?, get?, node?, plains, readings, List.getElem?_map]
  cases g.slots[id.toNat]? with
  | none => rfl
  | some slot => cases slot <;> rfl

theorem entries_eq (g : Graph) : g.entries = g.plains.map (Option.map Decl.entry) := by
  simp [entries, plains, readings, Function.comp_def, Decl.entry_plain]

/-- New slots at the end say nothing new about the declarations before them. -/
theorem plain?_of_plains {added : List (Option Decl)} (h : g'.plains = g.plains ++ added)
    (hlt : id.toNat < g.slots.length) : g'.plain? id = g.plain? id := by
  rw [plain?_eq, plain?_eq, h, List.getElem?_append_left (by rwa [length_plains])]

theorem length_le_of_plains {added : List (Option Decl)} (h : g'.plains = g.plains ++ added) :
    g.slots.length ≤ g'.slots.length := by
  rw [← length_plains g, ← length_plains g', h, List.length_append]
  exact Nat.le_add_right _ _

theorem selfName?_of_plains {added : List (Option Decl)} (h : g'.plains = g.plains ++ added)
    (hlt : id.toNat < g.slots.length) : g'.selfName? id = g.selfName? id := by
  rw [selfName?, selfName?, plain?_of_plains h hlt]

theorem lt_length_of_mem_listOf (hc : g.outline.Consistent none) {list : ChildList}
    (h : id ∈ g.listOf p list) : id.toNat < g.slots.length := by
  obtain ⟨n, hn, -⟩ := exists_node?_of_place? (hc.mem_listOf_iff.mp h)
  exact lt_length_of_node? hn

theorem listOf_eq_nil_of_length_le (h : g.slots.length ≤ id.toNat) (list : ChildList) :
    g.listOf id list = [] := by
  rw [listOf, node?_eq_none_of_length_le h]
  rfl

/-! ### Adding a declaration -/

/-- One graph is another one with a declaration added under an owner. -/
structure Adds (g : Graph) (p : DeclId) (d : Decl) (g' : Graph) : Prop where
  /-- The files are the same. -/
  files_eq : g'.files = g.files
  /-- The next slot is filled. -/
  plains_eq : g'.plains = g.plains ++ [some d.plain]
  /-- One list names it, at its end. -/
  listOf_eq : ∀ q list, g'.listOf q list =
    if q = p ∧ d.ownList? = some list then g.listOf q list ++ [.ofNat g.slots.length]
    else g.listOf q list

theorem outcome_addChild_adds (hlt : g.slots.length < 2 ^ 32) :
    (addChild p d).Outcome g
      (fun id g' => id = .ofNat g.slots.length ∧ Adds g p d g') fun _ _ => True := by
  refine ((outcome_addChild hlt).and (outcome_addChild_readings Decl.plain_childless p d)).mono
    (fun id g' h => ?_) fun _ _ _ => trivial
  obtain ⟨⟨list, hlist, rfl, ho⟩, hplains⟩ := h
  refine ⟨rfl, congrArg Outline.files ho, hplains, fun q l => ?_⟩
  -- The slot that is filled listed nothing before either.
  have hgrow : (g.outline.grow ⟨some p, some list⟩).listOf q l = g.listOf q l := by
    have hnext : g.slots.length ≤ (DeclId.ofNat g.slots.length).toNat :=
      Nat.le_of_eq (DeclId.toNat_ofNat hlt).symm
    simp only [Outline.grow, Outline.put]
    split_ifs with hq
    · subst hq
      exact (listOf_eq_nil_of_length_le hnext l).symm
    · rfl
  have hlists : g'.listOf q l = if q = p ∧ l = list then
      (g.outline.grow ⟨some p, some list⟩).listOf p list ++ [.ofNat g.slots.length]
      else (g.outline.grow ⟨some p, some list⟩).listOf q l :=
    congrFun (congrFun (congrArg Outline.listOf ho) q) l
  rw [hlists, hgrow, hlist]
  by_cases hq : q = p ∧ l = list
  · obtain ⟨rfl, rfl⟩ := hq
    rw [if_pos ⟨rfl, rfl⟩, if_pos ⟨rfl, rfl⟩, hgrow]
  · rw [if_neg hq, if_neg fun h => hq ⟨h.1, (Option.some.inj h.2).symm⟩]

theorem Adds.plain?_eq (h : Adds g p d g') (hlt : g.slots.length < 2 ^ 32) :
    g'.plain? (.ofNat g.slots.length) = some d.plain := by
  rw [Graph.plain?_eq, h.plains_eq, DeclId.toNat_ofNat hlt, ← length_plains]
  simp

/-- A graph has some members more: they are in the lists of their owner. -/
structure Gains (g : Graph) (p : DeclId) (ds : List Decl) (g' : Graph) : Prop where
  /-- The files are the same. -/
  files_eq : g'.files = g.files
  /-- The next slots are filled. -/
  plains_eq : g'.plains = g.plains ++ ds.map fun d => some d.plain
  /-- The types are the same. -/
  types_eq : ∀ q, g'.listOf q .types = g.listOf q .types
  /-- They come last in the lists of their owner, and no other list says anything new. -/
  shelf_eq : ∀ q list, g'.shelf q list = g.shelf q list ++
    if q = p then (ds.filter fun d => d.ownList? == some list).map fun d => some d.plain else []

/-- An edit that rewrites something the declarations do not say on their own. -/
theorem Gains.of_same (hfiles : g'.files = g.files) (hplains : g'.plains = g.plains)
    (hlists : ∀ q list, g'.listOf q list = g.listOf q list) : Gains g p [] g' := by
  refine ⟨hfiles, by rw [hplains, List.map_nil, List.append_nil], fun q => hlists q _,
    fun q list => ?_⟩
  have hplain : g'.plain? = g.plain? := funext fun id => by
    rw [plain?_eq, plain?_eq, hplains]
  rw [shelf, shelf, hlists, hplain]
  simp

theorem Gains.refl (g : Graph) (p : DeclId) : Gains g p [] g :=
  .of_same rfl rfl fun _ _ => rfl

theorem Gains.trans {ds ds' : List Decl} (h : Gains g p ds g') (h' : Gains g' p ds' g'') :
    Gains g p (ds ++ ds') g'' := by
  refine ⟨h'.files_eq.trans h.files_eq, ?_, fun q => (h'.types_eq q).trans (h.types_eq q),
    fun q list => ?_⟩
  · rw [h'.plains_eq, h.plains_eq, List.map_append, List.append_assoc]
  · rw [h'.shelf_eq, h.shelf_eq, List.append_assoc]
    split_ifs
    · rw [List.filter_append, List.map_append]
    · rfl

/-- A new declaration changes nothing about what was listed. -/
theorem Adds.map_listOf (h : Adds g p d g') (hc : g.outline.Consistent none) (q : DeclId)
    (list : ChildList) : (g.listOf q list).map g'.plain? = g.shelf q list :=
  List.map_congr_left fun _ hid => plain?_of_plains h.plains_eq (lt_length_of_mem_listOf hc hid)

/-- A declaration that is no type is one member more. -/
theorem Adds.gains (h : Adds g p d g') (hc : g.outline.Consistent none)
    (hlt : g.slots.length < 2 ^ 32) (hd : d.ownList? ≠ some .types) : Gains g p [d] g' := by
  refine ⟨h.files_eq, h.plains_eq, fun q => ?_, fun q list => ?_⟩
  · rw [h.listOf_eq, if_neg fun hq => hd hq.2]
  have hold := h.map_listOf hc q list
  rw [shelf, h.listOf_eq]
  -- Of all lists, one of its owner gets the new number.
  by_cases hq : q = p
  · by_cases hl : d.ownList? = some list
    · rw [if_pos ⟨hq, hl⟩, List.map_append, hold, if_pos hq]
      simp [h.plain?_eq hlt, hl]
    · rw [if_neg fun h => hl h.2, hold]
      simp [hl]
  · rw [if_neg fun h => hq h.1, hold, if_neg hq, List.append_nil]

/-! ### From one graph to a later one -/

/-- Where the walk stands: what it adds to. -/
structure Spot where
  /-- The path of the Objective-C file. -/
  path : String
  /-- The file. -/
  file : DeclId
  /-- The innermost type around. -/
  current : Option DeclId
  /-- How many types are around. -/
  depth : Nat

/-- The visited nodes that belong to the innermost type around a place. -/
def Spot.own (s : Spot) (vs : List Visit) : List Visit :=
  vs.filter fun v => v.depth == s.depth

/-- A number is that of a type that was added from one graph to a later one for a visited node, with
the members of the nodes that belong to it. -/
structure Arrives (path : String) (g g' : Graph) (id : DeclId) (v : Visit) : Prop where
  /-- It was added later. -/
  length_le : g.slots.length ≤ id.toNat
  /-- It is there now. -/
  lt_length : id.toNat < g'.slots.length
  /-- It is the type that the node declares. -/
  plain?_eq : ∃ t, v.typeDecl? path = some t ∧ g'.plain? id = some (.type t)
  /-- It has the members. -/
  shelf_eq : ∀ list, g'.shelf id list = (Visit.membersIn path v.selfName? list v.own).map some

/-- **From one graph to a later one, what some visited nodes declare is added where it belongs.** -/
structure Shelves (s : Spot) (g : Graph) (vs : List Visit) (g' : Graph) : Prop where
  /-- The files are the same. -/
  files_eq : g'.files = g.files
  /-- The next slots are filled with what the nodes are lowered to. -/
  plains : ∃ added, g'.plains = g.plains ++ added ∧
    added.map (Option.map Decl.entry) = vs.flatMap (Visit.entries s.path)
  /-- The types among the nodes are added to the file, with what belongs to them. -/
  types : ∃ ids, g'.listOf s.file .types = g.listOf s.file .types ++ ids ∧
    List.Forall₂ (Arrives s.path g g') ids (vs.filter (·.node.declaresType))
  /-- The nodes that belong to the innermost type around add to its members. Nothing else that was
  there has new members. -/
  members : ∀ t list, t.toNat < g.slots.length → t ≠ s.file → g'.shelf t list = g.shelf t list ++
    if s.current = some t then
      (Visit.membersIn s.path (g.selfName? t) list (s.own vs)).map some
    else []

variable {s : Spot} {vs ws : List Visit} {v : Visit} {ds : List Decl}

/-- A file is there, and so is the innermost type around, if there is one. -/
structure Spot.Known (s : Spot) (g : Graph) : Prop where
  /-- The file is there. -/
  file_lt : s.file.toNat < g.slots.length
  /-- The type is there, and it is not the file. -/
  current_lt : ∀ t, s.current = some t → t.toNat < g.slots.length ∧ t ≠ s.file

theorem Arrives.later {id : DeclId} (h : Arrives s.path g g' id v)
    (h' : Shelves s g' ws g'') (hs : s.Known g) : Arrives s.path g g'' id v := by
  obtain ⟨added, hplains, -⟩ := h'.plains
  have hle := length_le_of_plains hplains
  have hfile : id ≠ s.file := by
    rintro rfl
    exact Nat.lt_irrefl _ (hs.file_lt.trans_le h.length_le)
  -- It came after the type around, so later members are none of its own.
  have hcurrent : s.current ≠ some id := fun hid =>
    Nat.lt_irrefl _ ((hs.current_lt id hid).1.trans_le h.length_le)
  refine ⟨h.length_le, h.lt_length.trans_le hle, ?_, fun list => ?_⟩
  · rw [plain?_of_plains hplains h.lt_length]
    exact h.plain?_eq
  · rw [h'.members id list h.lt_length hfile, if_neg hcurrent, List.append_nil, h.shelf_eq]

theorem Arrives.earlier {id : DeclId} {path : String} (h : Arrives path g' g'' id v)
    (hle : g.slots.length ≤ g'.slots.length) : Arrives path g g'' id v :=
  ⟨hle.trans h.length_le, h.lt_length, h.plain?_eq, h.shelf_eq⟩

theorem Shelves.trans (h : Shelves s g vs g') (h' : Shelves s g' ws g'') (hs : s.Known g) :
    Shelves s g (vs ++ ws) g'' := by
  obtain ⟨added, hplains, hadded⟩ := h.plains
  obtain ⟨added', hplains', hadded'⟩ := h'.plains
  obtain ⟨ids, hids, harrive⟩ := h.types
  obtain ⟨ids', hids', harrive'⟩ := h'.types
  have hle := length_le_of_plains hplains
  refine ⟨h'.files_eq.trans h.files_eq, ⟨added ++ added', ?_, ?_⟩, ⟨ids ++ ids', ?_, ?_⟩,
    fun t list ht hfile => ?_⟩
  · rw [hplains', hplains, List.append_assoc]
  · rw [List.map_append, hadded, hadded', List.flatMap_append]
  · rw [hids', hids, List.append_assoc]
  · rw [List.filter_append]
    refine List.rel_append (harrive.imp fun id v hv => hv.later h' hs) ?_
    exact harrive'.imp fun id v hv => hv.earlier hle
  · rw [h'.members t list (ht.trans_le hle) hfile, h.members t list ht hfile, List.append_assoc,
      selfName?_of_plains hplains ht]
    split_ifs
    · rw [Spot.own, Spot.own, Spot.own, List.filter_append, Visit.membersIn_append,
        List.map_append]
    · rfl

theorem Shelves.refl (s : Spot) (g : Graph) : Shelves s g [] g := by
  refine ⟨rfl, ⟨[], (List.append_nil _).symm, rfl⟩, ⟨[], (List.append_nil _).symm, .nil⟩,
    fun t list _ _ => ?_⟩
  simp [Spot.own, Visit.membersIn]

/-- A node that declares no type adds some declarations under one owner. If that is the file, the
node has no members for the innermost type around. -/
theorem Gains.shelves (h : Gains g p ds g') (hv : v.node.declaresType = false)
    (hentries : ds.map (fun d => some d.entry) = v.entries s.path) (hdepth : v.depth = s.depth)
    (hmembers : ∀ t, s.current = some t → v.members s.path (g.selfName? t) =
      if t = p then ds.map Decl.plain else [])
    (howner : p ≠ s.file → s.current = some p) : Shelves s g [v] g' := by
  refine ⟨h.files_eq, ⟨_, h.plains_eq, ?_⟩, ⟨[], ?_, ?_⟩, fun t list _ hfile => ?_⟩
  · rw [List.flatMap_singleton, ← hentries, List.map_map]
    exact List.map_congr_left fun d _ => congrArg some (Decl.entry_plain d)
  · rw [h.types_eq, List.append_nil]
  · rw [List.filter_cons_of_neg (by simp [hv])]
    exact .nil
  · rw [h.shelf_eq]
    congr 1
    have hown : s.own [v] = [v] := List.filter_cons_of_pos (by simp [hdepth])
    by_cases ht : s.current = some t
    · rw [if_pos ht, hown, Visit.membersIn, List.flatMap_singleton, hmembers t ht]
      split_ifs
      · rw [List.filter_map, List.map_map]
        refine congrArg _ (List.filter_congr fun d _ => ?_)
        rw [Function.comp_apply, Decl.ownList?_plain]
      · rfl
    · have hp : t ≠ p := by
        rintro rfl
        exact ht (howner hfile)
      rw [if_neg ht, if_neg hp]

theorem Adds.length_eq (h : Adds g p d g') : g'.slots.length = g.slots.length + 1 := by
  rw [← length_plains g', h.plains_eq, List.length_append, length_plains]
  rfl

/-- The next number is not that of the file. -/
theorem Spot.Known.next_ne (hs : s.Known g) (hlt : g.slots.length < 2 ^ 32) :
    DeclId.ofNat g.slots.length ≠ s.file := by
  intro he
  have hfile := hs.file_lt
  rw [← he, DeclId.toNat_ofNat hlt] at hfile
  exact Nat.lt_irrefl _ hfile

/-- The place inside the type that is added next. -/
def Spot.inside (s : Spot) (g : Graph) : Spot :=
  ⟨s.path, s.file, some (.ofNat g.slots.length), s.depth + 1⟩

/-- What was added inside a new type is what belongs to it. -/
theorem Adds.arrives {t : TypeDecl} (hadd : Adds g s.file (.type t) g')
    (hlt : g.slots.length < 2 ^ 32) (hs : s.Known g) (hdepth : v.depth = s.depth)
    (hdecl : v.typeDecl? s.path = some t) (hplain : (Decl.type t).plain = .type t)
    (hself : (Decl.type t).selfName? = v.selfName?) (h : Shelves (s.inside g) g' v.below g'') :
    Arrives s.path g g'' (.ofNat g.slots.length) v := by
  obtain ⟨added, hplains, -⟩ := h.plains
  have hnext := DeclId.toNat_ofNat hlt
  have hnew : g'.plain? (.ofNat g.slots.length) = some (.type t) := by
    rw [hadd.plain?_eq hlt, hplain]
  have hlt' : (DeclId.ofNat g.slots.length).toNat < g'.slots.length := by
    rw [hnext, hadd.length_eq]
    exact Nat.lt_succ_self _
  have hfile := hs.next_ne hlt
  refine ⟨hnext.ge, hlt'.trans_le (length_le_of_plains hplains), ⟨t, hdecl, ?_⟩, fun list => ?_⟩
  · rw [plain?_of_plains hplains hlt', hnew]
  · have hempty : g'.shelf (.ofNat g.slots.length) list = [] := by
      rw [shelf, hadd.listOf_eq, if_neg fun hq => hfile hq.1,
        listOf_eq_nil_of_length_le hnext.ge]
      rfl
    have hname : g'.selfName? (.ofNat g.slots.length) = v.selfName? := by
      rw [selfName?, hnew, Option.bind_some, hself]
    rw [h.members _ list hlt' hfile, hempty, List.nil_append, hname, Visit.own, hdepth]
    exact if_pos rfl

/-- **A type is added to the file, and then it is the innermost type around what is inside it.** -/
theorem Shelves.enclose {t : TypeDecl} (hadd : Adds g s.file (.type t) g')
    (hc : g.outline.Consistent none) (hlt : g.slots.length < 2 ^ 32) (hs : s.Known g)
    (hv : v.node.declaresType = true) (hdepth : v.depth = s.depth)
    (hdecl : v.typeDecl? s.path = some t) (hplain : (Decl.type t).plain = .type t)
    (hself : (Decl.type t).selfName? = v.selfName?)
    (hentries : [some (Decl.type t).entry] = v.entries s.path)
    (h : Shelves (s.inside g) g' v.below g'') : Shelves s g (v :: v.below) g'' := by
  have harrives := hadd.arrives hlt hs hdepth hdecl hplain hself h
  obtain ⟨added, hplains, hadded⟩ := h.plains
  obtain ⟨ids, hids, hrest⟩ := h.types
  have hle : g.slots.length ≤ g'.slots.length := length_le_of_plains hadd.plains_eq
  refine ⟨h.files_eq.trans hadd.files_eq, ⟨some (Decl.type t).plain :: added, ?_, ?_⟩,
    ⟨.ofNat g.slots.length :: ids, ?_, ?_⟩, fun q list hq hfile => ?_⟩
  · rw [hplains, hadd.plains_eq, List.append_assoc]
    rfl
  · rw [List.map_cons, hadded, Option.map_some, Decl.entry_plain, List.flatMap_cons, ← hentries]
    rfl
  · change g''.listOf s.file .types = g'.listOf s.file .types ++ ids at hids
    rw [hids, hadd.listOf_eq, if_pos ⟨rfl, rfl⟩, List.append_assoc]
    rfl
  · rw [List.filter_cons, if_pos hv]
    exact .cons harrives (hrest.imp fun _ _ hw => hw.earlier hle)
  · have hother : (s.inside g).current ≠ some q := by
      rintro ⟨⟩
      rw [DeclId.toNat_ofNat hlt] at hq
      exact Nat.lt_irrefl _ hq
    -- What is inside the type has more types around it.
    have hown : s.own (v :: v.below) = [v] := by
      rw [Spot.own, List.filter_cons_of_pos (by simp [hdepth]), List.filter_eq_nil_iff.mpr]
      intro w hw
      have := Visit.depth_lt_of_mem_below hv hw
      simp only [beq_iff_eq]
      omega
    rw [h.members q list (hq.trans_le hle) hfile, if_neg hother, List.append_nil, shelf,
      hadd.listOf_eq, if_neg fun he => hfile he.1, hadd.map_listOf hc, hown, Visit.membersIn,
      List.flatMap_singleton, Visit.members_of_declaresType s.path hv]
    simp

end Graph

end ObjcSwift
