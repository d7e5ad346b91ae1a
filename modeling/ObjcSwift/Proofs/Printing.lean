import ObjcSwift.Emit.Output
import ObjcSwift.Proofs.Graph.Scripts
import ObjcSwift.Proofs.Pass.Steps
import ObjcSwift.Proofs.Writing

/-!
# Printing a consistent graph

Printing looks up what files and types list. In a consistent graph every list names declarations of
the kind that it is for, so **every consistent graph can be printed** (`Emit.finds_all`). A
well-formed graph is one of these if no list names a file.

A file is written in the same way to every target, as all writers here are (`Emit.prints_file`). So
it does not matter that files with the same target path share a target: what is written there is
what each of them leaves in a target of its own, with an empty line between each two
(`Emit.files_are_printed_side_by_side`).
-/

namespace ObjcSwift.Emit

open ObjcSwift.Graph ObjcSwift.Writer

variable {g : Graph} {id : DeclId} {ok : Prop}

/-! ### Looking up what a declaration lists -/

/-- A declaration stands in a consistent graph. -/
def Stands (g : Graph) (d : Decl) : Prop :=
  g.outline.Consistent none ∧ ∃ id parent, g.node? id = some ⟨parent, d⟩

section Listed

variable {α : Type} {view : Decl → Option α} {make : α → Decl} {list : ChildList}
  {expected : String} {d : Decl}

theorem finds_listed (hv : Decl.View view make (some list)) (h : Stands g d) :
    ∀ j ∈ d.listOf list, Finds (g.typed j expected view) fun a => Stands g (make a) := by
  intro j hj
  obtain ⟨hc, id, parent, hn⟩ := h
  refine (finds_typed hv (kind?_of_mem_decl hc hn hj)).mono ?_
  rintro a ⟨⟨parent', -⟩, hn', rfl⟩
  exact ⟨hc, j, parent', hn'⟩

/-- What is written for each declaration in a list, after it was looked up. -/
theorem prints_listed (hv : Decl.View view make (some list)) {write : α → Writer Unit}
    (hwrite : ∀ a, (write a).Prints (Stands g d ∧ Stands g (make a)) fun _ => True) :
    ∀ j ∈ d.listOf list, Prints (Stands g d)
      (do write (← look (g.typed j expected view))) fun _ => True :=
  fun j hj => (prints_look fun h => finds_listed hv h j hj).bind hwrite

/-- A list is looked up as a whole. -/
theorem prints_look_listed (hv : Decl.View view make (some list)) :
    (look ((d.listOf list).mapM fun j => g.typed j expected view)).Prints (Stands g d)
      fun found => ∀ a ∈ found, Stands g (make a) :=
  prints_look fun h => finds_mapM_all (finds_listed hv h)

end Listed

/-! ### Types and files -/

theorem prints_body (body : Body) : body.write.Prints ok fun _ => True :=
  body.writes.prints fun _ => trivial

theorem prints_function (h : Header) (signature : Signature) (code : Option Code) :
    (function h signature code).Prints ok fun _ => True := by
  cases code with
  | none => exact prints_line _
  | some code => exact (prints_body code.body).block _

theorem prints_property (p : PropertyDecl) : (property p).Prints ok fun _ => True := by
  have haccessors (getter : Code) (setter : Setter) :
      (accessors getter setter).Prints ok fun _ => True :=
    ((prints_body getter.body).block _).seq fun _ => (prints_body setter.code.body).block _
  unfold property
  split
  · exact prints_line _
  · exact (prints_body _).block _
  · exact (haccessors _ _).block _
  · exact (haccessors _ _).block _

theorem prints_protocolMembers (d : TypeDecl) :
    (protocolMembers g d).Prints (Stands g (.type d)) fun _ => True := by
  refine Prints.seq (prints_forM ?_) fun _ => prints_forM ?_
  · exact prints_listed (d := .type d) Decl.view_property fun p => prints_line (requirement p)
  · exact prints_listed (d := .type d) Decl.view_method fun m => prints_line m.signature.text

theorem prints_members (d : TypeDecl) :
    (members g d).Prints (Stands g (.type d)) fun _ => True := by
  refine Prints.seq (prints_group ?_ false) fun written => ?_
  · exact prints_listed (d := .type d) Decl.view_ivar fun v => prints_line _
  refine Prints.seq (prints_group ?_ written) fun written => ?_
  · exact prints_listed (d := .type d) Decl.view_property fun p => prints_property p
  refine (prints_look_listed Decl.view_method).bind fun methods => ?_
  refine Prints.seq (prints_sections (fun _ m _ => finds_pure (P := fun _ => True) trivial)
    (fun m => ?_) written) fun _ => prints_pure fun _ => trivial
  exact prints_function m.header m.signature _

theorem prints_type (d : TypeDecl) : (type g d).Prints (Stands g (.type d)) fun _ => True := by
  refine (prints_look_listed Decl.view_conformance).bind fun conformances => ?_
  refine Prints.seq (prints_forM fun c _ => prints_line _) fun _ => Prints.block ?_ _
  refine Prints.imp (fun h => h.1) ?_
  split
  · exact prints_protocolMembers d
  · exact prints_members d

/-- A file that is found stands in the graph. -/
theorem stands_of_file (hc : g.outline.Consistent none) {f : FileDecl} (hf : g.file id = .ok f) :
    Stands g (.file f) := by
  obtain ⟨⟨parent, -⟩, hn, rfl⟩ := node?_of_typed Decl.view_file hf
  exact ⟨hc, id, parent, hn⟩

/-- A file that is found is written as its directives and then its declarations. -/
theorem exists_declarations_of_file (settings : EmitSettings) {f : FileDecl}
    (hf : g.file id = .ok f) : ∃ declarations : Bool → Writer Unit,
      file settings g id = (do
        let written ← Writer.group (printedDirectives settings f)
          (fun d => Writer.line ("// " ++ d)) false
        declarations written) ∧
      ∀ written, (declarations written).Prints (Stands g (.file f)) fun _ => True := by
  refine ⟨_, by rw [file, hf]; rfl, fun written => ?_⟩
  refine Prints.seq (prints_group ?_ written) fun written => ?_
  · exact prints_listed (d := .file f) Decl.view_typeAlias fun a => prints_line (typeAlias a)
  refine Prints.seq (prints_group ?_ written) fun written => ?_
  · exact prints_listed (d := .file f) Decl.view_globalVariable fun v =>
      prints_line (globalVariable v)
  refine Prints.seq (prints_sections (finds_listed Decl.view_globalFunction)
    (fun d => prints_function d.header d.signature d.code) written) fun written => ?_
  refine (prints_look_listed Decl.view_type).bind fun types => ?_
  -- Types are printed in another order than they are looked up in.
  have hordered : ∀ d ∈ ordered types, d ∈ types := by
    intro d hd
    simp only [ordered, List.mem_append, List.mem_filter] at hd
    rcases hd with (⟨hd, -⟩ | ⟨hd, -⟩) | ⟨hd, -⟩ <;> exact hd
  refine Prints.seq (prints_sections (fun h d hd => finds_pure (h.2 d (hordered d hd)))
    (fun d => (prints_type d).imp fun h => h.2) written) fun _ => prints_pure fun _ => trivial

/-- **A file is written in the same way to every target**, and in a consistent graph it can be. -/
theorem prints_file (settings : EmitSettings) (g : Graph) (id : DeclId) :
    (file settings g id).Prints (g.outline.Consistent none ∧ g.kind? id = some none)
      fun _ => True := by
  cases hf : g.file id with
  | error e =>
    refine .inr ⟨e, fun t => ⟨t, by rw [file, hf]; rfl, rfl⟩, fun h => ?_⟩
    obtain ⟨f, hok, -⟩ : Finds (g.file id) _ := finds_typed Decl.view_file h.2
    simp [hf] at hok
  | ok f =>
    obtain ⟨declarations, hfile, hprints⟩ := exists_declarations_of_file settings hf
    rw [hfile]
    refine Prints.seq (prints_group (fun d _ => prints_line _) false) fun written => ?_
    exact (hprints written).imp fun h => stands_of_file h.1 hf

/-- However a file is written, the target comes back to its level. -/
theorem level_file {settings : EmitSettings} {t t' : Target}
    (h : file settings g id t = .ok () t' ∨ ∃ e, file settings g id t = .error e t') :
    t'.level = t.level := by
  obtain ⟨⟨⟩, ls, hwrites, -⟩ | ⟨e, hfails, -⟩ := prints_file settings g id
  · obtain rfl : t.lines ls = t' := by simpa [hwrites t] using h
    rfl
  · obtain ⟨t'', ht, hlevel⟩ := hfails t
    obtain rfl : t'' = t' := by simpa [ht] using h
    exact hlevel

/-! ### What goes to one target path -/

section Shared

variable {settings : EmitSettings} {path : DeclId → String} {lines : DeclId → List Line}

/-- Files that share a target leave in it what each of them writes, with an empty line between each
two. -/
theorem text_eq {ids : List DeclId} (h : ∀ id ∈ ids, (file settings g id).Writes () (lines id)) :
    text settings g ids =
      .ok ("\n".intercalate (ids.map fun id => Layout.render settings.indent (lines id))) := by
  have hparts : List.Forall₂ (fun id ls => (file settings g id).Writes () ls) ids
      (ids.map lines) := by
    rw [List.forall₂_map_right_iff, List.forall₂_same]
    exact h
  have hfiles : (files settings g ids).Writes () (Layout.sections (ids.map lines)) := by
    have hend := (writes_sections hparts false).bind (f := fun _ => pure ()) (writes_pure ())
    rwa [List.append_nil] at hend
  rw [text, hfiles]
  dsimp only
  rw [Target.text_lines_new, Layout.render_sections, List.map_map]
  rfl

/-- Each target path gets the files that go there, in the order of the graph. -/
theorem groups_eq (h : ∀ id ∈ g.files, ∃ f, g.file id = .ok f ∧ f.targetPath = path id) :
    groups g = .ok ((g.files.map path).eraseDups.map fun p =>
      (p, g.files.filter fun id => path id == p)) := by
  have hplaced : g.files.mapM (fun id => return ((← g.file id).targetPath, id)) =
      (.ok (g.files.map fun id => (path id, id)) : Except GraphError (List (String × DeclId))) := by
    refine mapM_eq_ok fun id hid => ?_
    obtain ⟨f, hf, hpath⟩ := h id hid
    rw [hf, ← hpath]
    rfl
  rw [groups, hplaced]
  change Except.ok _ = _
  simp only [List.map_map, List.filter_map, Function.comp_def, List.map_id']

theorem all_eq (hpath : ∀ id ∈ g.files, ∃ f, g.file id = .ok f ∧ f.targetPath = path id)
    (hlines : ∀ id ∈ g.files, (file settings g id).Writes () (lines id)) :
    all settings g = .ok ((g.files.map path).eraseDups.map fun p =>
      (p, "\n".intercalate ((g.files.filter fun id => path id == p).map fun id =>
        Layout.render settings.indent (lines id)))) := by
  rw [all, groups_eq hpath]
  change List.mapM _ _ = _
  rw [List.mapM_map]
  refine mapM_eq_ok fun p _ => ?_
  change (do return (p, ← text settings g _)) = _
  rw [text_eq fun id hid => hlines id (List.mem_of_mem_filter hid)]
  rfl

end Shared

/-- A file stands next to what is printed of it: its target path, and the text that it leaves in a
target of its own. -/
def Leaves (settings : EmitSettings) (g : Graph) (id : DeclId) (printed : String × String) : Prop :=
  (∃ f, g.file id = .ok f ∧ f.targetPath = printed.1) ∧
    ∃ t, file settings g id { unit := settings.indent } = .ok () t ∧ t.text = printed.2

/-- In a consistent graph every file leaves something, and each target path gets what the files
that go there leave. -/
theorem exists_leaves (settings : EmitSettings) (hc : g.outline.Consistent none) :
    ∃ printed, List.Forall₂ (Leaves settings g) g.files printed ∧
      all settings g = .ok ((printed.map (·.1)).eraseDups.map fun path =>
        (path, "\n".intercalate ((printed.filter (·.1 == path)).map (·.2)))) := by
  have hpath : ∀ id ∈ g.files, ∃ path f, g.file id = .ok f ∧ f.targetPath = path := by
    intro id hid
    obtain ⟨f, hf, -⟩ := finds_typed Decl.view_file (kind?_of_mem_files hc hid)
    exact ⟨f.targetPath, f, hf, rfl⟩
  have hlines : ∀ id ∈ g.files, ∃ ls, (file settings g id).Writes () ls := by
    intro id hid
    have hok := And.intro hc (kind?_of_mem_files hc hid)
    obtain ⟨⟨⟩, ls, hwrites, -⟩ := (prints_file settings g id).exists_writes hok
    exact ⟨ls, hwrites⟩
  -- The lines of a file do not depend on the target, so they are the same in a shared one.
  choose! path hpath using hpath
  choose! lines hlines using hlines
  refine ⟨g.files.map fun id => (path id, Layout.render settings.indent (lines id)), ?_, ?_⟩
  · rw [List.forall₂_map_right_iff, List.forall₂_same]
    exact fun id hid => ⟨hpath id hid, _, hlines id hid _, Target.text_lines_new _ _⟩
  · rw [all_eq hpath hlines]
    simp only [List.map_map, List.filter_map, Function.comp_def]

/-- **Every consistent graph can be printed.** -/
theorem finds_all (settings : EmitSettings) (hc : g.outline.Consistent none) :
    Finds (all settings g) fun _ => True := by
  obtain ⟨printed, -, hall⟩ := exists_leaves settings hc
  exact ⟨_, hall, trivial⟩

/-- **What goes to a target path is what its files leave in targets of their own**, with an empty
line between each two. Every file of a well-formed graph can be printed; the target paths come in
the order in which they first appear, and so do the files of each path. Writing a file brings the
target back to its level, whether something was missing or not. -/
theorem files_are_printed_side_by_side (settings : EmitSettings) (g : Graph) (hwf : g.WellFormed)
    (hfiles : ∀ id ∈ g.files, id ∉ g.listed) :
    (∃ printed, List.Forall₂ (Leaves settings g) g.files printed ∧
      all settings g = .ok ((printed.map (·.1)).eraseDups.map fun path =>
        (path, "\n".intercalate ((printed.filter (·.1 == path)).map (·.2))))) ∧
    ∀ id t t', (file settings g id t = .ok () t' ∨ ∃ e, file settings g id t = .error e t') →
      t'.level = t.level :=
  ⟨exists_leaves settings (consistent_of_wellFormed hwf hfiles), fun _ _ _ => level_file⟩

/-- Two files go to one target path, with a file between them that goes elsewhere. -/
def sharedScript : List Command :=
  [.addFile ⟨"Feed.h", "Feed.swift", {}, ["#define PAGE 20"], [], [], [], []⟩,
    .addChild ⟨0⟩ (.type { name := "Feed", kind := .classDecl none }),
    .addFile ⟨"Other.m", "Other.swift", {}, [], [], [], [], []⟩,
    .addFile ⟨"Feed.m", "Feed.swift", {}, [], [], [], [], []⟩,
    .addChild ⟨3⟩ (.type { name := "Feed", kind := .extensionDecl (some "Paging") }),
    .addChild ⟨4⟩ (.property { name := "page", storage := { type := .named "Int32" } })]

/-- The graph that the script builds. -/
def sharedGraph : Graph :=
  runScript sharedScript {}

theorem files_are_printed_side_by_side_sharedGraph :
    sharedGraph.WellFormed ∧ (∀ id ∈ sharedGraph.files, id ∉ sharedGraph.listed) ∧
      (groups sharedGraph).toOption = some [("Feed.swift", [⟨0⟩, ⟨3⟩]), ("Other.swift", [⟨2⟩])] ∧
      (∃ printed, List.Forall₂ (Leaves {} sharedGraph) sharedGraph.files printed ∧
        all {} sharedGraph = .ok ((printed.map (·.1)).eraseDups.map fun path =>
          (path, "\n".intercalate ((printed.filter (·.1 == path)).map (·.2))))) ∧
      ∀ id t t',
        (file {} sharedGraph id t = .ok () t' ∨ ∃ e, file {} sharedGraph id t = .error e t') →
          t'.level = t.level := by
  have hle : sharedGraph.slots.length ≤ 2 ^ 32 := by decide_cbv
  obtain ⟨hwf, hfiles⟩ := wellFormed_runScript hle
  exact ⟨hwf, hfiles, by decide_cbv,
    files_are_printed_side_by_side {} sharedGraph hwf hfiles⟩

/-- **A graph that lists a file among types is not printed.** -/
theorem nestedFiles_are_not_printed :
    nestedFiles.WellFormed ∧ all {} nestedFiles = .error (.unexpectedKind ⟨1⟩ "type" "file") :=
  ⟨nestedFiles_wellFormed.1, rfl⟩

end ObjcSwift.Emit
