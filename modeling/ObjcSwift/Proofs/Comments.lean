import ObjcSwift.Lowering.FileGraph
import ObjcSwift.Proofs.Printing

/-!
# Source text in comments

Three kinds of source text have no counterpart: the preprocessor directives of a file, statements
and expressions. All three are printed as comments, each in its own way. A statement is split at its
line ends, so every line of it is a comment line (`Emit.isCommented_comments`), whatever it says.
The other two are printed as they are:

* A directive gets one `//`. What it says after a line feed is a comment only if it starts with `//`
  itself (`Emit.isCommented_comments_iff`), and the lines of a macro do not.
* An expression stands between `/*` and `*/`. The comment ends there only if the expression has no
  `*/` of its own (`Emit.closesAtEnd_iff`). So it is with a statement in a closure, which is printed
  in the same way.
-/

namespace ObjcSwift

/-! ### Lines without line feed -/

namespace Text

theorem closeLine_subset {current : List Char} {c : Char} (h : c ∈ (closeLine current).toList) :
    c ∈ current := by
  unfold closeLine at h
  split at h <;> simp at h
  · exact List.mem_cons_of_mem _ h
  · exact h

/-- No line has a line feed, if the characters in front have none. -/
theorem not_mem_linesFrom {cs : List Char} : ∀ {current : List Char}, '\n' ∉ current →
    ∀ l ∈ linesFrom current cs, '\n' ∉ l.toList := by
  induction cs with
  | nil =>
    intro current hcurrent l hl
    rw [linesFrom] at hl
    split at hl
    · exact absurd hl (by simp)
    · obtain rfl := List.mem_singleton.mp hl
      simpa using hcurrent
  | cons c cs ih =>
    intro current hcurrent
    by_cases hc : c = '\n'
    · subst hc
      rintro l (_ | ⟨_, hl⟩)
      · exact fun hfeed => hcurrent (closeLine_subset hfeed)
      · exact ih (by simp) l hl
    · rw [linesFrom.eq_3 current c cs hc]
      exact ih (by simp [hcurrent, Ne.symm hc])

theorem not_mem_lines {text l : String} (h : l ∈ lines text) : '\n' ∉ l.toList :=
  not_mem_linesFrom (by simp) l h

/-- The rows of ended texts are the rows of each, and nothing stands after them. -/
theorem splitOn_ended {α : Type} (items : List α) (text : α → List Char) :
    (items.flatMap fun x => text x ++ ['\n']).splitOn '\n' =
      (items.flatMap fun x => (text x).splitOn '\n') ++ [[]] := by
  induction items with
  | nil => rfl
  | cons x items ih =>
    rw [List.flatMap_cons, List.flatMap_cons, List.append_assoc, List.singleton_append,
      List.splitOn_append_cons_self, ih, List.append_assoc]

/-- A text that ends with a line feed is made of its rows. -/
theorem eq_flatMap_of_splitOn {cs : List Char} {rows : List (List Char)}
    (h : cs.splitOn '\n' = rows ++ [[]]) : cs = rows.flatMap fun row => row ++ ['\n'] := by
  have hjoined : ['\n'].intercalate (cs.splitOn '\n') = cs := List.intercalate_splitOn '\n'
  rw [← hjoined, h]
  clear h hjoined
  induction rows with
  | nil => rfl
  | cons row rows ih =>
    rw [List.cons_append, List.intercalate_cons_of_ne_nil (by simp), ih, List.flatMap_cons]

/-- No row has a line feed. -/
theorem not_mem_of_mem_splitOn {cs : List Char} :
    ∀ {row : List Char}, row ∈ cs.splitOn '\n' → '\n' ∉ row := by
  induction cs with
  | nil => simp
  | cons c cs ih =>
    intro row hrow
    rw [List.splitOn_cons_eq_if_modifyHead] at hrow
    split at hrow
    · rcases List.mem_cons.mp hrow with rfl | hrow
      · exact List.not_mem_nil
      · exact ih hrow
    · next hc =>
      obtain ⟨first, rest, hsplit⟩ := List.exists_cons_of_ne_nil (List.splitOn_ne_nil '\n' cs)
      rw [hsplit] at hrow
      rcases List.mem_cons.mp hrow with rfl | hrow
      · have hfirst : '\n' ∉ first := ih (by simp [hsplit])
        rw [List.mem_cons]
        rintro (rfl | hfeed)
        · exact hc rfl
        · exact hfirst hfeed
      · exact ih (by simp [hsplit, hrow])

end Text

namespace Emit

open ObjcSwift.Graph ObjcSwift.Writer

/-! ### Comment lines -/

/-- A text of comment lines: each of them starts with `//` after the indentation, and ends with its
only line feed. -/
def IsCommented (indentation text : String) : Prop :=
  ∃ rests : List String, (∀ rest ∈ rests, '\n' ∉ rest.toList) ∧
    text = String.join (rests.map fun rest => indentation ++ "//" ++ rest ++ "\n")

/-- Texts as comments, each after the indentation and with one pair of slashes. -/
def comments (indentation : String) (texts : List String) : String :=
  String.join (texts.map fun text => indentation ++ ("// " ++ text ++ "\n"))

/-- A comment is never an empty line, so each of them is indented. -/
theorem render_comments (unit : String) (level : Nat) (texts : List String) :
    Layout.render unit (texts.map fun text => ⟨level, "// " ++ text⟩) =
      comments (Line.indentation unit level) texts := by
  rw [Layout.render, List.map_map]
  refine congrArg String.join (List.map_congr_left fun text _ => ?_)
  rw [Function.comp_apply, Line.render, if_neg (by simp), String.append_assoc]

/-- **Comments without line feed are comment lines**, whatever the indentation. -/
theorem isCommented_comments (indentation : String) {texts : List String}
    (h : ∀ text ∈ texts, '\n' ∉ text.toList) :
    IsCommented indentation (comments indentation texts) := by
  refine ⟨texts.map (" " ++ ·), ?_, ?_⟩
  · intro rest hrest
    obtain ⟨text, htext, rfl⟩ := List.mem_map.mp hrest
    simpa using h text htext
  · rw [comments, List.map_map]
    refine congrArg String.join (List.map_congr_left fun text _ => ?_)
    have hspace : "// " = "//" ++ " " := rfl
    rw [hspace]
    simp only [Function.comp_apply, String.append_assoc]

/-- Without indentation, a text is of comment lines if all its rows start with `//`. -/
theorem isCommented_iff {text : String} :
    IsCommented "" text ↔
      ∃ rows, text.toList.splitOn '\n' = rows ++ [[]] ∧ ∀ row ∈ rows, ['/', '/'] <+: row := by
  constructor
  · rintro ⟨rests, hrests, rfl⟩
    have htext : (String.join (rests.map fun rest => "" ++ "//" ++ rest ++ "\n")).toList =
        rests.flatMap fun rest => ('/' :: '/' :: rest.toList) ++ ['\n'] := by
      simp [String.toList_join, List.flatMap_map]
    refine ⟨_, by rw [htext, Text.splitOn_ended], fun row hrow => ?_⟩
    obtain ⟨rest, hrest, hrow⟩ := List.mem_flatMap.mp hrow
    -- A comment line has no line feed but its last, so it is one row.
    rw [List.splitOn_eq_singleton (by simp [hrests rest hrest])] at hrow
    obtain rfl := List.mem_singleton.mp hrow
    exact ⟨rest.toList, rfl⟩
  · rintro ⟨rows, hsplit, hrows⟩
    have hfeed : ∀ row ∈ rows, '\n' ∉ row := fun row hrow =>
      Text.not_mem_of_mem_splitOn (by rw [hsplit]; exact List.mem_append_left _ hrow)
    refine ⟨rows.map fun row => String.ofList (row.drop 2), ?_, ?_⟩
    · simp only [List.forall_mem_map, String.toList_ofList]
      exact fun row hrow hmem => hfeed row hrow (List.mem_of_mem_drop hmem)
    · rw [← String.toList_inj, Text.eq_flatMap_of_splitOn hsplit, String.toList_join,
        List.flatMap_map, List.flatMap_map]
      refine List.flatMap_congr fun row hrow => ?_
      obtain ⟨rest, rfl⟩ := hrows row hrow
      simp

/-- What follows each line feed of a text starts with `//`. -/
def ContinuesCommented (text : String) : Prop :=
  ∀ row ∈ (text.toList.splitOn '\n').tail, ['/', '/'] <+: row

instance (text : String) : Decidable (ContinuesCommented text) :=
  inferInstanceAs (Decidable (∀ row ∈ (text.toList.splitOn '\n').tail, ['/', '/'] <+: row))

/-- The first row of a comment starts with `//`, and so do the others if the text goes on with
them. -/
theorem continuesCommented_iff {text : String} :
    ContinuesCommented text ↔
      ∀ row ∈ ("// " ++ text).toList.splitOn '\n', ['/', '/'] <+: row := by
  obtain ⟨first, rest, hsplit⟩ :=
    List.exists_cons_of_ne_nil (List.splitOn_ne_nil '\n' text.toList)
  have hrows : ("// " ++ text).toList.splitOn '\n' = ('/' :: '/' :: ' ' :: first) :: rest := by
    simp [List.splitOn_cons_eq_if_modifyHead, hsplit]
  rw [ContinuesCommented, hsplit, hrows, List.forall_mem_cons]
  simp

/-- **Comments at the outermost level are comment lines exactly if every text goes on with
comments** after its line feeds. -/
theorem isCommented_comments_iff {texts : List String} :
    IsCommented "" (comments "" texts) ↔ ∀ text ∈ texts, ContinuesCommented text := by
  have hcomments : (comments "" texts).toList =
      texts.flatMap fun text => ("// " ++ text).toList ++ ['\n'] := by
    simp [comments, String.toList_join, List.flatMap_map]
  -- The rows of all comments together are the rows of each.
  rw [isCommented_iff, hcomments, Text.splitOn_ended]
  simp only [List.append_left_inj, exists_eq_left', List.mem_flatMap, continuesCommented_iff]
  constructor
  · exact fun h text htext row hrow => h row ⟨text, htext, hrow⟩
  · rintro h row ⟨text, htext, hrow⟩
    exact h text htext row hrow

/-- The line above the directives is one, so it is the directives that matter, if they are
printed. -/
theorem continuesCommented_printedDirectives_iff {settings : EmitSettings} {f : FileDecl} :
    (∀ d ∈ printedDirectives settings f, ContinuesCommented d) ↔
      (settings.sourceComments = true → ∀ d ∈ f.directives, ContinuesCommented d) := by
  have hheading : ContinuesCommented "Preprocessor directives found in file:" := by
    simp [ContinuesCommented, List.splitOn_cons_eq_if_modifyHead]
  rw [printedDirectives]
  split
  · next hprint =>
    obtain ⟨hcomments, -⟩ := (Bool.and_eq_true _ _).mp hprint
    simp [hheading, hcomments]
  · next hprint =>
    have hnone : settings.sourceComments = true → f.directives = [] := by simpa using hprint
    simp +contextual [hnone]

/-! ### Closed comments -/

/-- A text ends with `*/`, and has no other. -/
def ClosesAtEnd (text : String) : Prop :=
  ∃ before, text.toList = before ++ ['*', '/'] ∧ ¬ ['*', '/'] <:+: before ++ ['*']

/-- The comment signs around a text add no `*/` before the last one. -/
theorem closesAtEnd_iff (text : String) :
    ClosesAtEnd ("/* " ++ text ++ " */") ↔ ¬ ['*', '/'] <:+: text.toList := by
  have htext : ("/* " ++ text ++ " */").toList =
      (['/', '*', ' '] ++ text.toList ++ [' ']) ++ ['*', '/'] := by simp
  have hinner : ['*', '/'] <:+: (['/', '*', ' '] ++ text.toList ++ [' ']) ++ ['*'] ↔
      ['*', '/'] <:+: text.toList := by
    -- What ends with a space or a star does not end with a whole `*/`.
    have hlast (cs : List Char) {c : Char} (hc : c ≠ '/') : ¬ ['*', '/'] <:+ cs ++ [c] := by
      rintro ⟨before, hsuffix⟩
      have hend := congrArg List.getLast? hsuffix
      exact hc (by simpa using hend.symm)
    rw [List.infix_concat_iff, List.infix_concat_iff, or_iff_right (hlast _ (by decide)),
      or_iff_right (hlast _ (by decide))]
    simp [List.infix_cons_iff]
  simp only [ClosesAtEnd, htext, List.append_left_inj, exists_eq_left', hinner]

/-! ### What is written -/

/-- A statement without counterpart is written as the comments of its lines. -/
theorem writes_unknown (source : SourceText) (words : String) (t : Target) :
    (Stmt.unknown source).writeAfter words t = .ok () { t with
      text := t.text ++ comments (Line.indentation t.unit t.level) (Text.lines source.text) } := by
  rw [Stmt.writes (.unknown source) words t, ← render_comments]
  simp [Target.lines, Stmt.linesAfter, Line.deeper, Function.comp_def]

/-- A file of a consistent graph is written with the comments of its directives first. -/
theorem exists_text_of_file (settings : EmitSettings) {g : Graph} {id : DeclId} {f : FileDecl}
    (hc : g.outline.Consistent none) (hf : g.file id = .ok f) (unit text : String) :
    ∃ rest, file settings g id ⟨unit, 0, text⟩ =
      .ok () ⟨unit, 0, text ++ comments "" (printedDirectives settings f) ++ rest⟩ := by
  obtain ⟨declarations, hfile, hprints⟩ := exists_declarations_of_file settings hf
  obtain ⟨⟨⟩, ls, hwrites, -⟩ := (hprints _).exists_writes (stands_of_file hc hf)
  refine ⟨Layout.render unit ls, ?_⟩
  have hindentation : "" = Line.indentation unit 0 := rfl
  rw [hfile, (writes_group_line _ _).bind hwrites, Target.lines_append, hindentation,
    ← render_comments]
  simp [Target.lines, Line.deeper, Function.comp_def]

/-- **Source text without counterpart is printed in comments**, and it stays there as far as its
characters allow. A file starts with the comments of its directives, and these are comment lines
exactly if they are not printed or what follows each line feed of a directive starts with `//`. A
statement is written as the comments of its lines, which are comment lines at every level, whatever
it says. The comment of an expression, or of a statement on one line, closes at its end exactly if
the source text has no `*/`. -/
theorem source_text_is_commented (settings : EmitSettings) (g : Graph) (hwf : g.WellFormed)
    (hfiles : ∀ id ∈ g.files, id ∉ g.listed) :
    (∀ id f, g.file id = .ok f → ∀ unit text,
      (∃ rest, file settings g id ⟨unit, 0, text⟩ =
        .ok () ⟨unit, 0, text ++ comments "" (printedDirectives settings f) ++ rest⟩) ∧
      (IsCommented "" (comments "" (printedDirectives settings f)) ↔
        (settings.sourceComments = true → ∀ d ∈ f.directives, ContinuesCommented d))) ∧
    (∀ source words t, let indentation := Line.indentation t.unit t.level
      (Stmt.unknown source).writeAfter words t =
        .ok () { t with text := t.text ++ comments indentation (Text.lines source.text) } ∧
      IsCommented indentation (comments indentation (Text.lines source.text))) ∧
    (∀ text resolved expected source,
      ClosesAtEnd (Expr.mk (.unknown text) resolved expected source).text ↔
        ¬ ['*', '/'] <:+: text.toList) ∧
    ∀ source, ClosesAtEnd (Stmt.unknown source).text ↔ ¬ ['*', '/'] <:+: source.text.toList := by
  have hc := consistent_of_wellFormed hwf hfiles
  refine ⟨?_, ?_, ?_, ?_⟩
  · intro id f hf unit text
    rw [isCommented_comments_iff, continuesCommented_printedDirectives_iff]
    exact ⟨exists_text_of_file settings hc hf unit text, Iff.rfl⟩
  · intro source words t indentation
    exact ⟨writes_unknown source words t,
      isCommented_comments indentation fun _ => Text.not_mem_lines⟩
  · intro text resolved expected source
    exact closesAtEnd_iff text
  · intro source
    exact closesAtEnd_iff source.text

/-- A macro on two lines. -/
def maximumMacro : String :=
  "#define MAX(a, b) \\\n  ((a) > (b) ? (a) : (b))"

theorem not_continuesCommented_maximumMacro : ¬ ContinuesCommented maximumMacro := by decide

/-- A file with a directive on one line and the macro, and nothing else. -/
def limitsFile : FileDecl :=
  ⟨"Limits.h", "Limits.swift", {}, ["#import <math.h>", maximumMacro], [], [], [], []⟩

/-- The graph with the file. -/
def limitsGraph : Graph :=
  runScript [.addFile limitsFile] {}

/-- If the directives are printed, the macro does not stay in the comment. -/
theorem source_text_is_commented_limitsGraph :
    limitsGraph.WellFormed ∧ (∀ id ∈ limitsGraph.files, id ∉ limitsGraph.listed) ∧
      limitsGraph.file ⟨0⟩ = .ok limitsFile ∧
      (∃ rest, file {} limitsGraph ⟨0⟩ ⟨"    ", 0, ""⟩ =
        .ok () ⟨"    ", 0, "" ++ comments "" (printedDirectives {} limitsFile) ++ rest⟩) ∧
      ¬ IsCommented "" (comments "" (printedDirectives {} limitsFile)) ∧
      IsCommented "" (comments "" (printedDirectives { sourceComments := false } limitsFile)) := by
  have hle : limitsGraph.slots.length ≤ 2 ^ 32 := by decide_cbv
  obtain ⟨hwf, hfiles⟩ := wellFormed_runScript hle
  have hfile : limitsGraph.file ⟨0⟩ = .ok limitsFile := rfl
  obtain ⟨hwritten, hprinted⟩ :=
    (source_text_is_commented {} limitsGraph hwf hfiles).1 ⟨0⟩ limitsFile hfile "    " ""
  obtain ⟨-, hsilent⟩ := (source_text_is_commented { sourceComments := false } limitsGraph hwf
    hfiles).1 ⟨0⟩ limitsFile hfile "    " ""
  refine ⟨hwf, hfiles, hfile, hwritten, fun hcommented => ?_, hsilent.mpr (by simp)⟩
  have hmacro : ContinuesCommented maximumMacro :=
    hprinted.mp hcommented rfl maximumMacro (by simp [limitsFile])
  exact not_continuesCommented_maximumMacro hmacro

/-- The tree of a file with the macro. -/
def limitsTree : ObjcNode :=
  { kind := .globalContext, children := [{ kind := .directive maximumMacro }] }

/-- What is printed of the file. -/
def limitsText : String :=
  "// Preprocessor directives found in file:\n// #define MAX(a, b) \\\n  ((a) > (b) ? (a) : (b))\n"

/-- The second line of the macro is printed as code, and an expression can end its comment. -/
theorem macro_is_printed_as_code : ∃ graph,
    Graph.ofTree "Limits.h" limitsTree = .ok (graph, []) ∧
      all {} graph = .ok [("Limits.swift", limitsText)] ∧ ¬ IsCommented "" limitsText ∧
      ¬ ClosesAtEnd (Expr.text { shape := .unknown "limit /* of both */" }) := by
  obtain ⟨graph, htree, hall⟩ : ∃ graph, Graph.ofTree "Limits.h" limitsTree = .ok (graph, []) ∧
      all {} graph = .ok [("Limits.swift",
        (((⟨"    ", 0, ""⟩ : Target).line ("// " ++ "Preprocessor directives found in file:")).line
          ("// " ++ Text.trim maximumMacro)).text)] := ⟨_, rfl, rfl⟩
  have htrim : Text.trim maximumMacro = maximumMacro := by decide_cbv
  have htext : (((⟨"    ", 0, ""⟩ : Target).line
      ("// " ++ "Preprocessor directives found in file:")).line ("// " ++ maximumMacro)).text =
        limitsText := by
    simp [Target.line, Line.render, Line.indentation, String.join, maximumMacro, limitsText]
  rw [htrim, htext] at hall
  have hcomments : limitsText =
      comments "" ["Preprocessor directives found in file:", maximumMacro] := by
    simp [comments, String.join, maximumMacro, limitsText]
  refine ⟨graph, htree, hall, fun hcommented => ?_, fun hcloses => ?_⟩
  · rw [hcomments, isCommented_comments_iff] at hcommented
    exact not_continuesCommented_maximumMacro (hcommented maximumMacro (by simp))
  · exact (closesAtEnd_iff _).mp hcloses (by decide)

end Emit

end ObjcSwift
