import ObjcSwift.Emit.Statement
import ObjcSwift.Proofs.Graph.Outcome
import ObjcSwift.Proofs.Reading.Basic

/-!
# Writers that do the same to every target

What a writer does could depend on the target: on its level, and on what was written before. No
writer here looks at either, so each **writes the same lines to every target**, with the level of
the target in front (`Writer.Writes`), or it fails on every target. In both cases it comes back to
the level that it started from.

`Writer.Prints` says this of a writer, with a condition under which it does not fail. It is kept by
every way to put writers together, so there is one lemma for each way. For statements, which cannot
fail, the lines are known (`Body.writes`).
-/

namespace ObjcSwift

/-! ### Lines of a target -/

namespace Layout

theorem render_append (unit : String) (ls ls' : List Line) :
    render unit (ls ++ ls') = render unit ls ++ render unit ls' := by
  rw [render, List.map_append, String.join_append]
  rfl

/-- All sections but the first follow an empty line. -/
theorem sections_cons (part : List Line) (parts : List (List Line)) :
    sections (part :: parts) = part ++ parts.flatMap (Line.blank :: ·) :=
  Reading.intercalate_cons_eq_flatMap [Line.blank] part parts

/-- **Sections are written with a line break between each two.** -/
theorem render_sections (unit : String) (parts : List (List Line)) :
    render unit (sections parts) = "\n".intercalate (parts.map (render unit)) := by
  induction parts with
  | nil => rfl
  | cons part parts ih =>
    cases parts with
    | nil => simp [sections]
    | cons next parts =>
      have hblank : render unit [Line.blank] = "\n" := rfl
      rw [List.map_cons, String.intercalate_cons_of_ne_nil (by simp), ← ih, sections,
        List.intercalate_cons_cons, render_append, render_append, hblank]
      rfl

end Layout

namespace Target

variable (t : Target) (ls ls' : List Line)

theorem lines_nil : t.lines [] = t := by
  simp [lines, Layout.render, String.join]

theorem lines_append : t.lines (ls ++ ls') = (t.lines ls).lines ls' := by
  simp only [lines, List.map_append, Layout.render_append, String.append_assoc]

theorem line_eq (text : String) : t.line text = t.lines [{ text }] := by
  simp [line, lines, Layout.render, String.join, Line.deeper]

/-- In a new target, lines stand at their own depth. -/
theorem text_lines_new (unit : String) :
    (({ unit } : Target).lines ls).text = Layout.render unit ls := by
  simp [lines, Line.deeper]

/-- What is written one level deeper is written with deeper lines. -/
theorem dedent_lines_indent : (t.indent.lines ls).dedent = t.lines (Layout.indented ls) := by
  simp [lines, indent, dedent, Layout.indented, Line.deeper, Function.comp_def, Nat.add_assoc,
    Nat.add_comm t.level]

end Target

/-! ### Writers -/

namespace Writer

variable {α β : Type} {ok : Prop} {w : Writer α} {a : α} {ls ls' : List Line} {P : α → Prop}
  {Q : β → Prop}

/-- A writer writes the same lines to every target, and has an answer. -/
def Writes (w : Writer α) (a : α) (ls : List Line) : Prop :=
  ∀ t, w t = .ok a (t.lines ls)

/-- A writer fails on every target, and leaves it at its level. -/
def Fails (w : Writer α) (e : GraphError) : Prop :=
  ∀ t, ∃ t', w t = .error e t' ∧ t'.level = t.level

/-- **A writer does the same to every target**: it writes some lines, or it fails, but not under the
condition. -/
def Prints (ok : Prop) (w : Writer α) (P : α → Prop) : Prop :=
  (∃ a ls, w.Writes a ls ∧ (ok → P a)) ∨ ∃ e, w.Fails e ∧ ¬ok

theorem Writes.prints (h : w.Writes a ls) (hP : ok → P a) : w.Prints ok P :=
  .inl ⟨a, ls, h, hP⟩

theorem Prints.exists_writes (h : w.Prints ok P) (hok : ok) : ∃ a ls, w.Writes a ls ∧ P a := by
  obtain ⟨a, ls, hw, ha⟩ | ⟨e, -, hnot⟩ := h
  · exact ⟨a, ls, hw, ha hok⟩
  · exact absurd hok hnot

/-- A stronger condition. -/
theorem Prints.imp {ok' : Prop} (himp : ok' → ok) (h : w.Prints ok P) : w.Prints ok' P := by
  obtain ⟨a, ls, hw, hP⟩ | ⟨e, hfails, hnot⟩ := h
  · exact hw.prints fun hok => hP (himp hok)
  · exact .inr ⟨e, hfails, fun hok => hnot (himp hok)⟩

/-! ### Putting writers together -/

theorem writes_pure (a : α) : Writes (pure a) a [] := fun t => by
  rw [t.lines_nil]
  rfl

theorem Writes.bind {f : α → Writer β} {b : β} (h : w.Writes a ls) (hf : (f a).Writes b ls') :
    (w >>= f).Writes b (ls ++ ls') := fun t => by
  change EStateM.bind w f t = _
  rw [EStateM.bind, h t, t.lines_append]
  exact hf _

theorem writes_line (text : String) : (line text).Writes () [{ text }] := fun t => by
  rw [← t.line_eq]
  rfl

theorem Writes.indented (h : w.Writes a ls) : (indented w).Writes a (Layout.indented ls) :=
  fun t => by
    rw [Writer.indented, h t.indent, ← t.dedent_lines_indent]

theorem prints_pure (h : ok → P a) : Prints ok (pure a) P :=
  (writes_pure a).prints h

theorem prints_line (text : String) : (line text).Prints ok fun _ => True :=
  (writes_line text).prints fun _ => trivial

/-- A lookup does nothing to the target. -/
theorem prints_look {found : Except GraphError α} (h : ok → Finds found P) :
    (look found).Prints ok P := by
  cases found with
  | ok a =>
    refine (writes_pure a).prints fun hok => ?_
    obtain ⟨a', ha, hP⟩ := h hok
    obtain rfl := Except.ok.inj ha
    exact hP
  | error e =>
    refine .inr ⟨e, fun t => ⟨t, rfl, rfl⟩, fun hok => ?_⟩
    obtain ⟨a', ha, -⟩ := h hok
    exact absurd ha (by simp)

/-- One writer after another; the second may rely on the answer of the first. -/
theorem Prints.bind {f : α → Writer β} (h : w.Prints ok P)
    (hf : ∀ a, (f a).Prints (ok ∧ P a) Q) : (w >>= f).Prints ok Q := by
  obtain ⟨a, ls, hw, hP⟩ | ⟨e, hfails, hnot⟩ := h
  · obtain ⟨b, ls', hfa, hQ⟩ | ⟨e, hfails, hnot⟩ := hf a
    · exact (hw.bind hfa).prints fun hok => hQ ⟨hok, hP hok⟩
    · refine .inr ⟨e, fun t => ?_, fun hok => hnot ⟨hok, hP hok⟩⟩
      obtain ⟨t', ht', hlevel⟩ := hfails (t.lines ls)
      refine ⟨t', ?_, hlevel⟩
      change EStateM.bind w f t = _
      rw [EStateM.bind, hw t]
      exact ht'
  · refine .inr ⟨e, fun t => ?_, hnot⟩
    obtain ⟨t', ht', hlevel⟩ := hfails t
    refine ⟨t', ?_, hlevel⟩
    change EStateM.bind w f t = _
    rw [EStateM.bind, ht']

/-- One writer after another, where the first has no answer of interest. -/
theorem Prints.seq {f : α → Writer β} (h : w.Prints ok fun _ => True)
    (hf : ∀ a, (f a).Prints ok Q) : (w >>= f).Prints ok Q :=
  h.bind fun a => by simpa using hf a

/-- **The level is left again**, also after a failure. -/
theorem Prints.indented (h : w.Prints ok P) : (indented w).Prints ok P := by
  obtain ⟨a, ls, hw, hP⟩ | ⟨e, hfails, hnot⟩ := h
  · exact hw.indented.prints hP
  · refine .inr ⟨e, fun t => ?_, hnot⟩
    obtain ⟨t', ht', hlevel⟩ := hfails t.indent
    refine ⟨t'.dedent, by rw [Writer.indented, ht'], ?_⟩
    rw [Target.dedent, hlevel]
    rfl

theorem Prints.block {inside : Writer Unit} (h : inside.Prints ok fun _ => True)
    (opening : String) : (block opening inside).Prints ok fun _ => True :=
  ((prints_line _).seq fun _ => h.indented).seq fun _ => prints_line _

theorem prints_forM {f : β → Writer Unit} {items : List β}
    (h : ∀ x ∈ items, (f x).Prints ok fun _ => True) : (items.forM f).Prints ok fun _ => True := by
  induction items with
  | nil => exact prints_pure fun _ => trivial
  | cons x items ih =>
    refine (h x List.mem_cons_self).seq fun _ => ?_
    exact ih fun y hy => h y (List.mem_cons_of_mem x hy)

theorem prints_space (written : Bool) : (space written).Prints ok fun _ => True := by
  cases written with
  | true => exact (prints_line "").seq fun _ => prints_pure fun _ => trivial
  | false => exact prints_pure fun _ => trivial

theorem prints_group {items : List β} {write : β → Writer Unit}
    (h : ∀ x ∈ items, (write x).Prints ok fun _ => True) (written : Bool) :
    (group items write written).Prints ok fun _ => True := by
  unfold group
  split
  · exact prints_pure fun _ => trivial
  · refine (prints_space written).seq fun _ => ?_
    exact (prints_forM h).seq fun _ => prints_pure fun _ => trivial

/-- Sections are printed if each item is found and printed. -/
theorem prints_sections {items : List α} {find : α → Except GraphError β}
    {write : β → Writer Unit} {Q : β → Prop} (hfind : ok → ∀ x ∈ items, Finds (find x) Q)
    (hwrite : ∀ b, (write b).Prints (ok ∧ Q b) fun _ => True) (written : Bool) :
    (sections items find write written).Prints ok fun _ => True := by
  unfold sections
  induction items generalizing written with
  | nil => exact prints_pure fun _ => trivial
  | cons x items ih =>
    rw [List.foldlM_cons]
    refine Prints.seq ?_ fun written =>
      ih (fun hok y hy => hfind hok y (List.mem_cons_of_mem x hy)) written
    refine (prints_look fun hok => hfind hok x List.mem_cons_self).bind fun b => ?_
    refine (prints_space written).seq fun _ => ?_
    exact (hwrite b).seq fun _ => prints_pure fun _ => trivial

/-! ### Lines that are known -/

theorem Writes.opened {inside : Writer Unit} (h : inside.Writes () ls) (opening : String) :
    (opened opening inside).Writes () (Layout.opened opening ls) :=
  (writes_line _).bind h.indented

theorem Writes.block {inside : Writer Unit} (h : inside.Writes () ls) (opening : String) :
    (block opening inside).Writes () (Layout.block opening ls) :=
  (h.opened opening).bind (writes_line _)

theorem writes_forM_line (items : List β) (text : β → String) :
    (items.forM fun x => line (text x)).Writes () (items.map fun x => { text := text x }) := by
  induction items with
  | nil => exact writes_pure ()
  | cons x items ih => exact (writes_line (text x)).bind ih

/-- The first section with a line for each item. -/
theorem writes_group_line (items : List β) (text : β → String) :
    (group items (fun x => line (text x)) false).Writes (!items.isEmpty)
      (items.map fun x => { text := text x }) := by
  unfold group
  cases items with
  | nil => exact writes_pure false
  | cons x items =>
    have hend := (writes_forM_line (x :: items) text).bind (f := fun _ => pure true)
      (writes_pure true)
    rwa [List.append_nil] at hend

/-- Sections with known lines follow an empty line each, the first one only if sections were written
before. -/
theorem writes_sections {write : β → Writer Unit} {items : List β} {parts : List (List Line)}
    (h : List.Forall₂ (fun x ls => (write x).Writes () ls) items parts) (written : Bool) :
    (sections items .ok write written).Writes (written || !items.isEmpty)
      (if written then parts.flatMap (Line.blank :: ·) else Layout.sections parts) := by
  unfold sections
  induction h generalizing written with
  | nil => cases written <;> exact writes_pure _
  | @cons x part items parts hx _ ih =>
    have hend : (do write x; return true : Writer Bool).Writes true (part ++ []) :=
      hx.bind (writes_pure true)
    -- Only the first item may stand without an empty line before it.
    have hfirst : (do
        let found ← look (.ok x)
        let written ← space written
        write found
        return written : Writer Bool).Writes true
          ((if written then [Line.blank] else []) ++ (part ++ [])) := by
      cases written with
      | true => exact Writes.bind (f := fun _ => do write x; return true) (writes_line "") hend
      | false => exact hend
    have hall := Writes.bind (f := fun written => List.foldlM _ written items) hfirst (ih true)
    rw [List.foldlM_cons]
    cases written <;> simpa [Layout.sections_cons] using hall

end Writer

/-! ### Statements -/

open Writer

mutual

/-- **A statement is written with its lines**, at whatever level the target is. -/
theorem Stmt.writes : ∀ (s : Stmt) (words : String),
    (s.writeAfter words).Writes () (s.linesAfter words)
  | .compound body, words => (writes_writeBody body).block "do"
  | .branch condition body none, words => (writes_writeBody body).block _
  | .branch condition body (some [s]), words => by
    rw [Stmt.writeAfter, Stmt.linesAfter]
    refine ((writes_writeBody body).opened _).bind ?_
    -- An `if` goes on behind `else`; any other statement is put in a block.
    cases s.isBranch with
    | true => exact s.writes _
    | false => exact (s.writes "if").block "\x7d else"
  | .branch condition body (some []), words =>
    ((writes_writeBody body).opened _).bind ((writes_writeBody []).block _)
  | .branch condition body (some (s :: s' :: ss)), words =>
    ((writes_writeBody body).opened _).bind ((writes_writeBody (s :: s' :: ss)).block _)
  | .whileLoop condition body, words => (writes_writeBody body).block _
  | .repeatLoop body condition, words => ((writes_writeBody body).opened _).bind (writes_line _)
  | .forIn binding sequence body, words => (writes_writeBody body).block _
  | .expressions values, words => writes_forM_line values Expr.text
  | .locals declarations, words => writes_forM_line declarations _
  | .unknown source, words => writes_forM_line (Text.lines source.text) _
  | .return value, words => writes_line _
  | .break, words => writes_line _
  | .continue, words => writes_line _

theorem writes_writeBody : ∀ ss : List Stmt, (writeBody ss).Writes () (bodyLines ss)
  | [] => writes_pure ()
  | s :: ss => (s.writes "if").bind (writes_writeBody ss)

end

theorem Body.writes (body : Body) : body.write.Writes () body.lines :=
  writes_writeBody body

end ObjcSwift
