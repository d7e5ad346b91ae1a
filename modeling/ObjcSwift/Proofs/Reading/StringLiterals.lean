import ObjcSwift.Swift.Constant
import Mathlib.Tactic.FinCases

/-!
# String literals

A string literal is read in two steps. The first finds where it ends: from the opening quote on, a
backslash takes the next character with it, whatever that is, and the first quote that is not taken
is the closing one (`Reading.readLiteral`). The second decodes what stands between the quotes
(`Reading.decode`).

A backslash that was printed alone could take the closing quote, and reading would go on in what
follows the literal; a quote that was printed alone would end it. Neither happens, as a character is
printed as a backslash with one more character, or as itself if it is neither a backslash nor a
quote (`Reading.escape_cons`).
-/

namespace ObjcSwift.Reading

open Constant

/-! ### Reading a literal -/

/-- Reads up to the closing quote. A backslash takes the next character with it. -/
def readQuoted : List Char → Option (List Char × List Char)
  | [] => none
  | '"' :: s => some ([], s)
  | ['\\'] => none
  | '\\' :: e :: s => (readQuoted s).map fun (body, rest) => ('\\' :: e :: body, rest)
  | c :: s => (readQuoted s).map fun (body, rest) => (c :: body, rest)

/-- Reads a literal from its opening quote on, and gives what stands between its quotes and what
follows it. -/
def readLiteral : List Char → Option (List Char × List Char)
  | '"' :: s => readQuoted s
  | _ => none

/-- The character for which an escape stands. -/
def unescape : Char → Option Char
  | '"' => some '"'
  | '\\' => some '\\'
  | 'n' => some '\n'
  | 't' => some '\t'
  | 'r' => some '\r'
  | _ => none

/-- The characters for which the text between quotes stands, if it has no other escapes. -/
def decode : List Char → Option (List Char)
  | [] => some []
  | ['\\'] => none
  | '\\' :: e :: s => (unescape e).bind fun c => (decode s).map (c :: ·)
  | c :: s => (decode s).map (c :: ·)

/-- The characters that cannot stand in a literal on one line as they are. -/
def breaks : List Char := ['\n', '\t', '\r']

/-! ### How a character is printed -/

/-- A character is printed as an escape that stands for it, or as itself if it needs none. -/
theorem escape_cons (c : Char) (cs : List Char) :
    (∃ e, unescape e = some c ∧ e ∉ breaks ∧ escape (c :: cs) = '\\' :: e :: escape cs) ∨
      (c ≠ '"' ∧ c ≠ '\\' ∧ c ∉ breaks ∧ escape (c :: cs) = c :: escape cs) := by
  by_cases h : c ∈ '"' :: '\\' :: breaks
  · refine .inl ?_
    fin_cases h
    · exact ⟨'"', rfl, by decide, rfl⟩
    · exact ⟨'\\', rfl, by decide, rfl⟩
    · exact ⟨'n', rfl, by decide, rfl⟩
    · exact ⟨'t', rfl, by decide, rfl⟩
    · exact ⟨'r', rfl, by decide, rfl⟩
  · rw [List.mem_cons, List.mem_cons, not_or, not_or] at h
    refine .inr ⟨h.1, h.2.1, h.2.2, ?_⟩
    rw [escape] <;> simp_all [breaks]

variable (cs rest : List Char)

/-- The closing quote is found, whatever follows it. -/
theorem readQuoted_escape : readQuoted (escape cs ++ '"' :: rest) = some (escape cs, rest) := by
  induction cs with
  | nil => simp [escape, readQuoted]
  | cons c cs ih =>
    obtain ⟨e, -, -, he⟩ | ⟨hquote, hslash, -, he⟩ := escape_cons c cs
    · rw [he, List.cons_append, List.cons_append, readQuoted, ih, Option.map_some]
    · rw [he, List.cons_append, readQuoted, ih, Option.map_some] <;> simp [hquote, hslash]

theorem decode_escape : decode (escape cs) = some cs := by
  induction cs with
  | nil => simp [escape, decode]
  | cons c cs ih =>
    obtain ⟨e, hunescape, -, he⟩ | ⟨-, hslash, -, he⟩ := escape_cons c cs
    · rw [he, decode, hunescape, ih, Option.bind_some, Option.map_some]
    · rw [he, decode, ih, Option.map_some] <;> simp [hslash]

theorem not_mem_breaks_of_mem_escape {c : Char} (hc : c ∈ escape cs) : c ∉ breaks := by
  induction cs with
  | nil => exact absurd hc (by simp [escape])
  | cons d cs ih =>
    obtain ⟨e, -, hbreak, he⟩ | ⟨-, -, hbreak, he⟩ := escape_cons d cs
    · rw [he, List.mem_cons, List.mem_cons] at hc
      rcases hc with rfl | rfl | hc
      · decide
      · exact hbreak
      · exact ih hc
    · rw [he, List.mem_cons] at hc
      rcases hc with rfl | hc
      · exact hbreak
      · exact ih hc

/-! ### How a string is printed -/

theorem toList_text_string (s : String) :
    (Constant.string s).text.toList = '"' :: escape s.toList ++ ['"'] := by
  simp [Constant.text, String.toList_append]

/-- **String literals read back exactly.** A printed literal begins and ends with a quote, and
whatever follows it, its last character is the one at which it ends for a reader. What stands
between its quotes decodes to the string, and it has no line break, tab or carriage return as it
is. -/
theorem string_literals_read_back (s : String) :
    ∃ body, (Constant.string s).text.toList = '"' :: body ++ ['"'] ∧
      (∀ rest, readLiteral ((Constant.string s).text.toList ++ rest) = some (body, rest)) ∧
      decode body = some s.toList ∧
      ∀ c ∈ (Constant.string s).text.toList, c ≠ '\n' ∧ c ≠ '\t' ∧ c ≠ '\r' := by
  refine ⟨escape s.toList, toList_text_string s, fun rest => ?_, decode_escape s.toList,
    fun c hc => ?_⟩
  · rw [toList_text_string, List.append_assoc]
    exact readQuoted_escape s.toList rest
  · have hbreak : c ∉ breaks := by
      rw [toList_text_string] at hc
      rcases List.mem_append.mp hc with hc | hc
      · rcases List.mem_cons.mp hc with rfl | hc
        · decide
        · exact not_mem_breaks_of_mem_escape s.toList hc
      · obtain rfl := List.mem_singleton.mp hc
        decide
    simpa [breaks] using hbreak

/-- A backslash and a quote. -/
example : (Constant.string "\\\"").text = "\"\\\\\\\"\"" := by decide

end ObjcSwift.Reading
