import Mathlib

/-!
# Readers

What readers of printed text have in common. A reader takes a text and gives back what stands at
its beginning, with the text after that. Words are read as far as they go, and lists are printed
with a separator between their items, so all items but the first follow a separator
(`intercalate_cons_eq_flatMap`), and what is read before a comma and before the closing character is
read in a list (`readList_listed`).
-/

namespace ObjcSwift.Reading

variable {α β : Type}

/-- Goes on after a reader, which may not leave more text than it was given. -/
def andThen (s : List Char) (result : Option (α × List Char))
    (next : α → (rest : List Char) → rest.length ≤ s.length → Option β) : Option β :=
  match result with
  | some (a, rest) => if h : rest.length ≤ s.length then next a rest h else none
  | none => none

theorem andThen_some {s rest : List Char} {a : α}
    {next : α → (rest : List Char) → rest.length ≤ s.length → Option β}
    (h : rest.length ≤ s.length) : andThen s (some (a, rest)) next = next a rest h :=
  dif_pos h

/-! ### Words -/

/-- Whether a character may stand in a word: an ASCII letter, a digit or an underscore. -/
def isWordChar (c : Char) : Bool :=
  c.isAlphanum || c == '_'

/-- A text of one character or more, all of which may stand in a word. -/
def IsWord (text : String) : Prop :=
  text ≠ "" ∧ ∀ c ∈ text.toList, isWordChar c = true

theorem IsWord.toList_ne_nil {text : String} (h : IsWord text) : text.toList ≠ [] :=
  fun hnil => h.1 (String.toList_eq_nil_iff.mp hnil)

/-- The text does not go on with a word. -/
def WordEnds (rest : List Char) : Prop :=
  ∀ c ∈ rest.head?, isWordChar c = false

/-- The text ends, or it goes on with one of the characters. -/
def GoesOn (cs rest : List Char) : Prop :=
  ∀ c ∈ rest.head?, c ∈ cs

theorem goesOn_nil (cs : List Char) : GoesOn cs [] := by simp [GoesOn]

theorem goesOn_cons {cs : List Char} {c : Char} (hc : c ∈ cs) (s : List Char) :
    GoesOn cs (c :: s) := by
  rintro d hd
  cases hd
  exact hc

theorem GoesOn.wordEnds {cs rest : List Char} (h : GoesOn cs rest)
    (hcs : ∀ c ∈ cs, isWordChar c = false) : WordEnds rest :=
  fun c hc => hcs c (h c hc)

/-- Reads a word as far as it goes. -/
def readWord (s : List Char) : Option (String × List Char) :=
  let word := s.takeWhile isWordChar
  if word = [] then none else some (String.ofList word, s.dropWhile isWordChar)

variable {word : String} {rest : List Char}

theorem readWord_append (hword : IsWord word) (hrest : WordEnds rest) :
    readWord (word.toList ++ rest) = some (word, rest) := by
  have htake : (word.toList ++ rest).takeWhile isWordChar = word.toList := by
    rw [List.takeWhile_append_of_pos hword.2]
    cases rest with
    | nil => simp
    | cons c rest => simp [hrest c (by simp)]
  have hdrop : (word.toList ++ rest).dropWhile isWordChar = rest := by
    rw [List.dropWhile_append_of_pos hword.2]
    cases rest with
    | nil => rfl
    | cons c rest => simp [hrest c (by simp)]
  rw [readWord, htake, hdrop, if_neg hword.toList_ne_nil, String.ofList_toList]

/-- A text that starts with a word starts with none of the other characters. -/
theorem IsWord.append_ne_cons (hword : IsWord word) {c : Char} (hc : isWordChar c = false)
    (s : List Char) : word.toList ++ rest ≠ c :: s := by
  intro h
  cases hs : word.toList with
  | nil => exact hword.toList_ne_nil hs
  | cons d ds =>
    rw [hs] at h
    cases h
    exact absurd (hword.2 c (by simp [hs])) (by simp [hc])

/-! ### Lists -/

/-- Reads one item or more up to a closing character. The reader of items is called on parts of the
text only. -/
def readItems {bound : Nat} (item : (s : List Char) → s.length ≤ bound → Option (α × List Char))
    (close : Char) (s : List Char) (hs : s.length ≤ bound) : Option (List α × List Char) :=
  andThen s (item s hs) fun a rest hrest =>
    match rest with
    | ',' :: ' ' :: s =>
      andThen s (readItems item close s (by simp only [List.length_cons] at hrest; omega))
        fun as rest _ => some (a :: as, rest)
    | c :: rest => if c = close then some ([a], rest) else none
    | [] => none
termination_by s.length
decreasing_by
  simp only [List.length_cons] at hrest
  omega

/-- Reads items up to a closing character. -/
def readList (close : Char) (s : List Char)
    (item : (s' : List Char) → s'.length ≤ s.length → Option (α × List Char)) :
    Option (List α × List Char) :=
  if s.head? = some close then some ([], s.tail) else readItems item close s le_rfl

/-- The items of a list after the first follow a separator each. -/
theorem intercalate_cons_eq_flatMap (sep text : List α) (texts : List (List α)) :
    sep.intercalate (text :: texts) = text ++ texts.flatMap (sep ++ ·) := by
  induction texts generalizing text with
  | nil => simp
  | cons t ts ih => rw [List.intercalate_cons_cons, ih, List.flatMap_cons]; simp

section Lists

variable {bound : Nat} {close : Char} {chars : β → List Char} {value : β → α} {bs : List β}

/-- What is read before a comma and before the closing character is read in a list. -/
theorem readItems_listed {item : (s : List Char) → s.length ≤ bound → Option (α × List Char)}
    (hclose : close ≠ ',') (rest : List Char) (hne : bs ≠ [])
    (hitem : ∀ b ∈ bs, ∀ c ∈ [',', close], ∀ rest h,
      item (chars b ++ c :: rest) h = some (value b, c :: rest)) :
    ∀ h, readItems item close ([',', ' '].intercalate (bs.map chars) ++ close :: rest) h =
      some (bs.map value, rest) := by
  induction bs with
  | nil => exact absurd rfl hne
  | cons b bs ih =>
    obtain ⟨hb, hbs⟩ := List.forall_mem_cons.mp hitem
    intro h
    cases bs with
    | nil =>
      simp only [List.map_cons, List.map_nil, List.intercalate_singleton] at h ⊢
      rw [readItems, hb close (by simp) rest, andThen_some (by grind)]
      split <;> grind
    | cons b' bs =>
      have hlisted : [',', ' '].intercalate ((b :: b' :: bs).map chars) ++ close :: rest =
          chars b ++ ',' :: ' ' ::
            ([',', ' '].intercalate ((b' :: bs).map chars) ++ close :: rest) := by
        simp
      simp only [hlisted] at h ⊢
      rw [readItems, hb ',' (by simp), andThen_some (by grind)]
      change andThen _ (readItems item close _ _) _ = _
      rw [ih (by simp) hbs, andThen_some (by grind)]
      rfl

/-- A list is read if its items are, and if none starts with the closing character. -/
theorem readList_listed (chars : β → List Char) (value : β → α) (bs : List β) {s rest : List Char}
    {item : (s' : List Char) → s'.length ≤ s.length → Option (α × List Char)}
    (hs : s = [',', ' '].intercalate (bs.map chars) ++ close :: rest) (hclose : close ≠ ',')
    (hnone : ∀ s h, item (close :: s) h = none)
    (hitem : ∀ b ∈ bs, ∀ c ∈ [',', close], ∀ rest h,
      item (chars b ++ c :: rest) h = some (value b, c :: rest)) :
    readList close s item = some (bs.map value, rest) := by
  cases bs with
  | nil => subst hs; simp [readList]
  | cons b bs =>
    have hstart : s.head? ≠ some close := by
      obtain ⟨c, hc, s', hs'⟩ : ∃ c ∈ [',', close], ∃ s', s = chars b ++ c :: s' := by
        cases bs with
        | nil => exact ⟨close, by simp, rest, by simpa using hs⟩
        | cons _ _ => exact ⟨',', by simp, _, by simpa using hs⟩
      have hread := hitem b List.mem_cons_self c hc s' (by rw [hs'])
      intro hhead
      obtain ⟨t, ht⟩ := List.head?_eq_some_iff.mp hhead
      rw [hs'] at ht
      grind
    subst hs
    rw [readList, if_neg hstart, readItems_listed hclose rest (by simp) hitem]

end Lists

end ObjcSwift.Reading
