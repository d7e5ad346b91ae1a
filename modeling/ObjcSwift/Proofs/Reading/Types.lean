import ObjcSwift.Proofs.Reading.Basic
import ObjcSwift.Proofs.Syntax.TypeParts
import ObjcSwift.Swift.SwiftType.Text

/-!
# Printed types are unambiguous

A reader takes the text of a type back to the type: first a head, which is a name with or without
arguments, a bracket or a parenthesis, then the suffixes `?` and `!`, parts after dots and members
after ampersands. It needs no more than the next characters to tell apart what may follow, so the
text of a legible type can only be read one way. What a legible type is (`Legible`) is what the
brackets of arrays and dictionaries, `Void`, `.Type` and the parentheses before a suffix rest on.

The main statement says that two legible types with the same text are the same type
(`legible_types_print_apart`).
-/

namespace ObjcSwift.SwiftType

open Reading

/-! ### The reader -/

/-- The type of a name that stands alone. -/
def ofName (name : String) : SwiftType :=
  if name = "Void" then void else named name

/-- A type with one more part after it. -/
def joined : SwiftType → SwiftType → SwiftType
  | nested parts, u => nested (parts ++ [u])
  | t, u => nested [t, u]

/-- A type with one more member of a composition after it. -/
def composed : SwiftType → SwiftType → SwiftType
  | composition members, u => composition (members ++ [u])
  | t, u => composition [t, u]

mutual

/-- Reads a type; as a member of a composition it ends before the next `&`. -/
def read (isMember : Bool) (s : List Char) : Option (SwiftType × List Char) :=
  andThen s (readHead s) fun t rest _ => readTail isMember t rest
termination_by 3 * s.length + 2

/-- Reads a type up to its first suffix. -/
def readHead (s : List Char) : Option (SwiftType × List Char) :=
  match s with
  | '[' :: s => andThen s (read false s) fun t rest _ =>
    match rest with
    | ']' :: rest => some (array t, rest)
    | ':' :: ' ' :: s => andThen s (read false s) fun value rest _ =>
      match rest with
      | ']' :: rest => some (dictionary t value, rest)
      | _ => none
    | _ => none
  | '(' :: s => andThen s (readList ')' s fun s _ => read false s) fun ts rest _ =>
    match rest with
    | ' ' :: '-' :: '>' :: ' ' :: s =>
      andThen s (read false s) fun result rest _ => some (block result ts, rest)
    | rest =>
      match ts with
      | [t] => some (t, rest)
      | ts => some (tuple ts, rest)
  | s => andThen s (readWord s) fun name rest _ =>
    match rest with
    | '<' :: s => andThen s (readList '>' s fun s _ => read false s) fun ts rest _ =>
      some (generic name ts, rest)
    | rest => some (ofName name, rest)
termination_by 3 * s.length + 1
decreasing_by all_goals grind

/-- Reads the suffixes of a type. -/
def readTail (isMember : Bool) (t : SwiftType) (s : List Char) :
    Option (SwiftType × List Char) :=
  match s with
  | '?' :: s => readTail isMember (optional t) s
  | '!' :: s => readTail isMember (implicitlyUnwrapped t) s
  | '.' :: s => andThen s (readHead s) fun u rest _ =>
    readTail isMember (if u = named "Type" then metatype t else t.joined u) rest
  | ' ' :: '&' :: ' ' :: s =>
    if isMember then some (t, ' ' :: '&' :: ' ' :: s)
    else andThen s (read true s) fun u rest _ => readTail isMember (t.composed u) rest
  | rest => some (t, rest)
termination_by 3 * s.length

end

/-! ### What may follow a type -/

/-- The text does not go on with a suffix of a type. -/
abbrev Ends (rest : List Char) : Prop :=
  GoesOn [')', ']', '>', ',', ':'] rest

/-- What may follow a type that needs no parentheses before a suffix. -/
inductive Follows : List Char → Prop
  | ends {s : List Char} (h : Ends s) : Follows s
  | optional (s : List Char) : Follows ('?' :: s)
  | implicitlyUnwrapped (s : List Char) : Follows ('!' :: s)
  | dot (s : List Char) : Follows ('.' :: s)
  | and (s : List Char) : Follows (' ' :: '&' :: ' ' :: s)

variable {rest : List Char} {t : SwiftType} {ts : List SwiftType} {name : String}

theorem Ends.wordEnds (h : Ends rest) : WordEnds rest :=
  GoesOn.wordEnds h (by simp [isWordChar])

theorem Follows.wordEnds (h : Follows rest) : WordEnds rest := by
  cases h with
  | ends h => exact h.wordEnds
  | optional s | implicitlyUnwrapped s | dot s | and s => intro c hc; cases hc; decide

theorem Follows.head?_ne_angle (h : Follows rest) : rest.head? ≠ some '<' := by
  cases h with
  | ends h => intro hc; simpa using h '<' hc
  | optional s | implicitlyUnwrapped s | dot s | and s => simp

theorem Follows.ne_arrow (h : Follows rest) (s : List Char) :
    rest ≠ ' ' :: '-' :: '>' :: ' ' :: s := by
  cases h with
  | ends h => rintro rfl; simpa using h ' '
  | optional s | implicitlyUnwrapped s | dot s | and s => simp

theorem readTail_of_ends (h : Ends rest) (isMember : Bool) (t : SwiftType) :
    readTail isMember t rest = some (t, rest) := by
  rw [readTail]
  all_goals
    rintro s rfl
    simpa using h _ rfl

theorem readTail_member_and (t : SwiftType) (s : List Char) :
    readTail true t (' ' :: '&' :: ' ' :: s) = some (t, ' ' :: '&' :: ' ' :: s) := by
  rw [readTail, if_pos rfl]

/-! ### Heads -/

/-- A word alone is read as a name. -/
theorem readHead_name (hname : IsWord name) (hrest : Follows rest) :
    readHead (name.toList ++ rest) = some (ofName name, rest) := by
  rw [readHead, readWord_append hname hrest.wordEnds, andThen_some (by grind)]
  · split
    · exact absurd rfl hrest.head?_ne_angle
    · rfl
  · exact fun s => hname.append_ne_cons (by decide) s
  · exact fun s => hname.append_ne_cons (by decide) s

/-- A word before an angle is read as the name of a generic type. -/
theorem readHead_angle (hname : IsWord name) (s : List Char) :
    readHead (name.toList ++ '<' :: s) =
      andThen s (readList '>' s fun s _ => read false s) fun ts rest _ =>
        some (generic name ts, rest) := by
  have hangle : WordEnds ('<' :: s) := fun c hc => by cases hc; decide
  rw [readHead, readWord_append hname hangle, andThen_some (by grind)]
  · rfl
  · exact fun s => hname.append_ne_cons (by decide) s
  · exact fun s => hname.append_ne_cons (by decide) s

/-! ### What is read back -/

/-- Where a type ends, its text is read back as the type. -/
def Reads (t : SwiftType) : Prop :=
  ∀ rest, Ends rest → read false (t.text.toList ++ rest) = some (t, rest)

/-- Reading the text of a type comes to reading on with the type. -/
def ReadsOn (t : SwiftType) : Prop :=
  ∀ isMember rest, Follows rest → read isMember (t.text.toList ++ rest) = readTail isMember t rest

/-- The text of a type is read back up to the first suffix. -/
def ReadsHead (t : SwiftType) : Prop :=
  ∀ rest, Follows rest → readHead (t.text.toList ++ rest) = some (t, rest)

theorem ReadsHead.readsOn (h : t.ReadsHead) : t.ReadsOn := by
  intro isMember rest hrest
  rw [read, h rest hrest, andThen_some (by grind)]

theorem ReadsOn.reads (h : t.ReadsOn) : t.Reads := by
  intro rest hrest
  rw [h false rest (.ends hrest), readTail_of_ends hrest]

/-- No type is read from a closing character. -/
theorem readHead_close {close : Char} (hclose : close ∈ [')', '>']) (s : List Char) :
    readHead (close :: s) = none := by
  simp only [List.mem_cons, List.not_mem_nil, or_false] at hclose
  rcases hclose with rfl | rfl <;> (rw [readHead]; rfl; all_goals simp)

/-- The texts of types with separators between them. -/
def listText (ts : List SwiftType) : List Char :=
  [',', ' '].intercalate (ts.map (String.toList ∘ text))

/-- Between parentheses or angles, types are read back. -/
theorem readList_listText {close : Char} (hclose : close ∈ [')', '>']) (rest : List Char)
    (ts : List SwiftType) (h : ∀ u ∈ ts, u.Reads) :
    readList close (listText ts ++ close :: rest) (fun s _ => read false s) = some (ts, rest) := by
  have hends : ∀ c ∈ [',', close], c ∈ [')', ']', '>', ',', ':'] := by grind
  have hnone : ∀ s, read false (close :: s) = none := fun s => by
    rw [read, readHead_close hclose]
    rfl
  conv_rhs => rw [← ts.map_id]
  exact readList_listed (String.toList ∘ text) id ts rfl (by grind) (fun s _ => hnone s)
    fun t ht c hc s _ => h t ht _ (goesOn_cons (hends c hc) s)

/-! ### Constructors -/

attribute [local simp] text genericText

theorem text_generic_of_plain (harray : ∀ t, ts = [t] → name ≠ "Array")
    (hdictionary : ∀ t u, ts = [t, u] → name ≠ "Dictionary") :
    (generic name ts).text.toList = name.toList ++ '<' :: (listText ts ++ ['>']) := by
  match ts with
  | [] => simp [listText]
  | [t] => simp [listText, harray t rfl]
  | [t, u] => simp [listText, hdictionary t u rfl]
  | t :: u :: v :: ts => simp [listText]

theorem readsHead_array (ht : t.Reads) : (array t).ReadsHead := by
  intro rest _
  have htext : (array t).text.toList ++ rest = '[' :: (t.text.toList ++ ']' :: rest) := by
    simp [array]
  rw [htext, readHead, ht _ (goesOn_cons (by decide) rest), andThen_some (by grind)]
  rfl

theorem readsHead_dictionary {key value : SwiftType} (hkey : key.Reads) (hvalue : value.Reads) :
    (dictionary key value).ReadsHead := by
  intro rest _
  have htext : (dictionary key value).text.toList ++ rest =
      '[' :: (key.text.toList ++ ':' :: ' ' :: (value.text.toList ++ ']' :: rest)) := by
    simp [dictionary]
  rw [htext, readHead, hkey _ (goesOn_cons (by decide) _), andThen_some (by grind)]
  change andThen _ (read false (value.text.toList ++ ']' :: rest)) _ = _
  rw [hvalue _ (goesOn_cons (by decide) rest), andThen_some (by grind)]
  rfl

theorem readsHead_generic (hname : IsWord name) (hts : ∀ t ∈ ts, t.Reads) :
    (generic name ts).ReadsHead := by
  -- Arrays and dictionaries are printed in brackets, all other types with arguments in angles.
  by_cases harray : ∃ t, ts = [t] ∧ name = "Array"
  · obtain ⟨t, rfl, rfl⟩ := harray
    exact readsHead_array (hts t List.mem_cons_self)
  by_cases hdictionary : ∃ t u, ts = [t, u] ∧ name = "Dictionary"
  · obtain ⟨t, u, rfl, rfl⟩ := hdictionary
    exact readsHead_dictionary (hts t (by simp)) (hts u (by simp))
  intro rest _
  rw [text_generic_of_plain (fun t h hn => harray ⟨t, h, hn⟩)
    fun t u h hn => hdictionary ⟨t, u, h, hn⟩]
  simp only [List.append_assoc, List.cons_append, List.nil_append]
  rw [readHead_angle hname, readList_listText (by decide) rest ts hts, andThen_some (by grind)]

theorem readsHead_named (hname : IsWord name) (hvoid : name ≠ "Void") :
    (named name).ReadsHead := by
  intro rest hrest
  rw [text, readHead_name hname hrest, ofName, if_neg hvoid]

theorem readsHead_void : void.ReadsHead := by
  intro rest hrest
  have hvoid : IsWord "Void" := ⟨by decide, by simp [isWordChar]⟩
  exact readHead_name hvoid hrest

/-- Parentheses around one type and no arrow after them only group. -/
theorem readHead_group (ht : t.Reads) (hrest : Follows rest) :
    readHead ('(' :: (t.text.toList ++ ')' :: rest)) = some (t, rest) := by
  have htext : t.text.toList = listText [t] := by simp [listText]
  rw [htext, readHead, readList_listText (by decide) rest [t] (by simpa using ht),
    andThen_some (by grind)]
  split
  · exact absurd rfl (hrest.ne_arrow _)
  · rfl

theorem readsHead_tuple (hts : ∀ t ∈ ts, t.Reads) (hlength : 2 ≤ ts.length) :
    (tuple ts).ReadsHead := by
  intro rest hrest
  match ts with
  | t :: u :: ts =>
    have htext : (tuple (t :: u :: ts)).text.toList ++ rest =
        '(' :: (listText (t :: u :: ts) ++ ')' :: rest) := by
      simp [listText]
    rw [htext, readHead, readList_listText (by decide) rest _ hts, andThen_some (by grind)]
    split
    · exact absurd rfl (hrest.ne_arrow _)
    · rfl

theorem reads_block {result : SwiftType} (hresult : result.Reads) (hts : ∀ t ∈ ts, t.Reads) :
    (block result ts).Reads := by
  intro rest hrest
  have htext : (block result ts).text.toList ++ rest =
      '(' :: (listText ts ++ ')' :: ' ' :: '-' :: '>' :: ' ' :: (result.text.toList ++ rest)) := by
    simp [listText]
  rw [htext, read, readHead, readList_listText (by decide) _ ts hts, andThen_some (by grind)]
  change andThen _ (andThen _ (read false (result.text.toList ++ rest)) _) _ = _
  rw [hresult rest hrest, andThen_some (by grind), andThen_some (by grind),
    readTail_of_ends hrest]

/-! ### Suffixes -/

/-- Whether the text of a type is put in parentheses before a suffix. -/
def isLoose : SwiftType → Bool
  | composition _ | block _ _ => true
  | _ => false

/-- Before a suffix, any type is read on with. -/
theorem read_beforeSuffix (ht : t.Reads) (htight : t.isLoose = false → t.ReadsOn) (isMember : Bool)
    (hrest : Follows rest) :
    read isMember ((beforeSuffix t.text t).toList ++ rest) = readTail isMember t rest := by
  cases hloose : t.isLoose with
  | false =>
    have htext : beforeSuffix t.text t = t.text := by
      cases t <;> first | rfl | cases hloose
    rw [htext, htight hloose isMember rest hrest]
  | true =>
    have htext : (beforeSuffix t.text t).toList ++ rest =
        '(' :: (t.text.toList ++ ')' :: rest) := by
      cases t <;> first | cases hloose; done | simp [beforeSuffix]
    rw [htext, read, readHead_group ht hrest, andThen_some (by grind)]

theorem readsOn_optional (ht : t.Reads) (htight : t.isLoose = false → t.ReadsOn) :
    (optional t).ReadsOn := by
  intro isMember rest _
  have htext : (optional t).text.toList ++ rest =
      (beforeSuffix t.text t).toList ++ '?' :: rest := by simp
  rw [htext, read_beforeSuffix ht htight isMember (.optional rest), readTail]

theorem readsOn_implicitlyUnwrapped (ht : t.Reads) (htight : t.isLoose = false → t.ReadsOn) :
    (implicitlyUnwrapped t).ReadsOn := by
  intro isMember rest _
  have htext : (implicitlyUnwrapped t).text.toList ++ rest =
      (beforeSuffix t.text t).toList ++ '!' :: rest := by simp
  rw [htext, read_beforeSuffix ht htight isMember (.implicitlyUnwrapped rest), readTail]

theorem readsOn_metatype (ht : t.Reads) (htight : t.isLoose = false → t.ReadsOn) :
    (metatype t).ReadsOn := by
  intro isMember rest hrest
  have htype : IsWord "Type" := ⟨by decide, by simp [isWordChar]⟩
  have htext : (metatype t).text.toList ++ rest =
      (beforeSuffix t.text t).toList ++ '.' :: ("Type".toList ++ rest) := by simp
  rw [htext, read_beforeSuffix ht htight isMember (.dot _), readTail, readHead_name htype hrest,
    andThen_some (by grind)]
  rfl

/-! ### Types joined by dots and ampersands -/

theorem foldl_joined (parts : List SwiftType) :
    ts.foldl joined (nested parts) = nested (parts ++ ts) := by
  induction ts generalizing parts with
  | nil => simp
  | cons u us ih => rw [List.foldl_cons, joined, ih, List.append_assoc, List.singleton_append]

theorem foldl_composed (members : List SwiftType) :
    ts.foldl composed (composition members) = composition (members ++ ts) := by
  induction ts generalizing members with
  | nil => simp
  | cons u us ih => rw [List.foldl_cons, composed, ih, List.append_assoc, List.singleton_append]

/-- The texts of parts, each after a dot. -/
def dotted (ts : List SwiftType) : List Char :=
  ts.flatMap fun t => '.' :: t.text.toList

/-- The texts of members, each after an ampersand. -/
def amped (ts : List SwiftType) : List Char :=
  ts.flatMap fun t => ' ' :: '&' :: ' ' :: t.text.toList

theorem dotted_cons_append (t : SwiftType) (ts : List SwiftType) (s : List Char) :
    dotted (t :: ts) ++ s = '.' :: (t.text.toList ++ (dotted ts ++ s)) := by
  simp [dotted]

theorem amped_cons_append (t : SwiftType) (ts : List SwiftType) (s : List Char) :
    amped (t :: ts) ++ s = ' ' :: '&' :: ' ' :: (t.text.toList ++ (amped ts ++ s)) := by
  simp [amped]

theorem text_nested_append (t : SwiftType) (ts : List SwiftType) (s : List Char) :
    (nested (t :: ts)).text.toList ++ s = t.text.toList ++ (dotted ts ++ s) := by
  simp [intercalate_cons_eq_flatMap, dotted, List.flatMap_map]

theorem text_composition_append (t : SwiftType) (ts : List SwiftType) (s : List Char) :
    (composition (t :: ts)).text.toList ++ s = t.text.toList ++ (amped ts ++ s) := by
  simp [intercalate_cons_eq_flatMap, amped, List.flatMap_map]

theorem Follows.dotted (hrest : Follows rest) : Follows (dotted ts ++ rest) := by
  cases ts with
  | nil => exact hrest
  | cons t ts => exact .dot _

theorem Ends.amped (hrest : Ends rest) : Follows (amped ts ++ rest) := by
  cases ts with
  | nil => exact .ends hrest
  | cons t ts => exact .and _

/-- A type takes the parts after it. -/
theorem readTail_dotted (hts : ∀ u ∈ ts, u.ReadsHead ∧ u ≠ named "Type") (isMember : Bool)
    (hrest : Follows rest) :
    readTail isMember t (dotted ts ++ rest) = readTail isMember (ts.foldl joined t) rest := by
  induction ts generalizing t with
  | nil => rfl
  | cons u us ih =>
    obtain ⟨⟨hu, hname⟩, hus⟩ := List.forall_mem_cons.mp hts
    rw [dotted_cons_append, readTail, hu _ hrest.dotted, andThen_some (by grind), if_neg hname,
      ih hus, List.foldl_cons]

theorem readsOn_nested (hts : ∀ u ∈ ts, u.ReadsHead ∧ u ≠ named "Type")
    (hnominal : ∀ u ∈ ts, u.isNominal = true) (hlength : 2 ≤ ts.length) :
    (nested ts).ReadsOn := by
  intro isMember rest hrest
  match ts with
  | t :: u :: us =>
    obtain ⟨⟨ht, -⟩, hus⟩ := List.forall_mem_cons.mp hts
    have hjoined : t.joined u = nested [t, u] := by
      have hnested := hnominal t List.mem_cons_self
      cases t <;> first | rfl | cases hnested
    rw [text_nested_append, ht.readsOn isMember _ hrest.dotted, readTail_dotted hus isMember hrest,
      List.foldl_cons, hjoined, foldl_joined]
    rfl

/-- A member ends before the next ampersand, or with the composition. -/
theorem readTail_member_amped (hrest : Ends rest) :
    readTail true t (amped ts ++ rest) = some (t, amped ts ++ rest) := by
  cases ts with
  | nil => exact readTail_of_ends hrest true t
  | cons u us => exact readTail_member_and t _

/-- A type takes the members after it. -/
theorem readTail_amped (hts : ∀ u ∈ ts, u.ReadsOn) (hrest : Ends rest) :
    readTail false t (amped ts ++ rest) = some (ts.foldl composed t, rest) := by
  induction ts generalizing t with
  | nil => exact readTail_of_ends hrest false t
  | cons u us ih =>
    obtain ⟨hu, hus⟩ := List.forall_mem_cons.mp hts
    rw [amped_cons_append, readTail, if_neg Bool.false_ne_true, hu true _ hrest.amped,
      readTail_member_amped hrest, andThen_some (by grind), ih hus, List.foldl_cons]

theorem reads_composition (hts : ∀ u ∈ ts, u.ReadsOn) (htight : ∀ u ∈ ts, u.isLoose = false)
    (hlength : 2 ≤ ts.length) : (composition ts).Reads := by
  intro rest hrest
  match ts with
  | t :: u :: us =>
    obtain ⟨ht, hus⟩ := List.forall_mem_cons.mp hts
    have hcomposed : t.composed u = composition [t, u] := by
      have hloose := htight t List.mem_cons_self
      cases t <;> first | rfl | cases hloose
    rw [text_composition_append, ht false _ hrest.amped, readTail_amped hus hrest, List.foldl_cons,
      hcomposed, foldl_composed]
    rfl

/-! ### Reading back -/

/-- Whether the type is made of parts joined by dots. -/
def isNested : SwiftType → Bool
  | nested _ => true
  | _ => false

/-- The name is a word, and no word with a meaning of its own. -/
def IsTypeName (name : String) : Prop :=
  IsWord name ∧ name ≠ "Void" ∧ name ≠ "Type"

/-- What the text of a type rests on: names are words, compositions have two members or more, which
are nominal or nested, no tuple has one member, and nested types have two parts or more, which are
nominal. -/
def Legible : SwiftType → Prop
  | named name | generic name _ => IsTypeName name
  | composition members => 2 ≤ members.length ∧ ∀ m ∈ members, m.isNominal ∨ m.isNested
  | tuple members => members = [] ∨ 2 ≤ members.length
  | nested parts => 2 ≤ parts.length ∧ ∀ part ∈ parts, part.isNominal
  | _ => True

/-- A type is read back where it ends. If it stands before suffixes as it is, it is read on with
there, and if it is nominal, it is read back before them and is not taken for a metatype. -/
structure ReadsBack (t : SwiftType) : Prop where
  reads : t.Reads
  readsOn : t.isLoose = false → t.ReadsOn
  readsHead : t.isNominal = true → t.ReadsHead ∧ t ≠ named "Type"

theorem ReadsHead.readsBack (h : t.ReadsHead) (hname : t ≠ named "Type") : t.ReadsBack :=
  ⟨h.readsOn.reads, fun _ => h.readsOn, fun _ => ⟨h, hname⟩⟩

theorem ReadsOn.readsBack (h : t.ReadsOn) (hnominal : t.isNominal = false) : t.ReadsBack :=
  ⟨h.reads, fun _ => h, fun htrue => absurd (hnominal ▸ htrue) Bool.false_ne_true⟩

theorem Reads.readsBack (h : t.Reads) (hloose : t.isLoose = true) : t.ReadsBack := by
  refine ⟨h, fun htight => absurd (htight ▸ hloose) Bool.false_ne_true, fun hnominal => ?_⟩
  cases t <;> first | cases hloose; done | cases hnominal

theorem isLoose_eq_false_of_nominal (h : t.isNominal = true ∨ t.isNested = true) :
    t.isLoose = false := by
  cases t <;> first | rfl | simp [isNominal, isNested, name?] at h

mutual

/-- **Legible types are read back**, by induction on the type. -/
theorem readsBack_of_legible : ∀ t : SwiftType, t.Everywhere Legible → t.ReadsBack
  | named name, h => by
    obtain ⟨hword, hvoid, htype⟩ := h.self
    exact (readsHead_named hword hvoid).readsBack fun e => htype (named.inj e)
  | generic name ts, h => by
    have hts := readsBack_of_legibleIn ts (everywhere_generic.mp h).2
    have hhead := readsHead_generic h.self.1 fun t ht => (hts t ht).reads
    exact hhead.readsBack (by simp)
  | composition ts, h => by
    have hts := readsBack_of_legibleIn ts (everywhere_composition.mp h).2
    obtain ⟨hlength, hmembers⟩ := h.self
    have htight := fun t ht => isLoose_eq_false_of_nominal (hmembers t ht)
    exact (reads_composition (fun t ht => (hts t ht).readsOn (htight t ht)) htight
      hlength).readsBack rfl
  | tuple ts, h => by
    have hts := readsBack_of_legibleIn ts (everywhere_tuple.mp h).2
    have hhead : (tuple ts).ReadsHead := by
      rcases h.self with rfl | hlength
      · exact readsHead_void
      · exact readsHead_tuple (fun t ht => (hts t ht).reads) hlength
    exact hhead.readsBack (by simp)
  | nested ts, h => by
    have hts := readsBack_of_legibleIn ts (everywhere_nested.mp h).2
    obtain ⟨hlength, hparts⟩ := h.self
    exact (readsOn_nested (fun t ht => (hts t ht).readsHead (hparts t ht)) hparts
      hlength).readsBack rfl
  | block result ts, h => by
    obtain ⟨-, hresult, hparameters⟩ := everywhere_block.mp h
    have hts := readsBack_of_legibleIn ts hparameters
    exact (reads_block (readsBack_of_legible result hresult).reads
      fun t ht => (hts t ht).reads).readsBack rfl
  | optional t, h => by
    have ht := readsBack_of_legible t (everywhere_optional.mp h).2
    exact (readsOn_optional ht.reads ht.readsOn).readsBack rfl
  | implicitlyUnwrapped t, h => by
    have ht := readsBack_of_legible t (everywhere_implicitlyUnwrapped.mp h).2
    exact (readsOn_implicitlyUnwrapped ht.reads ht.readsOn).readsBack rfl
  | metatype t, h => by
    have ht := readsBack_of_legible t (everywhere_metatype.mp h).2
    exact (readsOn_metatype ht.reads ht.readsOn).readsBack rfl

theorem readsBack_of_legibleIn : ∀ ts : List SwiftType, (∀ t ∈ ts, t.Everywhere Legible) →
    ∀ t ∈ ts, t.ReadsBack
  | [], _ => by simp
  | t :: ts, h => by
    rw [List.forall_mem_cons] at h ⊢
    exact ⟨readsBack_of_legible t h.1, readsBack_of_legibleIn ts h.2⟩

end

/-- **Printed types are unambiguous**: two legible types with the same text are the same type. -/
theorem legible_types_print_apart (t u : SwiftType) (ht : t.Everywhere Legible)
    (hu : u.Everywhere Legible) (htext : t.text = u.text) : t = u := by
  have hreadt := (readsBack_of_legible t ht).reads [] (goesOn_nil _)
  have hreadu := (readsBack_of_legible u hu).reads [] (goesOn_nil _)
  rw [htext, hreadu] at hreadt
  exact (Prod.mk.inj (Option.some.inj hreadt)).1.symm

/-- An optional block from a metatype to an optional array is the only such type with its text. -/
theorem legible_types_print_apart_block :
    let t := optional (block (optional (array (named "A")))
      [metatype (nested [named "B", generic "C" [named "D"]])])
    let u := optional (block (optional (generic "Array" [named "A"]))
      [metatype (nested [named "B", generic "C" [named "D"]])])
    t.Everywhere Legible ∧ u.Everywhere Legible ∧ t.text = u.text ∧ t = u := by
  intro t u
  have ht : t.Everywhere Legible := by
    simp [t, array, Legible, IsTypeName, IsWord, isWordChar, isNominal, name?]
  have hu : u.Everywhere Legible := by
    simp [u, Legible, IsTypeName, IsWord, isWordChar, isNominal, name?]
  exact ⟨ht, hu, rfl, legible_types_print_apart t u ht hu rfl⟩

/-- An optional block, a block with an optional result and a tuple are printed apart. -/
example :
    (optional (block void [named "A"])).text = "((A) -> Void)?" ∧
      (block (optional void) [named "A"]).text = "(A) -> Void?" ∧
      (tuple [named "A", void]).text = "(A, Void)" :=
  ⟨rfl, rfl, rfl⟩

end ObjcSwift.SwiftType
