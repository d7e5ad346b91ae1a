import ObjcSwift.Lowering.Signature
import Mathlib

/-!
# What a selector is called in Swift

The signature of a method takes its name and its labels from the selector alone. For most selectors
nothing is lost on the way: the first keyword is the name, and the keywords after it are labels. An
initializer gives up its name, and the word that told it apart, `Frame` in `initWithFrame:`, becomes
the label of the first argument, from which it can be read off again
(`eq_of_initializerLabel?_eq`).

What is lost is the word of an initializer **without parameters**, as there is no argument to put
it at. So two methods of the same selector shape have the same selector, or both are initializers
without parameters (`selector_shapes_tell_methods_apart`).
-/

namespace ObjcSwift

/-! ### Words with a capital letter -/

namespace Text

theorem toNat_of_isUpper {c : Char} (h : c.isUpper = true) : 65 ≤ c.toNat ∧ c.toNat ≤ 90 := by
  obtain ⟨hge, hle⟩ : c.val ≥ 'A'.val ∧ c.val ≤ 'Z'.val := by simpa [Char.isUpper] using h
  exact ⟨UInt32.le_iff_toNat_le.mp hge, UInt32.le_iff_toNat_le.mp hle⟩

theorem lower_of_isUpper {c : Char} (h : c.isUpper = true) : lower c = [c.toLower] := by
  rw [lower, if_pos]
  have := toNat_of_isUpper h
  omega

theorem toNat_toLower {c : Char} (h : c.isUpper = true) : c.toLower.toNat = c.toNat + 32 := by
  have hbounds := toNat_of_isUpper h
  have hval : c.val ≥ 'A'.val ∧ c.val ≤ 'Z'.val := by simpa [Char.isUpper] using h
  rw [Char.toLower, dif_pos hval]
  change (c.val + 32).toNat = c.val.toNat + 32
  have : c.val.toNat ≤ 90 := hbounds.2
  rw [UInt32.toNat_add]
  simp only [UInt32.reduceToNat]
  omega

end Text

theorem exists_of_startsWithCapital {word : String} (h : startsWithCapital word = true) :
    ∃ c cs, word.toList = c :: cs ∧ c.isUpper = true := by
  unfold startsWithCapital at h
  cases hw : word.toList with
  | nil => simp [hw] at h
  | cons c cs => exact ⟨c, cs, rfl, by simpa [hw] using h⟩

/-- A word that starts with a capital letter can be read off from its lower-case form. -/
theorem eq_of_lowerFirst_eq {v w : String} (hv : startsWithCapital v = true)
    (hw : startsWithCapital w = true) (h : Text.lowerFirst v = Text.lowerFirst w) : v = w := by
  obtain ⟨c, cs, hvs, hc⟩ := exists_of_startsWithCapital hv
  obtain ⟨d, ds, hws, hd⟩ := exists_of_startsWithCapital hw
  have hlists : c.toLower :: cs = d.toLower :: ds := by
    have := congrArg String.toList h
    simpa [Text.lowerFirst, hvs, hws, Text.lower_of_isUpper hc, Text.lower_of_isUpper hd] using this
  obtain ⟨hhead, rfl⟩ := List.cons.inj hlists
  have hsame : c.toNat = d.toNat := by
    have hc' := Text.toNat_toLower hc
    have hd' := Text.toNat_toLower hd
    rw [hhead] at hc'
    omega
  rw [← String.toList_inj, hvs, hws, Char.toNat_inj.mp hsame]

/-! ### Names of initializers -/

theorem afterInitWith?_eq_some {name word : String} :
    afterInitWith? name = some word ↔ name = "initWith" ++ word := by
  simp only [afterInitWith?]
  constructor
  · intro h
    split_ifs at h with hp
    obtain ⟨rest, hrest⟩ := List.isPrefixOf_iff_prefix.mp hp
    rw [← Option.some.inj h, ← String.toList_inj, ← hrest]
    simp
  · rintro rfl
    have hp : "initWith".toList.isPrefixOf ("initWith" ++ word).toList = true := by
      rw [List.isPrefixOf_iff_prefix, String.toList_append]
      exact List.prefix_append _ _
    rw [if_pos hp]
    simp

/-- The names of initializers: `init`, or `initWith` and a word with a capital letter. -/
theorem isInitializerName_iff {name : String} : isInitializerName name = true ↔
    name = "init" ∨ ∃ word, startsWithCapital word = true ∧ name = "initWith" ++ word := by
  rw [isInitializerName, Bool.or_eq_true, beq_iff_eq, Option.any_eq_true]
  refine or_congr_right (exists_congr fun word => ?_)
  rw [afterInitWith?_eq_some, and_comm]

theorem ne_empty_of_startsWithCapital {word : String} (h : startsWithCapital word = true) :
    word ≠ "" := by
  rintro rfl
  exact absurd h (by decide)

theorem initializerLabel?_init : initializerLabel? "init" = none := by
  decide

theorem initializerLabel?_initWith {word : String} (h : startsWithCapital word = true) :
    initializerLabel? ("initWith" ++ word) = some (Text.lowerFirst word) := by
  rw [initializerLabel?, afterInitWith?_eq_some.mpr rfl]
  simp [ne_empty_of_startsWithCapital h]

/-- **An initializer can be read off from the label of its first argument.** -/
theorem eq_of_initializerLabel?_eq {v w : String} (hv : isInitializerName v = true)
    (hw : isInitializerName w = true) (h : initializerLabel? v = initializerLabel? w) : v = w := by
  rcases isInitializerName_iff.mp hv with rfl | ⟨word, hword, rfl⟩ <;>
    rcases isInitializerName_iff.mp hw with rfl | ⟨word', hword', rfl⟩
  · rfl
  · rw [initializerLabel?_init, initializerLabel?_initWith hword'] at h
    exact absurd h (by simp)
  · rw [initializerLabel?_init, initializerLabel?_initWith hword] at h
    exact absurd h (by simp)
  · rw [initializerLabel?_initWith hword, initializerLabel?_initWith hword'] at h
    rw [eq_of_lowerFirst_eq hword hword' (Option.some.inj h)]

/-- The name of a method in Swift, from its name or first keyword. -/
def swiftName (word : String) : String :=
  if isInitializerName word then "init" else word

/-- The name of a method is lost for initializers only. -/
theorem swiftName_eq_iff {v w : String} : swiftName v = swiftName w ↔
    v = w ∨ isInitializerName v = true ∧ isInitializerName w = true := by
  have hinit : isInitializerName "init" = true := by decide
  unfold swiftName
  split_ifs with hv hw hw
  · simp [hv, hw]
  · -- The name of an initializer is no other name.
    have hne : "init" ≠ w := fun he => hw (he ▸ hinit)
    have hne' : v ≠ w := fun he => hw (he ▸ hv)
    simp [hne, hne', hw]
  · have hne : v ≠ "init" := fun he => hv (he ▸ hinit)
    have hne' : v ≠ w := fun he => hv (he ▸ hw)
    simp [hne, hne', hv]
  · simp [hv]

/-! ### Selectors and signatures -/

/-- The keyword of a part of a selector; a missing one is empty. -/
def KeywordPart.word (part : KeywordPart) : String :=
  part.keyword.getD ""

namespace Selector

/-- The name of a selector without parameters, or the first keyword. -/
def head : Selector → String
  | simple name => name
  | keywords [] => ""
  | keywords (first :: _) => first.word

/-- The labels of the parameters that a selector declares. -/
def declaredLabels : Selector → List (Option String)
  | simple _ | keywords [] => []
  | keywords (first :: rest) =>
    (if isInitializerName first.word then initializerLabel? first.word else none) ::
      rest.map SignaturePlace.keywordLabel?

end Selector

namespace SignaturePlace

variable (place place' : SignaturePlace) (m n : MethodDefinition)

theorem name_ofMethod : (place.ofMethod m).name = swiftName m.selector.head := by
  unfold ofMethod
  cases m.selector with
  | simple name => rfl
  | keywords parts =>
    cases parts with
    | nil =>
      have hempty : isInitializerName "" = false := by decide
      simp [swiftName, Selector.head, hempty]
    | cons first rest =>
      by_cases h : isInitializerName (first.keyword.getD "") = true <;>
        simp [firstKeyword, swiftName, Selector.head, KeywordPart.word, h]

theorem labels_ofMethod : (place.ofMethod m).labels = m.selector.declaredLabels := by
  unfold ofMethod Signature.labels
  cases m.selector with
  | simple name => rfl
  | keywords parts =>
    cases parts with
    | nil => rfl
    | cons first rest =>
      by_cases h : isInitializerName (first.keyword.getD "") = true <;>
        simp [firstKeyword, Selector.declaredLabels, KeywordPart.word, parameter, h]

/-- The shape of a signature is a matter of the selector. -/
theorem sameSelector_ofMethod :
    (place.ofMethod m).sameSelector (place'.ofMethod n) = true ↔
      swiftName m.selector.head = swiftName n.selector.head ∧
        m.selector.declaredLabels = n.selector.declaredLabels := by
  rw [Signature.sameSelector, Bool.and_eq_true, beq_iff_eq, beq_iff_eq, name_ofMethod,
    name_ofMethod, labels_ofMethod, labels_ofMethod]

/-- The label of a later argument is its keyword, unless that is missing or empty. -/
theorem keywordLabel?_eq (part : KeywordPart) :
    keywordLabel? part = if part.word = "" then none else some part.word := by
  unfold keywordLabel? KeywordPart.word
  cases part.keyword with
  | none => rfl
  | some keyword =>
    by_cases h : keyword = ""
    · simp [h]
    · simp [h, Option.filter_some]

theorem keywordLabel?_eq_iff {p q : KeywordPart} :
    keywordLabel? p = keywordLabel? q ↔ p.word = q.word := by
  rw [keywordLabel?_eq, keywordLabel?_eq]
  constructor
  · intro h
    split_ifs at h with hp hq hq
    · rw [hp, hq]
    · exact Option.some.inj h
  · intro h
    rw [h]

theorem map_keywordLabel?_eq_iff {ps qs : List KeywordPart} :
    ps.map keywordLabel? = qs.map keywordLabel? ↔
      ps.map KeywordPart.word = qs.map KeywordPart.word := by
  induction ps generalizing qs with
  | nil => cases qs <;> simp
  | cons p ps ih =>
    cases qs with
    | nil => simp
    | cons q qs => simp [keywordLabel?_eq_iff, ih]

end SignaturePlace

/-! ### Texts of selectors -/

/-- A word ends at the first separator. -/
theorem append_separator_inj {α : Type} {sep : α} {v w r s : List α} (hv : sep ∉ v)
    (hw : sep ∉ w) (h : v ++ sep :: r = w ++ sep :: s) : v = w ∧ r = s := by
  rcases List.append_eq_append_iff.mp h with ⟨a, rfl, ha⟩ | ⟨a, rfl, ha⟩
  · cases a with
    | nil => exact ⟨by simp, by simpa using ha⟩
    | cons b a =>
      obtain ⟨rfl, -⟩ := List.cons.inj ha
      exact absurd (by simp) hw
  · cases a with
    | nil => exact ⟨by simp, by simpa using ha.symm⟩
    | cons b a =>
      obtain ⟨rfl, -⟩ := List.cons.inj ha
      exact absurd (by simp) hv

/-- Words without separators can be read off from their text with a separator after each. -/
theorem eq_of_flatMap_separated {α : Type} {sep : α} {vs ws : List (List α)}
    (hv : ∀ v ∈ vs, sep ∉ v) (hw : ∀ w ∈ ws, sep ∉ w)
    (h : vs.flatMap (· ++ [sep]) = ws.flatMap (· ++ [sep])) : vs = ws := by
  induction vs generalizing ws with
  | nil =>
    cases ws with
    | nil => rfl
    | cons w ws => exact absurd h.symm (by simp)
  | cons v vs ih =>
    cases ws with
    | nil => exact absurd h (by simp)
    | cons w ws =>
      simp only [List.flatMap_cons, List.append_assoc, List.singleton_append] at h
      obtain ⟨rfl, hrest⟩ := append_separator_inj (hv v List.mem_cons_self)
        (hw w List.mem_cons_self) h
      rw [ih (fun u hu => hv u (List.mem_cons_of_mem v hu))
        (fun u hu => hw u (List.mem_cons_of_mem v hu)) hrest]

namespace Selector

/-- A selector without parameters that names an initializer. -/
def IsPlainInitializer (s : Selector) : Prop :=
  ∃ name, s = .simple name ∧ isInitializerName name = true

/-- No word of a selector has a colon in it, as in source texts. -/
def NoColon : Selector → Prop
  | simple name => ':' ∉ name.toList
  | keywords parts => ∀ part ∈ parts, ':' ∉ part.word.toList

theorem text_keywords (parts : List KeywordPart) : (Selector.keywords parts).text =
    String.join ((parts.map KeywordPart.word).map (· ++ ":")) := by
  rw [text, List.map_map]
  rfl

theorem toList_text_keywords (parts : List KeywordPart) :
    (Selector.keywords parts).text.toList =
      (parts.map (·.word.toList)).flatMap (· ++ [':']) := by
  simp only [text_keywords, String.toList_join, List.flatMap_map, String.toList_append]
  rfl

/-- Keywords without colons can be read off from the text. -/
theorem text_keywords_eq_iff {ps qs : List KeywordPart} (hp : NoColon (.keywords ps))
    (hq : NoColon (.keywords qs)) :
    (Selector.keywords ps).text = (Selector.keywords qs).text ↔
      ps.map KeywordPart.word = qs.map KeywordPart.word := by
  constructor
  · intro h
    have hlists := congrArg String.toList h
    rw [toList_text_keywords, toList_text_keywords] at hlists
    have hwords := eq_of_flatMap_separated (by simpa [NoColon] using hp)
      (by simpa [NoColon] using hq) hlists
    have hback : ∀ parts : List KeywordPart, parts.map KeywordPart.word =
        (parts.map (·.word.toList)).map String.ofList := by simp [Function.comp_def]
    rw [hback, hback, hwords]
  · intro h
    rw [text_keywords, text_keywords, h]

theorem words_of_text_eq {s t : Selector} (hs : s.NoColon) (ht : t.NoColon)
    (h : s.text = t.text) : s.head = t.head ∧ s.declaredLabels = t.declaredLabels := by
  -- A text with a colon is no name, and the text of a keyword has one.
  have hcolon : ∀ {name : String} {first : KeywordPart} {rest : List KeywordPart},
      NoColon (.simple name) → name ≠ (Selector.keywords (first :: rest)).text := by
    rintro name first rest hname rfl
    refine hname ?_
    rw [toList_text_keywords]
    simp
  have hempty : (Selector.keywords []).text = "" := rfl
  match s, t with
  | .simple name, .simple name' => exact ⟨h, rfl⟩
  | .simple name, .keywords [] => exact ⟨h.trans hempty, rfl⟩
  | .keywords [], .simple name => exact ⟨(h.symm.trans hempty).symm, rfl⟩
  | .simple name, .keywords (first :: rest) => exact absurd h (hcolon hs)
  | .keywords (first :: rest), .simple name => exact absurd h.symm (hcolon ht)
  | .keywords ps, .keywords qs =>
    have hwords := (text_keywords_eq_iff hs ht).mp h
    cases ps with
    | nil =>
      obtain rfl : qs = [] := by simpa using hwords.symm
      exact ⟨rfl, rfl⟩
    | cons p ps =>
      cases qs with
      | nil => exact absurd hwords (by simp)
      | cons q qs =>
        obtain ⟨hfirst, hrest⟩ := List.cons.inj hwords
        refine ⟨hfirst, ?_⟩
        rw [declaredLabels, declaredLabels, hfirst,
          SignaturePlace.map_keywordLabel?_eq_iff.mpr hrest]

/-- The name and the labels of a method say its selector, unless it is an initializer without
parameters. -/
theorem text_eq_of_declaredLabels_eq {s t : Selector}
    (hname : swiftName s.head = swiftName t.head) (hlabels : s.declaredLabels = t.declaredLabels) :
    s.text = t.text ∨ s.IsPlainInitializer ∧ t.IsPlainInitializer := by
  have hempty : isInitializerName "" = false := by decide
  match s, t with
  | .simple name, .simple name' =>
    rcases swiftName_eq_iff.mp hname with h | ⟨h, h'⟩
    · exact Or.inl h
    · exact Or.inr ⟨⟨name, rfl, h⟩, ⟨name', rfl, h'⟩⟩
  | .simple name, .keywords [] =>
    rcases swiftName_eq_iff.mp hname with h | ⟨-, h⟩
    · exact Or.inl h
    · exact absurd h (by rw [head, hempty]; simp)
  | .keywords [], .simple name =>
    rcases swiftName_eq_iff.mp hname with h | ⟨h, -⟩
    · exact Or.inl h
    · exact absurd h (by rw [head, hempty]; simp)
  | .keywords [], .keywords [] => exact Or.inl rfl
  | .simple _, .keywords (_ :: _) | .keywords [], .keywords (_ :: _)
  | .keywords (_ :: _), .simple _ | .keywords (_ :: _), .keywords [] =>
    exact absurd hlabels (by simp [declaredLabels])
  | .keywords (p :: ps), .keywords (q :: qs) =>
    obtain ⟨hlabel, hrest⟩ := List.cons.inj hlabels
    have hwords := SignaturePlace.map_keywordLabel?_eq_iff.mp hrest
    have hfirst : p.word = q.word := by
      rcases swiftName_eq_iff.mp hname with h | ⟨hp, hq⟩
      · exact h
      -- The word that the name has lost is the label.
      · change isInitializerName p.word = true at hp
        change isInitializerName q.word = true at hq
        rw [if_pos hp, if_pos hq] at hlabel
        exact eq_of_initializerLabel?_eq hp hq hlabel
    rw [text_keywords, text_keywords, List.map_cons, List.map_cons, hfirst, hwords]
    exact Or.inl rfl

end Selector

/-- **Methods of the same selector shape have the same selector, initializers without parameters
apart.** Two methods whose signatures match, wherever they stand, have the same selector, or both
are initializers without parameters, and these match each other whatever they are called. And where
no word has a colon in it, methods of the same selector match. -/
theorem selector_shapes_tell_methods_apart (place place' : SignaturePlace)
    (m n : MethodDefinition) :
    ((place.ofMethod m).sameSelector (place'.ofMethod n) = true →
      m.selector.text = n.selector.text ∨
        m.selector.IsPlainInitializer ∧ n.selector.IsPlainInitializer) ∧
    (m.selector.IsPlainInitializer → n.selector.IsPlainInitializer →
      (place.ofMethod m).sameSelector (place'.ofMethod n) = true) ∧
    (m.selector.NoColon → n.selector.NoColon → m.selector.text = n.selector.text →
      (place.ofMethod m).sameSelector (place'.ofMethod n) = true) := by
  rw [SignaturePlace.sameSelector_ofMethod]
  refine ⟨?_, ?_, ?_⟩
  · rintro ⟨hname, hlabels⟩
    exact Selector.text_eq_of_declaredLabels_eq hname hlabels
  · rintro ⟨name, hm, hinit⟩ ⟨name', hn, hinit'⟩
    rw [hm, hn]
    exact ⟨swiftName_eq_iff.mpr (Or.inr ⟨hinit, hinit'⟩), rfl⟩
  · intro hm hn h
    obtain ⟨hhead, hlabels⟩ := Selector.words_of_text_eq hm hn h
    exact ⟨by rw [hhead], hlabels⟩

/-- An instance method without parameters that returns nothing. -/
def plainMethod (name : String) : MethodDefinition :=
  ⟨false, .void, .simple name, none⟩

/-- Two methods with different selectors that match. -/
theorem init_matches_initWithDefaults :
    (plainMethod "init").selector.NoColon ∧ (plainMethod "initWithDefaults").selector.NoColon ∧
      (plainMethod "init").selector.text ≠ (plainMethod "initWithDefaults").selector.text ∧
      (SignaturePlace.ofMethod {} (plainMethod "init")).sameSelector
        (SignaturePlace.ofMethod {} (plainMethod "initWithDefaults")) = true := by
  refine ⟨?_, ?_, ?_, ?_⟩
  · show ':' ∉ "init".toList
    decide
  · show ':' ∉ "initWithDefaults".toList
    decide
  · show "init" ≠ "initWithDefaults"
    decide
  · decide

end ObjcSwift
