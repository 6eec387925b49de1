/-
# FleetSearch.Proofs.Query.Vocabulary -- what the patterns of the vocabulary take

The patterns for tiers come in a few shapes, which differ only in how a number is read: with its
text kept apart where tiers are looked for, without where keywords are erased. So each shape is one
definition over the pattern of a number (`ReadsDigits`), and one lemma says what it takes.
-/

import FleetSearch.Query.Residual
import FleetSearch.Query.Tiers
import FleetSearch.Proofs.Pattern.Taking

namespace FleetSearch.Query

open Text Vocabulary Pattern

/-! ## Gaps, digits and separators -/

/-- White space between two words, possibly none. -/
def IsGap (w : List Char) : Prop := ∀ c ∈ w, isBlank c = true

/-- One or more digits. -/
structure IsDigits (ds : List Char) : Prop where
  ne_nil : ds ≠ []
  all : ∀ c ∈ ds, c.isDigit = true

theorem isGap_nil : IsGap [] := fun _ hc => by cases hc

theorem isBlank_of_isDigit {c : Char} (hc : c.isDigit = true) : isBlank c = false := by
  cases hb : isBlank c with
  | false => rfl
  | true => exact absurd (isDigit_of_isBlank hb) (by simp [hc])

theorem head?_any_append {f : Char → Bool} {u s : List Char} (hu : ∀ c ∈ u, f c = false)
    (hs : s.head?.any f = false) : (u ++ s).head?.any f = false := by
  cases u with
  | nil => exact hs
  | cons c u => simpa using hu c (by simp)

theorem IsGap.head?_any_isDigit {w s : List Char} (hw : IsGap w)
    (hs : s.head?.any Char.isDigit = false) : (w ++ s).head?.any Char.isDigit = false := by
  apply head?_any_append _ hs
  intro c hc
  exact isDigit_of_isBlank (hw c hc)

theorem IsDigits.head?_any_isBlank {ds : List Char} (h : IsDigits ds) (s : List Char) :
    (ds ++ s).head?.any isBlank = false := by
  obtain ⟨d, t, rfl⟩ := List.exists_cons_of_ne_nil h.ne_nil
  simpa using isBlank_of_isDigit (h.all d (by simp))

theorem IsDigits.isWordAt_getLast? {ds : List Char} (h : IsDigits ds) :
    isWordAt ds.getLast? = true := by
  rw [List.getLast?_eq_some_getLast h.ne_nil]
  exact isWord_of_isDigit (h.all _ (List.getLast_mem h.ne_nil))

/-- A text whose characters pass a test has none of those that do not. -/
theorem countP_contains_eq_zero {test : Char → Bool} {s cs : List Char}
    (hs : ∀ c ∈ s, test c = true) (hcs : (cs.all fun c => !test c) = true) :
    s.countP cs.contains = 0 := by
  rw [List.countP_eq_zero]
  intro c hc hmem
  have hfails := List.all_eq_true.1 hcs c (List.contains_iff_mem.1 hmem)
  simp [hs c hc] at hfails

theorem IsGap.countP_eq_zero {w cs : List Char} (hw : IsGap w)
    (hcs : (cs.all fun c => !isBlank c) = true) : w.countP cs.contains = 0 :=
  countP_contains_eq_zero hw hcs

theorem IsDigits.countP_eq_zero {ds cs : List Char} (hds : IsDigits ds)
    (hcs : (cs.all fun c => !c.isDigit) = true) : ds.countP cs.contains = 0 :=
  countP_contains_eq_zero hds.all hcs

/-- Digits end where a word ends. -/
theorem head?_any_isDigit_of_not_isWordAt {s : List Char} (hs : isWordAt s.head? = false) :
    s.head?.any Char.isDigit = false := by
  cases s with
  | nil => rfl
  | cons c s =>
    cases hd : c.isDigit with
    | false => simpa using hd
    | true => simp [isWordAt, isWord_of_isDigit hd] at hs

/-- A separator of a range begins with neither a digit nor white space. -/
theorem separator_head {a : String} (ha : a ∈ rangeSeparators) (s : List Char) :
    (a.toList ++ s).head?.any Char.isDigit = false ∧ (a.toList ++ s).head?.any isBlank = false := by
  simp only [rangeSeparators, List.mem_cons, List.not_mem_nil, or_false] at ha
  rcases ha with rfl | rfl | rfl | rfl <;> exact ⟨rfl, rfl⟩

theorem takesOnly_word (a : String) {s : List Char} : (word a).TakesOnly a.toList [] s :=
  takesOnly_literal

theorem takesOnly_gap {w s : List Char} (hw : IsGap w) (hs : s.head?.any isBlank = false) :
    blanks.TakesOnly w [] s := takesOnly_blanks hw hs

theorem mem_hits_gap {b : Option Char} {s : List Char} {h : Hit} (hh : h ∈ blanks.hits b s) :
    IsGap h.text ∧ h.groups = [] := by
  rw [hits_blanks, List.mem_singleton] at hh
  subst hh
  refine ⟨?_, rfl⟩
  intro c hc
  exact List.mem_takeWhile_imp hc

theorem takesOnly_separator {a : String} (ha : a ∈ rangeSeparators) {s : List Char} :
    separatorPattern.TakesOnly a.toList [] s := by
  simp only [rangeSeparators, List.mem_cons, List.not_mem_nil, or_false] at ha
  rcases ha with rfl | rfl | rfl | rfl <;> intro b <;> rfl

/-- One of several words is taken as it stands. -/
theorem mem_hits_anyWord {as : List String} (has : as ≠ []) {b : Option Char} {s : List Char}
    {h : Hit} (hh : h ∈ (anyWord as).hits b s) : ∃ a ∈ as, h.text = a.toList ∧ h.groups = [] := by
  obtain ⟨p, hp, hh⟩ := (mem_hits_oneOf (by simpa using has)).1 hh
  obtain ⟨a, ha, rfl⟩ := List.mem_map.1 hp
  exact ⟨a, ha, mem_hits_literal hh⟩

theorem mem_hits_separator {b : Option Char} {s : List Char} {h : Hit}
    (hh : h ∈ separatorPattern.hits b s) :
    ∃ sep ∈ rangeSeparators, h.text = sep.toList ∧ h.groups = [] :=
  mem_hits_anyWord (by decide) hh

/-! ## Numbers -/

/-- The pattern reads digits in one way only, up to the last of them, and captures `g` of them. -/
def ReadsDigits (n : Pattern) (g : List Char → List (List Char)) : Prop :=
  ∀ {ds s}, IsDigits ds → s.head?.any Char.isDigit = false → n.TakesOnly ds (g ds) s

theorem readsDigits_digits : ReadsDigits digits fun _ => [] := by
  intro ds s hds hs
  exact takesOnly_digits hds.ne_nil hds.all hs

theorem readsDigits_numeral : ReadsDigits numeral fun ds => [ds] := by
  intro ds s hds hs
  exact (readsDigits_digits hds hs).capture

/-- A numeral is read to its last digit. -/
theorem mem_hits_numeral {b : Option Char} {s : List Char} {h : Hit}
    (hh : h ∈ numeral.hits b s) :
    IsDigits h.text ∧ h.groups = [h.text] ∧ h.rest.head?.any Char.isDigit = false := by
  obtain ⟨k, hk, rfl⟩ := mem_hits_capture.1 hh
  obtain ⟨hhead, rfl⟩ := mem_hits_digits.1 hk
  refine ⟨⟨?_, ?_⟩, rfl, ?_⟩
  · show s.takeWhile Char.isDigit ≠ []
    cases s with
    | nil => cases hhead
    | cons c s =>
      have hc : c.isDigit = true := hhead
      rw [List.takeWhile_cons_of_pos hc]
      exact List.cons_ne_nil _ _
  · intro c hc
    exact List.mem_takeWhile_imp hc
  · show (s.dropWhile Char.isDigit).head?.any Char.isDigit = false
    have hstop := List.head?_dropWhile_not Char.isDigit s
    cases hd : (s.dropWhile Char.isDigit).head? with
    | none => rfl
    | some c =>
      rw [hd] at hstop
      simpa using hstop

/-- A roman numeral is one of the table and captures nothing by itself. -/
theorem mem_hits_romanPattern {b : Option Char} {s : List Char} {h : Hit}
    (hh : h ∈ romanPattern.hits b s) :
    ∃ r ∈ romanNumerals.map Prod.fst, h.text = r.toList ∧ h.groups = [] :=
  mem_hits_anyWord (by decide) hh

/-- No roman numeral begins with a digit. -/
theorem romanPattern_hits_digit {d : Char} (hd : d.isDigit = true) (b : Option Char)
    (t : List Char) : romanPattern.hits b (d :: t) = [] := by
  rw [List.eq_nil_iff_forall_not_mem]
  intro h hh
  obtain ⟨r, hr, htext, _⟩ := mem_hits_romanPattern hh
  have hstart : ∀ r ∈ romanNumerals.map Prod.fst, r.toList.head?.any (!·.isDigit) = true := by
    decide
  have hr := hstart r hr
  have hcut := text_append_rest hh
  rw [htext] at hcut
  cases hlist : r.toList with
  | nil => simp [hlist] at hr
  | cons c u =>
    rw [hlist, List.cons_append, List.cons.injEq] at hcut
    simp [hlist, hcut.1, hd] at hr

theorem readsDigits_number : ReadsDigits number fun _ => [] := by
  intro ds s hds hs b
  have hdigits := readsDigits_digits hds hs b
  obtain ⟨d, t, rfl⟩ := List.exists_cons_of_ne_nil hds.ne_nil
  have hroman : romanPattern.hits b (d :: t ++ s) = [] :=
    romanPattern_hits_digit (hds.all d (by simp)) b (t ++ s)
  -- The digits are tried first, and the numerals have nothing to add.
  show (either digits romanPattern).hits b (d :: t ++ s) = _
  rw [hits_either, hdigits, hroman]
  rfl

theorem takes_number_roman {r : String} (hr : r ∈ romanNumerals.map Prod.fst) {s : List Char} :
    number.Takes r.toList [] s :=
  ((takes_oneOf (List.mem_map_of_mem hr) (takesOnly_word r).takes).either_right).group

/-! ## Single tiers and ranges -/

/-- The shape of "tier 8". -/
def tierShape (n : Pattern) : Pattern := .all [word "tier", .blanks, n]

/-- The shape of "t8". -/
def shortShape (n : Pattern) : Pattern := .seq (word "t") n

/-- The shape of "tier 7-10". -/
def rangeShape (n : Pattern) : Pattern :=
  .all [word "tier", .blanks, n, .blanks, separatorPattern, .blanks, n]

/-- The shape of "t7-10". -/
def shortRangeShape (n : Pattern) : Pattern :=
  .all [word "t", n, .blanks, separatorPattern, .blanks, n]

/-- The shape of "tier 7 to tier 10". -/
def fullRangeShape (n : Pattern) : Pattern :=
  .all [word "tier", .blanks, n, .blanks, separatorPattern, .blanks, word "tier", .blanks, n]

theorem digitPatterns_eq : digitPatterns = [tierShape numeral, shortShape numeral] := rfl

theorem rangePatterns_eq :
    rangePatterns = [rangeShape numeral, shortRangeShape numeral, fullRangeShape numeral] := rfl

/-- A range of tiers from the numeral `m` to the numeral `n` in one of the three shapes. -/
inductive RangeSpelling (m n : List Char) : List Char → Prop
  | tier {w₁ w₂ w₃ : List Char} {a : String} :
      IsGap w₁ → IsGap w₂ → IsGap w₃ → a ∈ rangeSeparators →
      RangeSpelling m n ("tier".toList ++ (w₁ ++ (m ++ (w₂ ++ (a.toList ++ (w₃ ++ n))))))
  | short {w₁ w₂ : List Char} {a : String} :
      IsGap w₁ → IsGap w₂ → a ∈ rangeSeparators →
      RangeSpelling m n ("t".toList ++ (m ++ (w₁ ++ (a.toList ++ (w₂ ++ n)))))
  | full {w₁ w₂ w₃ w₄ : List Char} {a : String} :
      IsGap w₁ → IsGap w₂ → IsGap w₃ → IsGap w₄ → a ∈ rangeSeparators →
      RangeSpelling m n
        ("tier".toList ++ (w₁ ++ (m ++ (w₂ ++ (a.toList ++ (w₃ ++ ("tier".toList ++ (w₄ ++ n))))))))

/-- No roman numeral begins with white space. -/
theorem roman_head {r : String} (hr : r ∈ romanNumerals.map Prod.fst) (s : List Char) :
    (r.toList ++ s).head?.any isBlank = false := by
  have hstart : ∀ r ∈ romanNumerals.map Prod.fst,
      r.toList ≠ [] ∧ r.toList.head?.any isBlank = false := by
    decide
  obtain ⟨hne, hhead⟩ := hstart r hr
  obtain ⟨c, t, hlist⟩ := List.exists_cons_of_ne_nil hne
  rw [hlist] at hhead ⊢
  exact hhead

theorem takes_tierShape_roman {w s : List Char} {r : String} (hw : IsGap w)
    (hr : r ∈ romanNumerals.map Prod.fst) :
    (tierShape number).Takes ("tier".toList ++ (w ++ r.toList)) [] s :=
  (takesOnly_word "tier").takes.seq
    ((takesOnly_gap hw (roman_head hr s)).takes.seq (takes_number_roman hr))

section

variable {p : Pattern} {g : List Char → List (List Char)} (hp : ReadsDigits p g)
  {w w₁ w₂ w₃ w₄ m n s : List Char} {a : String}
include hp

theorem takesOnly_tierShape (hw : IsGap w) (hn : IsDigits n)
    (hs : s.head?.any Char.isDigit = false) :
    (tierShape p).TakesOnly ("tier".toList ++ (w ++ n)) (g n) s :=
  (takesOnly_word "tier").seq ((takesOnly_gap hw (hn.head?_any_isBlank s)).seq (hp hn hs))

theorem takesOnly_shortShape (hn : IsDigits n) (hs : s.head?.any Char.isDigit = false) :
    (shortShape p).TakesOnly ("t".toList ++ n) (g n) s :=
  (takesOnly_word "t").seq (hp hn hs)

/-- What follows the first number of a range: a separator between gaps, and the rest of the
range. -/
theorem takesOnly_afterNumber {q : Pattern} {v : List Char} {g' : List (List Char)}
    (hm : IsDigits m) (hw₁ : IsGap w₁) (hw₂ : IsGap w₂) (ha : a ∈ rangeSeparators)
    (hv : (v ++ s).head?.any isBlank = false) (hq : q.TakesOnly v g' s) :
    (all [p, .blanks, separatorPattern, .blanks, q]).TakesOnly
      (m ++ (w₁ ++ (a.toList ++ (w₂ ++ v)))) (g m ++ g') s := by
  have hsep := separator_head ha ((w₂ ++ v) ++ s)
  have hafter : (w₁ ++ (a.toList ++ (w₂ ++ v)) ++ s).head?.any Char.isDigit = false := by
    rw [List.append_assoc, List.append_assoc]
    exact hw₁.head?_any_isDigit hsep.1
  have hblank : (a.toList ++ (w₂ ++ v) ++ s).head?.any isBlank = false := by
    rw [List.append_assoc]
    exact hsep.2
  exact (hp hm hafter).seq ((takesOnly_gap hw₁ hblank).seq
    ((takesOnly_separator ha).seq ((takesOnly_gap hw₂ hv).seq hq)))

theorem takesOnly_rangeShape (hw₁ : IsGap w₁) (hw₂ : IsGap w₂) (hw₃ : IsGap w₃)
    (ha : a ∈ rangeSeparators) (hm : IsDigits m) (hn : IsDigits n)
    (hs : s.head?.any Char.isDigit = false) :
    (rangeShape p).TakesOnly
      ("tier".toList ++ (w₁ ++ (m ++ (w₂ ++ (a.toList ++ (w₃ ++ n)))))) (g m ++ g n) s := by
  have hrest := takesOnly_afterNumber hp hm hw₂ hw₃ ha (hn.head?_any_isBlank s) (hp hn hs)
  have hblank : (m ++ (w₂ ++ (a.toList ++ (w₃ ++ n))) ++ s).head?.any isBlank = false := by
    rw [List.append_assoc]
    exact hm.head?_any_isBlank _
  exact (takesOnly_word "tier").seq ((takesOnly_gap hw₁ hblank).seq hrest)

theorem takesOnly_shortRangeShape (hw₁ : IsGap w₁) (hw₂ : IsGap w₂) (ha : a ∈ rangeSeparators)
    (hm : IsDigits m) (hn : IsDigits n) (hs : s.head?.any Char.isDigit = false) :
    (shortRangeShape p).TakesOnly
      ("t".toList ++ (m ++ (w₁ ++ (a.toList ++ (w₂ ++ n))))) (g m ++ g n) s :=
  (takesOnly_word "t").seq
    (takesOnly_afterNumber hp hm hw₁ hw₂ ha (hn.head?_any_isBlank s) (hp hn hs))

theorem takesOnly_fullRangeShape (hw₁ : IsGap w₁) (hw₂ : IsGap w₂) (hw₃ : IsGap w₃)
    (hw₄ : IsGap w₄) (ha : a ∈ rangeSeparators) (hm : IsDigits m) (hn : IsDigits n)
    (hs : s.head?.any Char.isDigit = false) :
    (fullRangeShape p).TakesOnly
      ("tier".toList ++ (w₁ ++ (m ++ (w₂ ++ (a.toList ++ (w₃ ++ ("tier".toList ++ (w₄ ++ n))))))))
      (g m ++ g n) s := by
  have hstop : ("tier".toList ++ (w₄ ++ n) ++ s).head?.any isBlank = false := rfl
  have hrest := takesOnly_afterNumber hp hm hw₂ hw₃ ha hstop (takesOnly_tierShape hp hw₄ hn hs)
  have hblank : (m ++ (w₂ ++ (a.toList ++ (w₃ ++ ("tier".toList ++ (w₄ ++ n))))) ++ s).head?.any
      isBlank = false := by
    rw [List.append_assoc]
    exact hm.head?_any_isBlank _
  exact (takesOnly_word "tier").seq ((takesOnly_gap hw₁ hblank).seq hrest)

end

/-! ## Phrases -/

/-- The qualifiers of all bands. -/
def qualifiers : List String := bands.flatMap (·.qualifiers)

/-- The lists of the words and phrases that keywords are made of. -/
def keywordLists : List (List String) :=
  [qualifiers, bandNouns, romanNumerals.map Prod.fst, phrases typeAliases, phrases nationAliases,
    phrases categoryKeywords]

section

variable {words : List String} (hwords : words ∈ keywordLists) {a : String} (ha : a ∈ words)
include hwords ha

/-- A keyword begins and ends with a word character. -/
theorem isSolid_keyword : IsSolid a.toList := by
  have hall : ∀ words ∈ keywordLists, ∀ a ∈ words, IsSolid a.toList := by decide
  exact hall words hwords a ha

/-- Single spaces between words are all the white space of a keyword. -/
theorem isTight_keyword : isTight a.toList = true := by
  have hall : (keywordLists.all fun words => words.all fun a => isTight a.toList) = true := by
    decide
  exact List.all_eq_true.1 (List.all_eq_true.1 hall words hwords) a ha

end

theorem mem_phrases {α : Type} {table : List (α × List String)} {l : α} {words : List String}
    {a : String} (hrow : (l, words) ∈ table) (ha : a ∈ words) : a ∈ phrases table :=
  List.mem_flatMap.2 ⟨_, hrow, ha⟩

/-- An ending that may follow a word that names a class of ships. -/
def IsPlural (e : List Char) : Prop := e = [] ∨ e = ['s']

theorem isSolid_append_plural {u e : List Char} (hu : IsSolid u) (he : IsPlural e) :
    IsSolid (u ++ e) := by
  rcases he with rfl | rfl
  · rwa [List.append_nil]
  · exact ⟨isWordAt_head?_append hu.1 _, isWordAt_getLast?_append u (by decide)⟩

/-- The shape of "super ships". -/
def superShape : Pattern := .all [word "super", .blanks, word "ship", .optional (.char 's')]

/-- The shape of "destroyers". -/
def typeShape : Pattern := .seq (anyPhrase (phrases typeAliases)) (.optional (.char 's'))

section

variable {as : List String} {a n : String} {t w e s : List Char}

theorem takes_anyPhrase (ha : a ∈ as) (htight : isTight a.toList = true)
    (ht : Spelling a.toList t) : (anyPhrase as).Takes t [] s :=
  (takes_oneOf (List.mem_map_of_mem ha) (takesOnly_loose htight ht).takes).group

theorem takes_plural (he : IsPlural e) : (optional (.char 's')).Takes e [] s := by
  rcases he with rfl | rfl
  · exact takes_optional_nil
  · exact takesOnly_char.takes.optional

theorem takes_typeShape (ha : a ∈ phrases typeAliases) (ht : Spelling a.toList t)
    (he : IsPlural e) : typeShape.Takes (t ++ e) [] s :=
  (takes_anyPhrase ha (isTight_keyword (by simp [keywordLists]) ha) ht).seq (takes_plural he)

theorem takes_superShape (hw : IsGap w) (he : IsPlural e) :
    superShape.Takes ("super".toList ++ (w ++ ("ship".toList ++ e))) [] s :=
  (takesOnly_word "super").takes.seq ((takesOnly_gap hw rfl).takes.seq
    ((takesOnly_word "ship").takes.seq (takes_plural he)))

theorem takes_bandPattern (ha : a ∈ as) (htight : isTight a.toList = true) (hw : IsGap w)
    (hn : n ∈ bandNouns) : (bandPattern as).Takes (a.toList ++ (w ++ n.toList)) [] s := by
  have hnoun : isTight n.toList = true := isTight_keyword (by simp [keywordLists]) hn
  have hhead : (n.toList ++ s).head?.any isBlank = false := by
    simp only [bandNouns, List.mem_cons, List.not_mem_nil, or_false] at hn
    rcases hn with rfl | rfl <;> rfl
  exact (takes_anyPhrase ha htight (spelling_self _)).seq ((takesOnly_gap hw hhead).takes.seq
    (takes_anyPhrase hn hnoun (spelling_self _)))

end

/-! ## The keyword patterns -/

/-- What stands between the word edges of the keyword patterns. -/
def keywordShapes : List Pattern :=
  [bandPattern qualifiers, fullRangeShape number, rangeShape number, shortRangeShape .digits,
    tierShape number, shortShape .digits, superShape, typeShape] ++
  (phrases nationAliases).map word ++ [anyPhrase (phrases categoryKeywords)]

theorem keywordPatterns_eq : keywordPatterns = keywordShapes.map .wholeWord := rfl

theorem isWordy_of_mem_keywordShapes : ∀ p ∈ keywordShapes, p.isWordy = true := by
  have hall : keywordShapes.all isWordy = true := by decide
  simpa only [List.all_eq_true] using hall

theorem takesWords_of_mem_keywordPatterns : ∀ p ∈ keywordPatterns, p.TakesWords := by
  intro p hp
  rw [keywordPatterns_eq] at hp
  obtain ⟨shape, hshape, rfl⟩ := List.mem_map.1 hp
  exact takesWords_wholeWord (isWordy_of_mem_keywordShapes shape hshape)

end FleetSearch.Query
