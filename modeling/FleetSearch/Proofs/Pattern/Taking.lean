/-
# FleetSearch.Proofs.Pattern.Taking -- patterns and the texts that are spelled for them

A pattern **takes** a text in front of another if that is one of its hits (`Takes`), and takes
it **only** if there is no other hit (`TakesOnly`). Both go along with the pattern: a sequence takes
what its parts take one after the other, runs of white space and digits take what does not go on
behind them, and an alternative takes what one of its sides takes.

A loose phrase takes every spelling of it in which each space has become a run of white space
(`Spelling`), also the one without any white space (`spelling_squeeze`), and nothing else
(`mem_hits_loose`).

Between word edges a pattern occurs in a text exactly where something that it takes stands as whole
words (`StandsIn`).
-/

import FleetSearch.Proofs.Pattern.ErasedWords

namespace FleetSearch.Pattern

open Text

/-- The pattern takes `u` in front of `s`, with `g` as its captures. -/
def Takes (p : Pattern) (u : List Char) (g : List (List Char)) (s : List Char) : Prop :=
  ∀ b, ⟨u, g, s⟩ ∈ p.hits b (u ++ s)

/-- The pattern takes `u` in front of `s`, with `g` as its captures, and nothing else. -/
def TakesOnly (p : Pattern) (u : List Char) (g : List (List Char)) (s : List Char) : Prop :=
  ∀ b, p.hits b (u ++ s) = [⟨u, g, s⟩]

theorem TakesOnly.takes {p : Pattern} {u s : List Char} {g : List (List Char)}
    (h : p.TakesOnly u g s) : p.Takes u g s := by
  intro b
  rw [h b]
  exact List.mem_singleton.2 rfl

/-- What the pattern takes only is known by the text that it begins. -/
theorem TakesOnly.unique {p : Pattern} {u v s t : List Char} {g g' : List (List Char)}
    (hu : p.TakesOnly u g s) (hv : p.TakesOnly v g' t) (h : u ++ s = v ++ t) : u = v ∧ g = g' := by
  have honly := hu none
  rw [h, hv none, List.singleton_inj, Hit.mk.injEq] at honly
  exact ⟨honly.1.symm, honly.2.1.symm⟩

section

variable {p q : Pattern} {u v s : List Char} {g g' : List (List Char)}

theorem Takes.occurs (hp : p.Takes u g s) : p.occurs (u ++ s) = true := occurs_of_mem_hits (hp none)

/-- A text that the pattern takes in one way only is all that the pattern finds in it. -/
theorem TakesOnly.finds_eq (hp : p.TakesOnly u g []) (hu : u ≠ []) : p.finds u = [⟨u, g, []⟩] := by
  have honly := hp none
  rw [List.append_nil] at honly
  have hscan : Scan p none u [.found ⟨u, g, []⟩] := .find (by simp [hit?, honly, hu]) (.done _)
  rw [finds_eq_of_scan hscan]
  rfl

theorem TakesOnly.mem_finds (hp : p.TakesOnly u g []) (hu : u ≠ []) : ⟨u, g, []⟩ ∈ p.finds u := by
  rw [hp.finds_eq hu]
  exact List.mem_singleton_self _

theorem Takes.seq (hp : p.Takes u g (v ++ s)) (hq : q.Takes v g' s) :
    (seq p q).Takes (u ++ v) (g ++ g') s := by
  intro b
  rw [List.append_assoc]
  exact mem_hits_seq.2 ⟨_, hp b, _, hq _, rfl⟩

theorem TakesOnly.seq (hp : p.TakesOnly u g (v ++ s)) (hq : q.TakesOnly v g' s) :
    (seq p q).TakesOnly (u ++ v) (g ++ g') s := by
  intro b
  rw [List.append_assoc, hits_seq, hp b, List.flatMap_singleton, hq]
  rfl

theorem Takes.group (hp : p.Takes u g s) : (group p).Takes u g s := hp

theorem TakesOnly.capture (hp : p.TakesOnly u g s) : (capture p).TakesOnly u (u :: g) s := by
  intro b
  rw [hits_capture, hp b]
  rfl

theorem Takes.capture (hp : p.Takes u g s) : (capture p).Takes u (u :: g) s := by
  intro b
  exact mem_hits_capture.2 ⟨_, hp b, rfl⟩

theorem Takes.optional (hp : p.Takes u g s) : (optional p).Takes u g s := by
  intro b
  exact mem_hits_optional.2 (.inl (hp b))

theorem takes_optional_nil : (optional p).Takes [] [] s := fun _ => mem_hits_optional.2 (.inr rfl)

theorem takesOnly_nothing : nothing.TakesOnly [] [] s := fun _ => rfl

theorem takesOnly_char {c : Char} : (char c).TakesOnly [c] [] s := fun _ => by simp [hits_char_cons]

theorem takesOnly_literal : (literal u).TakesOnly u [] s := by
  induction u with
  | nil => exact takesOnly_nothing
  | cons c u ih => exact takesOnly_char.seq ih

theorem mem_hits_literal {b : Option Char} {h : Hit} (hh : h ∈ (literal u).hits b s) :
    h.text = u ∧ h.groups = [] := by
  induction u generalizing b s h with
  | nil => simp_all [literal, hits_nothing]
  | cons c u ih =>
    obtain ⟨_, hh₁, h₂, hh₂, rfl⟩ := mem_hits_seq.1 hh
    obtain ⟨_, _, rfl⟩ := mem_hits_char.1 hh₁
    obtain ⟨htext, hgroups⟩ := ih hh₂
    simp [htext, hgroups]

/-- A run takes all there is of its kind. -/
theorem run_append {f : Char → Bool} (hu : ∀ c ∈ u, f c = true) (hs : s.head?.any f = false) :
    Hit.run f (u ++ s) = ⟨u, [], s⟩ := by
  cases s with
  | nil =>
    have htake : u.takeWhile f = u := List.takeWhile_eq_self_iff.2 hu
    have hdrop : u.dropWhile f = [] := List.dropWhile_eq_nil_iff.2 hu
    simp [Hit.run, htake, hdrop]
  | cons c s =>
    have hc : f c = false := by simpa using hs
    rw [run_append_break hc]
    have htake : u.takeWhile f = u := List.takeWhile_eq_self_iff.2 hu
    have hdrop : u.dropWhile f = [] := List.dropWhile_eq_nil_iff.2 hu
    simp [Hit.run, Hit.extend, htake, hdrop]

theorem takesOnly_blanks (hu : ∀ c ∈ u, isBlank c = true) (hs : s.head?.any isBlank = false) :
    blanks.TakesOnly u [] s := by
  intro b
  rw [hits_blanks, run_append hu hs]

theorem takesOnly_digits (hne : u ≠ []) (hu : ∀ c ∈ u, c.isDigit = true)
    (hs : s.head?.any Char.isDigit = false) : digits.TakesOnly u [] s := by
  intro b
  obtain ⟨c, u, rfl⟩ := List.exists_cons_of_ne_nil hne
  have hhead : ((c :: u) ++ s).head?.any Char.isDigit = true := by simpa using hu c (by simp)
  rw [hits_digits, if_pos hhead, run_append hu hs]

end

/-! ## Alternatives -/

theorem Takes.either_left {p q : Pattern} {u s : List Char} {g : List (List Char)}
    (h : p.Takes u g s) : (either p q).Takes u g s := by
  intro b
  exact mem_hits_either.2 (.inl (h b))

theorem Takes.either_right {p q : Pattern} {u s : List Char} {g : List (List Char)}
    (h : q.Takes u g s) : (either p q).Takes u g s := by
  intro b
  exact mem_hits_either.2 (.inr (h b))

/-- Several alternatives hit whatever one of them hits. -/
theorem mem_hits_oneOf {ps : List Pattern} (hps : ps ≠ []) {b : Option Char} {s : List Char}
    {h : Hit} : h ∈ (oneOf ps).hits b s ↔ ∃ p ∈ ps, h ∈ p.hits b s := by
  induction ps with
  | nil => exact absurd rfl hps
  | cons p ps ih =>
    cases ps with
    | nil => simp [oneOf]
    | cons q ps =>
      have hrest := ih (List.cons_ne_nil q ps)
      -- The last alternative stands by itself, so there has to be another one here.
      rw [oneOf, mem_hits_either, hrest]
      · simp
      · exact List.cons_ne_nil q ps

theorem takes_oneOf {ps : List Pattern} {p : Pattern} (hp : p ∈ ps) {u s : List Char}
    {g : List (List Char)} (h : p.Takes u g s) : (oneOf ps).Takes u g s := by
  intro b
  have hne : ps ≠ [] := List.ne_nil_of_mem hp
  exact (mem_hits_oneOf hne).2 ⟨p, hp, h b⟩

/-! ## Loose phrases -/

/-- The text is the phrase with each space replaced by a run of white space, possibly empty. -/
inductive Spelling : List Char → List Char → Prop
  | done : Spelling [] []
  | char {c : Char} {a t : List Char} : c ≠ ' ' → Spelling a t → Spelling (c :: a) (c :: t)
  | gap {w a t : List Char} :
      (∀ c ∈ w, isBlank c = true) → Spelling a t → Spelling (' ' :: a) (w ++ t)

/-- Whether a phrase has no white space but single spaces between its words. -/
def isTight : List Char → Bool
  | [] => true
  | c :: a => (if c = ' ' then !a.isEmpty && !a.head?.any isBlank else !isBlank c) && isTight a

/-- A phrase of one word is matched as it stands. -/
theorem loose_eq_literal {a : List Char} (ha : ' ' ∉ a) : loose a = literal a := by
  induction a with
  | nil => rfl
  | cons c a ih =>
    rw [List.mem_cons, not_or] at ha
    rw [loose, literal, if_neg (Ne.symm ha.1), ih ha.2]

/-- A loose phrase takes each of its spellings, and of no spelling less or more. -/
theorem takesOnly_loose {a t : List Char} (ha : isTight a = true) (ht : Spelling a t)
    {s : List Char} : (loose a).TakesOnly t [] s := by
  induction ht with
  | done => exact takesOnly_nothing
  | @char c a t hc ht ih =>
    simp only [isTight, hc, if_false, Bool.and_eq_true] at ha
    rw [loose, if_neg hc]
    exact takesOnly_char.seq (ih ha.2)
  | @gap w a t hw ht ih =>
    simp only [isTight, if_true, Bool.and_eq_true, Bool.not_eq_true'] at ha
    obtain ⟨⟨hne, hhead⟩, ha⟩ := ha
    -- A space is followed by a character that is no white space, where the run has to end.
    have hstop : (t ++ s).head?.any isBlank = false := by
      cases ht with
      | done => simp at hne
      | char _ _ => simpa using hhead
      | gap _ _ => simp [isBlank] at hhead
    rw [loose, if_pos rfl]
    exact (takesOnly_blanks hw hstop).seq (ih ha)

/-- A phrase is a spelling of itself. -/
theorem spelling_self (a : List Char) : Spelling a a := by
  induction a with
  | nil => exact .done
  | cons c a ih =>
    by_cases hc : c = ' '
    · rw [hc]
      refine .gap (w := [' ']) ?_ ih
      intro d hd
      rw [List.mem_singleton.1 hd]
      rfl
    · exact .char hc ih

/-- A phrase without its spaces is a spelling of it. -/
theorem spelling_squeeze (a : List Char) : Spelling a (a.filter (· ≠ ' ')) := by
  induction a with
  | nil => exact .done
  | cons c a ih =>
    by_cases hc : c = ' '
    · rw [hc, List.filter_cons_of_neg (by simp)]
      exact .gap (w := []) (by simp) ih
    · rw [List.filter_cons_of_pos (by simpa using hc)]
      exact .char hc ih

/-- A loose phrase takes nothing but its spellings. -/
theorem mem_hits_loose {a : List Char} {b : Option Char} {s : List Char} {h : Hit}
    (hh : h ∈ (loose a).hits b s) : Spelling a h.text := by
  induction a generalizing b s h with
  | nil =>
    rw [loose, hits_nothing, List.mem_singleton] at hh
    rw [hh]
    exact .done
  | cons c a ih =>
    obtain ⟨h₁, hh₁, h₂, hh₂, rfl⟩ := mem_hits_seq.1 hh
    have hrest := ih hh₂
    rw [Hit.andThen_text]
    split at hh₁
    · next hc =>
      rw [hits_blanks, List.mem_singleton] at hh₁
      subst hh₁ hc
      refine .gap ?_ hrest
      intro d hd
      exact List.mem_takeWhile_imp hd
    · next hc =>
      obtain ⟨t, _, rfl⟩ := mem_hits_char.1 hh₁
      exact .char hc hrest

/-- Words without a space are spelled in one way. -/
theorem Spelling.of_append {u a t : List Char} (hu : ' ' ∉ u) (h : Spelling (u ++ a) t) :
    ∃ v, t = u ++ v ∧ Spelling a v := by
  induction u generalizing t with
  | nil => exact ⟨t, rfl, h⟩
  | cons c u ih =>
    rw [List.mem_cons, not_or] at hu
    cases h with
    | char _ h =>
      obtain ⟨v, rfl, hv⟩ := ih hu.2 h
      exact ⟨v, rfl, hv⟩
    | gap => exact absurd rfl hu.1

theorem Spelling.eq_self {a t : List Char} (ha : ' ' ∉ a) (h : Spelling a t) : t = a := by
  rw [← List.append_nil a] at h
  obtain ⟨v, rfl, hv⟩ := h.of_append ha
  cases hv
  exact List.append_nil a

/-- Two words are spelled with white space between them. -/
theorem Spelling.of_two_words {u a t : List Char} (hu : ' ' ∉ u) (ha : ' ' ∉ a)
    (h : Spelling (u ++ ' ' :: a) t) :
    ∃ w, t = u ++ (w ++ a) ∧ ∀ c ∈ w, isBlank c = true := by
  obtain ⟨v, rfl, hv⟩ := h.of_append hu
  cases hv with
  | char hc _ => exact absurd rfl hc
  | @gap w _ v hw hv =>
    rw [hv.eq_self ha]
    exact ⟨w, rfl, hw⟩

/-! ## Words and whole texts -/

/-- The text begins and ends with a word character. -/
def IsSolid (w : List Char) : Prop := isWordAt w.head? = true ∧ isWordAt w.getLast? = true

instance : DecidablePred IsSolid := fun w =>
  inferInstanceAs (Decidable (isWordAt w.head? = true ∧ isWordAt w.getLast? = true))

theorem IsSolid.ne_nil {w : List Char} (hw : IsSolid w) : w ≠ [] := by
  rintro rfl
  cases hw.1

theorem isWordAt_head?_append {u : List Char} (hu : isWordAt u.head? = true) (v : List Char) :
    isWordAt (u ++ v).head? = true := by
  cases u with
  | nil => cases hu
  | cons c u => exact hu

theorem isWordAt_getLast?_append (u : List Char) {v : List Char}
    (hv : isWordAt v.getLast? = true) : isWordAt (u ++ v).getLast? = true := by
  rw [List.getLast?_append]
  cases hlast : v.getLast? with
  | none => simp [hlast, isWordAt] at hv
  | some c => rwa [hlast] at hv

/-- A spelling begins and ends with the characters of its phrase. -/
theorem IsSolid.of_spelling {a t : List Char} (ha : IsSolid a) (ht : Spelling a t) :
    IsSolid t := by
  have hfirst : isWordAt t.head? = true := by
    cases ht with
    | done => exact ha.1
    | char _ _ => exact ha.1
    | gap _ _ => cases ha.1
  have hlast : isWordAt t.getLast? = true := by
    replace ha := ha.2
    clear hfirst
    induction ht with
    | done => exact ha
    | @char c a t _ ht ih =>
      cases a with
      | nil =>
        cases ht
        exact ha
      | cons d a => exact isWordAt_getLast?_append [c] (ih (by rwa [List.getLast?_cons_cons] at ha))
    | @gap w a t _ _ ih =>
      cases a with
      | nil => cases ha
      | cons d a => exact isWordAt_getLast?_append w (ih (by rwa [List.getLast?_cons_cons] at ha))
  exact ⟨hfirst, hlast⟩

theorem IsSolid.append {u v : List Char} (hu : IsSolid u) (hv : IsSolid v) : IsSolid (u ++ v) :=
  ⟨isWordAt_head?_append hu.1 v, isWordAt_getLast?_append u hv.2⟩

section WholeWord

variable {p : Pattern} {w : List Char} (hw : IsSolid w)
include hw

/-- What a pattern takes it also takes between word edges, where a word begins and ends. -/
theorem Takes.mem_hits_wholeWord {g : List (List Char)} {s : List Char} (hp : p.Takes w g s)
    {b : Option Char} (hb : isWordAt b = false) (hs : isWordAt s.head? = false) :
    ⟨w, g, s⟩ ∈ (wholeWord p).hits b (w ++ s) := by
  have hhead : (w ++ s).head? = w.head? := by
    rw [List.head?_append, List.head?_eq_some_head hw.ne_nil, Option.some_or]
  have hlastOr : Hit.lastOr ⟨w, g, s⟩ b = w.getLast? := by
    simp [Hit.lastOr, List.getLast?_eq_some_getLast hw.ne_nil]
  refine Pattern.mem_hits_wholeWord.2 ⟨?_, hp b, ?_⟩
  · simp [isWordEdge, hhead, hb, hw.1]
  · simp [isWordEdge, hlastOr, hw.2, hs]

theorem Takes.occurs_wholeWord {g : List (List Char)} (hp : p.Takes w g []) :
    (wholeWord p).occurs w = true := by
  have hmem := hp.mem_hits_wholeWord hw (b := none) rfl rfl
  rw [List.append_nil] at hmem
  exact occurs_of_mem_hits hmem

/-- Between word edges a pattern catches every word that it takes where no word goes on. -/
theorem catches_wholeWord (hp : ∀ s, isWordAt s.head? = false → ∃ g, p.Takes w g s) :
    (wholeWord p).Catches w := by
  intro b s hb hs
  obtain ⟨g, hg⟩ := hp s hs
  exact ⟨_, hg.mem_hits_wholeWord hw hb hs, hw.ne_nil⟩

/-- Between word edges a pattern erases a text that it takes if every hit there takes all of it. -/
theorem erase_wholeWord_eq_nil {g : List (List Char)} (hp : p.Takes w g [])
    (hall : ∀ h ∈ (wholeWord p).hits none w, h.rest = []) : (wholeWord p).erase w = [] := by
  have hmem := hp.mem_hits_wholeWord hw (b := none) rfl rfl
  rw [List.append_nil] at hmem
  cases hh : (wholeWord p).hit? none w with
  | none => exact absurd (hit?_eq_none_iff.1 hh _ hmem) hw.ne_nil
  | some h => exact erase_eq_nil hh (hall h (hit?_eq_some hh).1)

/-- A text that the pattern takes in one way only is erased. -/
theorem erase_wholeWord_of_takesOnly {g : List (List Char)} (hp : p.TakesOnly w g []) :
    (wholeWord p).erase w = [] := by
  apply erase_wholeWord_eq_nil hw hp.takes
  intro h hh
  have hmem := (Pattern.mem_hits_wholeWord.1 hh).2.1
  have honly := hp none
  rw [List.append_nil] at honly
  rw [honly, List.mem_singleton] at hmem
  rw [hmem]

end WholeWord

/-- The text stands in another as whole words: no word goes on before or after it. -/
def StandsIn (a s : List Char) : Prop :=
  ∃ u v, s = u ++ (a ++ v) ∧ isWordAt u.getLast? = false ∧ isWordAt v.head? = false

theorem StandsIn.subset {a s : List Char} (h : StandsIn a s) : a ⊆ s := by
  obtain ⟨u, v, rfl, _, _⟩ := h
  intro c hc
  simp [hc]

/-- The words of a text are words of any text that it stands in, in their order. -/
theorem StandsIn.wordRuns_sublist {a s : List Char} (h : StandsIn a s) :
    (wordRuns a).Sublist (wordRuns s) := by
  obtain ⟨u, v, rfl, hu, hv⟩ := h
  have hruns : wordRuns (u ++ (a ++ v)) = wordRuns u ++ (wordRuns a ++ wordRuns v) := by
    unfold wordRuns
    rw [runs_append_of_getLast? hu, runs_append_of_head? hv]
  rw [hruns]
  exact (List.sublist_append_left _ _).trans (List.sublist_append_right _ _)

/-- A word stands in a text exactly if it is one of its words. -/
theorem standsIn_iff_mem_wordRuns {w s : List Char} (hne : w ≠ [])
    (hw : ∀ c ∈ w, isWord c = true) : StandsIn w s ↔ w ∈ wordRuns s := by
  constructor
  · intro h
    have hsub := h.wordRuns_sublist
    rw [wordRuns, runs_of_all hne hw] at hsub
    exact List.singleton_sublist.1 hsub
  · intro h
    exact exists_append_of_mem_runs h

/-- Between word edges a pattern occurs only where something that it takes stands as whole
words. -/
theorem exists_standsIn_of_occurs {p : Pattern} (hp : p.isWordy = true) {s : List Char}
    (h : (wholeWord p).occurs s = true) : ∃ b t, ∃ h ∈ p.hits b t, StandsIn h.text s := by
  obtain ⟨u, v, rfl, h, hh⟩ := occurs_iff.1 h
  have hwords := takesWords_wholeWord hp _ _ _ hh
  have hcut := text_append_rest hh
  exact ⟨_, _, h, (mem_hits_wholeWord.1 hh).2.1, u, h.rest, by rw [hcut], hwords.before,
    hwords.after⟩

/-- Between word edges a pattern occurs wherever something that it takes stands as whole words. -/
theorem StandsIn.occurs_wholeWord {p : Pattern} {a s : List Char} {g : List (List Char)}
    (ha : IsSolid a) (hp : ∀ t, p.Takes a g t) (h : StandsIn a s) :
    (wholeWord p).occurs s = true := by
  obtain ⟨u, v, rfl, hu, hv⟩ := h
  exact occurs_iff.2 ⟨u, a ++ v, rfl, _, (hp v).mem_hits_wholeWord ha hu hv⟩

/-- A text that the pattern takes is erased if what stands before its last word is not enough for
the pattern: then a hit reaches into the last word, and so to its end. -/
theorem erase_wholeWord_of_lastWord {p : Pattern} {u v : List Char} {g : List (List Char)}
    (hwordy : p.isWordy = true) (hsolid : IsSolid (u ++ v)) (hp : p.Takes (u ++ v) g [])
    (test : Char → Bool) (hcount : u.countP test < p.atLeast test)
    (hv : v.all isWord = true) : (wholeWord p).erase (u ++ v) = [] := by
  apply erase_wholeWord_eq_nil hsolid hp
  intro h hh
  have hmem := (Pattern.mem_hits_wholeWord.1 hh).2.1
  have hafter := (takesWords_wholeWord hwordy _ _ _ hh).after
  have hcut := text_append_rest hmem
  have henough := atLeast_le_countP test hmem
  -- The hit is longer than what stands before the last word.
  have hrest : ∃ t, v = t ++ h.rest := by
    rcases List.append_eq_append_iff.1 hcut with ⟨t, hu, _⟩ | ⟨t, _, hv⟩
    · have hle : h.text.countP test ≤ u.countP test := by
        rw [hu, List.countP_append]
        omega
      omega
    · exact ⟨t, hv⟩
  obtain ⟨t, ht⟩ := hrest
  cases hr : h.rest with
  | nil => rfl
  | cons c s =>
    -- A rest would go on inside the last word, where no whole word ends.
    have hc : isWord c = true := List.all_eq_true.1 hv c (by simp [ht, hr])
    simp [hr, isWordAt, hc] at hafter

end FleetSearch.Pattern
