/-
# FleetSearch.Proofs.Pattern.Spacing -- patterns that do not see how wide white space is

Two texts with the same words differ only in the white space between their words and at their ends.
Two places in such texts look alike if moreover a word goes on at both or at neither (`Respaced`).
Most patterns have the same hits at places that look alike. Three things could tell the places
apart: a character of white space that is taken by itself, white space in a capture, and a word edge
right behind a run of white space, which at the end of a text need not be there. `settles` goes
through a pattern and says that it has none of these.

The proof runs along both texts at once. The hits at two places correspond one by one
(`hits_respaced`), so the scans do, and a pattern captures the same in both texts
(`finds_respaced`).
-/

import FleetSearch.Proofs.Pattern.Following
import Mathlib.Data.List.Forall2

namespace FleetSearch

namespace Text

/-! ## Places in texts with the same words -/

/-- A word ends before white space and at the end of the text. -/
theorem words_cons {c : Char} (hc : isBlank c = false) (s : List Char) :
    words (c :: s) = if s.head?.all isBlank then [c] :: words s else extendFirst c (words s) := by
  cases s with
  | nil => exact words_singleton hc
  | cons d s =>
    cases hd : isBlank d with
    | true => simp [hd, words_cons_of_blank hc hd, words_cons_blank hd]
    | false => simp [hd, words_cons_of_not_blank hc hd]

/-- Where no white space comes next, the first word begins. -/
theorem exists_words_eq_cons {s : List Char} (hs : s.head?.all isBlank = false) :
    ∃ c w ws, words s = (c :: w) :: ws := by
  cases s with
  | nil => cases hs
  | cons c s =>
    rw [words_cons hs]
    split
    · exact ⟨c, [], words s, rfl⟩
    · cases words s with
      | nil => exact ⟨c, [], [], rfl⟩
      | cons w ws => exact ⟨c, w, ws, rfl⟩

theorem words_trimStart (s : List Char) : words (trimStart s) = words s := by
  induction s with
  | nil => rfl
  | cons c s ih =>
    unfold trimStart at ih ⊢
    cases hc : isBlank c with
    | true => rw [List.dropWhile_cons_of_pos hc, words_cons_blank hc, ih]
    | false => rw [List.dropWhile_cons_of_neg (by simp [hc])]

theorem length_trimStart_lt {s : List Char} (hs : s.head?.all isBlank = true) (hne : s ≠ []) :
    (trimStart s).length < s.length := by
  obtain ⟨c, t, rfl⟩ := List.exists_cons_of_ne_nil hne
  have hc : isBlank c = true := hs
  rw [trimStart, List.dropWhile_cons_of_pos hc, List.length_cons]
  exact Nat.lt_succ_of_le (List.length_dropWhile_le isBlank t)

/-- Behind white space at the start of a text there is a word or nothing. -/
theorem trimStart_cases (s : List Char) :
    trimStart s = [] ∨ ∃ c t, trimStart s = c :: t ∧ isBlank c = false := by
  have hstop := List.head?_dropWhile_not isBlank s
  rw [← trimStart] at hstop
  cases ht : trimStart s with
  | nil => exact .inl rfl
  | cons c t => exact .inr ⟨c, t, rfl, by simpa [ht] using hstop⟩

theorem trimStart_eq_nil_iff {s : List Char} : trimStart s = [] ↔ words s = [] := by
  rw [← words_trimStart]
  rcases trimStart_cases s with hnil | ⟨c, t, hcons, hc⟩
  · rw [hnil]
    exact iff_of_true rfl rfl
  · obtain ⟨d, w, ws, hwords⟩ := exists_words_eq_cons (s := c :: t) hc
    simp [hcons, hwords]

/-- Places in two texts that look alike: the words that follow are the same, and a word goes on at
both places or at neither. -/
structure Respaced (s s' : List Char) : Prop where
  words_eq : words s = words s'
  start_eq : s.head?.all isBlank = s'.head?.all isBlank

/-- In front of their first words, texts with the same words look alike. -/
theorem respaced_trimStart {s s' : List Char} (h : words s = words s') :
    Respaced (trimStart s) (trimStart s') where
  words_eq := by rw [words_trimStart, words_trimStart, h]
  start_eq := by
    have hnil : trimStart s = [] ↔ trimStart s' = [] := by
      rw [trimStart_eq_nil_iff, trimStart_eq_nil_iff, h]
    rcases trimStart_cases s with hs | ⟨c, t, hs, hc⟩
    · rw [hs, hnil.1 hs]
    · rcases trimStart_cases s' with hs' | ⟨c', t', hs', hc'⟩
      · simp [hnil.2 hs'] at hs
      · simp [hs, hs', hc, hc']

/-- Texts with the same words that begin with a word begin with the same character, and behind it
they look alike. -/
theorem respaced_of_words_cons {c d : Char} {s t : List Char} (hc : isBlank c = false)
    (hd : isBlank d = false) (h : words (c :: s) = words (d :: t)) : c = d ∧ Respaced s t := by
  rw [words_cons hc, words_cons hd] at h
  cases hs : s.head?.all isBlank with
  | true =>
    cases ht : t.head?.all isBlank with
    | true =>
      simp only [hs, ht, if_true, List.cons.injEq, and_true] at h
      exact ⟨h.1, h.2, hs.trans ht.symm⟩
    | false =>
      obtain ⟨e, w, ws, hwords⟩ := exists_words_eq_cons ht
      simp [hs, ht, hwords, extendFirst] at h
  | false =>
    obtain ⟨e, w, ws, hwords⟩ := exists_words_eq_cons hs
    cases ht : t.head?.all isBlank with
    | true => simp [hs, ht, hwords, extendFirst] at h
    | false =>
      obtain ⟨e', w', ws', hwords'⟩ := exists_words_eq_cons ht
      simp only [hs, ht, hwords, hwords', extendFirst, Bool.false_eq_true, if_false,
        List.cons.injEq] at h
      obtain ⟨⟨rfl, rfl, rfl⟩, rfl⟩ := h
      exact ⟨rfl, hwords.trans hwords'.symm, hs.trans ht.symm⟩

/-- At places that look alike either no word goes on, or one does with the same character. -/
theorem Respaced.cases {s s' : List Char} (h : Respaced s s') :
    (s.head?.all isBlank = true ∧ s'.head?.all isBlank = true) ∨
      ∃ c t t', isBlank c = false ∧ s = c :: t ∧ s' = c :: t' ∧ Respaced t t' := by
  obtain ⟨hwords, hstart⟩ := h
  cases hs : s.head?.all isBlank with
  | true => exact .inl ⟨rfl, hstart.symm.trans hs⟩
  | false =>
    cases s with
    | nil => cases hs
    | cons c t =>
      rw [hs] at hstart
      cases s' with
      | nil => cases hstart
      | cons d t' =>
        obtain ⟨rfl, hrest⟩ := respaced_of_words_cons hs hstart.symm hwords
        exact .inr ⟨c, t, t', hs, rfl, rfl, hrest⟩

section NoBlank

variable {f : Char → Bool} (hf : ∀ c, isBlank c = true → f c = false) {s s' : List Char}
include hf

/-- Where no word goes on, no character comes next that is no white space. -/
theorem head?_any_of_all_isBlank (hs : s.head?.all isBlank = true) : s.head?.any f = false := by
  cases s with
  | nil => rfl
  | cons c s => exact hf c hs

theorem Respaced.head?_any (h : Respaced s s') : s.head?.any f = s'.head?.any f := by
  rcases h.cases with ⟨hs, hs'⟩ | ⟨c, t, t', -, rfl, rfl, -⟩
  · rw [head?_any_of_all_isBlank hf hs, head?_any_of_all_isBlank hf hs']
  · rfl

/-- A run of characters that are no white space is the same at places that look alike. -/
theorem Respaced.run (h : Respaced s s') :
    s.takeWhile f = s'.takeWhile f ∧ Respaced (s.dropWhile f) (s'.dropWhile f) := by
  have hstop : ∀ {t : List Char}, t.head?.all isBlank = true →
      t.takeWhile f = [] ∧ t.dropWhile f = t := by
    intro t ht
    cases t with
    | nil => exact ⟨rfl, rfl⟩
    | cons c t =>
      have hc : ¬ f c = true := by simp [hf c ht]
      exact ⟨List.takeWhile_cons_of_neg hc, List.dropWhile_cons_of_neg hc⟩
  induction s generalizing s' with
  | nil =>
    rcases h.cases with ⟨_, hs'⟩ | ⟨_, _, _, _, hcut, _⟩
    · rw [(hstop hs').1, (hstop hs').2]
      exact ⟨rfl, h⟩
    · cases hcut
  | cons c t ih =>
    rcases h.cases with ⟨hs, hs'⟩ | ⟨_, _, t', _, hcut, rfl, hrest⟩
    · rw [(hstop hs).1, (hstop hs).2, (hstop hs').1, (hstop hs').2]
      exact ⟨rfl, h⟩
    · obtain ⟨rfl, rfl⟩ := List.cons.inj hcut
      cases hc : f c with
      | true =>
        rw [List.takeWhile_cons_of_pos hc, List.takeWhile_cons_of_pos hc,
          List.dropWhile_cons_of_pos hc, List.dropWhile_cons_of_pos hc, (ih hrest).1]
        exact ⟨rfl, (ih hrest).2⟩
      | false =>
        have hneg : ¬ f c = true := by simp [hc]
        rw [List.takeWhile_cons_of_neg hneg, List.takeWhile_cons_of_neg hneg,
          List.dropWhile_cons_of_neg hneg, List.dropWhile_cons_of_neg hneg]
        exact ⟨rfl, h⟩

end NoBlank

end Text

open Text

namespace Pattern

/-! ## What a pattern may see -/

/-- Whether no hit of the pattern takes white space by a run of it. -/
def isClosed : Pattern → Bool
  | .blanks => false
  | .nothing | .char _ | .digits | .edge => true
  | .group p | .capture p | .optional p => p.isClosed
  | .seq p q | .either p q => p.isClosed && q.isClosed

/-- Goes through the pattern from a place where it is settled, or not, whether the text before it
ends with a word character, and says whether that is settled behind the pattern. There is no result
if white space could show: if the pattern takes or captures a certain white space, or if it looks
for an edge where nothing is settled. -/
def settles : Pattern → Bool → Option Bool
  | .nothing, settled => some settled
  | .char c, _ => if isBlank c then none else some true
  | .blanks, _ => some false
  | .digits, _ => some true
  | .edge, settled => if settled then some true else none
  | .group p, settled => p.settles settled
  | .capture p, settled => if p.isClosed then p.settles settled else none
  | .optional p, settled => (p.settles settled).map (settled && ·)
  | .seq p q, settled => (p.settles settled).bind q.settles
  | .either p q, settled =>
    (p.settles settled).bind fun left => (q.settles settled).map (left && ·)

/-! ## Hits at places that look alike -/

/-- Hits at places that look alike, behind `b` and `b'`. They capture the same, and look alike from
behind. They take the same text if no white space is taken. If it is settled then both or neither
end with a word character. -/
structure SameHit (closed settled : Bool) (b b' : Option Char) (h h' : Hit) : Prop where
  groups : h.groups = h'.groups
  rest : Respaced h.rest h'.rest
  text : closed = true → h.text = h'.text
  last : settled = true → isWordAt (h.lastOr b) = isWordAt (h'.lastOr b')

theorem sameHit_here {closed settled : Bool} {b b' : Option Char} {s s' : List Char}
    (hs : Respaced s s') (hb : settled = true → isWordAt b = isWordAt b') :
    SameHit closed settled b b' (.here s) (.here s') :=
  ⟨rfl, hs, fun _ => rfl, hb⟩

theorem SameHit.weaken {closed closed' settled settled' : Bool} {b b' : Option Char} {h h' : Hit}
    (hh : SameHit closed settled b b' h h') (hclosed : closed' = true → closed = true)
    (hsettled : settled' = true → settled = true) : SameHit closed' settled' b b' h h' :=
  ⟨hh.groups, hh.rest, fun hc => hh.text (hclosed hc), fun hc => hh.last (hsettled hc)⟩

theorem lastOr_andThen (h k : Hit) (b : Option Char) :
    (h.andThen k).lastOr b = k.lastOr (h.lastOr b) := by
  simp [Hit.lastOr, List.getLast?_append, Option.or_assoc]

theorem SameHit.andThen {closed closed' settled settled' : Bool} {b b' : Option Char}
    {h h' k k' : Hit} (hh : SameHit closed settled b b' h h')
    (hk : SameHit closed' settled' (h.lastOr b) (h'.lastOr b') k k') :
    SameHit (closed && closed') settled' b b' (h.andThen k) (h'.andThen k') where
  groups := by rw [Hit.andThen_groups, Hit.andThen_groups, hh.groups, hk.groups]
  rest := hk.rest
  text := by
    intro hclosed
    rw [Bool.and_eq_true] at hclosed
    rw [Hit.andThen_text, Hit.andThen_text, hh.text hclosed.1, hk.text hclosed.2]
  last := by
    intro hsettled
    rw [lastOr_andThen, lastOr_andThen]
    exact hk.last hsettled

theorem SameHit.captured {closed settled : Bool} {b b' : Option Char} {h h' : Hit}
    (hh : SameHit closed settled b b' h h') (hclosed : closed = true) :
    SameHit closed settled b b' h.captured h'.captured where
  groups := by rw [Hit.captured, Hit.captured, hh.text hclosed, hh.groups]
  rest := hh.rest
  text := hh.text
  last := hh.last

/-- The hits correspond one by one. -/
def SameHits (closed settled : Bool) (b b' : Option Char) (ks ks' : List Hit) : Prop :=
  List.Forall₂ (SameHit closed settled b b') ks ks'

theorem SameHits.weaken {closed closed' settled settled' : Bool} {b b' : Option Char}
    {ks ks' : List Hit} (h : SameHits closed settled b b' ks ks')
    (hclosed : closed' = true → closed = true) (hsettled : settled' = true → settled = true) :
    SameHits closed' settled' b b' ks ks' :=
  List.Forall₂.imp (fun _ _ hh => hh.weaken hclosed hsettled) h

/-! ### One kind of pattern after the other -/

/-- Where no word goes on, a character that is no white space is not taken. -/
theorem hits_char_of_all_isBlank {c : Char} (hc : ¬ isBlank c = true) {b : Option Char}
    {s : List Char} (hs : s.head?.all isBlank = true) : (char c).hits b s = [] := by
  rw [List.eq_nil_iff_forall_not_mem]
  intro h hh
  obtain ⟨t, rfl, -⟩ := mem_hits_char.1 hh
  exact hc hs

section Leaves

variable {b b' : Option Char} {s s' : List Char} (hs : Respaced s s')
include hs

theorem sameHits_char {c : Char} (hc : ¬ isBlank c = true) :
    SameHits true true b b' ((char c).hits b s) ((char c).hits b' s') := by
  rcases hs.cases with ⟨hgap, hgap'⟩ | ⟨d, t, t', -, rfl, rfl, hrest⟩
  · rw [hits_char_of_all_isBlank hc hgap, hits_char_of_all_isBlank hc hgap']
    exact .nil
  · rw [hits_char_cons, hits_char_cons]
    split
    · exact .cons ⟨rfl, hrest, fun _ => rfl, fun _ => rfl⟩ .nil
    · exact .nil

/-- Runs of white space end in front of the same words, but how long they are need not agree. -/
theorem sameHits_blanks : SameHits false false b b' (blanks.hits b s) (blanks.hits b' s') := by
  refine .cons ⟨rfl, respaced_trimStart hs.words_eq, ?_, ?_⟩ .nil
  · exact fun hclosed => absurd hclosed Bool.false_ne_true
  · exact fun hsettled => absurd hsettled Bool.false_ne_true

theorem sameHits_digits : SameHits true true b b' (digits.hits b s) (digits.hits b' s') := by
  have hdigit : ∀ c, isBlank c = true → c.isDigit = false := fun _ => isDigit_of_isBlank
  obtain ⟨htext, hrest⟩ := hs.run hdigit
  rw [hits_digits, hits_digits, hs.head?_any hdigit]
  split
  · next hhead =>
    have hne : s'.takeWhile Char.isDigit ≠ [] :=
      text_ne_nil (p := digits) rfl (mem_hits_digits (b := b').2 ⟨hhead, rfl⟩)
    refine .cons ⟨rfl, hrest, fun _ => htext, fun _ => ?_⟩ .nil
    rw [Hit.lastOr, Hit.lastOr, Hit.run, Hit.run, htext, List.getLast?_eq_some_getLast hne]
    rfl
  · exact .nil

/-- An edge is seen at both places or at neither if the same is before them. -/
theorem sameHits_edge (hb : isWordAt b = isWordAt b') :
    SameHits true true b b' (edge.hits b s) (edge.hits b' s') := by
  have hword : isWordAt s.head? = isWordAt s'.head? := hs.head?_any fun _ => isWord_of_isBlank
  have hedge : isWordEdge b s.head? = isWordEdge b' s'.head? := by
    rw [isWordEdge, isWordEdge, hb, hword]
  rw [hits_edge, hits_edge, hedge]
  split
  · exact .cons (sameHit_here hs fun _ => hb) .nil
  · exact .nil

end Leaves

section Parts

variable {p q : Pattern} {closed closed' settled settled' : Bool} {b b' : Option Char}
  {s s' : List Char}

theorem SameHits.capture (h : SameHits true settled b b' (p.hits b s) (p.hits b' s')) :
    SameHits true settled b b' ((capture p).hits b s) ((capture p).hits b' s') := by
  rw [SameHits, hits_capture, hits_capture, List.forall₂_map_left_iff, List.forall₂_map_right_iff]
  exact List.Forall₂.imp (fun _ _ hh => hh.captured rfl) h

/-- Where a part may be missing, what is settled behind it was so before it. -/
theorem SameHits.optional (h : SameHits closed settled b b' (p.hits b s) (p.hits b' s'))
    (hs : Respaced s s') (hb : settled' = true → isWordAt b = isWordAt b') :
    SameHits closed (settled' && settled) b b' ((optional p).hits b s)
      ((optional p).hits b' s') := by
  have hthere : SameHits closed (settled' && settled) b b' (p.hits b s) (p.hits b' s') :=
    h.weaken id fun hand => (Bool.and_eq_true_iff.1 hand).2
  rw [hits_optional, hits_optional]
  refine List.rel_append hthere (.cons (sameHit_here hs ?_) .nil)
  exact fun hand => hb (Bool.and_eq_true_iff.1 hand).1

theorem SameHits.seq (hp : SameHits closed settled b b' (p.hits b s) (p.hits b' s'))
    (hq : ∀ h h', SameHit closed settled b b' h h' →
      SameHits closed' settled' (h.lastOr b) (h'.lastOr b') (q.hits (h.lastOr b) h.rest)
        (q.hits (h'.lastOr b') h'.rest)) :
    SameHits (closed && closed') settled' b b' ((seq p q).hits b s) ((seq p q).hits b' s') := by
  rw [hits_seq, hits_seq]
  refine List.rel_flatMap hp ?_
  intro h h' hh
  rw [List.forall₂_map_left_iff, List.forall₂_map_right_iff]
  exact List.Forall₂.imp (fun _ _ => hh.andThen) (hq h h' hh)

theorem SameHits.either (hp : SameHits closed settled b b' (p.hits b s) (p.hits b' s'))
    (hq : SameHits closed' settled' b b' (q.hits b s) (q.hits b' s')) :
    SameHits (closed && closed') (settled && settled') b b' ((either p q).hits b s)
      ((either p q).hits b' s') := by
  rw [hits_either, hits_either]
  refine List.rel_append (hp.weaken ?_ ?_) (hq.weaken ?_ ?_)
  · exact fun hand => (Bool.and_eq_true_iff.1 hand).1
  · exact fun hand => (Bool.and_eq_true_iff.1 hand).1
  · exact fun hand => (Bool.and_eq_true_iff.1 hand).2
  · exact fun hand => (Bool.and_eq_true_iff.1 hand).2

end Parts

/-- **Hits correspond.** A pattern to which white space does not show has the same hits at places
that look alike, one by one. -/
theorem hits_respaced {p : Pattern} {before after : Bool} (hp : p.settles before = some after)
    {b b' : Option Char} (hb : before = true → isWordAt b = isWordAt b') {s s' : List Char}
    (hs : Respaced s s') : SameHits p.isClosed after b b' (p.hits b s) (p.hits b' s') := by
  induction p generalizing before after b b' s s' with
  | nothing =>
    obtain rfl : before = after := Option.some.inj hp
    exact .cons (sameHit_here hs hb) .nil
  | char c =>
    rw [settles] at hp
    split at hp
    · cases hp
    · next hc =>
      obtain rfl : true = after := Option.some.inj hp
      exact sameHits_char hs hc
  | blanks =>
    obtain rfl : false = after := Option.some.inj hp
    exact sameHits_blanks hs
  | digits =>
    obtain rfl : true = after := Option.some.inj hp
    exact sameHits_digits hs
  | edge =>
    rw [settles] at hp
    split at hp
    · next hbefore =>
      obtain rfl : true = after := Option.some.inj hp
      exact sameHits_edge hs (hb hbefore)
    · cases hp
  | group p ih => exact ih hp hb hs
  | capture p ih =>
    rw [settles] at hp
    split at hp
    · next hclosed =>
      have hall := ih hp hb hs
      rw [hclosed] at hall
      rw [isClosed, hclosed]
      exact hall.capture
    · cases hp
  | optional p ih =>
    obtain ⟨inside, hinside, rfl⟩ := Option.map_eq_some_iff.1 hp
    exact (ih hinside hb hs).optional hs hb
  | seq p q ihp ihq =>
    obtain ⟨between, hfirst, hsecond⟩ := Option.bind_eq_some_iff.1 hp
    exact (ihp hfirst hb hs).seq fun _ _ hh => ihq hsecond hh.last hh.rest
  | either p q ihp ihq =>
    obtain ⟨left, hleft, hp⟩ := Option.bind_eq_some_iff.1 hp
    obtain ⟨right, hright, rfl⟩ := Option.map_eq_some_iff.1 hp
    exact (ihp hleft hb hs).either (ihq hright hb hs)

/-! ## Scans of texts with the same words -/

/-- White space shows to the pattern neither before nor behind nor inside of what it takes. -/
structure IgnoresSpacing (p : Pattern) : Prop where
  proper : p.isProper = true
  startsInWord : p.startsInWord = true
  settles : p.settles true = some true

instance : DecidablePred IgnoresSpacing := fun p =>
  decidable_of_iff
    (p.isProper = true ∧ p.startsInWord = true ∧ p.settles true = some true)
    ⟨fun h => ⟨h.1, h.2.1, h.2.2⟩, fun h => ⟨h.proper, h.startsInWord, h.settles⟩⟩

section

variable {p : Pattern}

theorem hits_eq_nil_of_hit? (hp : p.isProper = true) {b : Option Char} {s : List Char}
    (h : p.hit? b s = none) : p.hits b s = [] := by
  rw [List.eq_nil_iff_forall_not_mem]
  intro k hk
  exact text_ne_nil hp hk (hit?_eq_none_iff.1 h k hk)

/-- The best hit of a pattern that always takes some text is its first. -/
theorem hit?_eq_head? (hp : p.isProper = true) (b : Option Char) (s : List Char) :
    p.hit? b s = (p.hits b s).head? := by
  cases hhits : p.hits b s with
  | nil => simp [hit?, hhits]
  | cons h hs =>
    have hne : h.text ≠ [] := text_ne_nil hp (s := s) (b := b) (by simp [hhits])
    simp [hit?, hhits, hne]

/-- A pattern that always takes some text occurs exactly if it finds something. -/
theorem occurs_iff_finds_ne_nil (hp : p.isProper = true) {s : List Char} :
    p.occurs s = true ↔ p.finds s ≠ [] := by
  have hkeep : ∀ {b ps}, Scan p b s ps → Piece.foundHits ps = [] → p.occursAfter b s = false := by
    intro b ps hps hnone
    induction hps with
    | done b =>
      rw [occursAfter, hits_eq_nil_of_hit? hp (hit?_nil p b)]
      rfl
    | keep hmiss _ ih =>
      rw [occursAfter, hits_eq_nil_of_hit? hp hmiss, ih hnone]
      rfl
    | find => cases hnone
  have hs := scan_piecesAfter p none s
  constructor
  · intro hocc hnil
    rw [finds_eq_of_scan hs] at hnil
    rw [occurs, hkeep hs hnil] at hocc
    cases hocc
  · intro hne
    cases hocc : p.occurs s with
    | true => rfl
    | false => exact absurd (finds_eq_nil_of_not_occurs hocc) hne

variable (hp : p.IgnoresSpacing)
include hp

/-- White space in front of a text has no part in what is found. -/
theorem finds_trimStart (s : List Char) : p.finds (trimStart s) = p.finds s := by
  induction s with
  | nil => rfl
  | cons c s ih =>
    unfold trimStart at ih ⊢
    cases hc : isBlank c with
    | true =>
      rw [List.dropWhile_cons_of_pos hc, ih,
        finds_cons_break hp.proper hp.startsInWord (isWord_of_isBlank hc)]
    | false => rw [List.dropWhile_cons_of_neg (by simp [hc])]

/-- Where no word goes on, a scan goes on as at the start of a text. -/
theorem foundHits_of_all_isBlank {b : Option Char} {s : List Char} {ps : List Piece}
    (hs : s.head?.all isBlank = true) (hps : Scan p b s ps) :
    Piece.foundHits ps = p.finds s := by
  cases s with
  | nil =>
    cases hps with
    | done => rfl
    | find hsome _ => simp [hit?_nil] at hsome
  | cons c s =>
    have hnone : ∀ b, p.hit? b (c :: s) = none := by
      intro b
      rw [hit?, hits_cons_break hp.proper hp.startsInWord (isWord_of_isBlank hs)]
      rfl
    cases hps with
    | keep _ hps => rw [finds_eq_of_scan (.keep (hnone none) hps)]
    | find hsome _ => simp [hnone] at hsome

/-- The best hits at places that look alike correspond. -/
theorem hit?_respaced {b b' : Option Char} {s s' : List Char} (hb : isWordAt b = isWordAt b')
    (hs : Respaced s s') :
    (p.hit? b s = none ∧ p.hit? b' s' = none) ∨
      ∃ h h', p.hit? b s = some h ∧ p.hit? b' s' = some h' ∧
        SameHit p.isClosed true b b' h h' := by
  have hall := hits_respaced hp.settles (fun _ => hb) hs
  rw [hit?_eq_head? hp.proper, hit?_eq_head? hp.proper]
  generalize p.hits b s = ks, p.hits b' s' = ks' at hall
  cases hall with
  | nil => exact .inl ⟨rfl, rfl⟩
  | cons hh _ => exact .inr ⟨_, _, rfl, rfl, hh⟩

/-- **Scans correspond.** The finds of scans from places that look alike capture the same, one by
one. -/
theorem foundHits_respaced {b b' : Option Char} {s s' : List Char} {ps ps' : List Piece}
    (hb : isWordAt b = isWordAt b') (hs : Respaced s s') (hps : Scan p b s ps)
    (hps' : Scan p b' s' ps') :
    (Piece.foundHits ps).map Hit.groups = (Piece.foundHits ps').map Hit.groups := by
  -- A find goes on behind its text, so the induction is on the length of what is left.
  induction hn : s.length using Nat.strong_induction_on generalizing b b' s s' ps ps' with
  | _ n ih =>
    rcases hs.cases with ⟨hgap, hgap'⟩ | ⟨c, t, t', -, rfl, rfl, hrest⟩
    · -- White space may be of different length, so both scans go on behind all of it.
      rw [foundHits_of_all_isBlank hp hgap hps, foundHits_of_all_isBlank hp hgap' hps',
        ← finds_trimStart hp s, ← finds_trimStart hp s']
      by_cases hnil : words s = []
      · rw [trimStart_eq_nil_iff.2 hnil, trimStart_eq_nil_iff.2 (hs.words_eq ▸ hnil)]
      · have hne : s ≠ [] := fun h => hnil (h ▸ rfl)
        have hshort : (trimStart s).length < n := hn ▸ length_trimStart_lt hgap hne
        exact ih _ hshort rfl (respaced_trimStart hs.words_eq) (scan_piecesAfter p none _)
          (scan_piecesAfter p none _) rfl
    · rcases hit?_respaced hp hb hs with ⟨hnone, hnone'⟩ | ⟨h, h', hsome, hsome', hh⟩
      · cases hps with
        | find hfind _ => simp [hnone] at hfind
        | keep _ hqs =>
          cases hps' with
          | find hfind _ => simp [hnone'] at hfind
          | keep _ hqs' =>
            rw [Piece.foundHits_kept, Piece.foundHits_kept]
            exact ih t.length (by simp [← hn]) rfl hrest hqs hqs' rfl
      · cases hps with
        | keep hmiss _ => simp [hsome] at hmiss
        | find hfind hqs =>
          cases hps' with
          | keep hmiss _ => simp [hsome'] at hmiss
          | find hfind' hqs' =>
            obtain rfl := Option.some.inj (hsome.symm.trans hfind)
            obtain rfl := Option.some.inj (hsome'.symm.trans hfind')
            have hshort : h.rest.length < n := hn ▸ length_rest_lt hsome
            rw [Piece.foundHits_found, Piece.foundHits_found, List.map_cons, List.map_cons,
              hh.groups, ih _ hshort (hh.last rfl) hh.rest hqs hqs' rfl]

/-- **Spacing does not show.** In texts with the same words such a pattern finds as many places, and
captures the same at them. -/
theorem finds_respaced {s s' : List Char} (h : words s = words s') :
    (p.finds s).map Hit.groups = (p.finds s').map Hit.groups := by
  rw [← finds_trimStart hp s, ← finds_trimStart hp s']
  exact foundHits_respaced hp rfl (respaced_trimStart h) (scan_piecesAfter p none _)
    (scan_piecesAfter p none _)

theorem occurs_respaced {s s' : List Char} (h : words s = words s') : p.occurs s = p.occurs s' := by
  have hnil : p.finds s = [] ↔ p.finds s' = [] := by
    rw [← List.map_eq_nil_iff (f := Hit.groups), finds_respaced hp h, List.map_eq_nil_iff]
  rw [Bool.eq_iff_iff, occurs_iff_finds_ne_nil hp.proper, occurs_iff_finds_ne_nil hp.proper]
  exact not_congr hnil

end

end Pattern

end FleetSearch
