/-
# FleetSearch.Proofs.Pattern.Following -- where a pattern that begins with a word can match

A pattern that begins with a word matches only where the word stands, and there only if the rest of
the pattern matches what follows. So the texts that follow the word (`following`) decide whether
the pattern occurs at all (`occurs_literal_seq`), and a pattern that does not occur finds nothing.

`Refuses` is the opposite of taking: the pattern has no hit at the start of the text. Like taking it
goes along with the pattern, part by part.
-/

import FleetSearch.Proofs.Pattern.Taking

namespace FleetSearch.Pattern

open Text

/-! ## Patterns that do not occur -/

/-- A pattern that does not occur in a text keeps all its characters. -/
theorem scan_of_not_occursAfter {p : Pattern} {b : Option Char} {s : List Char}
    (h : p.occursAfter b s = false) : Scan p b s (s.map .kept) := by
  induction s generalizing b with
  | nil => exact .done b
  | cons c s ih =>
    rw [occursAfter, Bool.or_eq_false_iff, Bool.not_eq_false', List.isEmpty_iff] at h
    refine .keep ?_ (ih h.2)
    rw [hit?, h.1]
    rfl

theorem finds_eq_nil_of_not_occurs {p : Pattern} {s : List Char} (h : p.occurs s = false) :
    p.finds s = [] := by
  rw [finds_eq_of_scan (scan_of_not_occursAfter h)]
  clear h
  induction s with
  | nil => rfl
  | cons c s ih => exact ih

/-- A pattern that needs more characters of some kind than the text has does not occur in it. -/
theorem occurs_eq_false_of_countP {p : Pattern} (test : Char → Bool) {s : List Char}
    (hlt : s.countP test < p.atLeast test) : p.occurs s = false := by
  have hnone : ∀ b (t : List Char), t.countP test < p.atLeast test → p.hits b t = [] := by
    intro b t ht
    rw [List.eq_nil_iff_forall_not_mem]
    intro h hh
    have hle := atLeast_le_countP test hh
    have hsub : h.text.countP test ≤ t.countP test := by
      rw [← text_append_rest hh, List.countP_append]
      omega
    omega
  have hafter : ∀ b, p.occursAfter b s = false := by
    induction s with
    | nil =>
      intro b
      rw [occursAfter, hnone b [] hlt]
      rfl
    | cons c s ih =>
      have hcount : s.countP test ≤ (c :: s).countP test := by
        rw [List.countP_cons]
        omega
      intro b
      rw [occursAfter, hnone b _ hlt, ih (by omega)]
      rfl
  exact hafter none

theorem occursAfter_either (p q : Pattern) (b : Option Char) (s : List Char) :
    (either p q).occursAfter b s = (p.occursAfter b s || q.occursAfter b s) := by
  induction s generalizing b with
  | nil =>
    simp only [occursAfter, hits_either]
    cases p.hits b [] <;> rfl
  | cons c s ih =>
    simp only [occursAfter, hits_either, ih]
    cases p.hits b (c :: s) <;> cases q.hits b (c :: s) <;>
      cases p.occursAfter (some c) s <;> simp

theorem occurs_either (p q : Pattern) (s : List Char) :
    (either p q).occurs s = (p.occurs s || q.occurs s) := occursAfter_either p q none s

/-! ## The texts that follow a word -/

/-- The texts that follow the word at its places in a text, left to right. -/
def following (a : List Char) : List Char → List (List Char)
  | [] => []
  | c :: s => (if a.isPrefixOf (c :: s) then [(c :: s).drop a.length] else []) ++ following a s

section

variable {c : Char} {a s u : List Char}

/-- The word does not begin with a character other than its first. -/
theorem following_cons_of_ne {d : Char} (h : d ≠ c) :
    following (c :: a) (d :: s) = following (c :: a) s := by
  have hfirst : (c :: a).isPrefixOf (d :: s) = false := by simp [List.isPrefixOf, h.symm]
  rw [following, hfirst]
  rfl

theorem following_append_of_not_mem (hu : c ∉ u) :
    following (c :: a) (u ++ s) = following (c :: a) s := by
  induction u with
  | nil => rfl
  | cons d u ih =>
    rw [List.mem_cons, not_or] at hu
    rw [List.cons_append, following_cons_of_ne (Ne.symm hu.1), ih hu.2]

theorem following_of_not_mem (hs : c ∉ s) : following (c :: a) s = [] := by
  have happend := following_append_of_not_mem (a := a) (s := []) hs
  rwa [List.append_nil] at happend

/-- A word whose first character does not come again is followed by what stands behind it, and
then by what follows it further on. -/
theorem following_append_self (ha : c ∉ a) :
    following (c :: a) (c :: a ++ s) = s :: following (c :: a) s := by
  have hstart : (c :: a).isPrefixOf (c :: (a ++ s)) = true := by
    rw [List.isPrefixOf_iff_prefix]
    exact List.prefix_append (c :: a) s
  rw [List.cons_append, following, hstart, following_append_of_not_mem ha]
  simp

end

/-! ## Patterns that begin with a word -/

/-- A word is hit where it stands, in one way. -/
theorem hits_literal (a : List Char) (b : Option Char) (s : List Char) :
    (literal a).hits b s = if a.isPrefixOf s then [⟨a, [], s.drop a.length⟩] else [] := by
  split
  · next hstart =>
    obtain ⟨t, rfl⟩ := List.isPrefixOf_iff_prefix.1 hstart
    rw [takesOnly_literal b, List.drop_left]
  · next hstart =>
    rw [List.eq_nil_iff_forall_not_mem]
    intro h hh
    have hcut := text_append_rest hh
    rw [(mem_hits_literal hh).1] at hcut
    apply hstart
    rw [List.isPrefixOf_iff_prefix]
    exact ⟨h.rest, hcut⟩

theorem hits_literal_seq (c : Char) (a : List Char) (q : Pattern) (b : Option Char)
    (s : List Char) : ((literal (c :: a)).seq q).hits b s ≠ [] ↔
      (c :: a).isPrefixOf s = true ∧ q.hits (c :: a).getLast? (s.drop (c :: a).length) ≠ [] := by
  rw [hits_seq, hits_literal]
  split
  · next hstart =>
    have hlast : Hit.lastOr ⟨c :: a, [], s.drop (c :: a).length⟩ b = (c :: a).getLast? := by
      simp [Hit.lastOr, List.getLast?_cons]
    rw [List.flatMap_singleton, hlast]
    simp [hstart]
  · next hstart => simp [hstart]

/-- **A pattern that begins with a word** occurs exactly if the rest of it matches a text that
follows the word. -/
theorem occurs_literal_seq {c : Char} {a : List Char} {q : Pattern} {s : List Char} :
    ((literal (c :: a)).seq q).occurs s = true ↔
      ∃ v ∈ following (c :: a) s, q.hits (c :: a).getLast? v ≠ [] := by
  have hafter : ∀ b, ((literal (c :: a)).seq q).occursAfter b s = true ↔
      ∃ v ∈ following (c :: a) s, q.hits (c :: a).getLast? v ≠ [] := by
    induction s with
    | nil =>
      intro b
      have hnil := hits_literal_seq c a q b []
      simp only [List.isPrefixOf, Bool.false_eq_true, false_and, iff_false, ne_eq, not_not] at hnil
      simp [occursAfter, hnil, following]
    | cons d s ih =>
      intro b
      have hhere := hits_literal_seq c a q b (d :: s)
      rw [occursAfter, Bool.or_eq_true, Bool.not_eq_true', List.isEmpty_eq_false_iff, hhere,
        ih (some d), following]
      by_cases hstart : (c :: a).isPrefixOf (d :: s) = true
      · simp [hstart]
      · simp [hstart]
  exact hafter none

/-! ## Refusing -/

/-- The pattern has no hit at the start of `s`. -/
def Refuses (p : Pattern) (s : List Char) : Prop := ∀ b, p.hits b s = []

section

variable {p q : Pattern} {u s : List Char} {g : List (List Char)}

theorem Refuses.seq_left (hp : p.Refuses s) : (p.seq q).Refuses s := by
  intro b
  rw [hits_seq, hp b]
  rfl

theorem TakesOnly.seq_refuses (hp : p.TakesOnly u g s) (hq : q.Refuses s) :
    (p.seq q).Refuses (u ++ s) := by
  intro b
  rw [hits_seq, hp b, List.flatMap_singleton, hq]
  rfl

theorem Refuses.capture (hp : p.Refuses s) : (capture p).Refuses s := by
  intro b
  rw [hits_capture, hp b]
  rfl

theorem refuses_literal (hu : u.isPrefixOf s = false) : (literal u).Refuses s := by
  intro b
  rw [hits_literal, hu]
  rfl

theorem refuses_digits (hs : s.head?.any Char.isDigit = false) : digits.Refuses s := by
  intro b
  rw [hits_digits, hs]
  rfl

end

/-- A pattern that begins with a word does not occur where the rest of it refuses all texts that
follow the word. -/
theorem occurs_literal_seq_eq_false {c : Char} {a : List Char} {q : Pattern} {s : List Char}
    (h : ∀ v ∈ following (c :: a) s, q.Refuses v) :
    ((literal (c :: a)).seq q).occurs s = false := by
  rw [← Bool.not_eq_true, occurs_literal_seq]
  rintro ⟨v, hv, hne⟩
  exact hne (h v hv _)

end FleetSearch.Pattern
