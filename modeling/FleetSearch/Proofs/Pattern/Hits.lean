/-
# FleetSearch.Proofs.Pattern.Hits -- what all hits of a pattern have in common

Everything here is by recursion on the pattern. A hit cuts its text in two (`text_append_rest`),
and it looks at the text before it only to see whether a word ends there (`hits_congr`).

A **clause break** for a pattern is a character that belongs to no word and that none of its hits
can take (`avoids`). What stands behind a clause break is invisible to the pattern, so the hits
before it are those of the text that ends there (`hits_append_break`).

`atLeast` counts, without looking at any text, how many characters of some kind every hit takes.
-/

import FleetSearch.Pattern.Hits

namespace FleetSearch

open Text

/-! ## Hits -/

namespace Hit

/-- The same hit in a text that goes on with `t`. -/
def extend (t : List Char) (h : Hit) : Hit := { h with rest := h.rest ++ t }

@[simp] theorem here_text (s : List Char) : (here s).text = [] := rfl
@[simp] theorem here_groups (s : List Char) : (here s).groups = [] := rfl
@[simp] theorem here_rest (s : List Char) : (here s).rest = s := rfl
@[simp] theorem andThen_text (h k : Hit) : (h.andThen k).text = h.text ++ k.text := rfl
@[simp] theorem andThen_groups (h k : Hit) : (h.andThen k).groups = h.groups ++ k.groups := rfl
@[simp] theorem andThen_rest (h k : Hit) : (h.andThen k).rest = k.rest := rfl
@[simp] theorem extend_rest (t : List Char) (h : Hit) : (h.extend t).rest = h.rest ++ t := rfl
@[simp] theorem extend_lastOr (t : List Char) (h : Hit) (b : Option Char) :
    (h.extend t).lastOr b = h.lastOr b := rfl

@[simp] theorem andThen_here (h : Hit) : h.andThen (here h.rest) = h := by
  simp [andThen, here]

end Hit

namespace Pattern

@[simp] theorem all_cons_cons (p q : Pattern) (ps : List Pattern) :
    all (p :: q :: ps) = .seq p (all (q :: ps)) := rfl

@[simp] theorem all_singleton (p : Pattern) : all [p] = p := rfl

/-! ## The hits of each kind of pattern -/

section Equations

variable (b : Option Char) (s : List Char)

theorem hits_nothing : nothing.hits b s = [.here s] := rfl
theorem hits_char_nil (c : Char) : (char c).hits b [] = [] := rfl
theorem hits_blanks : blanks.hits b s = [.run isBlank s] := rfl

theorem hits_char_cons (c d : Char) :
    (char c).hits b (d :: s) = if d = c then [⟨[d], [], s⟩] else [] := rfl

theorem hits_digits :
    digits.hits b s = if s.head?.any Char.isDigit then [.run Char.isDigit s] else [] := rfl

theorem hits_edge : edge.hits b s = if isWordEdge b s.head? then [.here s] else [] := rfl

theorem hits_capture (p : Pattern) :
    (capture p).hits b s = (p.hits b s).map Hit.captured := rfl

theorem hits_optional (p : Pattern) : (optional p).hits b s = p.hits b s ++ [.here s] := rfl

theorem hits_seq (p q : Pattern) : (seq p q).hits b s =
    (p.hits b s).flatMap fun h => (q.hits (h.lastOr b) h.rest).map h.andThen := rfl

theorem hits_either (p q : Pattern) : (either p q).hits b s = p.hits b s ++ q.hits b s := rfl

end Equations

theorem mem_hits_char {c : Char} {b : Option Char} {s : List Char} {h : Hit} :
    h ∈ (char c).hits b s ↔ ∃ t, s = c :: t ∧ h = ⟨[c], [], t⟩ := by
  cases s with
  | nil => simp [hits_char_nil]
  | cons d s => by_cases hd : d = c <;> simp [hits_char_cons, hd]

theorem mem_hits_digits {b : Option Char} {s : List Char} {h : Hit} :
    h ∈ digits.hits b s ↔ s.head?.any Char.isDigit = true ∧ h = .run Char.isDigit s := by
  rw [hits_digits, List.mem_ite_nil_right, List.mem_singleton]

theorem mem_hits_edge {b : Option Char} {s : List Char} {h : Hit} :
    h ∈ edge.hits b s ↔ isWordEdge b s.head? = true ∧ h = .here s := by
  rw [hits_edge, List.mem_ite_nil_right, List.mem_singleton]

theorem mem_hits_capture {p : Pattern} {b : Option Char} {s : List Char} {h : Hit} :
    h ∈ (capture p).hits b s ↔ ∃ k ∈ p.hits b s, k.captured = h := by
  rw [hits_capture, List.mem_map]

theorem mem_hits_optional {p : Pattern} {b : Option Char} {s : List Char} {h : Hit} :
    h ∈ (optional p).hits b s ↔ h ∈ p.hits b s ∨ h = .here s := by
  rw [hits_optional, List.mem_append, List.mem_singleton]

theorem mem_hits_seq {p q : Pattern} {b : Option Char} {s : List Char} {h : Hit} :
    h ∈ (seq p q).hits b s ↔
      ∃ h₁ ∈ p.hits b s, ∃ h₂ ∈ q.hits (h₁.lastOr b) h₁.rest, h₁.andThen h₂ = h := by
  simp only [hits_seq, List.mem_flatMap, List.mem_map]

theorem mem_hits_either {p q : Pattern} {b : Option Char} {s : List Char} {h : Hit} :
    h ∈ (either p q).hits b s ↔ h ∈ p.hits b s ∨ h ∈ q.hits b s := by
  rw [hits_either, List.mem_append]

/-- The hits of a pattern between word edges are those hits of the pattern that begin and end at
an edge. -/
theorem mem_hits_wholeWord {p : Pattern} {b : Option Char} {s : List Char} {h : Hit} :
    h ∈ (wholeWord p).hits b s ↔
      isWordEdge b s.head? = true ∧ h ∈ p.hits b s ∧
        isWordEdge (h.lastOr b) h.rest.head? = true := by
  show h ∈ (seq edge (seq p edge)).hits b s ↔ _
  simp only [mem_hits_seq, mem_hits_edge]
  constructor
  · rintro ⟨_, ⟨hb, rfl⟩, _, ⟨h₁, hh₁, _, ⟨he, rfl⟩, rfl⟩, rfl⟩
    simpa using ⟨hb, hh₁, he⟩
  · rintro ⟨hb, hh, he⟩
    exact ⟨.here s, ⟨hb, rfl⟩, h, ⟨h, hh, .here h.rest, ⟨he, rfl⟩, by simp⟩, rfl⟩

/-- The text taken and the rest make up the text. -/
theorem text_append_rest {p : Pattern} {b : Option Char} {s : List Char} {h : Hit}
    (hh : h ∈ p.hits b s) : h.text ++ h.rest = s := by
  induction p generalizing b s h with
  | nothing => simp_all [hits_nothing]
  | char c =>
    obtain ⟨t, rfl, rfl⟩ := mem_hits_char.1 hh
    rfl
  | blanks => simp_all [hits_blanks, Hit.run]
  | digits =>
    obtain ⟨_, rfl⟩ := mem_hits_digits.1 hh
    simp [Hit.run]
  | edge =>
    obtain ⟨_, rfl⟩ := mem_hits_edge.1 hh
    rfl
  | group p ih => exact ih hh
  | capture p ih =>
    obtain ⟨k, hk, rfl⟩ := mem_hits_capture.1 hh
    show k.text ++ k.rest = s
    exact ih hk
  | optional p ih =>
    rcases mem_hits_optional.1 hh with hh | rfl
    · exact ih hh
    · rfl
  | seq p q ihp ihq =>
    obtain ⟨h₁, hh₁, h₂, hh₂, rfl⟩ := mem_hits_seq.1 hh
    rw [Hit.andThen_text, Hit.andThen_rest, List.append_assoc, ihq hh₂, ihp hh₁]
  | either p q ihp ihq =>
    rcases mem_hits_either.1 hh with hh | hh
    · exact ihp hh
    · exact ihq hh

/-- Of the character before a hit it only matters whether it belongs to a word. -/
theorem hits_congr {p : Pattern} {b b' : Option Char} (hb : isWordAt b = isWordAt b')
    (s : List Char) : p.hits b s = p.hits b' s := by
  induction p generalizing b b' s with
  | edge =>
    have hedge : isWordEdge b s.head? = isWordEdge b' s.head? := by
      unfold isWordEdge
      rw [hb]
    rw [hits_edge, hits_edge, hedge]
  | group p ih => exact ih hb s
  | capture p ih => rw [hits_capture, hits_capture, ih hb s]
  | optional p ih => rw [hits_optional, hits_optional, ih hb s]
  | seq p q ihp ihq =>
    rw [hits_seq, hits_seq, ihp hb s]
    congr 1
    funext h
    -- Behind a hit that takes no text the second part still sees the character before.
    have hlast : isWordAt (h.lastOr b) = isWordAt (h.lastOr b') := by
      cases hl : h.text.getLast? <;> simp [Hit.lastOr, hl, hb]
    rw [ihq hlast]
  | either p q ihp ihq => rw [hits_either, hits_either, ihp hb s, ihq hb s]
  | _ => cases s <;> rfl

/-! ## Clause breaks -/

/-- Whether no hit of the pattern takes the character. -/
def avoids (c : Char) : Pattern → Bool
  | .nothing | .edge => true
  | .char d => d != c
  | .blanks => !isBlank c
  | .digits => !c.isDigit
  | .group p | .capture p | .optional p => p.avoids c
  | .seq p q | .either p q => p.avoids c && q.avoids c

/-- A run ends at a character that does not belong to it. -/
theorem run_append_break {f : Char → Bool} {c : Char} (hc : f c = false) (s t : List Char) :
    Hit.run f (s ++ c :: t) = (Hit.run f s).extend (c :: t) := by
  induction s with
  | nil => simp [Hit.run, Hit.extend, hc]
  | cons d s ih =>
    simp only [Hit.run, Hit.extend, Hit.mk.injEq, true_and] at ih ⊢
    by_cases hd : f d = true <;> simp [hd, ih.1, ih.2]

section Leaves

variable {c : Char} (b : Option Char) (s t : List Char)

theorem hits_char_append_break {d : Char} (hd : c ≠ d) :
    (char d).hits b (s ++ c :: t) = ((char d).hits b s).map (.extend (c :: t)) := by
  cases s with
  | nil => simp [hits_char_nil, hits_char_cons, hd]
  | cons e s => by_cases he : e = d <;> simp [hits_char_cons, he, Hit.extend]

theorem hits_digits_append_break (hc : c.isDigit = false) :
    digits.hits b (s ++ c :: t) = (digits.hits b s).map (.extend (c :: t)) := by
  -- The break is the first character to be looked at only if nothing stands before it.
  cases s with
  | nil => simp [hits_digits, hc]
  | cons e s =>
    have hrun := run_append_break hc (e :: s) t
    rw [List.cons_append] at hrun
    by_cases he : e.isDigit = true <;> simp [hits_digits, he, hrun]

/-- An edge treats the break like the end of the text because it belongs to no word. -/
theorem hits_edge_append_break (hc : isWord c = false) :
    edge.hits b (s ++ c :: t) = (edge.hits b s).map (.extend (c :: t)) := by
  have hhead : isWordEdge b (s ++ c :: t).head? = isWordEdge b s.head? := by
    cases s with
    | nil => simp [isWordEdge, isWordAt, hc]
    | cons e s => rfl
  rw [hits_edge, hits_edge, hhead]
  split <;> rfl

end Leaves

/-- Nothing behind a clause break is seen by a hit before it. -/
theorem hits_append_break {p : Pattern} {c : Char} (hw : isWord c = false)
    (hp : p.avoids c = true) (b : Option Char) (s t : List Char) :
    p.hits b (s ++ c :: t) = (p.hits b s).map (.extend (c :: t)) := by
  induction p generalizing b s with
  | nothing => rfl
  | char d =>
    have hd : c ≠ d := by
      rintro rfl
      simp [avoids] at hp
    exact hits_char_append_break b s t hd
  | blanks =>
    have hc : isBlank c = false := by simpa [avoids] using hp
    simp [hits_blanks, run_append_break hc]
  | digits =>
    have hc : c.isDigit = false := by simpa [avoids] using hp
    exact hits_digits_append_break b s t hc
  | edge => exact hits_edge_append_break b s t hw
  | group p ih => exact ih hp b s
  | capture p ih =>
    rw [hits_capture, hits_capture, ih hp b s, List.map_map, List.map_map]
    rfl
  | optional p ih =>
    rw [hits_optional, hits_optional, ih hp b s, List.map_append]
    rfl
  | seq p q ihp ihq =>
    unfold avoids at hp
    rw [Bool.and_eq_true] at hp
    rw [hits_seq, hits_seq, ihp hp.1 b s, List.flatMap_map, List.map_flatMap]
    congr 1
    funext h
    rw [Hit.extend_lastOr, Hit.extend_rest, ihq hp.2, List.map_map, List.map_map]
    rfl
  | either p q ihp ihq =>
    unfold avoids at hp
    rw [Bool.and_eq_true] at hp
    rw [hits_either, hits_either, ihp hp.1 b s, ihq hp.2 b s, List.map_append]

/-! ## What every hit takes at least -/

/-- A number of characters passing the test that every hit takes at least. -/
def atLeast (test : Char → Bool) : Pattern → Nat
  | .char c => if test c then 1 else 0
  | .digits => if "0123456789".toList.all test then 1 else 0
  | .group p | .capture p => p.atLeast test
  | .seq p q => p.atLeast test + q.atLeast test
  | .either p q => min (p.atLeast test) (q.atLeast test)
  | .nothing | .blanks | .edge | .optional _ => 0

theorem mem_digits_of_isDigit {c : Char} (hc : c.isDigit = true) : c ∈ "0123456789".toList := by
  have hrange : 48 ≤ c.toNat ∧ c.toNat ≤ 57 := by
    simpa [Char.isDigit, UInt32.le_iff_toNat_le] using hc
  have hall : ∀ n < 58, 48 ≤ n → Char.ofNat n ∈ "0123456789".toList := by decide
  simpa using hall c.toNat (by omega) hrange.1

theorem atLeast_le_countP (test : Char → Bool) {p : Pattern} {b : Option Char} {s : List Char}
    {h : Hit} (hh : h ∈ p.hits b s) : p.atLeast test ≤ h.text.countP test := by
  induction p generalizing b s h with
  | char c =>
    obtain ⟨t, rfl, rfl⟩ := mem_hits_char.1 hh
    simp [atLeast, List.countP_cons]
  | digits =>
    obtain ⟨hd, rfl⟩ := mem_hits_digits.1 hh
    obtain ⟨d, t, rfl⟩ : ∃ d t, s = d :: t := List.exists_cons_of_ne_nil (by rintro rfl; simp at hd)
    have hd : d.isDigit = true := by simpa using hd
    simp only [atLeast, Hit.run, List.takeWhile_cons, hd, if_true]
    split
    · next htest =>
      -- All ten digits pass the test, so the first one of the run does.
      have hdtest : test d = true := List.all_eq_true.1 htest d (mem_digits_of_isDigit hd)
      simp [hdtest]
    · exact Nat.zero_le _
  | group p ih => exact ih hh
  | capture p ih =>
    obtain ⟨k, hk, rfl⟩ := mem_hits_capture.1 hh
    show p.atLeast test ≤ k.text.countP test
    exact ih hk
  | seq p q ihp ihq =>
    obtain ⟨h₁, hh₁, h₂, hh₂, rfl⟩ := mem_hits_seq.1 hh
    show p.atLeast test + q.atLeast test ≤ (h₁.text ++ h₂.text).countP test
    rw [List.countP_append]
    have hp := ihp hh₁
    have hq := ihq hh₂
    omega
  | either p q ihp ihq =>
    show min (p.atLeast test) (q.atLeast test) ≤ h.text.countP test
    rcases mem_hits_either.1 hh with hh | hh
    · have hp := ihp hh
      omega
    · have hq := ihq hh
      omega
  | _ => exact Nat.zero_le _

/-- Whether every hit takes some text. -/
def isProper (p : Pattern) : Bool := decide (0 < p.atLeast fun _ => true)

theorem text_ne_nil {p : Pattern} (hp : p.isProper = true) {b : Option Char} {s : List Char}
    {h : Hit} (hh : h ∈ p.hits b s) : h.text ≠ [] := by
  intro hnil
  have hpos : 0 < p.atLeast fun _ => true := by simpa [isProper] using hp
  have hle := atLeast_le_countP (fun _ => true) hh
  rw [hnil, List.countP_nil] at hle
  omega

end Pattern

end FleetSearch
