/-
# FleetSearch.Proofs.Json.FaultLine -- faults that are told in one line

A message that goes into a log has to stay on its line, whatever the text was that it complains of.
Numbers are written in digits, signs and points, and a string that stands in a message is quoted, so
that its line breaks are not its own (`Text.newline_not_mem_quoted`). What is left are the words
that a type brings along: the fault is told in one line if they are (`Cause.Words`,
`Fault.newline_not_mem_message`).
-/

import FleetSearch.Json.Fault
import Mathlib.Tactic.SplitIfs

namespace FleetSearch

/-! ## Numerals -/

namespace Text

theorem newline_ne_digitChar : ∀ d < 16, '\n' ≠ Nat.digitChar d := by decide

/-- A numeral holds no line break, in hexadecimal or in a smaller base. -/
theorem newline_not_mem_toDigits {b : Nat} (hb : 1 < b) (hle : b ≤ 16) (n : Nat) :
    '\n' ∉ Nat.toDigits b n := by
  induction n using Nat.strongRecOn with
  | ind n ih =>
    rw [Nat.toDigits_eq_if hb]
    split
    · next hn =>
      rw [List.mem_singleton]
      exact newline_ne_digitChar n (by omega)
    · next hn =>
      have hsmaller : n / b < n := Nat.div_lt_self (by omega) hb
      have hdigit : n % b < b := Nat.mod_lt n (by omega)
      rw [List.mem_append, List.mem_singleton, not_or]
      exact ⟨ih _ hsmaller, newline_ne_digitChar _ (by omega)⟩

theorem newline_not_mem_decimal (n : Nat) : '\n' ∉ Nat.toDigits 10 n :=
  newline_not_mem_toDigits (by decide) (by decide) n

theorem newline_not_mem_repr (n : Nat) : '\n' ∉ n.repr.toList := by
  rw [Nat.toList_repr]
  exact newline_not_mem_decimal n

/-! ## Quoted texts -/

/-- Between quotes a line break is written as a letter. -/
theorem newline_not_mem_showChar (c : Char) : '\n' ∉ showChar c := by
  unfold showChar
  split_ifs with hnul htab hnewline hreturn hquote hback hhidden
  · decide
  · decide
  · decide
  · decide
  · decide
  · decide
  · have hdigits : '\n' ∉ hexadecimal c.toNat :=
      newline_not_mem_toDigits (by decide) (by decide) c.toNat
    rw [List.mem_append, List.mem_append, not_or, not_or]
    exact ⟨⟨by decide, hdigits⟩, by decide⟩
  · rw [List.mem_singleton]
    exact fun h => hnewline h.symm

/-- **A quoted text stays on one line.** -/
theorem newline_not_mem_quoted (s : String) : '\n' ∉ (quoted s).toList := by
  unfold quoted
  rw [String.toList_ofList, List.cons_append, List.mem_cons, List.mem_append, List.mem_flatMap]
  rintro (h | ⟨c, -, h⟩ | h)
  · exact absurd h (by decide)
  · exact newline_not_mem_showChar c h
  · exact absurd h (by decide)

end Text

/-! ## Numbers -/

namespace Binary64

open Text

theorem newline_not_mem_exponentText (e : Int) : '\n' ∉ exponentText e := by
  unfold exponentText
  rw [List.mem_cons, not_or]
  refine ⟨?_, newline_not_mem_decimal _⟩
  split <;> decide

theorem Decimal.newline_not_mem_text (d : Decimal) : '\n' ∉ d.text := by
  have hdigits := newline_not_mem_decimal d.digits
  have htake : ∀ n, '\n' ∉ (Nat.toDigits 10 d.digits).take n :=
    fun n h => hdigits (List.mem_of_mem_take h)
  have hdrop : ∀ n, '\n' ∉ (Nat.toDigits 10 d.digits).drop n :=
    fun n h => hdigits (List.mem_of_mem_drop h)
  have htail : '\n' ∉ (Nat.toDigits 10 d.digits).tail := fun h => hdigits (List.mem_of_mem_tail h)
  have hexponent := newline_not_mem_exponentText
  unfold Decimal.text
  simp only
  split
  · simp [hdigits]
  · split
    · simp [htake, hdrop]
    · split
      · simp [hdigits]
      · split <;> simp [htake, htail, hexponent]

theorem newline_not_mem_text (a : Binary64) : '\n' ∉ a.text := by
  unfold text
  split
  · decide
  · exact Decimal.newline_not_mem_text _

end Binary64

namespace Json

open Text

theorem Number.newline_not_mem_text (n : Number) : '\n' ∉ n.text := by
  cases n with
  | natural n => exact newline_not_mem_decimal n
  | negative n =>
    show '\n' ∉ '-' :: Nat.toDigits 10 n
    rw [List.mem_cons, not_or]
    exact ⟨by decide, newline_not_mem_decimal n⟩
  | floating isNegative magnitude =>
    show '\n' ∉ (if isNegative then ['-'] else []) ++ magnitude.text
    rw [List.mem_append, not_or]
    refine ⟨?_, Binary64.newline_not_mem_text magnitude⟩
    split <;> decide

/-! ## Causes -/

theorem newline_not_mem_append {s t : String} (hs : '\n' ∉ s.toList) (ht : '\n' ∉ t.toList) :
    '\n' ∉ (s ++ t).toList := by
  rw [String.toList_append, List.mem_append, not_or]
  exact ⟨hs, ht⟩

theorem newline_not_mem_ticked {s : String} (h : '\n' ∉ s.toList) : '\n' ∉ (ticked s).toList :=
  newline_not_mem_append (newline_not_mem_append (by decide) h) (by decide)

/-- What was found is told in one line. -/
theorem Found.newline_not_mem_text (found : Found) : '\n' ∉ found.text.toList := by
  cases found with
  | null => decide
  | boolean b => cases b <;> decide +kernel
  | number n =>
    have hn : '\n' ∉ (ticked (String.ofList n.text)).toList :=
      newline_not_mem_ticked (by rw [String.toList_ofList]; exact n.newline_not_mem_text)
    cases n with
    | natural n => exact newline_not_mem_append (by decide +kernel) hn
    | negative n => exact newline_not_mem_append (by decide +kernel) hn
    | floating isNegative magnitude => exact newline_not_mem_append (by decide +kernel) hn
  | string s => exact newline_not_mem_append (by decide +kernel) (newline_not_mem_quoted s)
  | sequence => decide
  | map => decide

/-- The words of a cause that its type brings along. -/
def Cause.words : Cause → List String
  | .wrongType _ expected => [expected]
  | .wrongValue _ expected => [expected]
  | .missingField name => [name]
  | .duplicateField name => [name]
  | .unknownVariant label known => label :: known
  | .wrongLength _ record _ => [record]
  | .refused message => [message]
  | _ => []

/-- These words are without line breaks. -/
def Cause.IsPlain (cause : Cause) : Prop := ∀ word ∈ cause.words, '\n' ∉ word.toList

theorem newline_not_mem_intercalate {separator : String} {words : List String}
    (hseparator : '\n' ∉ separator.toList) (hwords : ∀ word ∈ words, '\n' ∉ word.toList) :
    '\n' ∉ (separator.intercalate words).toList := by
  induction words with
  | nil => simp
  | cons word words ih =>
    rw [List.forall_mem_cons] at hwords
    cases words with
    | nil =>
      rw [String.intercalate_singleton]
      exact hwords.1
    | cons next words =>
      rw [String.intercalate_cons_cons]
      exact newline_not_mem_append (newline_not_mem_append hwords.1 hseparator) (ih hwords.2)

/-- A cause is told in one line if its words are. -/
theorem Cause.IsPlain.newline_not_mem_text {cause : Cause} (h : cause.IsPlain) :
    '\n' ∉ cause.text.toList := by
  cases cause with
  | wrongType found expected =>
    have hfound := newline_not_mem_append (by decide +kernel : '\n' ∉ "invalid type: ".toList)
      found.newline_not_mem_text
    have hexpected := h expected (List.mem_singleton_self _)
    exact newline_not_mem_append (newline_not_mem_append hfound (by decide +kernel)) hexpected
  | wrongValue found expected =>
    have hfound := newline_not_mem_append (by decide +kernel : '\n' ∉ "invalid value: ".toList)
      found.newline_not_mem_text
    have hexpected := h expected (List.mem_singleton_self _)
    exact newline_not_mem_append (newline_not_mem_append hfound (by decide +kernel)) hexpected
  | missingField name =>
    have hname := newline_not_mem_ticked (h name (List.mem_singleton_self _))
    exact newline_not_mem_append (by decide +kernel) hname
  | duplicateField name =>
    have hname := newline_not_mem_ticked (h name (List.mem_singleton_self _))
    exact newline_not_mem_append (by decide +kernel) hname
  | unknownVariant label known =>
    have hlabel := newline_not_mem_append (by decide +kernel : '\n' ∉ "unknown variant ".toList)
      (newline_not_mem_ticked (h label List.mem_cons_self))
    have hknown : '\n' ∉ (", ".intercalate (known.map ticked)).toList := by
      apply newline_not_mem_intercalate (by decide)
      intro word hword
      obtain ⟨name, hname, rfl⟩ := List.mem_map.1 hword
      exact newline_not_mem_ticked (h name (List.mem_cons_of_mem _ hname))
    exact newline_not_mem_append (newline_not_mem_append hlabel (by decide +kernel)) hknown
  | wrongLength length record fields =>
    have hlength := newline_not_mem_append (by decide +kernel : '\n' ∉ "invalid length ".toList)
      (newline_not_mem_repr length)
    have hrecord := newline_not_mem_append
      (newline_not_mem_append hlength (by decide +kernel : '\n' ∉ ", expected ".toList))
      (h record (List.mem_singleton_self _))
    have hfields := newline_not_mem_append
      (newline_not_mem_append hrecord (by decide +kernel : '\n' ∉ " with ".toList))
      (newline_not_mem_repr fields)
    exact newline_not_mem_append hfields (by decide +kernel)
  | refused message => exact h message (List.mem_singleton_self _)
  | _ => decide +kernel

/-! ## Faults -/

theorem Position.newline_not_mem_text (p : Position) : '\n' ∉ p.text.toList := by
  have hline := newline_not_mem_append (by decide +kernel : '\n' ∉ lineWords.toList)
    (newline_not_mem_repr p.line)
  have hwords := newline_not_mem_append hline (by decide +kernel : '\n' ∉ columnWords.toList)
  exact newline_not_mem_append hwords (newline_not_mem_repr p.column)

/-- **A fault is told in one line** if the words that a type brings along are without line
breaks. -/
theorem Fault.newline_not_mem_message {fault : Fault} (h : fault.cause.IsPlain) :
    '\n' ∉ fault.message.toList := by
  have hcause := h.newline_not_mem_text
  unfold message
  split
  · next p _ =>
    exact newline_not_mem_append hcause p.newline_not_mem_text
  · exact hcause

end Json

end FleetSearch
