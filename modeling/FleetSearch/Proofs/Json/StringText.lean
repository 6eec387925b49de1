/-
# FleetSearch.Proofs.Json.StringText -- reading the strings that are written

Each character of a text is read back from the way it is written in a string
(`readChars_escapeChar`), so a text is read back from its string (`readString_written`).
-/

import FleetSearch.Json.Printer
import Mathlib.Tactic.SplitIfs

namespace FleetSearch.Json

/-- A control character is written by its code point, in four hexadecimal digits. -/
theorem hexUnit?_control :
    ∀ n < 0x20, hexUnit? '0' '0' (hexDigit (n / 16)) (hexDigit (n % 16)) = some n := by
  decide

/-- No control character is a surrogate. -/
theorem isSurrogate_control {n : Nat} (h : n < 0x20) :
    isLeading n = false ∧ isTrailing n = false := by
  unfold isLeading isTrailing
  simp only [Bool.and_eq_false_iff, decide_eq_false_iff_not]
  omega

/-- The three ways in which a character is written: by a letter that stands for it, by its code
point, and as it is. -/
theorem escapeChar_cases (c : Char) :
    (∃ e, escapeChar c = ['\\', e] ∧ escaped? e = some c) ∨
      (c.toNat < 0x20 ∧ escapeChar c =
        "\\u00".toList ++ [hexDigit (c.toNat / 16), hexDigit (c.toNat % 16)]) ∨
      (escapeChar c = [c] ∧ c ≠ '"' ∧ c ≠ '\\' ∧ ¬ c.toNat < 0x20) := by
  unfold escapeChar
  split_ifs with hquote hback hbackspace hfeed hnewline hreturn htab hcontrol
  · exact .inl ⟨'"', rfl, by rw [hquote]; decide⟩
  · exact .inl ⟨'\\', rfl, by rw [hback]; decide⟩
  · exact .inl ⟨'b', rfl, by rw [hbackspace]; decide⟩
  · exact .inl ⟨'f', rfl, by rw [hfeed]; decide⟩
  · exact .inl ⟨'n', rfl, by rw [hnewline]; decide⟩
  · exact .inl ⟨'r', rfl, by rw [hreturn]; decide⟩
  · exact .inl ⟨'t', rfl, by rw [htab]; decide⟩
  · exact .inr (.inl ⟨hcontrol, rfl⟩)
  · exact .inr (.inr ⟨rfl, hquote, hback, hcontrol⟩)

/-- A letter after a backslash is read as the character that it stands for. -/
theorem readChars_escaped {e d : Char} (h : escaped? e = some d) (s : List Char) :
    readChars ('\\' :: e :: s) = prepend d (readChars s) := by
  rw [readChars.eq_def]
  simp [h]

/-- A code point below that of the space is read as its character. -/
theorem readChars_control {c : Char} (hc : c.toNat < 0x20) (s : List Char) :
    readChars ("\\u00".toList ++ [hexDigit (c.toNat / 16), hexDigit (c.toNat % 16)] ++ s) =
      prepend c (readChars s) := by
  have hunit := hexUnit?_control c.toNat hc
  obtain ⟨hleading, htrailing⟩ := isSurrogate_control hc
  show readChars ('\\' :: 'u' :: '0' :: '0' :: hexDigit (c.toNat / 16) ::
    hexDigit (c.toNat % 16) :: s) = _
  rw [readChars.eq_def]
  simp [escaped?, hunit, hleading, htrailing]

/-- **A character is read back** from the way it is written. -/
theorem readChars_escapeChar (c : Char) (s : List Char) :
    readChars (escapeChar c ++ s) = prepend c (readChars s) := by
  rcases escapeChar_cases c with ⟨e, hwritten, hletter⟩ | ⟨hcontrol, hwritten⟩ |
    ⟨hwritten, hquote, hback, hcontrol⟩
  · rw [hwritten]
    exact readChars_escaped hletter s
  · rw [hwritten]
    exact readChars_control hcontrol s
  · rw [hwritten, List.singleton_append, readChars.eq_def]
    simp only [hquote, hback, hcontrol, if_false]

theorem readChars_written (s t : List Char) :
    readChars (s.flatMap escapeChar ++ '"' :: t) = .ok (s, t) := by
  induction s with
  | nil =>
    rw [List.flatMap_nil, List.nil_append, readChars.eq_def]
    simp only [if_true]
  | cons c s ih =>
    rw [List.flatMap_cons, List.append_assoc, readChars_escapeChar, ih]
    rfl

theorem stringText_append (s : String) (t : List Char) :
    stringText s ++ t = '"' :: (s.toList.flatMap escapeChar ++ '"' :: t) := by
  unfold stringText
  rw [List.cons_append, List.cons_append, List.append_assoc, List.singleton_append]

/-- **A text is read back** from the string that it is written as, past the opening quote. -/
theorem readString_written (s : String) (t : List Char) :
    readString (s.toList.flatMap escapeChar ++ '"' :: t) = .ok (s, t) := by
  unfold readString
  rw [readChars_written]
  simp only [String.ofList_toList]

end FleetSearch.Json
