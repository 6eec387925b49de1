/-
# FleetSearch.Proofs.Display.Styled -- styled text and its escape sequences

An escape sequence of a terminal is told by its spelling alone: the escape character, a bracket,
digits and semicolons, and an "m". Any text is cut at its sequences from left to right (`parts`).
What is left between them is the text with its sequences deleted.

A styled text is neat if its texts have no escape character of their own and its last sequence, if
it has any, is the return to the default (`IsNeat`). Neat texts may be put one after the other. With
colors such a text is the text without colors and escape sequences (`IsNeat.colorsOnly`).
-/

import FleetSearch.Display.Styled
import Mathlib.Data.List.Basic

namespace FleetSearch.Display

/-! ## Escape sequences in any text -/

/-- The character that begins an escape sequence. -/
def esc : Char := '\x1b'

/-- Whether the character may stand in an escape sequence between the bracket and the "m". -/
def isCode (c : Char) : Bool := c.isDigit || c == ';'

/-- The escape sequence that the text begins with, if there is one. -/
def sequence? : List Char → Option (List Char)
  | '\x1b' :: '[' :: s =>
    if (s.dropWhile isCode).head? = some 'm' then some (escapeSequence (s.takeWhile isCode))
    else none
  | _ => none

/-- A part of a text: a character outside of all sequences, or a sequence. -/
inductive Part where
  | char (c : Char)
  | sequence (u : List Char)

/-- The parts of a text after passing over the first `skip` characters, which belong to the
sequence before. -/
def partsAfter : Nat → List Char → List Part
  | _, [] => []
  | skip + 1, _ :: s => partsAfter skip s
  | 0, c :: s =>
    match sequence? (c :: s) with
    | some u => .sequence u :: partsAfter (u.length - 1) s
    | none => .char c :: partsAfter 0 s

/-- The parts of the text. -/
def parts (s : List Char) : List Part := partsAfter 0 s

/-- The characters outside of all sequences. -/
def Part.chars (ps : List Part) : List Char :=
  ps.filterMap fun | .char c => some c | .sequence _ => none

/-- The sequences. -/
def Part.sequences (ps : List Part) : List (List Char) :=
  ps.filterMap fun | .sequence u => some u | .char _ => none

/-- The text without its escape sequences. -/
def deleteSequences (s : List Char) : List Char := Part.chars (parts s)

/-- The escape sequences in the text, left to right. -/
def sequences (s : List Char) : List (List Char) := Part.sequences (parts s)

section

variable {s t u code : List Char}

theorem sequence?_append (hcode : code.all isCode = true) (t : List Char) :
    sequence? (escapeSequence code ++ t) = some (escapeSequence code) := by
  rw [List.all_eq_true] at hcode
  have hstop : isCode 'm' = false := by decide
  have hcut : escapeSequence code ++ t = '\x1b' :: '[' :: (code ++ 'm' :: t) := by
    simp [escapeSequence]
  have htake : (code ++ 'm' :: t).takeWhile isCode = code := by
    rw [List.takeWhile_append_of_pos hcode, List.takeWhile_cons_of_neg (by simp [hstop]),
      List.append_nil]
  have hdrop : (code ++ 'm' :: t).dropWhile isCode = 'm' :: t := by
    rw [List.dropWhile_append_of_pos hcode, List.dropWhile_cons_of_neg (by simp [hstop])]
  rw [hcut, sequence?, htake, hdrop]
  rfl

theorem sequence?_cons_of_ne {c : Char} (hc : c ≠ esc) (s : List Char) :
    sequence? (c :: s) = none := by
  unfold sequence?
  split
  · next heq => exact absurd (List.cons.inj heq).1 hc
  · rfl

/-- Passing over a text leads to the place behind it. -/
theorem partsAfter_append (u s : List Char) : partsAfter u.length (u ++ s) = parts s := by
  induction u with
  | nil => rfl
  | cons c u ih => exact ih

/-- A sequence at the start of a text is its first part, and the others follow behind it. -/
theorem parts_sequence (hcode : code.all isCode = true) (t : List Char) :
    parts (escapeSequence code ++ t) = .sequence (escapeSequence code) :: parts t := by
  have hseq : sequence? (esc :: ((escapeSequence code).tail ++ t)) = some (escapeSequence code) :=
    sequence?_append hcode t
  show partsAfter 0 (esc :: ((escapeSequence code).tail ++ t)) = _
  rw [partsAfter, hseq]
  show Part.sequence _ :: partsAfter (escapeSequence code).tail.length _ = _
  rw [partsAfter_append]

/-- Text without an escape character is no part of a sequence. -/
theorem parts_append (hu : esc ∉ u) (t : List Char) : parts (u ++ t) = u.map .char ++ parts t := by
  induction u with
  | nil => rfl
  | cons c u ih =>
    rw [List.mem_cons, not_or] at hu
    show partsAfter 0 (c :: (u ++ t)) = _
    rw [partsAfter, sequence?_cons_of_ne (Ne.symm hu.1)]
    show Part.char c :: parts (u ++ t) = _
    rw [ih hu.2]
    rfl

end

/-! ## Neat texts -/

/-- The sequences of a piece with colors. -/
def Span.sequences : Span → List (List Char)
  | .text _ => []
  | .start style => [resetSequence, escapeSequence style.code]
  | .reset => [resetSequence]

/-- The texts have no escape character of their own, and the last sequence is the return to the
default. -/
structure IsNeat (spans : Styled) : Prop where
  noEscape : ∀ s, Span.text s ∈ spans → esc ∉ s
  endsPlain : ∀ u ∈ (spans.flatMap Span.sequences).getLast?, u = resetSequence

theorem isNeat_nil : IsNeat [] := ⟨by simp, by simp⟩

theorem isNeat_text {s : List Char} (hs : esc ∉ s) : IsNeat [.text s] :=
  ⟨by simpa using hs, by simp [Span.sequences]⟩

theorem isNeat_reset : IsNeat [.reset] := ⟨by simp, by simp [Span.sequences]⟩

theorem isNeat_within (style : Style) {s : List Char} (hs : esc ∉ s) : IsNeat (within style s) :=
  ⟨by simpa [within] using hs, by simp [within, Span.sequences]⟩

theorem IsNeat.append {spans others : Styled} (h : IsNeat spans) (h' : IsNeat others) :
    IsNeat (spans ++ others) where
  noEscape := by
    intro s hs
    rcases List.mem_append.1 hs with hs | hs
    · exact h.noEscape s hs
    · exact h'.noEscape s hs
  endsPlain := by
    intro u hu
    rw [List.flatMap_append, List.getLast?_append] at hu
    -- The last sequence is in the second text, or that has none.
    cases hlast : (others.flatMap Span.sequences).getLast? with
    | some v =>
      rw [hlast, Option.some_or] at hu
      exact h'.endsPlain u (hlast.trans hu)
    | none =>
      rw [hlast, Option.none_or] at hu
      exact h.endsPlain u hu

theorem isNeat_flatMap {α : Type} {f : α → Styled} {xs : List α} (h : ∀ x ∈ xs, IsNeat (f x)) :
    IsNeat (xs.flatMap f) := by
  induction xs with
  | nil => exact isNeat_nil
  | cons x xs ih =>
    rw [List.forall_mem_cons] at h
    rw [List.flatMap_cons]
    exact h.1.append (ih h.2)

/-! ## Neat texts with colors -/

/-- The parts of a piece with colors. -/
def Span.parts : Span → List Part
  | .text s => s.map .char
  | span => span.sequences.map .sequence

theorem isCode_style (style : Style) : style.code.all isCode = true := by
  cases style <;> decide

/-- A text with colors is cut into the characters of its texts and the sequences between them. -/
theorem parts_colored {spans : Styled} (h : ∀ s, Span.text s ∈ spans → esc ∉ s) :
    parts (colored spans) = spans.flatMap Span.parts := by
  have hreset : ['0'].all isCode = true := by decide
  induction spans with
  | nil => rfl
  | cons span spans ih =>
    have hrest := ih fun s hs => h s (List.mem_cons_of_mem span hs)
    show parts (span.colored ++ colored spans) = span.parts ++ spans.flatMap Span.parts
    rw [← hrest]
    cases span with
    | text s => exact parts_append (h s (by simp)) _
    | start style =>
      show parts (resetSequence ++ escapeSequence style.code ++ colored spans) = _
      rw [List.append_assoc, resetSequence, parts_sequence hreset,
        parts_sequence (isCode_style style)]
      rfl
    | reset => exact parts_sequence hreset _

theorem chars_spanParts (span : Span) : Part.chars span.parts = span.plain := by
  cases span with
  | text s => simp [Span.parts, Part.chars, Span.plain, List.filterMap_map]
  | start style => rfl
  | reset => rfl

theorem sequences_spanParts (span : Span) : Part.sequences span.parts = span.sequences := by
  cases span with
  | text s => simp [Span.parts, Part.sequences, Span.sequences, List.filterMap_map]
  | start style => rfl
  | reset => rfl

/-- With colors a text is the text without them and escape sequences, the last of which, if there
is any, is the return to the default. -/
structure ColorsOnly (spans : Styled) : Prop where
  sameText : deleteSequences (render true spans).toList = (render false spans).toList
  endsPlain : ∀ u ∈ (sequences (render true spans).toList).getLast?, u = resetSequence

theorem toList_render (useColor : Bool) (spans : Styled) :
    (render useColor spans).toList = if useColor then colored spans else plain spans :=
  String.toList_ofList

/-- **Neat texts differ in their colors only.** -/
theorem IsNeat.colorsOnly {spans : Styled} (h : IsNeat spans) : ColorsOnly spans where
  sameText := by
    rw [toList_render, toList_render, if_pos rfl, if_neg Bool.false_ne_true, deleteSequences,
      parts_colored h.noEscape, Part.chars, List.filterMap_flatMap]
    exact List.flatMap_congr fun span _ => chars_spanParts span
  endsPlain := by
    have hsequences : sequences (colored spans) = spans.flatMap Span.sequences := by
      rw [sequences, parts_colored h.noEscape, Part.sequences, List.filterMap_flatMap]
      exact List.flatMap_congr fun span _ => sequences_spanParts span
    rw [toList_render, if_pos rfl, hsequences]
    exact h.endsPlain

/-- A text with a sequence of its own loses it with the colors. -/
example : ¬ ColorsOnly [.text "\x1b[1mKaga".toList] := fun h => absurd h.sameText (by decide)

end FleetSearch.Display
