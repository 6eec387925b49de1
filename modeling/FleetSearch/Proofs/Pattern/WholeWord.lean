/-
# FleetSearch.Proofs.Pattern.WholeWord -- patterns that take whole words only

A pattern between word edges takes whole words if whatever it takes is not empty and begins and
ends with a word character. The latter two are read off the pattern (`startsInWord`,
`endsInWord`); then no word reaches into a hit from either side (`takesWords_wholeWord`).
-/

import FleetSearch.Proofs.Pattern.Hits
import Mathlib.Data.List.TakeWhile

namespace FleetSearch

open Text

theorem isWord_of_isDigit {c : Char} (hc : c.isDigit = true) : isWord c = true := by
  have hall : "0123456789".toList.all isWord = true := by decide
  exact List.all_eq_true.1 hall c (Pattern.mem_digits_of_isDigit hc)

/-- Exactly one side of an edge belongs to a word. -/
theorem isWordEdge_of_not_before {b c : Option Char} (hc : isWordAt c = true)
    (he : isWordEdge b c = true) : isWordAt b = false := by
  simpa [isWordEdge, hc] using he

theorem isWordEdge_of_not_after {b c : Option Char} (hb : isWordAt b = true)
    (he : isWordEdge b c = true) : isWordAt c = false := by
  simpa [isWordEdge, hb] using he

/-- A hit that takes whole words: its text is not empty, begins and ends inside a word, and no
word goes on before or after it. -/
structure Hit.WholeWords (b : Option Char) (h : Hit) : Prop where
  before : isWordAt b = false
  first : isWordAt h.text.head? = true
  last : isWordAt h.text.getLast? = true
  after : isWordAt h.rest.head? = false

namespace Pattern

/-- Every hit takes whole words. -/
def TakesWords (p : Pattern) : Prop := ∀ b s, ∀ h ∈ p.hits b s, h.WholeWords b

/-- Whether what a hit takes is empty or begins with a word character. -/
def startsInWord : Pattern → Bool
  | .nothing | .digits | .edge => true
  | .char c => isWord c
  | .blanks => false
  | .group p | .capture p | .optional p => p.startsInWord
  | .seq p q => p.startsInWord && (p.isProper || q.startsInWord)
  | .either p q => p.startsInWord && q.startsInWord

/-- Whether what a hit takes is empty or ends with a word character. -/
def endsInWord : Pattern → Bool
  | .nothing | .digits | .edge => true
  | .char c => isWord c
  | .blanks => false
  | .group p | .capture p | .optional p => p.endsInWord
  | .seq p q => q.endsInWord && (q.isProper || p.endsInWord)
  | .either p q => p.endsInWord && q.endsInWord

/-- A run of digits lies inside a word. -/
theorem isWord_of_mem_digitRun {s : List Char} {c : Char}
    (hc : c ∈ (Hit.run Char.isDigit s).text) : isWord c = true :=
  isWord_of_isDigit (List.mem_takeWhile_imp hc)

/-- At either end of two texts together stands a character of one of them. It is one of the text
further inside only if the other is empty. -/
theorem forall_mem_or {P : Char → Prop} {x y : Option Char} (hx : ∀ c ∈ x, P c)
    (hy : x = none → ∀ c ∈ y, P c) : ∀ c ∈ x.or y, P c := by
  cases x with
  | none => exact hy rfl
  | some d => exact hx

theorem isWord_of_mem_head? {p : Pattern} (hp : p.startsInWord = true) {b : Option Char}
    {s : List Char} {h : Hit} (hh : h ∈ p.hits b s) : ∀ c ∈ h.text.head?, isWord c = true := by
  induction p generalizing b s h with
  | nothing => simp_all [hits_nothing]
  | char d =>
    obtain ⟨t, rfl, rfl⟩ := mem_hits_char.1 hh
    rintro c ⟨⟩
    exact hp
  | blanks => cases hp
  | digits =>
    obtain ⟨_, rfl⟩ := mem_hits_digits.1 hh
    exact fun _ hc => isWord_of_mem_digitRun (List.mem_of_mem_head? hc)
  | edge =>
    obtain ⟨_, rfl⟩ := mem_hits_edge.1 hh
    simp
  | group p ih => exact ih hp hh
  | capture p ih =>
    obtain ⟨k, hk, rfl⟩ := mem_hits_capture.1 hh
    exact ih (h := k) hp hk
  | optional p ih =>
    rcases mem_hits_optional.1 hh with hh | rfl
    · exact ih hp hh
    · simp
  | seq p q ihp ihq =>
    obtain ⟨h₁, hh₁, h₂, hh₂, rfl⟩ := mem_hits_seq.1 hh
    unfold startsInWord at hp
    rw [Bool.and_eq_true, Bool.or_eq_true] at hp
    rw [Hit.andThen_text, List.head?_append]
    apply forall_mem_or (ihp hp.1 hh₁)
    intro hnone
    refine ihq (hp.2.resolve_left fun hproper => ?_) hh₂
    exact text_ne_nil hproper hh₁ (List.head?_eq_none_iff.1 hnone)
  | either p q ihp ihq =>
    unfold startsInWord at hp
    rw [Bool.and_eq_true] at hp
    rcases mem_hits_either.1 hh with hh | hh
    · exact ihp hp.1 hh
    · exact ihq hp.2 hh

theorem isWord_of_mem_getLast? {p : Pattern} (hp : p.endsInWord = true) {b : Option Char}
    {s : List Char} {h : Hit} (hh : h ∈ p.hits b s) : ∀ c ∈ h.text.getLast?, isWord c = true := by
  induction p generalizing b s h with
  | nothing => simp_all [hits_nothing]
  | char d =>
    obtain ⟨t, rfl, rfl⟩ := mem_hits_char.1 hh
    rintro c ⟨⟩
    exact hp
  | blanks => cases hp
  | digits =>
    obtain ⟨_, rfl⟩ := mem_hits_digits.1 hh
    exact fun _ hc => isWord_of_mem_digitRun (List.mem_of_getLast? hc)
  | edge =>
    obtain ⟨_, rfl⟩ := mem_hits_edge.1 hh
    simp
  | group p ih => exact ih hp hh
  | capture p ih =>
    obtain ⟨k, hk, rfl⟩ := mem_hits_capture.1 hh
    exact ih (h := k) hp hk
  | optional p ih =>
    rcases mem_hits_optional.1 hh with hh | rfl
    · exact ih hp hh
    · simp
  | seq p q ihp ihq =>
    obtain ⟨h₁, hh₁, h₂, hh₂, rfl⟩ := mem_hits_seq.1 hh
    unfold endsInWord at hp
    rw [Bool.and_eq_true, Bool.or_eq_true] at hp
    rw [Hit.andThen_text, List.getLast?_append]
    apply forall_mem_or (ihq hp.1 hh₂)
    intro hnone
    refine ihp (hp.2.resolve_left fun hproper => ?_) hh₁
    exact text_ne_nil hproper hh₂ (List.getLast?_eq_none_iff.1 hnone)
  | either p q ihp ihq =>
    unfold endsInWord at hp
    rw [Bool.and_eq_true] at hp
    rcases mem_hits_either.1 hh with hh | hh
    · exact ihp hp.1 hh
    · exact ihq hp.2 hh

/-- Whether a pattern takes whole words once it stands between word edges. -/
def isWordy (p : Pattern) : Bool := p.isProper && p.startsInWord && p.endsInWord

/-- **Whole words only.** A pattern whose hits begin and end inside a word takes, between word
edges, nothing but whole words. -/
theorem takesWords_wholeWord {p : Pattern} (hp : p.isWordy = true) : (wholeWord p).TakesWords := by
  unfold isWordy at hp
  rw [Bool.and_eq_true, Bool.and_eq_true] at hp
  obtain ⟨⟨hproper, hstart⟩, hend⟩ := hp
  intro b s h hh
  obtain ⟨hedge, hh, hedge'⟩ := mem_hits_wholeWord.1 hh
  have hne : h.text ≠ [] := text_ne_nil hproper hh
  -- The two edges are seen at the first and the last character of the text taken.
  have hs : s.head? = h.text.head? := by
    rw [← text_append_rest hh, List.head?_append, List.head?_eq_some_head hne, Option.some_or]
  have hlast : h.lastOr b = h.text.getLast? := by
    simp [Hit.lastOr, List.getLast?_eq_some_getLast hne]
  have hfirstWord : isWordAt h.text.head? = true := by
    rw [List.head?_eq_some_head hne]
    exact isWord_of_mem_head? hstart hh _ (List.head?_eq_some_head hne)
  have hlastWord : isWordAt h.text.getLast? = true := by
    rw [List.getLast?_eq_some_getLast hne]
    exact isWord_of_mem_getLast? hend hh _ (List.getLast?_eq_some_getLast hne)
  exact {
    before := isWordEdge_of_not_before hfirstWord (hs ▸ hedge)
    first := hfirstWord
    last := hlastWord
    after := isWordEdge_of_not_after hlastWord (hlast ▸ hedge') }

end Pattern

end FleetSearch
