/-
# FleetSearch.Proofs.Json.Grammar -- the texts of JSON values

What a JSON value looks like is said here without the readers: its numerals (`IsNumeral`), its
strings (`IsChars`, and `Spells` where they are told apart from what they stand for), rows of values
between brackets (`Bracketed`), and values (`IsValue`). Whatever is a value is passed over where
nobody asked for it, and all of the text behind it is left (`IsValue.skipValue`).
-/

import FleetSearch.Json.Skip
import FleetSearch.Proofs.Json.Numeral

namespace FleetSearch.Json

/-! ## Blanks -/

/-- The text consists of blanks that JSON skips. -/
def IsSpacing (s : List Char) : Prop := ∀ c ∈ s, isSpace c = true

/-- What may stand right behind a value, and never starts one: a blank, a comma or a closing
bracket. -/
def IsClosing (c : Char) : Prop := isSpace c = true ∨ c ∈ [',', ']', '\x7d']

instance : DecidablePred IsClosing :=
  fun c => inferInstanceAs (Decidable (isSpace c = true ∨ c ∈ [',', ']', '\x7d']))

/-- The text may stand behind a value. -/
def Closes (rest : List Char) : Prop := ∀ c, rest.head? = some c → IsClosing c

/-- The text starts like a value or a key. -/
def Opens (s : List Char) : Prop := ∃ c t, s = c :: t ∧ ¬ IsClosing c

theorem Opens.append {s : List Char} (h : Opens s) (rest : List Char) : Opens (s ++ rest) := by
  obtain ⟨c, t, rfl, hc⟩ := h
  exact ⟨c, t ++ rest, rfl, hc⟩

theorem Opens.skipSpace {s : List Char} (h : Opens s) : skipSpace s = s := by
  obtain ⟨c, t, rfl, hc⟩ := h
  exact skipSpace_cons (by simpa using fun hspace => hc (.inl hspace))

theorem skipSpace_append {gap : List Char} (h : IsSpacing gap) (s : List Char) :
    skipSpace (gap ++ s) = skipSpace s :=
  List.dropWhile_append_of_pos h

theorem skipSpace_of_isSpacing {gap : List Char} (h : IsSpacing gap) : skipSpace gap = [] := by
  have hskip := skipSpace_append h []
  rwa [List.append_nil] at hskip

theorem Closes.cons {c : Char} (h : IsClosing c) (s : List Char) : Closes (c :: s) := by
  intro d hd
  cases hd
  exact h

theorem IsSpacing.closes {gap : List Char} (h : IsSpacing gap) : Closes gap :=
  fun c hc => .inl (h c (List.mem_of_mem_head? hc))

/-- Blanks may stand between a value and what stands behind it. -/
theorem Closes.spaced {gap rest : List Char} (hgap : IsSpacing gap) (h : Closes rest) :
    Closes (gap ++ rest) := by
  cases gap with
  | nil => exact h
  | cons c gap =>
    intro d hd
    cases hd
    exact .inl (hgap c List.mem_cons_self)

/-- What stands behind a value does not go on with a number. -/
theorem Closes.ne_of_head {rest : List Char} (h : Closes rest) {c : Char}
    (hc : rest.head? = some c) : c.isDigit = false ∧ c ≠ '.' ∧ c ≠ 'e' ∧ c ≠ 'E' := by
  have hall : ([' ', '\n', '\t', '\r', ',', ']', '\x7d'].all fun d =>
      decide (d.isDigit = false ∧ d ≠ '.' ∧ d ≠ 'e' ∧ d ≠ 'E')) = true := by decide
  refine of_decide_eq_true (List.all_eq_true.1 hall c ?_)
  rcases h c hc with hspace | hmark
  · unfold isSpace at hspace
    simp only [Bool.or_eq_true, beq_iff_eq] at hspace
    rcases hspace with ((rfl | rfl) | rfl) | rfl <;> decide
  · exact List.mem_append_right [' ', '\n', '\t', '\r'] hmark

theorem Closes.startsDigit {rest : List Char} (h : Closes rest) : startsDigit rest = false := by
  cases rest with
  | nil => rfl
  | cons c rest => exact (h.ne_of_head rfl).1

/-! ## Numerals -/

/-- The whole part of a numeral: a zero, or digits that do not start with one. -/
inductive IsWhole : List Char → Prop
  | zero : IsWhole ['0']
  | digits {c : Char} {s : List Char} :
      (∀ d ∈ c :: s, d.isDigit = true) → c ≠ '0' → IsWhole (c :: s)

/-- The fraction of a numeral, if it has one: a point and digits. -/
inductive IsFraction : List Char → Prop
  | none : IsFraction []
  | digits {c : Char} {s : List Char} :
      (∀ d ∈ c :: s, d.isDigit = true) → IsFraction ('.' :: c :: s)

/-- The exponent of a numeral, if it has one: a letter, perhaps a sign, and digits. -/
inductive IsExponent : List Char → Prop
  | none : IsExponent []
  | digits {e c : Char} {sign s : List Char} :
      e ∈ ['e', 'E'] → sign ∈ [[], ['+'], ['-']] → (∀ d ∈ c :: s, d.isDigit = true) →
      IsExponent (e :: (sign ++ c :: s))

/-- A numeral of any size, past its sign. -/
inductive IsUnsigned : List Char → Prop
  | parts {whole fraction exponent : List Char} :
      IsWhole whole → IsFraction fraction → IsExponent exponent →
      IsUnsigned (whole ++ (fraction ++ exponent))

theorem skipDigits_append {s rest : List Char} (hs : ∀ d ∈ s, d.isDigit = true)
    (hrest : startsDigit rest = false) : skipDigits (s ++ rest) = rest := by
  unfold skipDigits
  rw [List.dropWhile_append_of_pos hs]
  cases rest with
  | nil => rfl
  | cons c rest =>
    have hc : c.isDigit = false := hrest
    exact List.dropWhile_cons_of_neg (by simp [hc])

theorem skipExponent_digits {sign s rest : List Char} {c : Char} (hsign : sign ∈ [[], ['+'], ['-']])
    (hs : ∀ d ∈ c :: s, d.isDigit = true) (hrest : startsDigit rest = false) :
    skipExponent (sign ++ c :: s ++ rest) = .ok rest := by
  have hc : c.isDigit = true := hs c List.mem_cons_self
  have hsigned : (exponentSign (sign ++ c :: s ++ rest)).2 = c :: s ++ rest := by
    simp only [List.mem_cons, List.not_mem_nil, or_false] at hsign
    rcases hsign with rfl | rfl | rfl
    · have hplus := ne_of_isDigit hc (by decide : '+'.isDigit = false)
      have hminus := ne_of_isDigit hc (by decide : '-'.isDigit = false)
      unfold exponentSign
      split
      · next heq => exact absurd (List.cons.inj heq).1 hplus
      · next heq => exact absurd (List.cons.inj heq).1 hminus
      · rfl
    · rfl
    · rfl
  have hstarts : startsDigit (c :: s ++ rest) = true := hc
  unfold skipExponent
  simp only [hsigned, hstarts, if_true]
  rw [skipDigits_append hs hrest]

theorem IsExponent.skipScale {exponent rest : List Char} (h : IsExponent exponent)
    (hrest : Closes rest) : skipScale (exponent ++ rest) = .ok rest := by
  cases h with
  | none =>
    unfold Json.skipScale
    split
    · next heq => exact absurd rfl (hrest.ne_of_head (congrArg List.head? heq)).2.2.1
    · next heq => exact absurd rfl (hrest.ne_of_head (congrArg List.head? heq)).2.2.2
    · rfl
  | digits he hsign hs =>
    have hskip := skipExponent_digits hsign hs hrest.startsDigit
    simp only [List.mem_cons, List.not_mem_nil, or_false] at he
    rcases he with rfl | rfl
    · exact hskip
    · exact hskip

/-- An exponent does not go on with digits, and has no point. -/
theorem IsExponent.not_digit {exponent rest : List Char} (h : IsExponent exponent)
    (hrest : Closes rest) :
    startsDigit (exponent ++ rest) = false ∧ (exponent ++ rest).head? ≠ some '.' := by
  cases h with
  | none => exact ⟨hrest.startsDigit, fun hdot => (hrest.ne_of_head hdot).2.1 rfl⟩
  | digits he _ _ =>
    simp only [List.mem_cons, List.not_mem_nil, or_false] at he
    rcases he with rfl | rfl
    · exact ⟨rfl, by simp⟩
    · exact ⟨rfl, by simp⟩

theorem skipTail_parts {fraction exponent rest : List Char} (hfraction : IsFraction fraction)
    (hexponent : IsExponent exponent) (hrest : Closes rest) :
    skipTail (fraction ++ (exponent ++ rest)) = .ok rest := by
  obtain ⟨hdigit, hdot⟩ := hexponent.not_digit hrest
  unfold skipTail
  cases hfraction with
  | none =>
    split
    · next heq => exact absurd (congrArg List.head? heq) hdot
    · exact hexponent.skipScale hrest
  | @digits c s hs =>
    have hstarts : startsDigit (c :: s ++ (exponent ++ rest)) = true := hs c List.mem_cons_self
    show (if startsDigit (c :: s ++ (exponent ++ rest)) then
      skipScale (skipDigits (c :: s ++ (exponent ++ rest))) else _) = _
    rw [if_pos hstarts, skipDigits_append hs hdigit]
    exact hexponent.skipScale hrest

/-- Nor does a fraction. -/
theorem IsFraction.not_digit {fraction s : List Char} (h : IsFraction fraction)
    (hs : startsDigit s = false) : startsDigit (fraction ++ s) = false := by
  cases h with
  | none => exact hs
  | digits _ => rfl

/-- **A numeral is passed over**, whatever its size. -/
theorem IsUnsigned.skipNumber {s rest : List Char} (h : IsUnsigned s) (hrest : Closes rest) :
    skipNumber (s ++ rest) = .ok rest := by
  cases h with
  | @parts whole fraction exponent hwhole hfraction hexponent =>
    have htail := skipTail_parts hfraction hexponent hrest
    have hdigit := hfraction.not_digit (hexponent.not_digit hrest).1
    rw [List.append_assoc, List.append_assoc]
    unfold Json.skipNumber
    cases hwhole with
    | zero =>
      show (if startsDigit (fraction ++ (exponent ++ rest)) then _ else _) = _
      rw [hdigit]
      exact htail
    | @digits c t ht hc =>
      have hstarts : startsDigit (c :: t ++ (fraction ++ (exponent ++ rest))) = true :=
        ht c List.mem_cons_self
      split
      · next heq => exact absurd (List.cons.inj heq).1 hc
      · rw [if_pos hstarts, skipDigits_append ht hdigit]
        exact htail

/-- A numeral starts with a digit. -/
theorem IsUnsigned.starts {s : List Char} (h : IsUnsigned s) :
    ∃ c t, s = c :: t ∧ c.isDigit = true := by
  cases h with
  | parts hwhole _ _ =>
    cases hwhole with
    | zero => exact ⟨'0', _, rfl, rfl⟩
    | digits hs _ => exact ⟨_, _, rfl, hs _ List.mem_cons_self⟩

/-! ## Strings -/

/-- Characters between the quotes of a string: as they are, or escaped. Surrogates need not pair
up. -/
inductive IsChars : List Char → Prop
  | nil : IsChars []
  | plain {c : Char} {s : List Char} :
      c ≠ '"' → c ≠ '\\' → ¬ c.toNat < 0x20 → IsChars s → IsChars (c :: s)
  | letter {e c : Char} {s : List Char} :
      escaped? e = some c → IsChars s → IsChars ('\\' :: e :: s)
  | unit {h₁ h₂ h₃ h₄ : Char} {n : Nat} {s : List Char} :
      hexUnit? h₁ h₂ h₃ h₄ = some n → IsChars s →
      IsChars ('\\' :: 'u' :: h₁ :: h₂ :: h₃ :: h₄ :: s)

/-- The text between the quotes of a string spells the given characters: each as it is or escaped,
and those beyond four hexadecimal digits also as a pair of surrogates. -/
inductive Spells : List Char → List Char → Prop
  | nil : Spells [] []
  | plain {c : Char} {cs s : List Char} :
      c ≠ '"' → c ≠ '\\' → ¬ c.toNat < 0x20 → Spells cs s → Spells (c :: cs) (c :: s)
  | letter {e c : Char} {cs s : List Char} :
      escaped? e = some c → Spells cs s → Spells (c :: cs) ('\\' :: e :: s)
  | unit {h₁ h₂ h₃ h₄ : Char} {n : Nat} {cs s : List Char} :
      hexUnit? h₁ h₂ h₃ h₄ = some n → isLeading n = false → isTrailing n = false → Spells cs s →
      Spells (.ofNat n :: cs) ('\\' :: 'u' :: h₁ :: h₂ :: h₃ :: h₄ :: s)
  | pair {h₁ h₂ h₃ h₄ k₁ k₂ k₃ k₄ : Char} {n m : Nat} {cs s : List Char} :
      hexUnit? h₁ h₂ h₃ h₄ = some n → isLeading n = true →
      hexUnit? k₁ k₂ k₃ k₄ = some m → isTrailing m = true → Spells cs s →
      Spells (pairChar n m :: cs)
        ('\\' :: 'u' :: h₁ :: h₂ :: h₃ :: h₄ :: '\\' :: 'u' :: k₁ :: k₂ :: k₃ :: k₄ :: s)

theorem IsChars.skipString {s : List Char} (h : IsChars s) (rest : List Char) :
    skipString (s ++ '"' :: rest) = .ok rest := by
  induction h with
  | nil =>
    rw [List.nil_append, Json.skipString.eq_def]
    simp only [if_true]
  | plain hquote hback hcontrol _ ih =>
    rw [List.cons_append, Json.skipString.eq_def]
    simp only [hquote, hback, hcontrol, if_false, ih]
  | letter he _ ih =>
    rw [List.cons_append, List.cons_append, Json.skipString.eq_def]
    simp [he, ih]
  | unit hunit _ ih =>
    simp only [List.cons_append]
    rw [Json.skipString.eq_def]
    simp [escaped?, hunit, ih]

/-- **A string is read** as the characters that it spells. -/
theorem Spells.readChars {cs s : List Char} (h : Spells cs s) (rest : List Char) :
    readChars (s ++ '"' :: rest) = .ok (cs, rest) := by
  induction h with
  | nil =>
    rw [List.nil_append, Json.readChars.eq_def]
    simp only [if_true]
  | plain hquote hback hcontrol _ ih =>
    rw [List.cons_append, Json.readChars.eq_def]
    simp only [hquote, hback, hcontrol, if_false, ih, prepend]
  | letter he _ ih =>
    rw [List.cons_append, List.cons_append, readChars_escaped he, ih, prepend]
  | unit hunit hleading htrailing _ ih =>
    simp only [List.cons_append]
    rw [Json.readChars.eq_def]
    simp [escaped?, hunit, hleading, htrailing, ih, prepend]
  | @pair _ _ _ _ _ _ _ _ n m _ _ hunit hleading hnext htrailing _ ih =>
    have hfirst : isTrailing n = false := by
      unfold isLeading at hleading
      unfold isTrailing
      simp only [Bool.and_eq_true, decide_eq_true_eq, Bool.and_eq_false_iff,
        decide_eq_false_iff_not] at hleading ⊢
      omega
    simp only [List.cons_append]
    rw [Json.readChars.eq_def]
    simp [escaped?, hunit, hleading, hfirst, hnext, htrailing, ih, prepend]

theorem Spells.readString {name : String} {s : List Char} (h : Spells name.toList s)
    (rest : List Char) : readString (s ++ '"' :: rest) = .ok (name, rest) := by
  unfold Json.readString
  rw [h.readChars]
  simp only [String.ofList_toList]

/-! ## Rows between brackets -/

/-- Parts in a row, with commas between them and blanks around those. -/
inductive IsRow : List (List Char) → List Char → Prop
  | last {part gap : List Char} : IsSpacing gap → IsRow [part] (part ++ gap)
  | cons {part gap lead s : List Char} {parts : List (List Char)} :
      IsSpacing gap → IsSpacing lead → IsRow parts s →
      IsRow (part :: parts) (part ++ (gap ++ ',' :: (lead ++ s)))

/-- A row of parts between brackets, or only blanks between them. -/
inductive Bracketed (opening closing : Char) : List (List Char) → List Char → Prop
  | empty {gap : List Char} :
      IsSpacing gap → Bracketed opening closing [] (opening :: (gap ++ [closing]))
  | row {lead s : List Char} {parts : List (List Char)} :
      IsSpacing lead → IsRow parts s →
      Bracketed opening closing parts (opening :: (lead ++ (s ++ [closing])))

/-- A function passes over a part wherever it stands, given enough steps for the length of the
part. -/
structure Passes (skip : Nat → List Char → Except Halt (List Char)) (part : List Char) : Prop where
  opens : Opens part
  skips : ∀ n s rest, 2 * part.length < n → Closes rest → skipSpace s = part ++ rest →
    skip n s = .ok rest

/-- A row starts as its parts do. -/
theorem IsRow.starts {parts : List (List Char)} {row : List Char} (h : IsRow parts row)
    {p : Char → Prop} (hparts : ∀ part ∈ parts, ∃ c t, part = c :: t ∧ p c) :
    ∃ c t, row = c :: t ∧ p c := by
  cases h with
  | last _ =>
    obtain ⟨c, t, rfl, hc⟩ := hparts _ List.mem_cons_self
    exact ⟨c, _, rfl, hc⟩
  | cons _ _ _ =>
    obtain ⟨c, t, rfl, hc⟩ := hparts _ List.mem_cons_self
    exact ⟨c, _, rfl, hc⟩

theorem IsRow.opens {parts : List (List Char)} {row : List Char} (h : IsRow parts row)
    (hparts : ∀ part ∈ parts, Opens part) : Opens row := h.starts hparts

theorem Bracketed.starts {opening closing : Char} {parts : List (List Char)} {text : List Char}
    (h : Bracketed opening closing parts text) (rest : List Char) :
    ∃ s, text ++ rest = opening :: s := by
  cases h with
  | empty _ => exact ⟨_, rfl⟩
  | row _ _ => exact ⟨_, rfl⟩

/-- A loop goes over parts in a row: it skips the first, goes on with another behind each comma, and
ends past the closing bracket. -/
structure GoesOver (skip : Nat → List Char → Except Halt (List Char))
    (loop : Nat → Bool → List Char → Except Halt (List Char)) (closing : Char) : Prop where
  isClosing : IsClosing closing
  notSpace : isSpace closing = false
  ends : ∀ n isFirst s t, skipSpace s = closing :: t → loop (n + 1) isFirst s = .ok t
  begins : ∀ n s c t, skipSpace s = c :: t → ¬ IsClosing c →
    loop (n + 1) true s = skip n (c :: t) >>= loop n false
  continues : ∀ n s t, skipSpace s = ',' :: t → loop (n + 1) false s = skip n t >>= loop n false

section

variable {skip : Nat → List Char → Except Halt (List Char)}
  {loop : Nat → Bool → List Char → Except Halt (List Char)} {closing : Char}
  (hloop : GoesOver skip loop closing) {parts : List (List Char)}
  (hparts : ∀ part ∈ parts, Passes skip part)
include hloop hparts

/-- A row is passed over, and so is the bracket behind it. -/
theorem IsRow.passed {row : List Char} (h : IsRow parts row) {n : Nat} {s rest : List Char}
    (hn : 2 * row.length < n) (hs : skipSpace s = row ++ closing :: rest) :
    (skip n s >>= loop n false) = .ok rest := by
  obtain ⟨n, rfl⟩ := Nat.exists_eq_add_one_of_ne_zero (Nat.ne_of_gt (Nat.zero_lt_of_lt hn))
  induction h generalizing n s with
  | @last part gap hgap =>
    have hpart := (hparts part List.mem_cons_self).skips
    rw [List.append_assoc] at hs
    rw [List.length_append] at hn
    rw [hpart (n + 1) s _ (by omega) ((Closes.cons hloop.isClosing rest).spaced hgap) hs]
    apply hloop.ends
    rw [skipSpace_append hgap, skipSpace_cons hloop.notSpace]
  | @cons part gap lead row parts hgap hlead hrow ih =>
    obtain ⟨hpart, hlater⟩ := List.forall_mem_cons.1 hparts
    simp only [List.append_assoc, List.cons_append] at hs
    simp only [List.length_append, List.length_cons] at hn
    have hopens := (hrow.opens fun part hmem => (hlater part hmem).opens).append (closing :: rest)
    obtain ⟨n, rfl⟩ := Nat.exists_eq_add_one_of_ne_zero (by omega : n ≠ 0)
    rw [hpart.skips (n + 1 + 1) s _ (by omega) ((Closes.cons (by decide) _).spaced hgap) hs]
    show loop (n + 1 + 1) false _ = _
    rw [hloop.continues (n + 1) _ (lead ++ (row ++ closing :: rest))
      (by rw [skipSpace_append hgap, skipSpace_cons (by decide)])]
    exact ih hlater (by rw [skipSpace_append hlead, hopens.skipSpace]) n (by omega)

/-- **A list or an object is passed over**, past its opening bracket. -/
theorem Bracketed.passed {opening : Char} {text : List Char}
    (h : Bracketed opening closing parts text) {n : Nat} {s rest : List Char}
    (hn : 2 * text.length ≤ n) (hs : opening :: s = text ++ rest) : loop n true s = .ok rest := by
  cases h with
  | @empty gap hgap =>
    simp only [List.cons_append, List.append_assoc, List.nil_append, List.cons.injEq,
      true_and] at hs
    simp only [List.length_cons] at hn
    obtain ⟨n, rfl⟩ := Nat.exists_eq_add_one_of_ne_zero (by omega : n ≠ 0)
    rw [hs]
    apply hloop.ends
    rw [skipSpace_append hgap, skipSpace_cons hloop.notSpace]
  | @row lead row _ hlead hrow =>
    simp only [List.cons_append, List.append_assoc, List.nil_append, List.cons.injEq,
      true_and] at hs
    simp only [List.length_cons, List.length_append, List.length_nil] at hn
    obtain ⟨n, rfl⟩ := Nat.exists_eq_add_one_of_ne_zero (by omega : n ≠ 0)
    have hopens := (hrow.opens fun part hmem => (hparts part hmem).opens).append (closing :: rest)
    obtain ⟨c, t, hct, hc⟩ := id hopens
    have hspace : skipSpace s = c :: t := by
      rw [hs, skipSpace_append hlead, hopens.skipSpace, hct]
    rw [hloop.begins n s c t hspace hc, ← hct]
    exact hrow.passed hloop hparts (by omega) hopens.skipSpace

end

/-! ## Values -/

/-- The text of a member: its key between quotes, a colon, and the text of its value. -/
inductive IsMember (IsKey : List Char → Prop) (value : List Char) : List Char → Prop
  | member {key gap lead : List Char} : IsKey key → IsSpacing gap → IsSpacing lead →
      IsMember IsKey value ('"' :: (key ++ '"' :: (gap ++ ':' :: (lead ++ value))))

/-- The text of a JSON value. -/
inductive IsValue : List Char → Prop
  | null : IsValue "null".toList
  | true : IsValue "true".toList
  | false : IsValue "false".toList
  | number {s : List Char} : IsUnsigned s → IsValue s
  | negative {s : List Char} : IsUnsigned s → IsValue ('-' :: s)
  | string {s : List Char} : IsChars s → IsValue ('"' :: (s ++ ['"']))
  | list {items : List (List Char)} {s : List Char} :
      (∀ item ∈ items, IsValue item) → Bracketed '[' ']' items s → IsValue s
  | object {members : List (List Char × List Char)} {s : List Char} :
      (∀ m ∈ members, IsValue m.1) → (∀ m ∈ members, IsMember IsChars m.1 m.2) →
      Bracketed '\x7b' '\x7d' (members.map Prod.snd) s → IsValue s

theorem not_isClosing_of_isDigit {c : Char} (h : c.isDigit = true) : ¬ IsClosing c := by
  intro hclosing
  have hdigit := (Closes.cons hclosing []).startsDigit
  rw [show startsDigit [c] = c.isDigit from rfl, h] at hdigit
  cases hdigit

theorem Bracketed.opens {opening closing : Char} {parts : List (List Char)} {text : List Char}
    (h : Bracketed opening closing parts text) (hopening : ¬ IsClosing opening) : Opens text := by
  obtain ⟨s, hs⟩ := h.starts []
  rw [List.append_nil] at hs
  exact ⟨opening, s, hs, hopening⟩

theorem IsValue.opens {v : List Char} (h : IsValue v) : Opens v := by
  cases h with
  | null => exact ⟨'n', _, rfl, by decide⟩
  | true => exact ⟨'t', _, rfl, by decide⟩
  | false => exact ⟨'f', _, rfl, by decide⟩
  | number hs =>
    obtain ⟨c, t, rfl, hc⟩ := hs.starts
    exact ⟨c, t, rfl, not_isClosing_of_isDigit hc⟩
  | negative _ => exact ⟨'-', _, rfl, by decide⟩
  | string _ => exact ⟨'"', _, rfl, by decide⟩
  | list _ hs => exact hs.opens (by decide)
  | object _ _ hs => exact hs.opens (by decide)

theorem goesOver_items : GoesOver skipUpTo skipItems ']' where
  isClosing := by decide
  notSpace := rfl
  ends n isFirst s t hs := by
    rw [skipItems, hs]
    rfl
  begins n s c t hs hc := by
    rw [skipItems, hs]
    split
    · next heq => cases heq
    · next heq => cases heq; exact absurd (by decide) hc
    · next heq => cases heq; rfl
  continues n s t hs := by
    rw [skipItems, hs]
    rfl

/-- Skip a member of an object: its key, and then its value. -/
def skipMember (n : Nat) (s : List Char) : Except Halt (List Char) := skipKey s >>= skipUpTo n

theorem goesOver_members : GoesOver skipMember skipMembers '\x7d' where
  isClosing := by decide
  notSpace := rfl
  ends n isFirst s t hs := by
    rw [skipMembers, hs]
    rfl
  begins n s c t hs hc := by
    rw [skipMembers, hs]
    split
    · next heq => cases heq
    · next heq => cases heq; exact absurd (by decide) hc
    · next heq => cases heq; rfl
  continues n s t hs := by
    rw [skipMembers, hs]
    rfl

theorem readColon_spaced {gap : List Char} (h : IsSpacing gap) (s : List Char) :
    readColon (gap ++ ':' :: s) = .ok s := by
  unfold readColon
  rw [skipSpace_append h, skipSpace_cons (by decide)]
  rfl

theorem passes_member {value text : List Char} (hvalue : Passes skipUpTo value)
    (h : IsMember IsChars value text) : Passes skipMember text := by
  cases h with
  | @member key gap lead hkey hgap hlead =>
    refine ⟨⟨'"', _, rfl, by decide⟩, ?_⟩
    intro n s rest hn hrest hs
    simp only [List.length_cons, List.length_append] at hn
    simp only [List.cons_append, List.append_assoc] at hs
    have hskip : skipKey s = .ok (lead ++ (value ++ rest)) := by
      unfold skipKey
      rw [hs]
      show (skipString (key ++ _) >>= readColon) = _
      rw [hkey.skipString]
      exact readColon_spaced hgap _
    unfold skipMember
    rw [hskip]
    refine hvalue.skips n _ rest (by omega) hrest ?_
    rw [skipSpace_append hlead, (hvalue.opens.append rest).skipSpace]

/-- A number is passed over as a value, with a minus sign or without. -/
theorem skipUpTo_number {v : List Char} (h : IsUnsigned v) {n : Nat} {s rest : List Char}
    (hrest : Closes rest) (hs : skipSpace s = v ++ rest ∨ skipSpace s = '-' :: (v ++ rest)) :
    skipUpTo (n + 1) s = .ok rest := by
  have hskip := h.skipNumber hrest
  rcases hs with hs | hs
  · obtain ⟨c, t, rfl, hc⟩ := h.starts
    have hother : ∀ d : Char, d.isDigit = false → c ≠ d := fun d hd => ne_of_isDigit hc hd
    have hstarts : startsDigit (c :: (t ++ rest)) = true := hc
    rw [List.cons_append] at hs hskip
    rw [skipUpTo]
    simp [hs, hother 'n' rfl, hother 't' rfl, hother 'f' rfl, hother '-' rfl, hother '"' rfl,
      hother '[' rfl, hother '\x7b' rfl, hstarts, hskip]
  · rw [skipUpTo, hs]
    exact hskip

theorem passes_value {v : List Char} (hv : Opens v)
    (h : ∀ n s rest, 2 * v.length ≤ n → Closes rest → skipSpace s = v ++ rest →
      skipUpTo (n + 1) s = .ok rest) : Passes skipUpTo v := by
  refine ⟨hv, ?_⟩
  intro n s rest hn
  obtain ⟨n, rfl⟩ := Nat.exists_eq_add_one_of_ne_zero (Nat.ne_of_gt (Nat.zero_lt_of_lt hn))
  exact h n s rest (Nat.le_of_lt_succ hn)

/-- Any value is passed over, given enough steps. -/
theorem IsValue.passes {v : List Char} (h : IsValue v) : Passes skipUpTo v := by
  have hopens := h.opens
  induction h with
  | null | true | false =>
    apply passes_value hopens
    intro n s rest _ _ hs
    rw [skipUpTo, hs]
    rfl
  | number hv =>
    exact passes_value hopens fun n s rest _ hrest hs => skipUpTo_number hv hrest (.inl hs)
  | negative hv =>
    exact passes_value hopens fun n s rest _ hrest hs => skipUpTo_number hv hrest (.inr hs)
  | @string chars hchars =>
    apply passes_value hopens
    intro n s rest _ _ hs
    rw [skipUpTo, hs]
    show skipString (chars ++ ['"'] ++ rest) = _
    rw [List.append_assoc]
    exact hchars.skipString rest
  | @list items text hitems htext ih =>
    apply passes_value hopens
    intro n s rest hn _ hs
    obtain ⟨t, ht⟩ := htext.starts rest
    have hparts := fun item hitem => ih item hitem (hitems item hitem).opens
    rw [skipUpTo, hs, ht]
    exact htext.passed goesOver_items hparts hn ht.symm
  | @object members text hmembers hmember htext ih =>
    apply passes_value hopens
    intro n s rest hn _ hs
    obtain ⟨t, ht⟩ := htext.starts rest
    have hparts : ∀ part ∈ members.map Prod.snd, Passes skipMember part := by
      rw [List.forall_mem_map]
      exact fun m hm => passes_member (ih m hm (hmembers m hm).opens) (hmember m hm)
    rw [skipUpTo, hs, ht]
    exact htext.passed goesOver_members hparts hn ht.symm

/-- **A value is passed over** where nobody asked for it, up to what stands behind it. -/
theorem IsValue.skipValue {v : List Char} (h : IsValue v) {s rest : List Char} (hrest : Closes rest)
    (hs : skipSpace s = v ++ rest) : skipValue s = .ok rest := by
  have hlength : (skipSpace s).length ≤ s.length := (List.dropWhile_sublist isSpace).length_le
  rw [hs, List.length_append] at hlength
  exact h.passes.skips _ s rest (by omega) hrest hs

end FleetSearch.Json
