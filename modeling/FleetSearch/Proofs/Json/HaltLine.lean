/-
# FleetSearch.Proofs.Json.HaltLine -- what reading halts with

A reader **halts plainly** if the words in the cause that it gives are without line breaks
(`HaltsPlainly`). Most causes have no words at all. The others have the words of the type that is
read: what is expected and the names of fields. So a record is read plainly if its own words are
plain and each of its fields is read plainly (`Record.haltsPlainly_read`), whatever the text says.
-/

import FleetSearch.Json.Record
import FleetSearch.Proofs.Json.FaultLine

namespace FleetSearch.Json

variable {α β δ : Type}

/-! ## Halting plainly -/

/-- The cause of a halt. -/
def Halt.cause : Halt → Cause
  | .placed cause _ => cause
  | .pending cause _ => cause
  | .stated cause _ => cause

/-- If reading halts, then for a cause whose words are without line breaks. -/
def HaltsPlainly (reading : Except Halt α) : Prop :=
  ∀ halt, reading = .error halt → halt.cause.IsPlain

theorem Cause.isPlain_of_words_eq_nil {cause : Cause} (h : cause.words = []) : cause.IsPlain := by
  unfold IsPlain
  rw [h]
  exact List.forall_mem_nil _

theorem haltsPlainly_ok (a : α) : HaltsPlainly (.ok a) := by
  intro halt h
  cases h

theorem haltsPlainly_error {halt : Halt} (h : halt.cause.IsPlain) :
    HaltsPlainly (.error halt : Except Halt α) := by
  intro other heq
  cases heq
  exact h

/-- A halt for a cause without words is plain. -/
theorem haltsPlainly_wordless {halt : Halt} (h : halt.cause.words = []) :
    HaltsPlainly (.error halt : Except Halt α) :=
  haltsPlainly_error (Cause.isPlain_of_words_eq_nil h)

theorem HaltsPlainly.bind {reading : Except Halt α} {next : α → Except Halt β}
    (h : HaltsPlainly reading) (hnext : ∀ a, HaltsPlainly (next a)) :
    HaltsPlainly (reading >>= next) := by
  cases reading with
  | ok a => exact hnext a
  | error halt => exact haltsPlainly_error (h halt rfl)

/-! ## Words and punctuation -/

theorem haltsPlainly_readWord (word s : List Char) : HaltsPlainly (readWord word s) := by
  induction word generalizing s with
  | nil => exact haltsPlainly_ok s
  | cons w word ih =>
    cases s with
    | nil => exact haltsPlainly_wordless rfl
    | cons c s =>
      unfold readWord
      split
      · exact ih s
      · exact haltsPlainly_wordless rfl

theorem haltsPlainly_readColon (s : List Char) : HaltsPlainly (readColon s) := by
  unfold readColon
  split
  · exact haltsPlainly_ok _
  · exact haltsPlainly_wordless rfl
  · exact haltsPlainly_wordless rfl

theorem haltsPlainly_nextItem (isFirst : Bool) (s : List Char) :
    HaltsPlainly (nextItem isFirst s) := by
  unfold nextItem
  repeat' split
  all_goals first | exact haltsPlainly_ok _ | exact haltsPlainly_wordless rfl

theorem haltsPlainly_nextKey (isFirst : Bool) (s : List Char) :
    HaltsPlainly (nextKey isFirst s) := by
  unfold nextKey
  repeat' split
  all_goals first | exact haltsPlainly_ok _ | exact haltsPlainly_wordless rfl

theorem haltsPlainly_closeList (s : List Char) : HaltsPlainly (closeList s).1 := by
  unfold closeList
  repeat' split
  all_goals first | exact haltsPlainly_ok _ | exact haltsPlainly_wordless rfl

theorem haltsPlainly_closeObject (s : List Char) : HaltsPlainly (closeObject s).1 := by
  unfold closeObject
  repeat' split
  all_goals first | exact haltsPlainly_ok _ | exact haltsPlainly_wordless rfl

/-- Closing what was read changes the place of a halt and not its cause. -/
theorem HaltsPlainly.enclose {close : List Char → Except Halt Unit × List Char}
    {reading : Reading α} (h : HaltsPlainly reading) (hclose : ∀ s, HaltsPlainly (close s).1) :
    HaltsPlainly (enclose close reading) := by
  unfold Json.enclose
  split
  · next cause rest =>
    have hcause : (Halt.pending cause rest).cause.IsPlain := h _ rfl
    exact haltsPlainly_error hcause
  · exact haltsPlainly_error (h _ rfl)
  · next a s =>
    have hs := hclose s
    split
    · exact haltsPlainly_ok _
    · next halt rest heq =>
      rw [heq] at hs
      exact haltsPlainly_error (hs halt rfl)

/-! ## Strings -/

theorem HaltsPlainly.prepend {reading : Reading (List Char)} (h : HaltsPlainly reading) (c : Char) :
    HaltsPlainly (prepend c reading) := by
  unfold Json.prepend
  split
  · exact haltsPlainly_ok _
  · exact h

theorem hexHalt_wordless (s : List Char) : (hexHalt s).cause.words = [] := by
  unfold hexHalt
  simp only
  split <;> rfl

theorem pairHalt_wordless (s : List Char) : (pairHalt s).cause.words = [] := by
  unfold pairHalt
  split
  · rfl
  · rfl
  · exact hexHalt_wordless _
  · rfl
  · rfl

theorem haltsPlainly_readChars (s : List Char) : HaltsPlainly (readChars s) := by
  fun_induction readChars s
  all_goals first
    | exact haltsPlainly_ok _
    | exact haltsPlainly_wordless rfl
    | exact haltsPlainly_wordless (hexHalt_wordless _)
    | exact haltsPlainly_wordless (pairHalt_wordless _)
    | exact HaltsPlainly.prepend ‹_› _

theorem haltsPlainly_readString (s : List Char) : HaltsPlainly (readString s) := by
  have h := haltsPlainly_readChars s
  unfold readString
  split
  · exact haltsPlainly_ok _
  · next halt heq =>
    rw [heq] at h
    exact haltsPlainly_error (h halt rfl)

theorem haltsPlainly_skipString (s : List Char) : HaltsPlainly (skipString s) := by
  fun_induction skipString s
  all_goals first
    | exact haltsPlainly_ok _
    | exact haltsPlainly_wordless rfl
    | exact haltsPlainly_wordless (hexHalt_wordless _)
    | assumption

/-! ## Numbers -/

theorem haltsPlainly_scaled (isNegative : Bool) (n : Nat) (exponent : Int) (s : List Char) :
    HaltsPlainly (scaled isNegative n exponent s) := by
  unfold scaled
  split
  · exact haltsPlainly_ok _
  · exact haltsPlainly_wordless rfl

theorem haltsPlainly_readExponent (isNegative : Bool) (n : Nat) (exponent : Int) (s : List Char) :
    HaltsPlainly (readExponent isNegative n exponent s) := by
  unfold readExponent
  repeat' split
  all_goals first
    | exact haltsPlainly_ok _
    | exact haltsPlainly_wordless rfl
    | exact haltsPlainly_scaled _ _ _ _

theorem haltsPlainly_readScale (isNegative : Bool) (n : Nat) (exponent : Int) (s : List Char) :
    HaltsPlainly (readScale isNegative n exponent s) := by
  unfold readScale
  split
  · exact haltsPlainly_readExponent _ _ _ _
  · exact haltsPlainly_readExponent _ _ _ _
  · exact haltsPlainly_scaled _ _ _ _

theorem haltsPlainly_readFraction (isNegative : Bool) (n : Nat) (exponent : Int) (s : List Char) :
    HaltsPlainly (readFraction isNegative n exponent s) := by
  unfold readFraction
  simp only
  split
  · exact haltsPlainly_readScale _ _ _ _
  · split
    · exact haltsPlainly_wordless rfl
    · exact haltsPlainly_wordless rfl

theorem haltsPlainly_readTail (isNegative : Bool) (n : Nat) (s : List Char) :
    HaltsPlainly (readTail isNegative n s) := by
  unfold readTail
  split
  · exact haltsPlainly_readFraction _ _ _ _
  · exact haltsPlainly_readExponent _ _ _ _
  · exact haltsPlainly_readExponent _ _ _ _
  · exact haltsPlainly_ok _

theorem haltsPlainly_readLongTail (isNegative : Bool) (n : Nat) (exponent : Int) (s : List Char) :
    HaltsPlainly (readLongTail isNegative n exponent s) := by
  unfold readLongTail
  split
  · exact haltsPlainly_readFraction _ _ _ _
  · exact haltsPlainly_readScale _ _ _ _

theorem haltsPlainly_readNumber (isNegative : Bool) (s : List Char) :
    HaltsPlainly (readNumber isNegative s) := by
  unfold readNumber
  repeat' split
  all_goals first
    | exact haltsPlainly_wordless rfl
    | exact haltsPlainly_readTail _ _ _
    | exact haltsPlainly_readLongTail _ _ _ _

theorem haltsPlainly_skipScale (s : List Char) : HaltsPlainly (skipScale s) := by
  have hexponent : ∀ t, HaltsPlainly (skipExponent t) := by
    intro t
    unfold skipExponent
    simp only
    split
    · exact haltsPlainly_ok _
    · exact haltsPlainly_wordless rfl
  unfold skipScale
  split
  · exact hexponent _
  · exact hexponent _
  · exact haltsPlainly_ok _

theorem haltsPlainly_skipNumber (s : List Char) : HaltsPlainly (skipNumber s) := by
  have htail : ∀ t, HaltsPlainly (skipTail t) := by
    intro t
    unfold skipTail
    split
    · split
      · exact haltsPlainly_skipScale _
      · exact haltsPlainly_wordless rfl
    · exact haltsPlainly_skipScale _
  unfold skipNumber
  repeat' split
  all_goals first
    | exact haltsPlainly_wordless rfl
    | exact htail _

/-! ## Values -/

theorem haltsPlainly_skipKey (s : List Char) : HaltsPlainly (skipKey s) := by
  unfold skipKey
  split
  · exact haltsPlainly_wordless rfl
  · exact (haltsPlainly_skipString _).bind haltsPlainly_readColon
  · exact haltsPlainly_wordless rfl

/-- The values, items and members that are skipped nest in each other, so all three come at once. -/
theorem haltsPlainly_skipUpTo (n : Nat) :
    (∀ s, HaltsPlainly (skipUpTo n s)) ∧ (∀ isFirst s, HaltsPlainly (skipItems n isFirst s)) ∧
      ∀ isFirst s, HaltsPlainly (skipMembers n isFirst s) := by
  induction n with
  | zero =>
    refine ⟨?_, ?_, ?_⟩
    · intro s
      unfold skipUpTo
      exact haltsPlainly_wordless rfl
    · intro isFirst s
      unfold skipItems
      exact haltsPlainly_wordless rfl
    · intro isFirst s
      unfold skipMembers
      exact haltsPlainly_wordless rfl
  | succ n ih =>
    obtain ⟨hvalue, hitems, hmembers⟩ := ih
    refine ⟨?_, ?_, ?_⟩
    · intro s
      unfold skipUpTo
      repeat' split
      all_goals first
        | exact haltsPlainly_wordless rfl
        | exact haltsPlainly_readWord _ _
        | exact haltsPlainly_skipNumber _
        | exact haltsPlainly_skipString _
        | exact hitems _ _
        | exact hmembers _ _
    · intro isFirst s
      unfold skipItems
      repeat' split
      all_goals first
        | exact haltsPlainly_ok _
        | exact haltsPlainly_wordless rfl
        | exact (hvalue _).bind (hitems _)
    · intro isFirst s
      unfold skipMembers
      repeat' split
      all_goals first
        | exact haltsPlainly_ok _
        | exact haltsPlainly_wordless rfl
        | exact ((haltsPlainly_skipKey _).bind hvalue).bind (hmembers _)

/-- A value of another type is told by what was found and what is expected. -/
theorem wrongType_isPlain {expected : String} (hexpected : '\n' ∉ expected.toList) (s : List Char) :
    (wrongType expected s).cause.IsPlain := by
  have hrefuse : ∀ found rest, (here (.wrongType found expected) rest).cause.IsPlain := by
    intro found rest word hword
    rw [List.mem_singleton.1 hword]
    exact hexpected
  have hhalt : ∀ {α : Type} {reading : Except Halt α} {halt : Halt}, HaltsPlainly reading →
      reading = .error halt → halt.cause.IsPlain := fun h heq => h _ heq
  unfold wrongType
  simp only
  repeat' split
  all_goals first
    | exact hrefuse _ _
    | exact hhalt (haltsPlainly_readWord _ _) ‹_›
    | exact hhalt (haltsPlainly_readNumber _ _) ‹_›
    | exact hhalt (haltsPlainly_readString _) ‹_›
    | exact Cause.isPlain_of_words_eq_nil rfl

theorem haltsPlainly_readText {expected : String} (hexpected : '\n' ∉ expected.toList)
    (s : List Char) : HaltsPlainly (readText expected s) := by
  unfold readText
  split
  · exact haltsPlainly_wordless rfl
  · exact haltsPlainly_readString _
  · exact haltsPlainly_error (wrongType_isPlain hexpected _)

theorem haltsPlainly_readBool (s : List Char) : HaltsPlainly (readBool s) := by
  unfold readBool
  split
  · exact haltsPlainly_wordless rfl
  · exact (haltsPlainly_readWord _ _).bind fun _ => haltsPlainly_ok _
  · exact (haltsPlainly_readWord _ _).bind fun _ => haltsPlainly_ok _
  · exact haltsPlainly_error (wrongType_isPlain (by decide) _)

theorem HaltsPlainly.boundedNat {expected : String} (hexpected : '\n' ∉ expected.toList)
    {limit : Nat} {reading : Reading Number} (h : HaltsPlainly reading) :
    HaltsPlainly (boundedNat expected limit reading) := by
  have hwords : ∀ {cause : Cause} {s : List Char}, cause.words = [expected] →
      HaltsPlainly (.error (here cause s) : Reading Nat) := by
    intro cause s hcause
    apply haltsPlainly_error
    show cause.IsPlain
    unfold Cause.IsPlain
    rw [hcause]
    exact List.forall_mem_singleton.2 hexpected
  unfold Json.boundedNat
  split
  · split
    · exact haltsPlainly_ok _
    · exact hwords rfl
  · exact hwords rfl
  · exact hwords rfl
  · exact haltsPlainly_error (h _ rfl)

theorem haltsPlainly_readNat {expected : String} (hexpected : '\n' ∉ expected.toList) (limit : Nat)
    (s : List Char) : HaltsPlainly (readNat expected limit s) := by
  unfold readNat
  split
  · exact haltsPlainly_wordless rfl
  · exact (haltsPlainly_readNumber _ _).boundedNat hexpected
  · split
    · exact (haltsPlainly_readNumber _ _).boundedNat hexpected
    · exact haltsPlainly_error (wrongType_isPlain hexpected _)

theorem haltsPlainly_readOptional {value : Reader α} (h : ∀ s, HaltsPlainly (value s))
    (s : List Char) : HaltsPlainly (readOptional value s) := by
  unfold readOptional
  split
  · exact (haltsPlainly_readWord _ _).bind fun _ => haltsPlainly_ok _
  · exact (h _).bind fun _ => haltsPlainly_ok _

/-! ## Records -/

/-- The words of the record type are without line breaks, and its fields are read plainly. -/
structure Record.IsPlain (r : Record δ α) : Prop where
  title : '\n' ∉ r.title.toList
  names : ∀ field ∈ r.fields, '\n' ∉ field.name.toList
  reads : ∀ field ∈ r.fields, ∀ draft s, HaltsPlainly (field.read draft s)
  builds : ∀ draft name, r.build draft = .error name → '\n' ∉ name.toList

/-- A field is read plainly if its value is. -/
theorem Field.haltsPlainly_of {value : Reader β} (h : ∀ s, HaltsPlainly (value s)) (name : String)
    (get : δ → Option β) (set : δ → β → δ) (draft : δ) (s : List Char) :
    HaltsPlainly ((Field.of name get set value).read draft s) := by
  have hs := h s
  unfold Field.of
  simp only
  split
  · exact haltsPlainly_ok _
  · next halt heq =>
    rw [heq] at hs
    exact haltsPlainly_error (hs halt rfl)

namespace Record

theorem haltsPlainly_readItems {fields : List (Field δ)}
    (h : ∀ field ∈ fields, ∀ draft s, HaltsPlainly (field.read draft s)) (isFirst : Bool)
    (draft : δ) (s : List Char) : HaltsPlainly (readItems fields isFirst draft s) := by
  induction fields generalizing isFirst draft s with
  | nil => exact haltsPlainly_ok _
  | cons field fields ih =>
    rw [List.forall_mem_cons] at h
    unfold readItems
    refine (haltsPlainly_nextItem _ _).bind ?_
    rintro ⟨more, t⟩
    simp only
    split
    · exact (h.1 _ _).bind fun _ => ih h.2 _ _ _
    · exact haltsPlainly_ok _

section

variable {r : Record δ α} (h : r.IsPlain)
include h

theorem haltsPlainly_readMember (key : String) (draft : δ) (s : List Char) :
    HaltsPlainly (readMember r.fields key draft s) := by
  unfold readMember
  split
  · next field hfind =>
    have hfield := List.mem_of_find?_eq_some hfind
    have hkey : field.name = key := by simpa using List.find?_some hfind
    split
    · apply haltsPlainly_error
      intro word hword
      -- A key that comes twice is the name of a field.
      rw [List.mem_singleton.1 hword, ← hkey]
      exact h.names field hfield
    · exact (haltsPlainly_readColon _).bind (h.reads field hfield _)
  · refine (haltsPlainly_readColon _).bind fun t => ?_
    exact ((haltsPlainly_skipUpTo _).1 t).bind fun _ => haltsPlainly_ok _

theorem haltsPlainly_readMembers (n : Nat) (isFirst : Bool) (draft : δ) (s : List Char) :
    HaltsPlainly (readMembers r.fields n isFirst draft s) := by
  induction n generalizing isFirst draft s with
  | zero =>
    unfold readMembers
    exact haltsPlainly_wordless rfl
  | succ n ih =>
    unfold readMembers
    refine (haltsPlainly_nextKey _ _).bind ?_
    rintro ⟨more, t⟩
    simp only
    split
    · refine (haltsPlainly_readString _).bind fun ⟨key, u⟩ => ?_
      exact (haltsPlainly_readMember h key _ _).bind fun _ => ih _ _ _
    · exact haltsPlainly_ok _

omit h in
theorem haltsPlainly_finish {build : δ → Except Cause α} {reading : Reading δ}
    (hreading : HaltsPlainly reading)
    (hbuild : ∀ draft cause, build draft = .error cause → cause.IsPlain) :
    HaltsPlainly (finish build reading) := by
  unfold finish
  split
  · split
    · exact haltsPlainly_ok _
    · next cause heq => exact haltsPlainly_error (hbuild _ cause heq)
  · exact haltsPlainly_error (hreading _ rfl)

omit h in
/-- An error that is told in other words is told plainly if all these words are plain. -/
theorem isPlain_of_mapError {f : String → Cause} {built : Except String α} {cause : Cause}
    (hf : ∀ name, built = .error name → (f name).IsPlain)
    (hcause : built.mapError f = .error cause) : cause.IsPlain := by
  cases built with
  | ok a => cases hcause
  | error name =>
    cases hcause
    exact hf name rfl

theorem ofMembers_isPlain (draft : δ) (cause : Cause) (hcause : r.ofMembers draft = .error cause) :
    cause.IsPlain := by
  refine isPlain_of_mapError ?_ hcause
  intro name hbuild
  exact List.forall_mem_singleton.2 (h.builds draft name hbuild)

theorem ofItems_isPlain (draft : δ) (cause : Cause) (hcause : r.ofItems draft = .error cause) :
    cause.IsPlain := by
  refine isPlain_of_mapError ?_ hcause
  exact fun _ _ => List.forall_mem_singleton.2 h.title

/-- **A record is read plainly.** -/
theorem haltsPlainly_read (s : List Char) : HaltsPlainly (r.read s) := by
  unfold read
  split
  · exact haltsPlainly_wordless rfl
  · exact (haltsPlainly_finish (haltsPlainly_readItems h.reads _ _ _)
      (ofItems_isPlain h)).enclose haltsPlainly_closeList
  · exact (haltsPlainly_finish (haltsPlainly_readMembers h _ _ _ _)
      (ofMembers_isPlain h)).enclose haltsPlainly_closeObject
  · exact haltsPlainly_error (wrongType_isPlain h.title _)

/-- The fault of a text that is no such record is told in one line. -/
theorem newline_not_mem_ofText {text : String} {fault : Fault}
    (hfault : r.ofText text = .error fault) :
    '\n' ∉ fault.message.toList := by
  apply Fault.newline_not_mem_message
  have hcause : ∀ halt : Halt, (halt.fault text.toList).cause = halt.cause := by
    intro halt
    cases halt <;> rfl
  have hread := haltsPlainly_read h text.toList
  unfold ofText readWhole at hfault
  simp only at hfault
  split at hfault
  · next halt heq =>
    rw [heq] at hread
    cases hfault
    rw [hcause]
    exact hread halt rfl
  · split at hfault
    · cases hfault
    · cases hfault
      rw [hcause]
      exact Cause.isPlain_of_words_eq_nil rfl

end

end Record

end FleetSearch.Json
