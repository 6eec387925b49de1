/-
# FleetSearch.Proofs.Json.RecordText -- records in any text of an object

A record may be written in many ways: its members in any order and with blanks anywhere between, its
strings with or without escapes, and with members that are none of its fields among them. A reader
**takes a text** for a value wherever the text stands (`TakesText`). The entries of an object gather
in a draft if each that is a field is new and takes its text, whatever the others are (`Gathers`);
the record of the draft is then read from any text of the object (`Record.ofText_of_gathers`).
-/

import FleetSearch.Json.Record
import FleetSearch.Proofs.Json.Grammar

namespace FleetSearch.Json

variable {α δ : Type}

/-! ## Plain values -/

/-- The reader takes the text for the value, wherever a value may stand. -/
structure TakesText (reader : Reader α) (v : List Char) (a : α) : Prop where
  opens : Opens v
  reads : ∀ s rest, Closes rest → skipSpace s = v ++ rest → reader s = .ok (a, rest)

/-- The text of a plain value: null, a truth value, a natural number in its digits, or a string. -/
inductive TextOf : Tree → List Char → Prop
  | null : TextOf .null "null".toList
  | true : TextOf (.boolean true) "true".toList
  | false : TextOf (.boolean false) "false".toList
  | natural (n : Nat) : TextOf (.natural n) (Nat.toDigits 10 n)
  | string {s : String} {raw : List Char} :
      Spells s.toList raw → TextOf (.string s) ('"' :: (raw ++ ['"']))

theorem takesText_text (expected : String) {s : String} {v : List Char}
    (h : TextOf (.string s) v) : TakesText (readText expected) v s := by
  cases h with
  | @string _ raw hraw =>
    refine ⟨⟨'"', _, rfl, by decide⟩, ?_⟩
    intro u rest _ hu
    unfold readText
    rw [hu]
    show readString (raw ++ ['"'] ++ rest) = _
    rw [List.append_assoc]
    exact hraw.readString rest

theorem takesText_bool {b : Bool} {v : List Char} (h : TextOf (.boolean b) v) :
    TakesText readBool v b := by
  cases h with
  | true =>
    refine ⟨⟨'t', _, rfl, by decide⟩, ?_⟩
    intro u rest _ hu
    unfold readBool
    rw [hu]
    rfl
  | false =>
    refine ⟨⟨'f', _, rfl, by decide⟩, ?_⟩
    intro u rest _ hu
    unfold readBool
    rw [hu]
    rfl

theorem Closes.readTail {rest : List Char} (h : Closes rest) (n : Nat) :
    readTail false n rest = .ok (.natural n, rest) := by
  unfold Json.readTail
  split
  · exact absurd rfl (h.ne_of_head rfl).2.1
  · exact absurd rfl (h.ne_of_head rfl).2.2.1
  · exact absurd rfl (h.ne_of_head rfl).2.2.2
  · rfl

theorem takesText_nat (expected : String) {limit n : Nat} (hn : n < limit)
    (hlimit : limit ≤ wordLimit) {v : List Char} (h : TextOf (.natural n) v) :
    TakesText (readNat expected limit) v n := by
  generalize ht : Tree.natural n = t at h
  cases h with
  | natural m =>
    cases ht
    obtain ⟨c, t, hwritten, hc⟩ := natural_print n 0
    have hv : Nat.toDigits 10 n = c :: t := hwritten
    refine ⟨⟨c, t, hv, not_isClosing_of_isDigit hc⟩, ?_⟩
    intro u rest hrest hu
    have hread := readNumber_digits (Nat.lt_of_lt_of_le hn hlimit) hrest.startsDigit
      (hrest.readTail n)
    have hminus := ne_of_isDigit hc (by decide : '-'.isDigit = false)
    have hstarts : startsDigit (c :: (t ++ rest)) = true := hc
    rw [hv, List.cons_append] at hu hread
    unfold readNat
    simp [hu, hminus, hstarts, hread, boundedNat, hn]
  | _ => cases ht

theorem takesText_null {value : Reader α} {v : List Char} (h : TextOf .null v) :
    TakesText (readOptional value) v none := by
  generalize ht : Tree.null = t at h
  cases h with
  | null =>
    refine ⟨⟨'n', _, rfl, by decide⟩, ?_⟩
    intro u rest _ hu
    unfold readOptional
    rw [hu]
    rfl
  | _ => cases ht

/-- Where a value may be null, a text that does not look like null is taken for the value. -/
theorem TakesText.optional {value : Reader α} {v : List Char} {a : α} (h : TakesText value v a)
    (hv : v.head? ≠ some 'n') : TakesText (readOptional value) v (some a) where
  opens := h.opens
  reads s rest hrest hs := by
    have hread := h.reads (v ++ rest) rest hrest (h.opens.append rest).skipSpace
    obtain ⟨c, t, rfl, -⟩ := h.opens
    unfold readOptional
    rw [hs]
    split
    · next heq => exact absurd (congrArg some (List.cons.inj heq).1) hv
    · simp only [bind, Except.bind, hread]

/-- What a reader makes of a value that it takes a text for is taken from that text. -/
theorem TakesText.map {β : Type} {reader : Reader α} {v : List Char} {a : α}
    (h : TakesText reader v a) (f : α → β) :
    TakesText (fun s => do let (a, rest) ← reader s; .ok (f a, rest)) v (f a) where
  opens := h.opens
  reads s rest hrest hs := by
    rw [h.reads s rest hrest hs]
    rfl

/-- A field that is kept in a part of the draft takes the text of its value into it. -/
theorem TakesText.field {value : Reader α} {v : List Char} {a : α} (h : TakesText value v a)
    (name : String) (get : δ → Option α) (set : δ → α → δ) (draft : δ) :
    TakesText ((Field.of name get set value).read draft) v (set draft a) where
  opens := h.opens
  reads s rest hrest hs := by
    unfold Field.of
    simp only [h.reads s rest hrest hs]

/-! ## Entries of an object -/

/-- The texts are those of members with these entries, a name and the text of a value each. -/
def AreMembers (entries : List (String × List Char)) (members : List (List Char)) : Prop :=
  List.Forall₂ (fun e member => IsMember (Spells e.1.toList) e.2 member) entries members

/-- The text is that of an object with these entries, in their order. -/
inductive IsObject (entries : List (String × List Char)) : List Char → Prop
  | object {members : List (List Char)} {text : List Char} :
      AreMembers entries members → Bracketed '\x7b' '\x7d' members text → IsObject entries text

/-- Reading one entry turns a draft into the next: the entry is a field that the draft does not have
yet and takes the text, or it is none of the fields and any value. -/
inductive Receives (fields : List (Field δ)) (draft : δ) : String × List Char → δ → Prop
  | field {key : String} {v : List Char} {next : δ} {field : Field δ} :
      (fields.find? fun field => field.name == key) = some field →
      field.isGiven draft = false → TakesText (field.read draft) v next →
      Receives fields draft (key, v) next
  | extra {key : String} {v : List Char} :
      (fields.find? fun field => field.name == key) = none → IsValue v →
      Receives fields draft (key, v) draft

/-- Reading the entries one after another turns the first draft into the last. -/
inductive Gathers (fields : List (Field δ)) : δ → List (String × List Char) → δ → Prop
  | nil (draft : δ) : Gathers fields draft [] draft
  | cons {draft next last : δ} {e : String × List Char} {entries : List (String × List Char)} :
      Receives fields draft e next → Gathers fields next entries last →
      Gathers fields draft (e :: entries) last

namespace Record

variable {fields : List (Field δ)}

theorem readMember_receives {draft next : δ} {e : String × List Char}
    (h : Receives fields draft e next) {gap lead rest : List Char} (hgap : IsSpacing gap)
    (hlead : IsSpacing lead) (hrest : Closes rest) :
    readMember fields e.1 draft (gap ++ ':' :: (lead ++ (e.2 ++ rest))) = .ok (next, rest) := by
  have hcolon := readColon_spaced hgap (lead ++ (e.2 ++ rest))
  have hskip : Opens e.2 → skipSpace (lead ++ (e.2 ++ rest)) = e.2 ++ rest := by
    intro hopens
    rw [skipSpace_append hlead, (hopens.append rest).skipSpace]
  unfold readMember
  cases h with
  | field hfind hgiven htakes =>
    simp only [hfind, hgiven, hcolon, Bool.false_eq_true, if_false, bind, Except.bind]
    exact htakes.reads _ rest hrest (hskip htakes.opens)
  | extra hfind hvalue =>
    have hpassed := hvalue.skipValue hrest (hskip hvalue.opens)
    simp only [hfind, hcolon, hpassed, bind, Except.bind]

/-- One entry is read, and the entries behind it follow. -/
theorem readMembers_receives {draft next : δ} {e : String × List Char}
    (h : Receives fields draft e next) {member : List Char}
    (hmember : IsMember (Spells e.1.toList) e.2 member) {n : Nat} {isFirst : Bool}
    {s t rest : List Char} (hnext : nextKey isFirst s = .ok (true, t))
    (ht : '"' :: t = member ++ rest) (hrest : Closes rest) :
    readMembers fields (n + 1) isFirst draft s = readMembers fields n false next rest := by
  cases hmember with
  | @member key gap lead hkey hgap hlead =>
    simp only [List.cons_append, List.append_assoc, List.cons.injEq, true_and] at ht
    have hname := hkey.readString (gap ++ ':' :: (lead ++ (e.2 ++ rest)))
    have hread := readMember_receives h hgap hlead hrest
    rw [readMembers]
    simp only [bind, Except.bind, hnext, if_true, ht, hname, hread]

/-- Every member starts with the quote of its key. -/
theorem starts_of_mem_members {entries : List (String × List Char)} {members : List (List Char)}
    (h : AreMembers entries members) : ∀ member ∈ members, ∃ c t, member = c :: t ∧ c = '"' := by
  induction h with
  | nil => exact fun _ hmember => absurd hmember List.not_mem_nil
  | cons hmember _ ih =>
    rw [List.forall_mem_cons]
    refine ⟨?_, ih⟩
    cases hmember with
    | member _ _ _ => exact ⟨_, _, rfl, rfl⟩

/-- A row of entries gathers in a draft up to the closing brace. -/
theorem readMembers_row {entries : List (String × List Char)} {members : List (List Char)}
    {row : List Char} (hrow : IsRow members row) (hmembers : AreMembers entries members)
    {draft last : δ} (h : Gathers fields draft entries last) {n : Nat} {isFirst : Bool}
    {s t rest : List Char} (hn : row.length < n) (hnext : nextKey isFirst s = .ok (true, t))
    (ht : '"' :: t = row ++ '\x7d' :: rest) :
    readMembers fields n isFirst draft s = .ok (last, '\x7d' :: rest) := by
  induction hrow generalizing entries draft n isFirst s t with
  | @last member gap hgap =>
    cases hmembers with
    | @cons e _ _ _ hmember hnil =>
      cases hnil
      cases h with
      | @cons _ next _ _ _ hreceives hnil =>
        cases hnil
        obtain ⟨c, u, hu, -⟩ := starts_of_mem_members (.cons hmember .nil) _ List.mem_cons_self
        rw [List.append_assoc] at ht
        rw [hu, List.length_append, List.length_cons] at hn
        obtain ⟨n, rfl⟩ := Nat.exists_eq_add_one_of_ne_zero (by omega : n ≠ 0)
        obtain ⟨n, rfl⟩ := Nat.exists_eq_add_one_of_ne_zero (by omega : n ≠ 0)
        rw [readMembers_receives hreceives hmember hnext ht
          ((Closes.cons (by decide) rest).spaced hgap)]
        apply readMembers_end
        rw [skipSpace_append hgap, skipSpace_cons (by decide)]
  | @cons member gap lead row members hgap hlead hrow ih =>
    cases hmembers with
    | @cons e _ entries _ hmember hlater =>
      cases h with
      | @cons _ next _ _ _ hreceives hgathers =>
        obtain ⟨c, u, hu, rfl⟩ := hrow.starts (starts_of_mem_members hlater)
        simp only [List.append_assoc, List.cons_append] at ht
        simp only [List.length_append, List.length_cons] at hn
        obtain ⟨n, rfl⟩ := Nat.exists_eq_add_one_of_ne_zero (by omega : n ≠ 0)
        rw [readMembers_receives hreceives hmember hnext ht
          ((Closes.cons (by decide) _).spaced hgap)]
        have hcomma : nextKey false (gap ++ ',' :: (lead ++ (row ++ '\x7d' :: rest))) =
            .ok (true, u ++ '\x7d' :: rest) := by
          apply nextKey_comma
          · rw [skipSpace_append hgap, skipSpace_cons (by decide)]
          · rw [skipSpace_append hlead, hu, List.cons_append, skipSpace_cons (by decide)]
        exact ih hlater hgathers (by omega) hcomma (by rw [hu, List.cons_append])

/-- The entries of an object gather in a draft up to the closing brace. -/
theorem readMembers_object {entries : List (String × List Char)} {text : List Char}
    (htext : IsObject entries text) {draft last : δ} (h : Gathers fields draft entries last)
    {n : Nat} {s rest : List Char} (hn : s.length < n) (hs : '\x7b' :: s = text ++ rest) :
    readMembers fields n true draft s = .ok (last, '\x7d' :: rest) := by
  cases htext with
  | object hmembers hbracketed =>
    cases hbracketed with
    | empty hgap =>
      cases hmembers
      cases h
      simp only [List.cons_append, List.append_assoc, List.nil_append, List.cons.injEq, true_and]
        at hs
      obtain ⟨n, rfl⟩ := Nat.exists_eq_add_one_of_ne_zero (Nat.ne_of_gt (Nat.zero_lt_of_lt hn))
      apply readMembers_end
      rw [hs, skipSpace_append hgap, skipSpace_cons (by decide)]
    | @row lead row members hlead hrow =>
      obtain ⟨c, u, hu, rfl⟩ := hrow.starts (starts_of_mem_members hmembers)
      simp only [List.cons_append, List.append_assoc, List.nil_append, List.cons.injEq, true_and]
        at hs
      have hfirst : nextKey true s = .ok (true, u ++ '\x7d' :: rest) := by
        apply nextKey_first
        rw [hs, skipSpace_append hlead, hu, List.cons_append, skipSpace_cons (by decide)]
      have hlength : row.length < n := by
        rw [hs] at hn
        simp only [List.length_append] at hn
        omega
      exact readMembers_row hrow hmembers h hlength hfirst (by rw [hu, List.cons_append])

/-- **A record is taken** from any text of an object whose entries gather in a draft of which
nothing is missing. -/
theorem takesText_of_gathers {r : Record δ α} {entries : List (String × List Char)}
    {text : List Char} (htext : IsObject entries text) {draft : δ}
    (h : Gathers r.fields r.blank entries draft) {a : α} (hbuild : r.build draft = .ok a) :
    TakesText r.read text a := by
  have hstarts : ∀ rest, ∃ s, text ++ rest = '\x7b' :: s := by
    intro rest
    cases htext with
    | object _ hbracketed => exact hbracketed.starts rest
  refine ⟨?_, ?_⟩
  · cases htext with
    | object _ hbracketed => exact hbracketed.opens (by decide)
  · intro s rest _ hs
    obtain ⟨t, ht⟩ := hstarts rest
    rw [ht] at hs
    unfold read
    rw [hs]
    show enclose closeObject (finish r.ofMembers
      (readMembers r.fields (t.length + 1) true r.blank t)) = .ok (a, rest)
    rw [readMembers_object htext h (Nat.lt_succ_self _) ht.symm, enclose_finish hbuild]

end Record

/-- A value is read from a text with nothing but blanks around that of the value. -/
theorem TakesText.readWhole {reader : Reader α} {v : List Char} {a : α} (h : TakesText reader v a)
    {text : String} {lead trail : List Char} (hlead : IsSpacing lead) (htrail : IsSpacing trail)
    (htext : text.toList = lead ++ (v ++ trail)) : readWhole reader text = .ok a := by
  have hread := h.reads (lead ++ (v ++ trail)) trail htrail.closes
    (by rw [skipSpace_append hlead, (h.opens.append trail).skipSpace])
  unfold Json.readWhole
  simp only [htext, hread, skipSpace_of_isSpacing htrail]

/-! ## Written objects -/

theorem spells_escapeChar (c : Char) {cs s : List Char} (h : Spells cs s) :
    Spells (c :: cs) (escapeChar c ++ s) := by
  rcases escapeChar_cases c with ⟨e, hwritten, hletter⟩ | ⟨hcontrol, hwritten⟩ |
    ⟨hwritten, hquote, hback, hcontrol⟩
  · rw [hwritten]
    exact .letter hletter h
  · obtain ⟨hleading, htrailing⟩ := isSurrogate_control hcontrol
    have hunit := Spells.unit (hexUnit?_control c.toNat hcontrol) hleading htrailing h
    rw [Char.ofNat_toNat] at hunit
    rw [hwritten]
    exact hunit
  · rw [hwritten]
    exact .plain hquote hback hcontrol h

theorem spells_written (s : List Char) : Spells s (s.flatMap escapeChar) := by
  induction s with
  | nil => exact .nil
  | cons c s ih => exact spells_escapeChar c ih

theorem textOf_null (depth : Nat) : TextOf .null (Tree.null.print depth) := by
  rw [Tree.print_null]
  exact .null

theorem textOf_boolean (b : Bool) (depth : Nat) :
    TextOf (.boolean b) ((Tree.boolean b).print depth) := by
  rw [Tree.print_boolean]
  cases b with
  | false => exact .false
  | true => exact .true

theorem textOf_natural (n depth : Nat) : TextOf (.natural n) ((Tree.natural n).print depth) := by
  rw [Tree.natural, Tree.print_number]
  exact .natural n

theorem textOf_string (s : String) (depth : Nat) :
    TextOf (.string s) ((Tree.string s).print depth) := by
  rw [Tree.print_string]
  exact .string (spells_written s.toList)

theorem isSpacing_newLine (depth : Nat) : IsSpacing (newLine depth) := by
  intro c hc
  rcases List.mem_cons.1 hc with rfl | hc
  · rfl
  · rw [List.eq_of_mem_replicate hc]
    rfl

/-- A member as it is written. -/
def writtenMember (depth : Nat) (m : String × Tree) : List Char := '"' :: memberText depth m.1 m.2

theorem isMember_written (depth : Nat) (m : String × Tree) :
    IsMember (Spells m.1.toList) (m.2.print depth) (writtenMember depth m) :=
  .member (spells_written m.1.toList) (List.forall_mem_nil _)
    (List.forall_mem_singleton.2 rfl : IsSpacing [' '])

theorem isRow_written (depth outer : Nat) (m : String × Tree) (ms : List (String × Tree)) :
    IsRow ((m :: ms).map (writtenMember depth))
      (writtenMember depth m ++ (Tree.printMembers depth ms ++ newLine outer)) := by
  induction ms generalizing m with
  | nil =>
    rw [Tree.printMembers_nil, List.nil_append]
    exact .last (isSpacing_newLine outer)
  | cons next ms ih =>
    rw [printMembers_cons]
    have hrow : IsRow (writtenMember depth m :: (next :: ms).map (writtenMember depth))
        (writtenMember depth m ++ ([] ++ ',' :: (newLine depth ++
          (writtenMember depth next ++ (Tree.printMembers depth ms ++ newLine outer))))) :=
      .cons (List.forall_mem_nil _) (isSpacing_newLine depth) (ih next)
    simpa [writtenMember] using hrow

/-- The written form of an object is a text of it. -/
theorem isObject_print (ms : List (String × Tree)) (depth : Nat) :
    IsObject (ms.map fun m => (m.1, m.2.print (depth + 1))) ((Tree.object ms).print depth) := by
  have hmembers : AreMembers (ms.map fun m => (m.1, m.2.print (depth + 1)))
      (ms.map (writtenMember (depth + 1))) := by
    unfold AreMembers
    rw [List.forall₂_map_left_iff, List.forall₂_map_right_iff, List.forall₂_same]
    exact fun m _ => isMember_written (depth + 1) m
  refine .object hmembers ?_
  cases ms with
  | nil =>
    rw [Tree.print_object_nil]
    exact .empty (List.forall_mem_nil _)
  | cons m ms =>
    have hrow : Bracketed '\x7b' '\x7d' ((m :: ms).map (writtenMember (depth + 1))) _ :=
      .row (isSpacing_newLine (depth + 1)) (isRow_written (depth + 1) depth m ms)
    rw [print_object_cons]
    simpa [writtenMember] using hrow

end FleetSearch.Json
