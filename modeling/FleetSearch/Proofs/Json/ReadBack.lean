/-
# FleetSearch.Proofs.Json.ReadBack -- reading the trees that are written

A reader **reads a tree back** as a value if it takes the written form of the tree, at any depth
and behind any blanks, for that value and leaves the text after it (`ReadsBack`). Strings and labels
are read back, a list is if each of its items is (`readsBack_list`), and a record is if its members
fill a draft one by one and nothing is missing then (`Record.readsBack`).
-/

import FleetSearch.Json.Record
import FleetSearch.Proofs.Json.StringText
import Mathlib.Data.List.Forall2

namespace FleetSearch.Json

variable {α δ : Type}

/-! ## Written trees -/

namespace Tree

variable (depth : Nat)

theorem print_null : null.print depth = "null".toList := rfl

theorem print_boolean (b : Bool) :
    (boolean b).print depth = if b then "true".toList else "false".toList := rfl

theorem print_number (n : Number) : (number n).print depth = n.text := rfl

theorem print_string (s : String) : (string s).print depth = stringText s := rfl

theorem print_list_nil : (list []).print depth = "[]".toList := rfl

theorem print_list_cons (t : Tree) (ts : List Tree) :
    (list (t :: ts)).print depth =
      '[' :: newLine (depth + 1) ++ t.print (depth + 1) ++ printItems (depth + 1) ts ++
        newLine depth ++ [']'] := rfl

theorem print_object_nil : (object []).print depth = "\x7b\x7d".toList := rfl

theorem printItems_nil : printItems depth [] = [] := rfl

theorem printItems_cons (t : Tree) (ts : List Tree) :
    printItems depth (t :: ts) = ',' :: newLine depth ++ t.print depth ++ printItems depth ts := rfl

theorem printMembers_nil : printMembers depth [] = [] := rfl

end Tree

/-! ## Written values -/

/-- What stands behind a written value: nothing, a comma, or the end of the line. -/
def EndsValue (rest : List Char) : Prop :=
  rest = [] ∨ (∃ t, rest = ',' :: t) ∨ ∃ t, rest = '\n' :: t

/-- The reader takes the written form of the tree for the value. -/
structure ReadsBack (reader : Reader α) (t : Tree) (a : α) : Prop where
  starts : ∀ depth, ∃ c s, t.print depth = c :: s ∧ isSpace c = false ∧ c ≠ ']'
  reads : ∀ depth s rest, EndsValue rest → skipSpace s = t.print depth ++ rest →
    reader s = .ok (a, rest)

theorem skipSpace_cons {c : Char} {s : List Char} (h : isSpace c = false) :
    skipSpace (c :: s) = c :: s :=
  List.dropWhile_cons_of_neg (by simp [h])

theorem skipSpace_newLine (depth : Nat) (s : List Char) :
    skipSpace (newLine depth ++ s) = skipSpace s := by
  have hblank : ∀ c ∈ newLine depth, isSpace c = true := by
    intro c hc
    rcases List.mem_cons.1 hc with rfl | hc
    · rfl
    · rw [List.eq_of_mem_replicate hc]
      rfl
  exact List.dropWhile_append_of_pos hblank

/-- A written value starts with no blank. -/
theorem ReadsBack.skipSpace_print {reader : Reader α} {t : Tree} {a : α}
    (h : ReadsBack reader t a) (depth : Nat) (rest : List Char) :
    skipSpace (t.print depth ++ rest) = t.print depth ++ rest := by
  obtain ⟨c, s, hprint, hc, -⟩ := h.starts depth
  rw [hprint]
  exact skipSpace_cons hc

/-- A value that a reader reads back is read from the written form of its tree, with nothing but
blanks behind it. -/
theorem ReadsBack.readWhole_print {reader : Reader α} {t : Tree} {a : α}
    (h : ReadsBack reader t a) {text : String} {rest : List Char}
    (htext : text.toList = t.print 0 ++ rest) (hrest : EndsValue rest)
    (hblank : skipSpace rest = []) : readWhole reader text = .ok a := by
  have hread : reader (t.print 0 ++ rest) = .ok (a, rest) :=
    h.reads 0 _ _ hrest (h.skipSpace_print 0 rest)
  unfold readWhole
  simp only [htext, hread, hblank]

theorem ReadsBack.readWhole_pretty {reader : Reader α} {t : Tree} {a : α}
    (h : ReadsBack reader t a) : readWhole reader t.pretty = .ok a := by
  refine h.readWhole_print ?_ (.inl rfl) rfl
  rw [Tree.pretty, String.toList_ofList, List.append_nil]

/-- The written form of a tree may be a line, or several. -/
theorem ReadsBack.readWhole_lines {reader : Reader α} {t : Tree} {a : α}
    (h : ReadsBack reader t a) : readWhole reader (t.pretty ++ "\n") = .ok a := by
  refine h.readWhole_print ?_ (.inr (.inr ⟨[], rfl⟩)) rfl
  rw [Tree.pretty, String.toList_append, String.toList_ofList]
  rfl

/-- What a reader makes of a value that it reads back is read back. -/
theorem ReadsBack.map {β : Type} {reader : Reader α} {t : Tree} {a : α} (h : ReadsBack reader t a)
    (f : α → β) : ReadsBack (fun s => do let (a, rest) ← reader s; .ok (f a, rest)) t (f a) where
  starts := h.starts
  reads depth s rest hrest hs := by
    rw [h.reads depth s rest hrest hs]
    rfl

/-! ## Strings and labels -/

theorem string_starts (s : String) (depth : Nat) :
    ∃ c t, (Tree.string s).print depth = c :: t ∧ isSpace c = false ∧ c ≠ ']' := by
  rw [Tree.print_string]
  exact ⟨'"', _, rfl, by decide, by decide⟩

/-- A text is read back from a string. -/
theorem readsBack_text (expected s : String) : ReadsBack (readText expected) (.string s) s where
  starts := string_starts s
  reads depth u rest _ hu := by
    rw [Tree.print_string, stringText_append] at hu
    unfold readText
    rw [hu]
    exact readString_written s rest

/-- A value is read back from its label if its label is that of no value before it. -/
theorem readsBack_label {values : List α} {label : α → String} {a : α}
    (h : ofLabel values label (label a) = .ok a) :
    ReadsBack (readLabel values label) (.string (label a)) a where
  starts := string_starts (label a)
  reads depth u rest _ hu := by
    rw [Tree.print_string, stringText_append] at hu
    unfold readLabel
    rw [hu]
    show readLabelText values label _ = _
    unfold readLabelText
    rw [readString_written]
    simp only [bind, Except.bind, h]

/-! ## Lists -/

/-- Behind an item stands a comma or the end of its line. -/
theorem endsValue_items (depth outer : Nat) (ts : List Tree) (rest : List Char) :
    EndsValue (Tree.printItems depth ts ++ (newLine outer ++ rest)) := by
  cases ts with
  | nil =>
    rw [Tree.printItems_nil]
    exact .inr (.inr ⟨_, rfl⟩)
  | cons t ts =>
    rw [Tree.printItems_cons]
    exact .inr (.inl ⟨_, rfl⟩)

theorem length_le_printItems (depth : Nat) (ts : List Tree) :
    ts.length ≤ (Tree.printItems depth ts).length := by
  induction ts with
  | nil => exact Nat.zero_le _
  | cons t ts ih =>
    rw [Tree.printItems_cons]
    simp only [List.length_cons, List.length_append]
    omega

theorem nextItem_end {isFirst : Bool} {s t : List Char} (h : skipSpace s = ']' :: t) :
    nextItem isFirst s = .ok (false, ']' :: t) := by
  unfold nextItem
  simp only [h]

theorem nextItem_first {s t : List Char} {c : Char} (h : skipSpace s = c :: t) (hc : c ≠ ']') :
    nextItem true s = .ok (true, c :: t) := by
  unfold nextItem
  simp only [h, if_true]

theorem nextItem_comma {s t u : List Char} {c : Char} (h : skipSpace s = ',' :: u)
    (hu : skipSpace u = c :: t) (hc : c ≠ ']') : nextItem false s = .ok (true, c :: t) := by
  unfold nextItem
  simp [h, hu, hc]

/-- Going to an item that is read back leaves its written form. -/
theorem ReadsBack.nextItem_first {item : Reader α} {t : Tree} {a : α} (h : ReadsBack item t a)
    (depth : Nat) (rest : List Char) :
    nextItem true (newLine depth ++ (t.print depth ++ rest)) =
      .ok (true, t.print depth ++ rest) := by
  have hskip := h.skipSpace_print depth rest
  obtain ⟨c, s, hprint, -, hc⟩ := h.starts depth
  rw [hprint, List.cons_append] at hskip ⊢
  exact Json.nextItem_first (by rw [skipSpace_newLine, hskip]) hc

theorem ReadsBack.nextItem_comma {item : Reader α} {t : Tree} {a : α} (h : ReadsBack item t a)
    (depth : Nat) (rest : List Char) :
    nextItem false (',' :: (newLine depth ++ (t.print depth ++ rest))) =
      .ok (true, t.print depth ++ rest) := by
  have hskip := h.skipSpace_print depth rest
  obtain ⟨c, s, hprint, -, hc⟩ := h.starts depth
  rw [hprint, List.cons_append] at hskip ⊢
  exact Json.nextItem_comma (skipSpace_cons (by decide)) (by rw [skipSpace_newLine, hskip]) hc

/-- An item that is read back is read, and the items behind it follow. -/
theorem ReadsBack.readItems_step {item : Reader α} {t : Tree} {a : α} (h : ReadsBack item t a)
    {n depth : Nat} {isFirst : Bool} {s rest tail : List Char} {as : List α}
    (hnext : nextItem isFirst s = .ok (true, t.print depth ++ rest)) (hrest : EndsValue rest)
    (has : readItems item n false rest = .ok (as, tail)) :
    readItems item (n + 1) isFirst s = .ok (a :: as, tail) := by
  have hread := h.reads depth _ rest hrest (h.skipSpace_print depth rest)
  rw [readItems]
  simp only [bind, Except.bind, hnext, if_true, hread, has]

theorem readItems_end {item : Reader α} {n : Nat} {isFirst : Bool} {s t : List Char}
    (h : skipSpace s = ']' :: t) : readItems item (n + 1) isFirst s = .ok ([], ']' :: t) := by
  rw [readItems]
  simp only [bind, Except.bind, nextItem_end h, Bool.false_eq_true, if_false]

/-- The items behind the first are read back up to the closing bracket. -/
theorem readItems_printItems {item : Reader α} {ts : List Tree} {as : List α}
    (h : List.Forall₂ (ReadsBack item) ts as) (depth outer : Nat) (rest : List Char) {n : Nat}
    (hn : ts.length < n) :
    readItems item n false (Tree.printItems depth ts ++ (newLine outer ++ ']' :: rest)) =
      .ok (as, ']' :: rest) := by
  obtain ⟨n, rfl⟩ := Nat.exists_eq_add_one_of_ne_zero (Nat.ne_of_gt (Nat.zero_lt_of_lt hn))
  induction h generalizing n with
  | nil =>
    apply readItems_end
    rw [Tree.printItems_nil, List.nil_append, skipSpace_newLine]
    exact skipSpace_cons (by decide)
  | @cons t a ts as hitem _ ih =>
    have hlater := Nat.lt_of_succ_lt_succ hn
    obtain ⟨n, rfl⟩ := Nat.exists_eq_add_one_of_ne_zero (Nat.ne_of_gt (Nat.zero_lt_of_lt hlater))
    rw [Tree.printItems_cons]
    simp only [List.cons_append, List.append_assoc]
    exact hitem.readItems_step (hitem.nextItem_comma depth _) (endsValue_items depth outer ts _)
      (ih n hlater)

theorem enclose_closeList (as : List α) (rest : List Char) :
    enclose closeList (.ok (as, ']' :: rest)) = .ok (as, rest) := by
  have hskip : skipSpace (']' :: rest) = ']' :: rest := skipSpace_cons (by decide)
  unfold enclose closeList
  simp only [hskip]

theorem list_print (ts : List Tree) (depth : Nat) :
    ∃ s, (Tree.list ts).print depth = '[' :: s := by
  cases ts with
  | nil =>
    rw [Tree.print_list_nil]
    exact ⟨_, rfl⟩
  | cons t ts =>
    rw [Tree.print_list_cons]
    exact ⟨_, rfl⟩

/-- **A list is read back** if its items are. -/
theorem readsBack_list {item : Reader α} {ts : List Tree} {as : List α}
    (h : List.Forall₂ (ReadsBack item) ts as) : ReadsBack (readListOf item) (.list ts) as where
  starts depth := by
    obtain ⟨s, hs⟩ := list_print ts depth
    exact ⟨'[', s, hs, by decide, by decide⟩
  reads depth u rest _ hu := by
    cases h with
    | nil =>
      rw [Tree.print_list_nil] at hu
      unfold readListOf
      rw [hu]
      show enclose closeList (readItems item _ true (']' :: rest)) = .ok ([], rest)
      rw [readItems_end (skipSpace_cons (by decide)), enclose_closeList]
    | @cons t a ts as hitem hitems =>
      rw [Tree.print_list_cons] at hu
      simp only [List.cons_append, List.append_assoc, List.nil_append] at hu
      unfold readListOf
      rw [hu]
      show enclose closeList (readItems item _ true _) = .ok (a :: as, rest)
      have hlength := length_le_printItems (depth + 1) ts
      rw [hitem.readItems_step (hitem.nextItem_first _ _) (endsValue_items _ _ _ _)
        (readItems_printItems hitems _ _ _ ?bound), enclose_closeList]
      case bound =>
        simp only [newLine, List.length_append, List.length_cons]
        omega

/-! ## Records -/

theorem nextKey_end {isFirst : Bool} {s t : List Char} (h : skipSpace s = '\x7d' :: t) :
    nextKey isFirst s = .ok (false, '\x7d' :: t) := by
  unfold nextKey
  simp only [h]

theorem nextKey_first {s t : List Char} (h : skipSpace s = '"' :: t) :
    nextKey true s = .ok (true, t) := by
  unfold nextKey
  simp [h]

theorem nextKey_comma {s t u : List Char} (h : skipSpace s = ',' :: u)
    (hu : skipSpace u = '"' :: t) : nextKey false s = .ok (true, t) := by
  unfold nextKey
  simp [h, hu]

/-- The text of a member from behind the opening quote of its key. -/
def memberText (depth : Nat) (key : String) (t : Tree) : List Char :=
  key.toList.flatMap escapeChar ++ '"' :: ':' :: ' ' :: t.print depth

theorem printMembers_cons (depth : Nat) (key : String) (t : Tree) (ms : List (String × Tree)) :
    Tree.printMembers depth ((key, t) :: ms) =
      ',' :: (newLine depth ++ '"' :: (memberText depth key t ++ Tree.printMembers depth ms)) := by
  show ',' :: newLine depth ++ stringText key ++ ": ".toList ++ t.print depth ++
    Tree.printMembers depth ms = _
  rw [List.append_assoc, List.append_assoc, List.append_assoc, List.cons_append,
    stringText_append]
  unfold memberText
  simp only [List.append_assoc, List.cons_append]
  rfl

/-- Behind a member stands a comma or the end of its line. -/
theorem endsValue_members (depth outer : Nat) (ms : List (String × Tree)) (rest : List Char) :
    EndsValue (Tree.printMembers depth ms ++ (newLine outer ++ rest)) := by
  cases ms with
  | nil =>
    rw [Tree.printMembers_nil]
    exact .inr (.inr ⟨_, rfl⟩)
  | cons m ms =>
    rw [printMembers_cons]
    exact .inr (.inl ⟨_, rfl⟩)

theorem length_le_printMembers (depth : Nat) (ms : List (String × Tree)) :
    ms.length ≤ (Tree.printMembers depth ms).length := by
  induction ms with
  | nil => exact Nat.zero_le _
  | cons m ms ih =>
    rw [printMembers_cons]
    simp only [List.length_cons, List.length_append]
    omega

theorem print_object_cons (depth : Nat) (key : String) (t : Tree) (ms : List (String × Tree)) :
    (Tree.object ((key, t) :: ms)).print depth =
      '\x7b' :: (newLine (depth + 1) ++ '"' :: (memberText (depth + 1) key t ++
        (Tree.printMembers (depth + 1) ms ++ (newLine depth ++ ['\x7d'])))) := by
  show '\x7b' :: newLine (depth + 1) ++ stringText key ++ ": ".toList ++ t.print (depth + 1) ++
    Tree.printMembers (depth + 1) ms ++ newLine depth ++ ['\x7d'] = _
  simp only [List.append_assoc, List.cons_append, stringText_append]
  unfold memberText
  simp only [List.append_assoc, List.cons_append]
  rfl

theorem readString_memberText (depth : Nat) (key : String) (t : Tree) (rest : List Char) :
    readString (memberText depth key t ++ rest) =
      .ok (key, ':' :: ' ' :: (t.print depth ++ rest)) := by
  unfold memberText
  rw [List.append_assoc]
  exact readString_written key _

/-- Going to a member leaves it from behind the opening quote of its key. -/
theorem nextKey_newLine_first (depth : Nat) (s : List Char) :
    nextKey true (newLine depth ++ '"' :: s) = .ok (true, s) := by
  apply nextKey_first
  rw [skipSpace_newLine]
  exact skipSpace_cons (by decide)

theorem nextKey_newLine_comma (depth : Nat) (s : List Char) :
    nextKey false (',' :: (newLine depth ++ '"' :: s)) = .ok (true, s) := by
  apply nextKey_comma (skipSpace_cons (by decide))
  rw [skipSpace_newLine]
  exact skipSpace_cons (by decide)

theorem enclose_closeObject (a : α) (rest : List Char) :
    enclose closeObject (.ok (a, '\x7d' :: rest)) = .ok (a, rest) := by
  have hskip : skipSpace ('\x7d' :: rest) = '\x7d' :: rest := skipSpace_cons (by decide)
  unfold enclose closeObject
  simp only [hskip]

theorem object_print (ms : List (String × Tree)) (depth : Nat) :
    ∃ s, (Tree.object ms).print depth = '\x7b' :: s := by
  cases ms with
  | nil =>
    rw [Tree.print_object_nil]
    exact ⟨_, rfl⟩
  | cons m ms =>
    rw [print_object_cons]
    exact ⟨_, rfl⟩

theorem object_starts (ms : List (String × Tree)) (depth : Nat) :
    ∃ c s, (Tree.object ms).print depth = c :: s ∧ isSpace c = false ∧ c ≠ ']' := by
  obtain ⟨s, hs⟩ := object_print ms depth
  exact ⟨'\x7b', s, hs, by decide, by decide⟩

/-- Reading the members one after another turns the first draft into the last: each key is that of a
field which the draft does not have yet, and the field reads the value back. -/
inductive Fills (fields : List (Field δ)) : δ → List (String × Tree) → δ → Prop
  | nil (draft : δ) : Fills fields draft [] draft
  | cons {draft next last : δ} {field : Field δ} {key : String} {t : Tree}
      {ms : List (String × Tree)} :
      (fields.find? fun field => field.name == key) = some field →
      field.isGiven draft = false → ReadsBack (field.read draft) t next →
      Fills fields next ms last → Fills fields draft ((key, t) :: ms) last

/-- A field that is kept in a part of the draft is read back into it. -/
theorem ReadsBack.field {value : Reader α} {t : Tree} {a : α} (h : ReadsBack value t a)
    (name : String) (get : δ → Option α) (set : δ → α → δ) (draft : δ) :
    ReadsBack ((Field.of name get set value).read draft) t (set draft a) where
  starts := h.starts
  reads depth s rest hrest hs := by
    unfold Field.of
    simp only [h.reads depth s rest hrest hs]

namespace Record

/-- A member whose field reads its value back is read, and the members behind it follow. -/
theorem readMembers_step {fields : List (Field δ)} {field : Field δ} {draft next last : δ}
    {key : String} {t : Tree}
    (hfind : (fields.find? fun field => field.name == key) = some field)
    (hgiven : field.isGiven draft = false) (h : ReadsBack (field.read draft) t next)
    {n depth : Nat} {isFirst : Bool} {s rest tail : List Char}
    (hnext : nextKey isFirst s = .ok (true, memberText depth key t ++ rest))
    (hrest : EndsValue rest) (hms : readMembers fields n false next rest = .ok (last, tail)) :
    readMembers fields (n + 1) isFirst draft s = .ok (last, tail) := by
  have hkey := readString_memberText depth key t rest
  have hvalue : field.read draft (' ' :: (t.print depth ++ rest)) = .ok (next, rest) :=
    h.reads depth _ rest hrest (h.skipSpace_print depth rest)
  have hmember : readMember fields key draft (':' :: ' ' :: (t.print depth ++ rest)) =
      .ok (next, rest) := by
    unfold readMember
    simp only [hfind, hgiven, Bool.false_eq_true, if_false]
    exact hvalue
  rw [readMembers]
  simp only [bind, Except.bind, hnext, if_true, hkey, hmember, hms]

theorem readMembers_end {fields : List (Field δ)} {draft : δ} {n : Nat} {isFirst : Bool}
    {s t : List Char} (h : skipSpace s = '\x7d' :: t) :
    readMembers fields (n + 1) isFirst draft s = .ok (draft, '\x7d' :: t) := by
  rw [readMembers]
  simp only [bind, Except.bind, nextKey_end h, Bool.false_eq_true, if_false]

/-- The members behind the first fill the draft up to the closing brace. -/
theorem readMembers_printMembers {fields : List (Field δ)} {draft last : δ}
    {ms : List (String × Tree)} (h : Fills fields draft ms last) (depth outer : Nat)
    (rest : List Char) {n : Nat} (hn : ms.length < n) :
    readMembers fields n false draft
        (Tree.printMembers depth ms ++ (newLine outer ++ '\x7d' :: rest)) =
      .ok (last, '\x7d' :: rest) := by
  obtain ⟨n, rfl⟩ := Nat.exists_eq_add_one_of_ne_zero (Nat.ne_of_gt (Nat.zero_lt_of_lt hn))
  induction h generalizing n with
  | nil =>
    apply readMembers_end
    rw [Tree.printMembers_nil, List.nil_append, skipSpace_newLine]
    exact skipSpace_cons (by decide)
  | @cons draft next last field key t ms hfind hgiven hfield _ ih =>
    have hlater := Nat.lt_of_succ_lt_succ hn
    obtain ⟨n, rfl⟩ := Nat.exists_eq_add_one_of_ne_zero (Nat.ne_of_gt (Nat.zero_lt_of_lt hlater))
    rw [printMembers_cons]
    simp only [List.cons_append, List.append_assoc]
    exact readMembers_step hfind hgiven hfield (nextKey_newLine_comma depth _)
      (endsValue_members depth outer ms _) (ih n hlater)

/-- A record is read from a draft that was read up to the closing brace, if nothing is missing. -/
theorem enclose_finish {r : Record δ α} {draft : δ} {a : α} (hbuild : r.build draft = .ok a)
    (rest : List Char) :
    enclose closeObject (finish r.ofMembers (.ok (draft, '\x7d' :: rest))) = .ok (a, rest) := by
  have hmembers : r.ofMembers draft = .ok a := by
    unfold ofMembers
    rw [hbuild]
    rfl
  unfold finish
  simp only [hmembers]
  exact enclose_closeObject a rest

/-- **A record is read back** if its members fill a draft of which nothing is missing. -/
theorem readsBack {r : Record δ α} {ms : List (String × Tree)} {draft : δ} {a : α}
    (h : Fills r.fields r.blank ms draft) (hbuild : r.build draft = .ok a) :
    ReadsBack r.read (.object ms) a where
  starts := object_starts ms
  reads depth u rest _ hu := by
    cases h with
    | nil =>
      rw [Tree.print_object_nil] at hu
      unfold read
      rw [hu]
      show enclose closeObject (finish r.ofMembers
        (readMembers r.fields _ true r.blank ('\x7d' :: rest))) = .ok (a, rest)
      rw [readMembers_end (skipSpace_cons (by decide)), enclose_finish hbuild]
    | @cons _ next _ field key t ms hfind hgiven hfield hfills =>
      have hlength := length_le_printMembers (depth + 1) ms
      rw [print_object_cons] at hu
      simp only [List.cons_append, List.append_assoc, List.nil_append] at hu
      unfold read
      rw [hu]
      show enclose closeObject (finish r.ofMembers
        (readMembers r.fields _ true r.blank _)) = .ok (a, rest)
      rw [readMembers_step hfind hgiven hfield (nextKey_newLine_first _ _)
        (endsValue_members _ _ _ _)
        (readMembers_printMembers hfills _ _ _ ?bound), enclose_finish hbuild]
      case bound =>
        simp only [newLine, List.length_append, List.length_cons]
        omega

end Record

end FleetSearch.Json
