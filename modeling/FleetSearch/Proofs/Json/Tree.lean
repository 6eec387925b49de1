/-
# FleetSearch.Proofs.Json.Tree -- reading back trees of any shape

A tree is **simple** if its numbers are natural and fit in 64 bits, and its lists and objects are
nested at most so deep (`Tree.IsSimple`). A simple tree is read back as itself, with its members in
order (`Tree.IsSimple.readsBack`). On the way in, a text holds no more items or members than it has
characters (`Tree.width_le_of_read`).
-/

import FleetSearch.Proofs.Json.Numeral

namespace FleetSearch.Json.Tree

/-! ## Plain values -/

section

variable {list object : Reader Tree}

theorem readsBack_null : ReadsBack (readWith list object) .null .null where
  starts depth := ⟨'n', _, by rw [print_null]; rfl, by decide, by decide⟩
  reads depth s rest _ hs := by
    unfold readWith
    rw [hs, print_null]
    rfl

theorem readsBack_boolean (b : Bool) :
    ReadsBack (readWith list object) (.boolean b) (.boolean b) where
  starts := (readsBack_bool b).starts
  reads depth s rest _ hs := by
    unfold readWith
    rw [hs, print_boolean]
    cases b with
    | false => rfl
    | true => rfl

theorem readsBack_string (t : String) :
    ReadsBack (readWith list object) (.string t) (.string t) where
  starts := string_starts t
  reads depth s rest _ hs := by
    rw [print_string, stringText_append] at hs
    unfold readWith
    rw [hs]
    show readAs .string (readString _) = _
    rw [readString_written]
    rfl

theorem readsBack_natural {n : Nat} (hn : n < wordLimit) :
    ReadsBack (readWith list object) (natural n) (natural n) where
  starts := natural_starts n
  reads depth s rest hrest hs := by
    obtain ⟨c, t, hskip, hc, hread⟩ := readNumber_behind hn hrest hs
    have hstarts : startsDigit (c :: t) = true := hc
    have hother : ∀ d : Char, d.isDigit = false → c ≠ d := fun d hd => ne_of_isDigit hc hd
    unfold readWith
    simp [hskip, hother 'n' rfl, hother 't' rfl, hother 'f' rfl, hother '-' rfl, hother '"' rfl,
      hother '[' rfl, hother '\x7b' rfl, hstarts, hread, readAs, natural]

end

/-! ## Lists and objects -/

section

variable {value : Reader Tree}

/-- A list of trees is read back if each of them is. -/
theorem readsBack_items {object : Reader Tree} {ts : List Tree}
    (h : ∀ t ∈ ts, ReadsBack value t t) :
    ReadsBack (readWith (readList value) object) (.list ts) (.list ts) where
  starts := (readsBack_list (List.forall₂_same.2 h)).starts
  reads depth s rest hrest hs := by
    have hread := (readsBack_list (List.forall₂_same.2 h)).reads depth s rest hrest hs
    obtain ⟨u, hprint⟩ := list_print ts depth
    rw [hprint, List.cons_append] at hs
    unfold readListOf at hread
    unfold readWith
    rw [hs] at hread ⊢
    exact congrArg (readAs .list) hread

/-- A member whose value is read back is read, and the members behind it follow. -/
theorem readMembers_step {key : String} {t : Tree} (h : ReadsBack value t t) {n depth : Nat}
    {isFirst : Bool} {s rest tail : List Char} {ms : List (String × Tree)}
    (hnext : nextKey isFirst s = .ok (true, memberText depth key t ++ rest))
    (hrest : EndsValue rest) (hms : readMembers value n false rest = .ok (ms, tail)) :
    readMembers value (n + 1) isFirst s = .ok ((key, t) :: ms, tail) := by
  have hkey := readString_memberText depth key t rest
  have hcolon : readColon (':' :: ' ' :: (t.print depth ++ rest)) =
      .ok (' ' :: (t.print depth ++ rest)) := rfl
  have hvalue : value (' ' :: (t.print depth ++ rest)) = .ok (t, rest) :=
    h.reads depth _ rest hrest (h.skipSpace_print depth rest)
  rw [readMembers]
  simp only [bind, Except.bind, hnext, if_true, hkey, hcolon, hvalue, hms]

theorem readMembers_end {n : Nat} {isFirst : Bool} {s t : List Char}
    (h : skipSpace s = '\x7d' :: t) :
    readMembers value (n + 1) isFirst s = .ok ([], '\x7d' :: t) := by
  rw [readMembers]
  simp only [bind, Except.bind, nextKey_end h, Bool.false_eq_true, if_false]

/-- The members behind the first are read back up to the closing brace. -/
theorem readMembers_printMembers {ms : List (String × Tree)}
    (h : ∀ m ∈ ms, ReadsBack value m.2 m.2) (depth outer : Nat) (rest : List Char) {n : Nat}
    (hn : ms.length < n) :
    readMembers value n false (printMembers depth ms ++ (newLine outer ++ '\x7d' :: rest)) =
      .ok (ms, '\x7d' :: rest) := by
  induction ms generalizing n with
  | nil =>
    obtain ⟨n, rfl⟩ := Nat.exists_eq_add_one_of_ne_zero (Nat.ne_of_gt hn)
    apply readMembers_end
    rw [printMembers_nil, List.nil_append, skipSpace_newLine]
    exact skipSpace_cons (by decide)
  | cons m ms ih =>
    obtain ⟨n, rfl⟩ := Nat.exists_eq_add_one_of_ne_zero (Nat.ne_of_gt (Nat.zero_lt_of_lt hn))
    obtain ⟨hfirst, hlater⟩ := List.forall_mem_cons.1 h
    rw [printMembers_cons]
    simp only [List.cons_append, List.append_assoc]
    exact readMembers_step hfirst (nextKey_newLine_comma depth _)
      (endsValue_members depth outer ms _) (ih hlater (Nat.lt_of_succ_lt_succ hn))

/-- An object of trees is read back if each of them is. -/
theorem readsBack_members {list : Reader Tree} {ms : List (String × Tree)}
    (h : ∀ m ∈ ms, ReadsBack value m.2 m.2) :
    ReadsBack (readWith list (readObject value)) (.object ms) (.object ms) where
  starts := object_starts ms
  reads depth s rest _ hs := by
    suffices hmembers : ∃ u, skipSpace s = '\x7b' :: u ∧
        readMembers value (u.length + 1) true u = .ok (ms, '\x7d' :: rest) by
      obtain ⟨u, hu, hread⟩ := hmembers
      unfold readWith
      rw [hu]
      show readAs .object (enclose closeObject (readMembers value (u.length + 1) true u)) = _
      rw [hread, enclose_closeObject]
      rfl
    cases ms with
    | nil =>
      rw [print_object_nil] at hs
      exact ⟨_, hs, readMembers_end (skipSpace_cons (by decide))⟩
    | cons m ms =>
      obtain ⟨hfirst, hlater⟩ := List.forall_mem_cons.1 h
      have hlength := length_le_printMembers (depth + 1) ms
      rw [print_object_cons] at hs
      simp only [List.cons_append, List.append_assoc, List.nil_append] at hs
      refine ⟨_, hs, readMembers_step hfirst (nextKey_newLine_first _ _) (endsValue_members _ _ _ _)
        (readMembers_printMembers hlater _ _ _ ?_)⟩
      simp only [newLine, List.length_append, List.length_cons]
      omega

end

/-! ## Simple trees -/

/-- The numbers of the tree are natural and fit in 64 bits, and its lists and objects are nested at
most so deep. -/
inductive IsSimple : Nat → Tree → Prop
  | null {depth : Nat} : IsSimple depth .null
  | boolean {depth : Nat} (b : Bool) : IsSimple depth (.boolean b)
  | natural {depth n : Nat} : n < wordLimit → IsSimple depth (.natural n)
  | string {depth : Nat} (s : String) : IsSimple depth (.string s)
  | list {depth : Nat} {ts : List Tree} :
      (∀ t ∈ ts, IsSimple depth t) → IsSimple (depth + 1) (.list ts)
  | object {depth : Nat} {ms : List (String × Tree)} :
      (∀ m ∈ ms, IsSimple depth m.2) → IsSimple (depth + 1) (.object ms)

/-- A plain value is read back at any depth. -/
theorem readsBack_atDepth {t : Tree} (h : ∀ list object, ReadsBack (readWith list object) t t)
    (depth : Nat) : ReadsBack (readNested depth) t t := by
  cases depth with
  | zero => exact h _ _
  | succ depth => exact h _ _

/-- **A simple tree is read back** as itself. -/
theorem IsSimple.readsBack {depth : Nat} {t : Tree} (h : IsSimple depth t) :
    ReadsBack (readNested depth) t t := by
  -- One case for each kind of tree; only lists and objects go one level down.
  induction h with
  | null => exact readsBack_atDepth (fun _ _ => readsBack_null) _
  | boolean b => exact readsBack_atDepth (fun _ _ => readsBack_boolean b) _
  | natural hn => exact readsBack_atDepth (fun _ _ => readsBack_natural hn) _
  | string s => exact readsBack_atDepth (fun _ _ => readsBack_string s) _
  | list _ ih => exact readsBack_items ih
  | object _ ih => exact readsBack_members ih

/-! ## Sizes -/

/-- How many items or members a tree has. -/
def width : Tree → Nat
  | .list items => items.length
  | .object members => members.length
  | _ => 0

section

variable {α β : Type}

theorem exists_of_bind {r : Except Halt α} {next : α → Except Halt β} {b : β}
    (h : r >>= next = .ok b) : ∃ a, r = .ok a ∧ next a = .ok b := by
  cases r with
  | error halt => cases h
  | ok a => exact ⟨a, rfl, h⟩

theorem exists_of_readAs {f : α → Tree} {r : Reading α} {t : Tree} {rest : List Char}
    (h : readAs f r = .ok (t, rest)) : ∃ a, r = .ok (a, rest) ∧ t = f a := by
  cases r with
  | error halt => cases h
  | ok result =>
    cases h
    exact ⟨_, rfl, rfl⟩

theorem exists_of_enclose {close : List Char → Except Halt Unit × List Char} {r : Reading α} {a : α}
    {rest : List Char} (h : enclose close r = .ok (a, rest)) : ∃ s, r = .ok (a, s) := by
  unfold enclose at h
  split at h
  · cases h
  · cases h
  · split at h
    · cases h
      exact ⟨_, rfl⟩
    · cases h

end

/-- There are fewer items than reading allows for. -/
theorem length_lt_of_readItems {value : Reader Tree} {n : Nat} {isFirst : Bool}
    {s rest : List Char} {ts : List Tree} (h : readItems value n isFirst s = .ok (ts, rest)) :
    ts.length < n := by
  induction n generalizing isFirst s ts rest with
  | zero => cases h
  | succ n ih =>
    rw [readItems] at h
    obtain ⟨⟨more, u⟩, -, h⟩ := exists_of_bind h
    cases more with
    | false =>
      cases h
      exact Nat.succ_pos n
    | true =>
      obtain ⟨⟨t, v⟩, -, h⟩ := exists_of_bind h
      obtain ⟨⟨later, w⟩, hlater, h⟩ := exists_of_bind h
      cases h
      exact Nat.succ_lt_succ (ih hlater)

theorem length_lt_of_readMembers {value : Reader Tree} {n : Nat} {isFirst : Bool}
    {s rest : List Char} {ms : List (String × Tree)}
    (h : readMembers value n isFirst s = .ok (ms, rest)) : ms.length < n := by
  induction n generalizing isFirst s ms rest with
  | zero => cases h
  | succ n ih =>
    rw [readMembers] at h
    obtain ⟨⟨more, u⟩, -, h⟩ := exists_of_bind h
    cases more with
    | false =>
      cases h
      exact Nat.succ_pos n
    | true =>
      obtain ⟨⟨key, v⟩, -, h⟩ := exists_of_bind h
      obtain ⟨w, -, h⟩ := exists_of_bind h
      obtain ⟨⟨t, x⟩, -, h⟩ := exists_of_bind h
      obtain ⟨⟨later, y⟩, hlater, h⟩ := exists_of_bind h
      cases h
      exact Nat.succ_lt_succ (ih hlater)

/-- A reader of lists and objects gives no more items or members than there are characters. -/
def KeepsWidth (reader : Reader Tree) : Prop :=
  ∀ s t rest, reader s = .ok (t, rest) → t.width ≤ s.length

theorem keepsWidth_readList (value : Reader Tree) : KeepsWidth (readList value) := by
  intro s t rest h
  obtain ⟨ts, hclosed, rfl⟩ := exists_of_readAs h
  obtain ⟨u, hitems⟩ := exists_of_enclose hclosed
  exact Nat.le_of_lt (length_lt_of_readItems hitems)

theorem keepsWidth_readObject (value : Reader Tree) : KeepsWidth (readObject value) := by
  intro s t rest h
  obtain ⟨ms, hclosed, rfl⟩ := exists_of_readAs h
  obtain ⟨u, hmembers⟩ := exists_of_enclose hclosed
  exact Nat.le_of_lt (length_lt_of_readMembers hmembers)

theorem KeepsWidth.readWith {list object : Reader Tree} (hlist : KeepsWidth list)
    (hobject : KeepsWidth object) : KeepsWidth (readWith list object) := by
  have hconstant : ∀ {c : Tree} {word u : List Char} {t : Tree} {rest : List Char}, c.width = 0 →
      readConstant c word u = .ok (t, rest) → t.width = 0 := by
    intro c word u t rest hc h
    unfold readConstant at h
    split at h
    · cases h
      exact hc
    · cases h
  intro s t rest h
  have hskip : (skipSpace s).length ≤ s.length := (List.dropWhile_sublist isSpace).length_le
  suffices hwidth : t.width ≤ (skipSpace s).length from Nat.le_trans hwidth hskip
  unfold Tree.readWith at h
  split at h
  · cases h
  · rw [hconstant rfl h]
    exact Nat.zero_le _
  · rw [hconstant rfl h]
    exact Nat.zero_le _
  · rw [hconstant rfl h]
    exact Nat.zero_le _
  · obtain ⟨n, -, rfl⟩ := exists_of_readAs h
    exact Nat.zero_le _
  · obtain ⟨n, -, rfl⟩ := exists_of_readAs h
    exact Nat.zero_le _
  · next heq =>
    rw [heq]
    exact hlist _ _ _ h
  · next heq =>
    rw [heq]
    exact hobject _ _ _ h
  · split at h
    · obtain ⟨n, -, rfl⟩ := exists_of_readAs h
      exact Nat.zero_le _
    · cases h

/-- **A text has no more items or members** than characters. -/
theorem width_le_of_read {s rest : List Char} {t : Tree} (h : read s = .ok (t, rest)) :
    t.width ≤ s.length :=
  KeepsWidth.readWith (keepsWidth_readList _) (keepsWidth_readObject _) s t rest h

end FleetSearch.Json.Tree
