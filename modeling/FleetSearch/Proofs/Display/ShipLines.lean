/-
# FleetSearch.Proofs.Display.ShipLines -- a listing of ships in columns

Each ship has a line of its own, put together from padded texts (`shipRow`). **Places and widths are
counted in characters.** A padded text that fits has exactly its width, so the next one begins at a
fixed place (`hasColumn_pad`), whatever the texts before it are. A column shows only one text that
does not end in a space (`HasColumn.unique`), and so a line tells what it shows of its ship
(`IsAligned.shown_eq`).

Texts that are wider than their column push the columns behind them to the right, but they are never
cut (`isComplete_shipRow`).
-/

import FleetSearch.Proofs.Display.Colors
import Mathlib.Data.List.DropRight
import Mathlib.Data.List.Forall2

namespace FleetSearch.Display

/-! ## Columns -/

/-- From the place `start` on, the next `width` characters of the line are `s` and behind it nothing
but spaces. -/
def HasColumn (line : List Char) (start width : Nat) (s : List Char) : Prop :=
  ∃ blanks, (line.drop start).take width = s ++ blanks ∧ ∀ c ∈ blanks, c = ' '

/-- A column shows only one text that does not end in a space. -/
theorem HasColumn.unique {line s t : List Char} {start width : Nat}
    (hs : HasColumn line start width s) (ht : HasColumn line start width t)
    (hslast : s.getLast? ≠ some ' ') (htlast : t.getLast? ≠ some ' ') : s = t := by
  have hcut : ∀ {w : List Char}, HasColumn line start width w → w.getLast? ≠ some ' ' →
      ((line.drop start).take width).rdropWhile (· == ' ') = w := by
    rintro w ⟨blanks, hw, hblanks⟩ hlast
    have hkept : w.rdropWhile (· == ' ') = w := by
      rw [List.rdropWhile_eq_self_iff]
      intro hne hspace
      rw [beq_iff_eq] at hspace
      exact hlast (hspace ▸ List.getLast?_eq_some_getLast hne)
    rw [hw, List.rdropWhile, List.reverse_append,
      List.dropWhile_append_of_pos (by simpa using hblanks)]
    exact hkept
  rw [← hcut hs hslast, hcut ht htlast]

theorem length_pad {width : Nat} {s : List Char} (h : s.length ≤ width) :
    (pad width s).length = width := by
  rw [pad, List.length_append, List.length_replicate]
  omega

/-- A padded text is a column where it begins, and the line goes on behind it. -/
theorem hasColumn_pad {line s rest : List Char} {start width : Nat}
    (hline : line.drop start = pad width s ++ rest) (hs : s.length ≤ width) :
    HasColumn line start width s ∧ line.drop (start + width) = rest := by
  constructor
  · refine ⟨List.replicate (width - s.length) ' ', ?_, fun c hc => List.eq_of_mem_replicate hc⟩
    rw [hline, List.take_left' (length_pad hs), pad]
  · rw [← List.drop_drop, hline, List.drop_left' (length_pad hs)]

/-- The space behind a padded text belongs to its column. -/
theorem hasColumn_pad_space {line s rest : List Char} {start width : Nat}
    (hline : line.drop start = pad width s ++ ' ' :: rest) (hs : s.length ≤ width) :
    HasColumn line start (width + 1) s ∧ line.drop (start + (width + 1)) = rest := by
  have hwider : pad width s ++ ' ' :: rest = pad (width + 1) s ++ rest := by
    rw [pad, pad, Nat.succ_sub hs, List.replicate_succ']
    simp
  exact hasColumn_pad (hline.trans hwider) (Nat.le_succ_of_le hs)

/-! ## Lines -/

/-- The text has no line break, no space at its end and at most `width` characters. -/
structure FitsColumn (width : Nat) (s : String) : Prop where
  noBreak : '\n' ∉ s.toList
  noSpace : s.toList.getLast? ≠ some ' '
  length_le : s.toList.length ≤ width

/-- The texts of the ship fit their columns. -/
structure FitsColumns (ship : Ship) : Prop where
  name : FitsColumn 24 ship.name
  type : FitsColumn 11 ship.type
  nation : FitsColumn 13 ship.nation

/-- The line has a column for each text of the ship and then its category. The first column is the
tier behind a "T". -/
structure IsAligned (line : List Char) (ship : Ship) : Prop where
  tier : HasColumn line 0 4 ('T' :: (Text.numeral ship.tier.toNat).toList)
  name : HasColumn line 4 25 ship.name.toList
  type : HasColumn line 29 12 ship.type.toList
  nation : HasColumn line 41 14 ship.nation.toList
  category : line.drop 55 = ship.category.label.toList

/-- The whole name, type and nation of the ship stand in the line, one after the other. -/
def IsComplete (line : List Char) (ship : Ship) : Prop :=
  ∃ t u v w, line = t ++ ship.name.toList ++ u ++ ship.type.toList ++ v ++ ship.nation.toList ++ w

/-- What the line for a ship shows. -/
def shown (ship : Ship) : UInt8 × String × String × String × Category :=
  (ship.tier, ship.name, ship.type, ship.nation, ship.category)

/-- The line for a ship up to its line break. -/
def shipRow (ship : Ship) : List Char :=
  pad 4 ('T' :: (Text.numeral ship.tier.toNat).toList) ++ (pad nameWidth ship.name.toList ++ ' ' ::
    (pad 11 ship.type.toList ++ ' ' :: (pad 13 ship.nation.toList ++ ' ' ::
      ship.category.label.toList)))

theorem plain_shipLine (ship : Ship) : plain (shipLine ship) = shipRow ship ++ ['\n'] := by
  unfold shipLine shipRow
  split <;> simp [plain, within, Span.plain, pad]

/-- The tier of a ship is a byte, so it has three digits at most. -/
theorem length_tier_le (ship : Ship) : (Text.numeral ship.tier.toNat).toList.length ≤ 3 := by
  rw [Text.numeral, Nat.toList_repr]
  have hbyte := ship.tier.toNat_lt_size
  exact Nat.toDigits_length 10 _ 3 (by decide) (hbyte.trans (by decide))

/-- **The columns of a line begin at fixed places** if the texts of the ship fit them. -/
theorem isAligned_shipRow {ship : Ship} (h : FitsColumns ship) :
    IsAligned (shipRow ship) ship := by
  have hstart := List.drop_zero (l := shipRow ship)
  obtain ⟨htier, hrest⟩ := hasColumn_pad hstart (Nat.succ_le_succ (length_tier_le ship))
  obtain ⟨hname, hrest⟩ := hasColumn_pad_space hrest h.name.length_le
  obtain ⟨htype, hrest⟩ := hasColumn_pad_space hrest h.type.length_le
  obtain ⟨hnation, hrest⟩ := hasColumn_pad_space hrest h.nation.length_le
  exact ⟨htier, hname, htype, hnation, hrest⟩

/-- **No text is cut**, however wide it is. -/
theorem isComplete_shipRow (ship : Ship) : IsComplete (shipRow ship) ship := by
  refine ⟨pad 4 ('T' :: (Text.numeral ship.tier.toNat).toList),
    List.replicate (nameWidth - ship.name.toList.length) ' ' ++ [' '],
    List.replicate (11 - ship.type.toList.length) ' ' ++ [' '],
    List.replicate (13 - ship.nation.toList.length) ' ' ++ ' ' :: ship.category.label.toList, ?_⟩
  rw [shipRow, pad, pad, pad, pad]
  simp only [List.append_assoc, List.cons_append, List.nil_append]

/-- A line tells what it shows of its ship. -/
theorem IsAligned.shown_eq {line : List Char} {ship other : Ship} (h : IsAligned line ship)
    (h' : IsAligned line other) (hfits : FitsColumns ship) (hfits' : FitsColumns other) :
    shown ship = shown other := by
  have hlast : ∀ n, ('T' :: (Text.numeral n).toList).getLast? ≠ some ' ' := by
    intro n hspace
    rcases List.mem_cons.1 (List.mem_of_getLast? hspace) with hT | hdigit
    · exact absurd hT (by decide)
    · exact (isLabel_numeral n).not_mem (by decide) hdigit
  have hnumeral : Text.numeral ship.tier.toNat = Text.numeral other.tier.toNat :=
    String.toList_inj.1 (List.cons.inj (h.tier.unique h'.tier (hlast _) (hlast _))).2
  have htier : ship.tier = other.tier := UInt8.toNat_inj.1 (Text.numeral_injective hnumeral)
  have hname : ship.name = other.name :=
    String.toList_inj.1 (h.name.unique h'.name hfits.name.noSpace hfits'.name.noSpace)
  have htype : ship.type = other.type :=
    String.toList_inj.1 (h.type.unique h'.type hfits.type.noSpace hfits'.type.noSpace)
  have hnation : ship.nation = other.nation :=
    String.toList_inj.1 (h.nation.unique h'.nation hfits.nation.noSpace hfits'.nation.noSpace)
  have hcategory : ship.category = other.category :=
    Category.label_injective (String.toList_inj.1 (h.category.symm.trans h'.category))
  rw [shown, shown, htier, hname, htype, hnation, hcategory]

/-! ## Listings -/

/-- The text is these lines with a line break behind each. -/
def HasLines (text : String) (lines : List (List Char)) : Prop :=
  text.toList.splitOn '\n' = lines ++ [[]]

theorem HasLines.unique {text : String} {lines others : List (List Char)}
    (h : HasLines text lines) (h' : HasLines text others) : lines = others :=
  List.append_cancel_right (h.symm.trans h')

/-- No text of the ship has a line break. -/
structure HasNoBreak (ship : Ship) : Prop where
  name : '\n' ∉ ship.name.toList
  type : '\n' ∉ ship.type.toList
  nation : '\n' ∉ ship.nation.toList

theorem FitsColumns.hasNoBreak {ship : Ship} (h : FitsColumns ship) : HasNoBreak ship :=
  ⟨h.name.noBreak, h.type.noBreak, h.nation.noBreak⟩

theorem newline_not_mem_shipRow {ship : Ship} (h : HasNoBreak ship) : '\n' ∉ shipRow ship := by
  have htier : '\n' ∉ 'T' :: (Text.numeral ship.tier.toNat).toList :=
    List.not_mem_cons_of_ne_of_not_mem (by decide) ((isLabel_numeral _).not_mem (by decide))
  have hlabel : '\n' ∉ ship.category.label.toList := ship.category.isLabel.not_mem (by decide)
  have hpad : ∀ {width : Nat} {s : List Char}, '\n' ∉ s → '\n' ∉ pad width s := fun hs =>
    not_mem_pad (by decide) _ hs
  simp [shipRow, hpad htier, hpad h.name, hpad h.type, hpad h.nation, hlabel]

theorem hasLines_shipLines {ships : List Ship} (h : ∀ ship ∈ ships, HasNoBreak ship) :
    HasLines (render false (shipLines ships)) (ships.map shipRow) := by
  rw [HasLines, toList_render, if_neg Bool.false_ne_true]
  induction ships with
  | nil => rfl
  | cons ship ships ih =>
    rw [List.forall_mem_cons] at h
    have hcut : plain (shipLines (ship :: ships)) =
        shipRow ship ++ '\n' :: plain (shipLines ships) := by
      rw [shipLines, List.flatMap_cons, plain, List.flatMap_append]
      show plain (shipLine ship) ++ plain (shipLines ships) = _
      rw [plain_shipLine, List.append_assoc]
      rfl
    rw [hcut, List.splitOn_append_cons_self_of_not_mem (newline_not_mem_shipRow h.1), ih h.2]
    rfl

/-- What holds of each ship and its line holds along the listing. -/
theorem exists_hasLines {R : List Char → Ship → Prop} {ships : List Ship}
    (hbreak : ∀ ship ∈ ships, HasNoBreak ship) (h : ∀ ship ∈ ships, R (shipRow ship) ship) :
    ∃ lines, HasLines (render false (shipLines ships)) lines ∧ List.Forall₂ R lines ships := by
  refine ⟨_, hasLines_shipLines hbreak, ?_⟩
  rw [List.forall₂_map_left_iff, List.forall₂_same]
  exact h

/-- Lines tell what they show of their ships. -/
theorem map_shown_eq {lines : List (List Char)} {ships others : List Ship}
    (h : List.Forall₂ IsAligned lines ships) (h' : List.Forall₂ IsAligned lines others)
    (hfits : ∀ ship ∈ ships, FitsColumns ship) (hfits' : ∀ ship ∈ others, FitsColumns ship) :
    ships.map shown = others.map shown := by
  induction h generalizing others with
  | nil =>
    cases h'
    rfl
  | cons hship _ ih =>
    cases h' with
    | cons hother hothers =>
      rw [List.forall_mem_cons] at hfits hfits'
      rw [List.map_cons, List.map_cons, hship.shown_eq hother hfits.1 hfits'.1,
        ih hothers hfits.2 hfits'.2]

/-- **A listing has one line for each ship, in columns, and tells what it shows of them**, as long
as the texts of the ships fit the columns. Whether they fit or not, each line has the whole texts of
its ship. -/
theorem listing_in_columns :
    (∀ ships : List Ship, (∀ ship ∈ ships, FitsColumns ship) →
        ∃ lines, HasLines (render false (shipLines ships)) lines ∧
          List.Forall₂ IsAligned lines ships) ∧
      (∀ ships others : List Ship, (∀ ship ∈ ships, FitsColumns ship) →
        (∀ ship ∈ others, FitsColumns ship) →
        render false (shipLines ships) = render false (shipLines others) →
        ships.map shown = others.map shown) ∧
      ∀ ships : List Ship, (∀ ship ∈ ships, HasNoBreak ship) →
        ∃ lines, HasLines (render false (shipLines ships)) lines ∧
          List.Forall₂ IsComplete lines ships := by
  have haligned : ∀ {ships : List Ship}, (∀ ship ∈ ships, FitsColumns ship) →
      ∃ lines, HasLines (render false (shipLines ships)) lines ∧
        List.Forall₂ IsAligned lines ships := by
    intro ships hfits
    exact exists_hasLines (fun ship hship => (hfits ship hship).hasNoBreak)
      fun ship hship => isAligned_shipRow (hfits ship hship)
  refine ⟨fun _ => haligned, ?_, ?_⟩
  · intro ships others hfits hfits' heq
    obtain ⟨lines, hlines, hships⟩ := haligned hfits
    obtain ⟨lines', hlines', hothers⟩ := haligned hfits'
    rw [← heq] at hlines'
    rw [hlines'.unique hlines] at hothers
    exact map_shown_eq hships hothers hfits hfits'
  · intro ships hbreak
    exact exists_hasLines hbreak fun ship _ => isComplete_shipRow ship

/-- A tier of three digits and a name as wide as its column, which no space keeps apart, another
ship that is shown alike, and a name that is wider than its column. -/
theorem listing_in_columns_odysseus :
    (∃ lines, HasLines (render false (shipLines
        [⟨1, "ΟΔΥΣΣΕΥΣ ΟΔΥΣΣΕΥΣ ΟΔΥΣΣΕ", 255, "", "europe", true, true⟩])) lines ∧
      List.Forall₂ IsAligned lines
        [⟨1, "ΟΔΥΣΣΕΥΣ ΟΔΥΣΣΕΥΣ ΟΔΥΣΣΕ", 255, "", "europe", true, true⟩]) ∧
    [⟨1, "ΟΔΥΣΣΕΥΣ ΟΔΥΣΣΕΥΣ ΟΔΥΣΣΕ", 255, "", "europe", true, true⟩].map shown =
      [⟨2, "ΟΔΥΣΣΕΥΣ ΟΔΥΣΣΕΥΣ ΟΔΥΣΣΕ", 255, "", "europe", true, false⟩].map shown ∧
    ∃ lines, HasLines (render false (shipLines
        [⟨3, "ΟΔΥΣΣΕΥΣ ΟΔΥΣΣΕΥΣ ΟΔΥΣΣΕΥΣ", 8, "Cruiser", "europe", false, false⟩])) lines ∧
      List.Forall₂ IsComplete lines
        [⟨3, "ΟΔΥΣΣΕΥΣ ΟΔΥΣΣΕΥΣ ΟΔΥΣΣΕΥΣ", 8, "Cruiser", "europe", false, false⟩] := by
  have hname : FitsColumn 24 "ΟΔΥΣΣΕΥΣ ΟΔΥΣΣΕΥΣ ΟΔΥΣΣΕ" := ⟨by decide, by decide, by decide⟩
  have htype : FitsColumn 11 "" := ⟨by decide, by decide, by decide⟩
  have hnation : FitsColumn 13 "europe" := ⟨by decide, by decide, by decide⟩
  refine ⟨listing_in_columns.1 _ ?_, listing_in_columns.2.1 _ _ ?_ ?_ rfl,
    listing_in_columns.2.2 _ ?_⟩
  · exact List.forall_mem_singleton.2 ⟨hname, htype, hnation⟩
  · exact List.forall_mem_singleton.2 ⟨hname, htype, hnation⟩
  · exact List.forall_mem_singleton.2 ⟨hname, htype, hnation⟩
  · exact List.forall_mem_singleton.2 ⟨by decide, by decide, by decide⟩

end FleetSearch.Display
