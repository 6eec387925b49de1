/-
# FleetSearch.Proofs.Display.FilterLine -- filters are known by their line

A label ends at the first character that no label holds (`IsLabel.cut`), and a list of labels ends
where no comma follows (`commaList_cut`). Hence the line of a row of fields is read
off from the left, field by field (`IsRow.unique`).

**The name may hold anything**, quotes, line breaks and text that looks like other fields included.
It stands last, and its field is known by the label before it, so its text is all up to the closing
quote at the end of the line. No field begins like the line of filters that ask for nothing
(`filterLine_tells_filters`).
-/

import FleetSearch.Display.Report
import FleetSearch.Proofs.Display.Styled
import FleetSearch.Proofs.Label

namespace FleetSearch.Display

/-! ## Lists of labels -/

/-- The text goes on with a space or a line break. -/
def EndsField (u : List Char) : Prop := ∃ v, u = ' ' :: v ∨ u = '\n' :: v

section

variable {ss ts : List String} {u v : List Char}

theorem EndsField.head? (hu : EndsField u) : u.head?.any isLabelChar = false := by
  obtain ⟨v, rfl | rfl⟩ := hu <;> rfl

theorem EndsField.ne_comma (hu : EndsField u) (v : List Char) : u ≠ ',' :: v := by
  obtain ⟨w, rfl | rfl⟩ := hu <;> simp

theorem commaList_cons_cons (s t : String) (ts : List String) (u : List Char) :
    commaList (s :: t :: ts) ++ u = s.toList ++ ',' :: ' ' :: (commaList (t :: ts) ++ u) := by
  show s.toList ++ ", ".toList ++ commaList (t :: ts) ++ u = _
  rw [List.append_assoc, List.append_assoc]
  rfl

/-- A list of labels ends where the text goes on without a comma. -/
theorem commaList_cut (hss : ∀ s ∈ ss, IsLabel s) (hts : ∀ t ∈ ts, IsLabel t) (hssne : ss ≠ [])
    (htsne : ts ≠ []) (hu : EndsField u) (hv : EndsField v)
    (h : commaList ss ++ u = commaList ts ++ v) : ss = ts ∧ u = v := by
  have hcomma : ∀ w : List Char, (',' :: w).head?.any isLabelChar = false := fun _ => rfl
  induction ss generalizing ts with
  | nil => exact absurd rfl hssne
  | cons s ss ih =>
    obtain ⟨t, ts, rfl⟩ := List.exists_cons_of_ne_nil htsne
    rw [List.forall_mem_cons] at hss hts
    -- Both lists end here, or one ends where the other has a comma, or both go on.
    cases ss with
    | nil =>
      cases ts with
      | nil =>
        obtain ⟨rfl, huv⟩ := hss.1.cut hts.1 hu.head? hv.head? h
        exact ⟨rfl, huv⟩
      | cons t' ts =>
        rw [commaList_cons_cons] at h
        exact absurd (hss.1.cut hts.1 hu.head? (hcomma _) h).2 (hu.ne_comma _)
    | cons s' ss =>
      cases ts with
      | nil =>
        rw [commaList_cons_cons] at h
        exact absurd (hss.1.cut hts.1 (hcomma _) hv.head? h).2.symm (hv.ne_comma _)
      | cons t' ts =>
        rw [commaList_cons_cons, commaList_cons_cons] at h
        obtain ⟨rfl, hbehind⟩ := hss.1.cut hts.1 (hcomma _) (hcomma _) h
        have hrest := (List.cons.inj (List.cons.inj hbehind).2).2
        obtain ⟨hlist, huv⟩ :=
          ih hss.2 hts.2 (List.cons_ne_nil _ _) (List.cons_ne_nil _ _) hrest
        exact ⟨congrArg (s :: ·) hlist, huv⟩

end

/-! ## Rows of fields -/

/-- Fields that are lists of labels, and perhaps a quoted name as the last. -/
inductive IsRow : List (String × List String) → Prop
  | nil : IsRow []
  | name (s : String) : IsRow [("name", ["\"" ++ s ++ "\""])]
  | field {label : String} {values : List String} {fields : List (String × List String)} :
      IsLabel label → label ≠ "name" → values ≠ [] → (∀ s ∈ values, IsLabel s) → IsRow fields →
        IsRow ((label, values) :: fields)

/-- The line of a row. -/
def rowText (fields : List (String × List String)) : List Char := plain (fieldRow fields) ++ ['\n']

/-- What follows a field on its line. -/
def rowRest : List (String × List String) → List Char
  | [] => ['\n']
  | field :: fields => ' ' :: ' ' :: rowText (field :: fields)

section

variable {fields others : List (String × List String)}

theorem rowText_cons (label : String) (values : List String)
    (fields : List (String × List String)) : rowText ((label, values) :: fields) =
      label.toList ++ ':' :: ' ' :: (commaList values ++ rowRest fields) := by
  cases fields with
  | nil => simp [rowText, fieldRow, labeled, within, plain, Span.plain, rowRest]
  | cons field fields => simp [rowText, fieldRow, labeled, within, plain, Span.plain, rowRest]

theorem rowText_name (s : String) : rowText [("name", ["\"" ++ s ++ "\""])] =
    "name: \"".toList ++ (s.toList ++ "\"\n".toList) := by
  rw [rowText_cons]
  simp [commaList, rowRest]

theorem endsField_rowRest (fields : List (String × List String)) : EndsField (rowRest fields) := by
  cases fields with
  | nil => exact ⟨_, .inr rfl⟩
  | cons field fields => exact ⟨_, .inl rfl⟩

theorem rowText_eq_of_rowRest (h : rowRest fields = rowRest others) :
    rowText fields = rowText others := by
  cases fields with
  | nil =>
    cases others with
    | nil => rfl
    | cons => exact absurd h (by simp [rowRest])
  | cons =>
    cases others with
    | nil => exact absurd h (by simp [rowRest])
    | cons => exact (List.cons.inj (List.cons.inj h).2).2

theorem isLabel_name : IsLabel "name" := ⟨by decide, by decide⟩

/-- A row with a field begins with a label. -/
theorem IsRow.head? (h : IsRow fields) (hne : fields ≠ []) :
    ∃ c s, rowText fields = c :: s ∧ isLabelChar c = true := by
  cases h with
  | nil => exact absurd rfl hne
  | name s => exact ⟨'n', _, rowText_name s, rfl⟩
  | @field label values fields hlabel =>
    obtain ⟨c, s, hs⟩ := List.exists_cons_of_ne_nil hlabel.ne_nil
    have hc : isLabelChar c = true := hlabel.isLabelChar_of_mem (hs ▸ List.mem_cons_self)
    rw [rowText_cons, hs]
    exact ⟨c, _, rfl, hc⟩

/-- A line that begins with no label is that of no row with a field. -/
theorem IsRow.eq_nil (h : IsRow fields) {c : Char} {s : List Char} (hc : isLabelChar c = false)
    (htext : rowText fields = c :: s) : fields = [] := by
  by_contra hne
  obtain ⟨d, t, hd, hlabel⟩ := h.head? hne
  have hsame : d = c := (List.cons.inj (hd.symm.trans htext)).1
  rw [hsame, hc] at hlabel
  exact Bool.false_ne_true hlabel

/-- **A row is known by its line.** -/
theorem IsRow.unique (h : IsRow fields) (h' : IsRow others)
    (htext : rowText fields = rowText others) : fields = others := by
  have hcolon : ∀ w : List Char, (':' :: w).head?.any isLabelChar = false := fun _ => rfl
  induction h generalizing others with
  | nil => exact (h'.eq_nil (by rfl) htext.symm).symm
  | name s =>
    cases h' with
    | nil => exact (IsRow.name s).eq_nil (by rfl) htext
    | name t =>
      rw [rowText_name, rowText_name] at htext
      rw [String.toList_inj.1 (List.append_cancel_right (List.append_cancel_left htext))]
    | field hlabel hother =>
      rw [rowText_cons, rowText_cons] at htext
      exact absurd (isLabel_name.cut hlabel (hcolon _) (hcolon _) htext).1.symm hother
  | @field label values fields hlabel hother hne hvalues hfields ih =>
    cases h' with
    | nil => exact (IsRow.field hlabel hother hne hvalues hfields).eq_nil (by rfl) htext
    | name t =>
      rw [rowText_cons, rowText_cons] at htext
      exact absurd (hlabel.cut isLabel_name (hcolon _) (hcolon _) htext).1 hother
    | @field label' values' fields' hlabel' _ hne' hvalues' hfields' =>
      rw [rowText_cons, rowText_cons] at htext
      obtain ⟨hsame, hbehind⟩ := hlabel.cut hlabel' (hcolon _) (hcolon _) htext
      obtain ⟨hlist, hrest⟩ := commaList_cut hvalues hvalues' hne hne' (endsField_rowRest fields)
        (endsField_rowRest fields') (List.cons.inj (List.cons.inj hbehind).2).2
      rw [hsame, hlist, ih hfields' (rowText_eq_of_rowRest hrest)]

end

/-! ## The fields of filters -/

theorem IsRow.filter {label : String} {values : List String} {fields : List (String × List String)}
    (hlabel : IsLabel label) (hother : label ≠ "name") (hvalues : ∀ s ∈ values, IsLabel s)
    (h : IsRow (fields.filter fun field => !field.2.isEmpty)) :
    IsRow (((label, values) :: fields).filter fun field => !field.2.isEmpty) := by
  by_cases hempty : values = []
  · rw [List.filter_cons_of_neg (by simp [hempty])]
    exact h
  · rw [List.filter_cons_of_pos (by simp [hempty])]
    exact .field hlabel hother hempty hvalues h

theorem isRow_filterFields (f : Filters) : IsRow (filterFields f) := by
  refine .filter ⟨by decide, by decide⟩ (by decide)
    (List.forall_mem_map.2 fun tier _ => tier.isLabel) ?_
  refine .filter ⟨by decide, by decide⟩ (by decide)
    (List.forall_mem_map.2 fun type _ => type.isLabel) ?_
  refine .filter ⟨by decide, by decide⟩ (by decide)
    (List.forall_mem_map.2 fun nation _ => nation.isLabel) ?_
  refine .filter ⟨by decide, by decide⟩ (by decide)
    (List.forall_mem_map.2 fun category _ => category.isLabel) ?_
  split
  · exact .nil
  · exact .name f.shipName

/-- The values of the fields with this label. -/
def valuesOf (label : String) (fields : List (String × List String)) : List String :=
  (fields.filter fun field => field.1 == label).flatMap Prod.snd

/-- A field without values adds none. -/
theorem valuesOf_filter (label : String) (fields : List (String × List String)) :
    valuesOf label (fields.filter fun field => !field.2.isEmpty) = valuesOf label fields := by
  have hdrop : ∀ gs : List (String × List String),
      (gs.filter fun field => !field.2.isEmpty).flatMap Prod.snd = gs.flatMap Prod.snd := by
    intro gs
    induction gs with
    | nil => rfl
    | cons g gs ih =>
      rw [List.filter_cons]
      split
      · rw [List.flatMap_cons, List.flatMap_cons, ih]
      · next hempty =>
        have hnil : g.2 = [] := by simpa using hempty
        rw [List.flatMap_cons, hnil, ih, List.nil_append]
  rw [valuesOf, List.filter_comm, hdrop, valuesOf]

theorem valuesOf_filterFields (f : Filters) :
    valuesOf "tiers" (filterFields f) = f.tiers.map Tier.label ∧
      valuesOf "types" (filterFields f) = f.types.map ShipType.label ∧
      valuesOf "nations" (filterFields f) = f.nations.map Nation.label ∧
      valuesOf "categories" (filterFields f) = f.categories.map Category.label ∧
      valuesOf "name" (filterFields f) =
        if f.shipName.isEmpty then [] else ["\"" ++ f.shipName ++ "\""] := by
  simp only [filterFields, valuesOf_filter]
  simp [valuesOf]

theorem quotedName_injective {s t : String}
    (h : (if s.isEmpty then [] else ["\"" ++ s ++ "\""]) =
      if t.isEmpty then [] else ["\"" ++ t ++ "\""]) : s = t := by
  split at h
  · next hs =>
    split at h
    · next ht => rw [String.isEmpty_iff.1 hs, String.isEmpty_iff.1 ht]
    · exact absurd h.symm (List.cons_ne_nil _ _)
  · split at h
    · exact absurd h (List.cons_ne_nil _ _)
    · have hchars := congrArg String.toList (List.cons.inj h).1
      simp only [String.toList_append] at hchars
      exact String.toList_inj.1 (List.append_cancel_left (List.append_cancel_right hchars))

/-- Filters are known by their fields. -/
theorem filterFields_injective {f g : Filters} (h : filterFields f = filterFields g) : f = g := by
  obtain ⟨htiers, htypes, hnations, hcategories, hname⟩ := valuesOf_filterFields f
  obtain ⟨htiers', htypes', hnations', hcategories', hname'⟩ := valuesOf_filterFields g
  rw [h] at htiers htypes hnations hcategories hname
  have htiers := List.map_injective_iff.2 Tier.label_injective (htiers.symm.trans htiers')
  have htypes := List.map_injective_iff.2 ShipType.label_injective (htypes.symm.trans htypes')
  have hnations := List.map_injective_iff.2 Nation.label_injective (hnations.symm.trans hnations')
  have hcategories :=
    List.map_injective_iff.2 Category.label_injective (hcategories.symm.trans hcategories')
  have hname := quotedName_injective (hname.symm.trans hname')
  cases f
  cases g
  rw [Filters.mk.injEq]
  exact ⟨htiers, htypes, hnations, hcategories, hname⟩

theorem filterFields_of_isEmpty {f : Filters} (h : f.isEmpty = true) : filterFields f = [] := by
  simp only [Filters.isEmpty, Filters.isClassified, Bool.and_eq_true, Bool.not_eq_true',
    Bool.or_eq_false_iff, Bool.not_eq_false', List.isEmpty_iff] at h
  obtain ⟨⟨⟨⟨htiers, htypes⟩, hnations⟩, hcategories⟩, hname⟩ := h
  simp [filterFields, htiers, htypes, hnations, hcategories, hname]

/-! ## The line for the filters -/

theorem plain_filterLine (f : Filters) : plain (filterLine f) =
    if f.isEmpty then "(no filters)\n".toList else rowText (filterFields f) := by
  unfold filterLine
  split
  · simp [plain, Span.plain]
  · simp [rowText, plain, Span.plain]

/-- No row begins with a bracket. -/
theorem IsRow.rowText_ne {fields : List (String × List String)} (h : IsRow fields) :
    rowText fields ≠ "(no filters)\n".toList := by
  intro htext
  have hnil : fields = [] := h.eq_nil (c := '(') (by rfl) htext
  rw [hnil] at htext
  exact absurd htext (by decide)

/-- **The line for filters tells which filters they are**, in their order and with their repeats,
and whether there are any. -/
theorem filterLine_tells_filters :
    (∀ f g : Filters, render false (filterLine f) = render false (filterLine g) ↔ f = g) ∧
      ∀ f : Filters, render false (filterLine f) = "(no filters)\n" ↔ f.isEmpty = true := by
  have hplain : ∀ {f : Filters} {s : String}, render false (filterLine f) = s ↔
      plain (filterLine f) = s.toList := by
    intro f s
    rw [← String.toList_inj, toList_render, if_neg Bool.false_ne_true]
  have hempty : ∀ f : Filters,
      render false (filterLine f) = "(no filters)\n" ↔ f.isEmpty = true := by
    intro f
    rw [hplain, plain_filterLine]
    split
    · next h => exact iff_of_true rfl h
    · next h => exact iff_of_false (isRow_filterFields f).rowText_ne h
  refine ⟨?_, hempty⟩
  intro f g
  constructor
  · intro h
    apply filterFields_injective
    by_cases hf : f.isEmpty = true
    · have hg : g.isEmpty = true := by rw [← hempty, ← h, hempty, hf]
      rw [filterFields_of_isEmpty hf, filterFields_of_isEmpty hg]
    · have hg : ¬ g.isEmpty = true := by rwa [← hempty, ← h, hempty]
      rw [hplain, toList_render, if_neg Bool.false_ne_true, plain_filterLine, plain_filterLine,
        if_neg hf, if_neg hg] at h
      exact (isRow_filterFields f).unique (isRow_filterFields g) h
  · rintro rfl
    rfl

/-- A name that looks like a field of its own is still told from that field. -/
example : render false (filterLine { shipName := "kaga\"  nations: japan" }) =
    "name: \"kaga\"  nations: japan\"\n" := by decide

end FleetSearch.Display
