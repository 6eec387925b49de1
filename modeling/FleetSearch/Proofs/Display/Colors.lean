/-
# FleetSearch.Proofs.Display.Colors -- colored and plain output carry the same text

Each line of a report is put together from labels, numerals, padding and the texts of filters, ships
and facets. As long as the latter have no escape character the line is neat, whatever its fields. So
deleting the escape sequences from colored output gives the plain output, columns included, and the
terminal is left in its default style (`colors_add_only_sequences`).
-/

import FleetSearch.Display.Report
import FleetSearch.Proofs.Display.Styled
import FleetSearch.Proofs.Label

namespace FleetSearch.Display

/-! ## Building blocks -/

theorem mem_pad {width : Nat} {s : List Char} {c : Char} (hc : c ∈ pad width s) :
    c ∈ s ∨ c = ' ' := by
  rcases List.mem_append.1 hc with hc | hc
  · exact .inl hc
  · exact .inr (List.eq_of_mem_replicate hc)

theorem mem_commaList {ss : List String} {c : Char} (hc : c ∈ commaList ss) :
    c = ',' ∨ c = ' ' ∨ ∃ s ∈ ss, c ∈ s.toList := by
  induction ss with
  | nil => cases hc
  | cons s ss ih =>
    cases ss with
    | nil => exact .inr (.inr ⟨s, by simp, hc⟩)
    | cons t ts =>
      have hcut : c ∈ s.toList ++ ", ".toList ++ commaList (t :: ts) := hc
      rw [List.mem_append, List.mem_append] at hcut
      rcases hcut with (hc | hc) | hc
      · exact .inr (.inr ⟨s, by simp, hc⟩)
      · exact (List.mem_pair.1 hc).imp_right .inl
      · refine (ih hc).imp_right (.imp_right ?_)
        rintro ⟨u, hu, hc⟩
        exact ⟨u, List.mem_cons_of_mem s hu, hc⟩

theorem not_mem_pad {c : Char} (hc : c ≠ ' ') (width : Nat) {s : List Char} (hs : c ∉ s) :
    c ∉ pad width s := by
  intro h
  rcases mem_pad h with h | h
  · exact hs h
  · exact hc h

theorem esc_not_mem_column {c : Char} (hc : esc ≠ c) (width : Nat) {s : List Char} (hs : esc ∉ s) :
    esc ∉ c :: pad width s :=
  List.not_mem_cons_of_ne_of_not_mem hc (not_mem_pad (by decide) width hs)

theorem esc_not_mem_commaList {ss : List String} (hss : ∀ s ∈ ss, esc ∉ s.toList) :
    esc ∉ commaList ss := by
  intro h
  rcases mem_commaList h with h | h | ⟨s, hs, h⟩
  · cases h
  · cases h
  · exact hss s hs h

theorem esc_not_mem_label {s : String} (hs : IsLabel s) : esc ∉ s.toList := hs.not_mem (by decide)

theorem esc_not_mem_numeral (n : Nat) : esc ∉ (Text.numeral n).toList :=
  esc_not_mem_label (isLabel_numeral n)

theorem isNeat_labeled {label : String} {values : List Char} (hlabel : esc ∉ label.toList)
    (hvalues : esc ∉ values) : IsNeat (labeled label values) := by
  have hcolon : esc ∉ label.toList ++ [':'] := by simpa [hlabel] using by decide
  have hspace : esc ∉ ' ' :: values := by simpa [hvalues] using by decide
  exact (isNeat_within .cyan hcolon).append (isNeat_text hspace)

/-! ## Filters -/

theorem isNeat_fieldRow {fields : List (String × List String)}
    (h : ∀ field ∈ fields, esc ∉ field.1.toList ∧ ∀ s ∈ field.2, esc ∉ s.toList) :
    IsNeat (fieldRow fields) := by
  induction fields with
  | nil => exact isNeat_nil
  | cons field fields ih =>
    obtain ⟨label, values⟩ := field
    rw [List.forall_mem_cons] at h
    have hfield := isNeat_labeled h.1.1 (esc_not_mem_commaList h.1.2)
    cases fields with
    | nil => exact hfield
    | cons next rest =>
      exact hfield.append ((isNeat_text (s := [' ', ' ']) (by decide)).append (ih h.2))

theorem esc_not_mem_quotedName {name : String} (hname : esc ∉ name.toList) :
    esc ∉ ("\"" ++ name ++ "\"").toList := by
  have hquote : esc ∉ "\"".toList := by decide
  simp only [String.toList_append, List.mem_append, not_or]
  exact ⟨⟨hquote, hname⟩, hquote⟩

/-- The labels of the fields are fixed, and so are those of what is asked for; only the name is
free. -/
theorem esc_not_mem_filterFields {f : Filters} (hname : esc ∉ f.shipName.toList) :
    ∀ field ∈ filterFields f, esc ∉ field.1.toList ∧ ∀ s ∈ field.2, esc ∉ s.toList := by
  intro field hfield
  have hmem := List.mem_of_mem_filter hfield
  simp only [List.mem_cons, List.not_mem_nil, or_false] at hmem
  rcases hmem with rfl | rfl | rfl | rfl | rfl
  · exact ⟨(by decide : esc ∉ "tiers".toList),
      List.forall_mem_map.2 fun tier _ => esc_not_mem_label tier.isLabel⟩
  · exact ⟨(by decide : esc ∉ "types".toList),
      List.forall_mem_map.2 fun type _ => esc_not_mem_label type.isLabel⟩
  · exact ⟨(by decide : esc ∉ "nations".toList),
      List.forall_mem_map.2 fun nation _ => esc_not_mem_label nation.isLabel⟩
  · exact ⟨(by decide : esc ∉ "categories".toList),
      List.forall_mem_map.2 fun category _ => esc_not_mem_label category.isLabel⟩
  · refine ⟨(by decide : esc ∉ "name".toList), ?_⟩
    intro s hs
    dsimp only at hs
    split at hs
    · cases hs
    · rw [List.mem_singleton.1 hs]
      exact esc_not_mem_quotedName hname

theorem isNeat_filterLine {f : Filters} (hname : esc ∉ f.shipName.toList) :
    IsNeat (filterLine f) := by
  unfold filterLine
  split
  · exact isNeat_text (by decide)
  · exact (isNeat_fieldRow (esc_not_mem_filterFields hname)).append (isNeat_text (by decide))

/-! ## Ships -/

/-- The category is in yellow or in the default style, and the end of the line ends both. -/
theorem isNeat_categoryEnd (category : Category) :
    IsNeat ((if category = .premium then [.start .yellow] else []) ++
      [.text (' ' :: category.label.toList ++ ['\n']), .reset]) := by
  have hlabel : esc ∉ ' ' :: category.label.toList ++ ['\n'] := by cases category <;> decide
  split
  · exact isNeat_within .yellow hlabel
  · exact (isNeat_text hlabel).append isNeat_reset

theorem isNeat_shipLine {ship : Ship} (hname : esc ∉ ship.name.toList)
    (htype : esc ∉ ship.type.toList) (hnation : esc ∉ ship.nation.toList) :
    IsNeat (shipLine ship) := by
  have hT : esc ≠ 'T' := by decide
  have hspace : esc ≠ ' ' := by decide
  have htierColumn := isNeat_within .green
    (esc_not_mem_column hT 3 (esc_not_mem_numeral ship.tier.toNat))
  have hnameColumn := isNeat_within .bold (not_mem_pad (by decide) nameWidth hname)
  have htypeColumn := isNeat_within .magenta (esc_not_mem_column hspace 11 htype)
  have hnationColumn := isNeat_text (esc_not_mem_column hspace 13 hnation)
  have hline := (((htierColumn.append hnameColumn).append htypeColumn).append
    hnationColumn).append (isNeat_categoryEnd ship.category)
  rwa [← List.append_assoc] at hline

theorem isNeat_shipLines {ships : List Ship} (h : ∀ ship ∈ ships,
      esc ∉ ship.name.toList ∧ esc ∉ ship.type.toList ∧ esc ∉ ship.nation.toList) :
    IsNeat (shipLines ships) :=
  isNeat_flatMap fun ship hship =>
    isNeat_shipLine (h ship hship).1 (h ship hship).2.1 (h ship hship).2.2

/-! ## Counts and facets -/

theorem isNeat_countLine (shown matched : Nat) : IsNeat (countLine shown matched) := by
  refine isNeat_within .dimmed ?_
  have hof : esc ∉ " of ".toList := by decide
  have hships : esc ∉ " ships\n".toList := by decide
  split
  · simp only [String.toList_append, List.mem_append, not_or]
    exact ⟨⟨⟨esc_not_mem_numeral shown, hof⟩, esc_not_mem_numeral matched⟩, hships⟩
  · simp only [String.toList_append, List.mem_append, not_or]
    exact ⟨esc_not_mem_numeral matched, hships⟩

theorem isNeat_facetLines {f : Facets} (h : ∀ s ∈ f.nations ++ f.types, esc ∉ s.toList) :
    IsNeat (facetLines f) := by
  have hrow : ∀ {label : String} {values : List String}, esc ∉ label.toList →
      (∀ s ∈ values, esc ∉ s.toList) → IsNeat (labeled label (commaList values ++ ['\n'])) := by
    intro label values hlabel hvalues
    have hend : esc ∉ ['\n'] := by decide
    exact isNeat_labeled hlabel (List.not_mem_append (esc_not_mem_commaList hvalues) hend)
  have hnations : ∀ s ∈ f.nations, esc ∉ s.toList := fun s hs =>
    h s (List.mem_append_left f.types hs)
  have htypes : ∀ s ∈ f.types, esc ∉ s.toList := fun s hs =>
    h s (List.mem_append_right f.nations hs)
  have htiers : ∀ s ∈ f.tiers.map fun t => Text.numeral t.toNat, esc ∉ s.toList :=
    List.forall_mem_map.2 fun tier _ => esc_not_mem_numeral tier.toNat
  exact ((hrow (by decide) hnations).append (hrow (by decide) htiers)).append
    (hrow (by decide) htypes)

/-! ## Colored and plain output -/

/-- **Each report with colors is the report without them and escape sequences**, the last of which
is the return to the default: for filters, for ships, for counts and for facets. -/
theorem colors_add_only_sequences :
    (∀ f : Filters, esc ∉ f.shipName.toList → ColorsOnly (filterLine f)) ∧
      (∀ ships : List Ship, (∀ ship ∈ ships,
          esc ∉ ship.name.toList ∧ esc ∉ ship.type.toList ∧ esc ∉ ship.nation.toList) →
        ColorsOnly (shipLines ships)) ∧
      (∀ shown matched : Nat, ColorsOnly (countLine shown matched)) ∧
      ∀ f : Facets, (∀ s ∈ f.nations ++ f.types, esc ∉ s.toList) → ColorsOnly (facetLines f) :=
  ⟨fun _ hname => (isNeat_filterLine hname).colorsOnly,
    fun _ hships => (isNeat_shipLines hships).colorsOnly,
    fun shown matched => (isNeat_countLine shown matched).colorsOnly,
    fun _ hvalues => (isNeat_facetLines hvalues).colorsOnly⟩

/-- Filters by name, a premium ship among others, and the facets of these ships. -/
theorem colors_add_only_sequences_kaga :
    ColorsOnly (filterLine { nations := [.japan], shipName := "kaga" }) ∧
      ColorsOnly (shipLines [⟨1, "Kaga", 8, "AirCarrier", "japan", true, false⟩,
        ⟨2, "Hakuryu", 10, "AirCarrier", "japan", false, false⟩]) ∧
      ColorsOnly (facetLines ⟨["japan"], [8, 10], ["AirCarrier"]⟩) :=
  ⟨colors_add_only_sequences.1 _ (by decide), colors_add_only_sequences.2.1 _ (by decide),
    colors_add_only_sequences.2.2.2 _ (by decide)⟩

end FleetSearch.Display
