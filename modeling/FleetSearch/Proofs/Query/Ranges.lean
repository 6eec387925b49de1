/-
# FleetSearch.Proofs.Query.Ranges -- what a range of tiers is read as

A range is found whole by the pattern of its own spelling, and the patterns of the other two
spellings find nothing in it. No band is named in it, as its characters do not suffice for the name
of a band, and super ships are mentioned only if a numeral behind "tier" reads "11".

So a range is read as the tiers from its first to its last, in all three spellings
(`tiers_of_range`). The one exception is a range whose second "tier" is followed by "11", as in
"tier 9 to tier 11": bands go before ranges, and "tier 11" names the band of super ships.
-/

import FleetSearch.Proofs.Pattern.Following
import FleetSearch.Proofs.Query.Tiers
import FleetSearch.Proofs.Query.Vocabulary

namespace FleetSearch.Query

open Text Vocabulary Pattern

/-! ## The rules one by one -/

theorem firstSeen_eq_self {α : Type} [DecidableEq α] {items : List α} (h : items.Nodup) :
    firstSeen items = items := by
  have hfold : ∀ seen, (seen ++ items).Nodup → items.foldl appendNew seen = seen ++ items := by
    clear h
    induction items with
    | nil => simp
    | cons item items ih =>
      intro seen hnodup
      have hnew : item ∉ seen := by
        intro hmem
        exact (List.nodup_append.1 hnodup).2.2 item hmem item (by simp) rfl
      rw [List.foldl_cons, appendNew, if_neg hnew, ih, List.append_assoc, List.singleton_append]
      rwa [List.append_assoc, List.singleton_append]
  exact hfold [] h

/-- The tiers of super ships. -/
def superTiers : List Tier := Tier.between superTier superTier

/-- In a query that names no band the rule of bands looks for super ships. -/
theorem bandTiers_of_no_band {q : List Char}
    (h : ∀ band ∈ bands, (bandPattern band.qualifiers).occurs q = false) :
    bandTiers q = if superPattern.occurs q = true then superTiers else [] := by
  have hnone : (bands.map fun band => (bandPattern band.qualifiers, band.first, band.last)).find?
      (fun row => row.1.occurs q) = none := by
    rw [List.find?_eq_none]
    intro row hrow
    obtain ⟨band, hband, rfl⟩ := List.mem_map.1 hrow
    simp [h band hband]
  unfold bandTiers bandPatterns
  rw [List.find?_append, hnone, Option.none_or, List.find?_singleton]
  by_cases hsuper : superPattern.occurs q = true
  · rw [if_pos hsuper, if_pos hsuper]
    rfl
  · rw [if_neg hsuper, if_neg hsuper]

/-! ## Numerals that read "11" -/

section

variable {m n s : List Char} {a b : Nat}

theorem isDigits_of_decimal? (h : decimal? m = some a) : IsDigits m := by
  obtain ⟨hne, hall, _⟩ := decimal?_eq_some.1 h
  exact ⟨hne, hall⟩

/-- Of the numerals up to the last tier only "11" itself begins with "11". -/
theorem isPrefixOf_eleven (hm : decimal? m = some a) (ha : a ≤ maxTier)
    (hs : s.head?.any Char.isDigit = false) :
    "11".toList.isPrefixOf (m ++ s) = true ↔ m = "11".toList := by
  constructor
  · intro hstart
    obtain ⟨hne, hall, hvalue⟩ := decimal?_eq_some.1 hm
    obtain ⟨t, ht⟩ := List.isPrefixOf_iff_prefix.1 hstart
    -- The two digits belong to the numeral, as none follows it.
    obtain ⟨u, rfl⟩ : ∃ u, m = "11".toList ++ u := by
      rcases List.append_eq_append_iff.1 ht with ⟨u, hu, _⟩ | ⟨u, hu, hrest⟩
      · exact ⟨u, hu⟩
      · cases u with
        | nil => exact ⟨[], by rw [hu, List.append_nil, List.append_nil]⟩
        | cons c u =>
          have hc : c ∈ "11".toList := by rw [hu]; simp
          have hdigit : ∀ c ∈ "11".toList, c.isDigit = true := List.all_eq_true.1 (by decide)
          rw [hrest] at hs
          exact absurd (hdigit c hc) (by simpa using hs)
    have heleven : decimalAfter 0 ("11".toList ++ u) = decimalAfter 11 u := by
      show decimalAfter 0 ('1' :: '1' :: u) = decimalAfter 11 u
      rw [decimalAfter_cons, decimalAfter_cons]
      rfl
    -- Another digit would make the number larger than any tier.
    cases u with
    | nil => rw [List.append_nil]
    | cons c u =>
      have hgrow := le_decimalAfter 11 (c :: u)
      have hpos : 0 < 10 ^ u.length := Nat.pow_pos (by omega)
      rw [List.length_cons, Nat.pow_succ] at hgrow
      have hlast : a ≤ 11 := ha
      omega
  · rintro rfl
    rw [List.isPrefixOf_iff_prefix]
    exact List.prefix_append _ _

end

/-! ## Ranges without bands -/

/-- A character that no range is spelled with. -/
def isForeign (c : Char) : Bool := !(c.isDigit || isBlank c || "tiero-–—".toList.contains c)

section

variable {m n s w w₁ w₂ w₃ w₄ v : List Char} {a : String}

/-- The characters of a fixed text are checked one by one. -/
theorem isForeign_of_all (h : (s.all fun c => !isForeign c) = true) :
    ∀ c ∈ s, isForeign c = false := by
  intro c hc
  rw [← Bool.not_eq_true']
  exact List.all_eq_true.1 h c hc

theorem isForeign_of_isBlank (hw : IsGap w) : ∀ c ∈ w, isForeign c = false := by
  intro c hc
  simp [isForeign, hw c hc]

theorem isForeign_of_isDigit (hm : IsDigits m) : ∀ c ∈ m, isForeign c = false := by
  intro c hc
  simp [isForeign, hm.all c hc]

theorem isForeign_separator (ha : a ∈ rangeSeparators) : ∀ c ∈ a.toList, isForeign c = false := by
  have hall : ∀ a ∈ rangeSeparators, (a.toList.all fun c => !isForeign c) = true := by decide
  exact isForeign_of_all (hall a ha)

theorem RangeSpelling.isForeign_eq_false (hm : IsDigits m) (hn : IsDigits n)
    (h : RangeSpelling m n s) : ∀ c ∈ s, isForeign c = false := by
  have htier : ∀ c ∈ "tier".toList, isForeign c = false := isForeign_of_all (by decide)
  have ht : ∀ c ∈ "t".toList, isForeign c = false := isForeign_of_all (by decide)
  cases h with
  | tier hw₁ hw₂ hw₃ ha =>
    simp only [List.forall_mem_append]
    exact ⟨htier, isForeign_of_isBlank hw₁, isForeign_of_isDigit hm, isForeign_of_isBlank hw₂,
      isForeign_separator ha, isForeign_of_isBlank hw₃, isForeign_of_isDigit hn⟩
  | short hw₁ hw₂ ha =>
    simp only [List.forall_mem_append]
    exact ⟨ht, isForeign_of_isDigit hm, isForeign_of_isBlank hw₁, isForeign_separator ha,
      isForeign_of_isBlank hw₂, isForeign_of_isDigit hn⟩
  | full hw₁ hw₂ hw₃ hw₄ ha =>
    simp only [List.forall_mem_append]
    exact ⟨htier, isForeign_of_isBlank hw₁, isForeign_of_isDigit hm, isForeign_of_isBlank hw₂,
      isForeign_separator ha, isForeign_of_isBlank hw₃, htier, isForeign_of_isBlank hw₄,
      isForeign_of_isDigit hn⟩

/-- A text without foreign characters names no band, and super ships only by "tier" and "11". -/
theorem bandTiers_of_not_isForeign (hs : ∀ c ∈ s, isForeign c = false) :
    bandTiers s = if (all [word "tier", .blanks, word "11"]).occurs s = true then superTiers
      else [] := by
  have hcount : s.countP isForeign = 0 := by
    rw [List.countP_eq_zero]
    intro c hc
    simp [hs c hc]
  have hbands : ∀ band ∈ bands, 0 < (bandPattern band.qualifiers).atLeast isForeign := by decide
  have hsuper : 0 < (all [word "super", .blanks, word "ship"]).atLeast isForeign := by decide
  have hnoSuper : (all [word "super", .blanks, word "ship"]).occurs s = false := by
    apply occurs_eq_false_of_countP isForeign
    rwa [hcount]
  rw [bandTiers_of_no_band, superPattern, occurs_either, hnoSuper, Bool.false_or]
  intro band hband
  apply occurs_eq_false_of_countP isForeign
  rw [hcount]
  exact hbands band hband

end

/-! ## What follows "tier" and "t" in a range -/

/-- No "t" of the text is followed by a digit. -/
def NoShortTier (s : List Char) : Prop :=
  ∀ v ∈ following "t".toList s, v.head?.any Char.isDigit = false

section

variable {m n s u w w₁ w₂ v : List Char} {a : String}

theorem IsGap.not_mem_t (hw : IsGap w) : 't' ∉ w := by
  intro ht
  exact absurd (hw 't' ht) (by decide)

theorem IsDigits.not_mem_t (hm : IsDigits m) : 't' ∉ m := by
  intro ht
  exact absurd (hm.all 't' ht) (by decide)

/-- Of the separators only "to" has a "t". -/
theorem separator_cases (ha : a ∈ rangeSeparators) : 't' ∉ a.toList ∨ a = "to" := by
  have hall : ∀ a ∈ rangeSeparators, 't' ∉ a.toList ∨ a = "to" := by decide
  exact hall a ha

theorem following_tier_tier :
    following "tier".toList ("tier".toList ++ s) = s :: following "tier".toList s :=
  following_append_self (c := 't') (a := ['i', 'e', 'r']) (by decide)

theorem following_tier_append (hu : 't' ∉ u) :
    following "tier".toList (u ++ s) = following "tier".toList s := following_append_of_not_mem hu

/-- A separator is not the beginning of "tier". -/
theorem following_tier_separator (ha : a ∈ rangeSeparators) :
    following "tier".toList (a.toList ++ s) = following "tier".toList s := by
  rcases separator_cases ha with hnone | rfl
  · exact following_tier_append hnone
  · show following "tier".toList ("o".toList ++ s) = following "tier".toList s
    exact following_tier_append (by decide)

/-- What stands between the first number of a range and the text behind the separator. -/
theorem following_tier_afterNumber (hm : IsDigits m) (hw₁ : IsGap w₁) (hw₂ : IsGap w₂)
    (ha : a ∈ rangeSeparators) :
    following "tier".toList (m ++ (w₁ ++ (a.toList ++ (w₂ ++ s)))) = following "tier".toList s := by
  rw [following_tier_append hm.not_mem_t, following_tier_append hw₁.not_mem_t,
    following_tier_separator ha, following_tier_append hw₂.not_mem_t]

/-- A "t" with a digit behind it is not the beginning of "tier". -/
theorem following_tier_t (hm : IsDigits m) :
    following "tier".toList ("t".toList ++ (m ++ s)) = following "tier".toList (m ++ s) := by
  obtain ⟨d, t, rfl⟩ := List.exists_cons_of_ne_nil hm.ne_nil
  have hd : 'i' ≠ d := by
    rintro rfl
    exact absurd (hm.all 'i' (by simp)) (by decide)
  have hstart : "tier".toList.isPrefixOf ('t' :: d :: (t ++ s)) = false := by
    show List.isPrefixOf ['t', 'i', 'e', 'r'] ('t' :: d :: (t ++ s)) = false
    simp [List.isPrefixOf, hd]
  show following "tier".toList ('t' :: d :: (t ++ s)) = following "tier".toList (d :: (t ++ s))
  rw [following, hstart]
  rfl

theorem following_t_cons : following "t".toList ('t' :: s) = s :: following "t".toList s :=
  following_append_self (c := 't') (a := []) (by decide)

theorem NoShortTier.append (hu : 't' ∉ u) (hs : NoShortTier s) : NoShortTier (u ++ s) := by
  have hsame : following "t".toList (u ++ s) = following "t".toList s :=
    following_append_of_not_mem hu
  unfold NoShortTier
  rwa [hsame]

theorem noShortTier_of_not_mem (hu : 't' ∉ u) : NoShortTier u := by
  have hnil : following "t".toList u = [] := following_of_not_mem hu
  unfold NoShortTier
  rw [hnil]
  intro v hv
  cases hv

theorem NoShortTier.cons_t (hdigit : s.head?.any Char.isDigit = false) (hs : NoShortTier s) :
    NoShortTier ('t' :: s) := by
  unfold NoShortTier
  rw [following_t_cons]
  exact List.forall_mem_cons.2 ⟨hdigit, hs⟩

theorem NoShortTier.tier (hs : NoShortTier s) : NoShortTier ("tier".toList ++ s) := by
  show NoShortTier ('t' :: ("ier".toList ++ s))
  exact .cons_t rfl (hs.append (by decide))

theorem NoShortTier.separator (ha : a ∈ rangeSeparators) (hs : NoShortTier s) :
    NoShortTier (a.toList ++ s) := by
  rcases separator_cases ha with hnone | rfl
  · exact hs.append hnone
  · show NoShortTier ('t' :: ("o".toList ++ s))
    exact .cons_t rfl (hs.append (by decide))

theorem NoShortTier.afterNumber (hm : IsDigits m) (hw₁ : IsGap w₁) (hw₂ : IsGap w₂)
    (ha : a ∈ rangeSeparators) (hs : NoShortTier s) :
    NoShortTier (m ++ (w₁ ++ (a.toList ++ (w₂ ++ s)))) :=
  .append hm.not_mem_t (.append hw₁.not_mem_t (.separator ha (.append hw₂.not_mem_t hs)))

/-! ## Spellings that find nothing -/

theorem refuses_numeral (hs : s.head?.any Char.isDigit = false) : numeral.Refuses s :=
  (refuses_digits hs).capture

theorem finds_shortRange_eq_nil (hs : NoShortTier s) : (shortRangeShape numeral).finds s = [] := by
  apply finds_eq_nil_of_not_occurs
  apply occurs_literal_seq_eq_false (c := 't') (a := [])
  intro v hv
  exact (refuses_numeral (hs v hv)).seq_left

/-- A number behind which nothing comes is not the first of a range. -/
theorem refuses_number_at_end {q : Pattern} (hw : IsGap w) (hn : IsDigits n) :
    (all [.blanks, numeral, .blanks, separatorPattern, q]).Refuses (w ++ n) := by
  have hend : (all [.blanks, separatorPattern, q]).Refuses ([] ++ []) :=
    (takesOnly_gap isGap_nil rfl).seq_refuses (Refuses.seq_left fun _ => rfl)
  have hnumber : (all [numeral, .blanks, separatorPattern, q]).Refuses (n ++ []) :=
    (readsDigits_numeral hn rfl).seq_refuses hend
  rw [List.append_nil] at hnumber
  have hblank := hn.head?_any_isBlank []
  rw [List.append_nil] at hblank
  exact (takesOnly_gap hw hblank).seq_refuses hnumber

/-- A range is refused whose second part is refused. -/
theorem refuses_afterNumber {q : Pattern} (hw : IsGap w) (hm : IsDigits m) (hw₁ : IsGap w₁)
    (hw₂ : IsGap w₂) (ha : a ∈ rangeSeparators) (hs : s.head?.any isBlank = false)
    (hq : q.Refuses s) : (all [.blanks, numeral, .blanks, separatorPattern, .blanks, q]).Refuses
      (w ++ (m ++ (w₁ ++ (a.toList ++ (w₂ ++ s))))) := by
  have hsep := separator_head ha (w₂ ++ s)
  have hafter : (w₁ ++ (a.toList ++ (w₂ ++ s))).head?.any Char.isDigit = false :=
    hw₁.head?_any_isDigit hsep.1
  exact (takesOnly_gap hw (hm.head?_any_isBlank _)).seq_refuses
    ((readsDigits_numeral hm hafter).seq_refuses ((takesOnly_gap hw₁ hsep.2).seq_refuses
      ((takesOnly_separator ha).seq_refuses ((takesOnly_gap hw₂ hs).seq_refuses hq))))

theorem finds_range_eq_nil (hs : ∀ v ∈ following "tier".toList s,
    (all [.blanks, numeral, .blanks, separatorPattern, .blanks, numeral]).Refuses v) :
    (rangeShape numeral).finds s = [] :=
  finds_eq_nil_of_not_occurs (occurs_literal_seq_eq_false (c := 't') hs)

theorem finds_fullRange_eq_nil (hs : ∀ v ∈ following "tier".toList s,
    (all [.blanks, numeral, .blanks, separatorPattern, .blanks, tierShape numeral]).Refuses v) :
    (fullRangeShape numeral).finds s = [] :=
  finds_eq_nil_of_not_occurs (occurs_literal_seq_eq_false (c := 't') hs)

end

/-! ## The bands of a range -/

section

variable {m n s w w₁ w₂ w₃ w₄ : List Char} {sep : String} {a b : Nat}

/-- Behind "tier" digits are part of the name of super ships exactly if they begin with "11". -/
theorem hits_blanks_eleven_iff (hw : IsGap w) (hm : IsDigits m) (c : Option Char) :
    (all [.blanks, word "11"]).hits c (w ++ (m ++ s)) ≠ [] ↔
      "11".toList.isPrefixOf (m ++ s) = true := by
  have hgap := takesOnly_gap hw (hm.head?_any_isBlank s) c
  rw [all_cons_cons, all_singleton, hits_seq, hgap, List.flatMap_singleton, Ne,
    List.map_eq_nil_iff, word, hits_literal]
  cases "11".toList.isPrefixOf (m ++ s) <;> simp

/-- Behind "tier" a numeral is part of the name of super ships exactly if it reads "11". -/
theorem hits_blanks_eleven (hw : IsGap w) (hm : decimal? m = some a) (ha : a ≤ maxTier)
    (hs : s.head?.any Char.isDigit = false) (c : Option Char) :
    (all [.blanks, word "11"]).hits c (w ++ (m ++ s)) ≠ [] ↔ m = "11".toList := by
  rw [hits_blanks_eleven_iff hw (isDigits_of_decimal? hm), isPrefixOf_eleven hm ha hs]

/-- The bands of a text without foreign characters, by what follows "tier" in it. -/
theorem bandTiers_of_following {P : Prop} [Decidable P] (hs : ∀ c ∈ s, isForeign c = false)
    (hP : (∃ v ∈ following "tier".toList s,
      (all [.blanks, word "11"]).hits (some 'r') v ≠ []) ↔ P) :
    bandTiers s = if P then superTiers else [] := by
  have hoccurs : (all [word "tier", .blanks, word "11"]).occurs s = true ↔ P :=
    (occurs_literal_seq (c := 't') (a := ['i', 'e', 'r'])).trans hP
  rw [bandTiers_of_not_isForeign hs]
  exact if_congr hoccurs rfl rfl

variable (hm : decimal? m = some a) (hn : decimal? n = some b)
  (hw₁ : IsGap w₁) (hw₂ : IsGap w₂) (hw₃ : IsGap w₃) (hsep : sep ∈ rangeSeparators)
include hm hn hw₁ hw₂ hsep

theorem bandTiers_shortRange :
    bandTiers ("t".toList ++ (m ++ (w₁ ++ (sep.toList ++ (w₂ ++ n))))) = [] := by
  have hdm := isDigits_of_decimal? hm
  have hdn := isDigits_of_decimal? hn
  have hnone : following "tier".toList
      ("t".toList ++ (m ++ (w₁ ++ (sep.toList ++ (w₂ ++ n))))) = [] := by
    rw [following_tier_t hdm, following_tier_afterNumber hdm hw₁ hw₂ hsep]
    exact following_of_not_mem hdn.not_mem_t
  have hforeign := RangeSpelling.isForeign_eq_false hdm hdn (.short hw₁ hw₂ hsep)
  rw [bandTiers_of_following (P := False) hforeign, if_neg not_false]
  rw [hnone]
  simp

include hw₃

theorem bandTiers_tierRange (ha : a ≤ maxTier) :
    bandTiers ("tier".toList ++ (w₁ ++ (m ++ (w₂ ++ (sep.toList ++ (w₃ ++ n)))))) =
      if m = "11".toList then superTiers else [] := by
  have hdm := isDigits_of_decimal? hm
  have hdn := isDigits_of_decimal? hn
  have hafter := hw₂.head?_any_isDigit (separator_head hsep (w₃ ++ n)).1
  have hlast : following "tier".toList n = [] := following_of_not_mem hdn.not_mem_t
  apply bandTiers_of_following
    (RangeSpelling.isForeign_eq_false hdm hdn (.tier hw₁ hw₂ hw₃ hsep))
  rw [following_tier_tier, following_tier_append hw₁.not_mem_t,
    following_tier_afterNumber hdm hw₂ hw₃ hsep, hlast]
  simpa using hits_blanks_eleven hw₁ hm ha hafter (some 'r')

theorem bandTiers_fullRange (hw₄ : IsGap w₄) (ha : a ≤ maxTier) (hb : b ≤ maxTier) :
    bandTiers ("tier".toList ++
        (w₁ ++ (m ++ (w₂ ++ (sep.toList ++ (w₃ ++ ("tier".toList ++ (w₄ ++ n)))))))) =
      if m = "11".toList ∨ n = "11".toList then superTiers else [] := by
  have hdm := isDigits_of_decimal? hm
  have hdn := isDigits_of_decimal? hn
  have hafter :=
    hw₂.head?_any_isDigit (separator_head hsep (w₃ ++ ("tier".toList ++ (w₄ ++ n)))).1
  have hlast : following "tier".toList n = [] := following_of_not_mem hdn.not_mem_t
  have hsecond := hits_blanks_eleven hw₄ hn hb (s := []) rfl (some 'r')
  rw [List.append_nil] at hsecond
  apply bandTiers_of_following
    (RangeSpelling.isForeign_eq_false hdm hdn (.full hw₁ hw₂ hw₃ hw₄ hsep))
  rw [following_tier_tier, following_tier_append hw₁.not_mem_t,
    following_tier_afterNumber hdm hw₂ hw₃ hsep, following_tier_tier,
    following_tier_append hw₄.not_mem_t, hlast]
  simp only [List.mem_cons, List.not_mem_nil, or_false, exists_eq_or_imp, exists_eq_left, hsecond,
    hits_blanks_eleven hw₁ hm ha hafter]

end

/-! ## The finds in a range -/

/-- A range that was found by its two numerals has the tiers between their values. -/
theorem rangeOf_numerals {m n s : List Char} {a b : Nat} (hm : decimal? m = some a)
    (hn : decimal? n = some b) (ha : minTier ≤ a) (hab : a ≤ b) (hb : b ≤ maxTier) :
    rangeOf ⟨s, [m, n], []⟩ = Tier.between a b := by
  have hstart : Tier.ofDigits? m = some ⟨a, ha, hab.trans hb⟩ := by
    rw [Tier.ofDigits?_of_decimal? hm, Tier.ofNat?_eq_some]
  have hstop : Tier.ofDigits? n = some ⟨b, ha.trans hab, hb⟩ := by
    rw [Tier.ofDigits?_of_decimal? hn, Tier.ofNat?_eq_some]
  simp only [rangeOf, List.map_cons, List.map_nil, hstart, hstop, Tier.span]

/-- The patterns of ranges find one range in the query, all of it, by its two numerals. -/
def FindsOnly (s m n : List Char) : Prop :=
  rangePatterns.flatMap (fun p => p.finds s) = [⟨s, [m, n], []⟩]

theorem FindsOnly.of_finds {s m n : List Char} {tier short full : List Hit}
    (htier : (rangeShape numeral).finds s = tier)
    (hshort : (shortRangeShape numeral).finds s = short)
    (hfull : (fullRangeShape numeral).finds s = full)
    (honly : tier ++ (short ++ full) = [⟨s, [m, n], []⟩]) : FindsOnly s m n := by
  unfold FindsOnly
  rw [rangePatterns_eq, List.flatMap_cons, List.flatMap_cons, List.flatMap_singleton, htier, hshort,
    hfull, honly]

/-- The tiers of a query that is one range are those between its ends. -/
theorem FindsOnly.rangeTiers_eq {s m n : List Char} {a b : Nat} (h : FindsOnly s m n)
    (hm : decimal? m = some a) (hn : decimal? n = some b) (ha : minTier ≤ a) (hab : a ≤ b)
    (hb : b ≤ maxTier) : rangeTiers s = Tier.between a b := by
  unfold FindsOnly at h
  rw [rangeTiers, ← List.flatMap_assoc, h, List.flatMap_singleton, rangeOf_numerals hm hn ha hab hb,
    firstSeen_eq_self (Tier.between_nodup a b)]

section

variable {m n s w w₁ w₂ w₃ w₄ : List Char} {sep : String}
  (hm : IsDigits m) (hn : IsDigits n)
  (hw₁ : IsGap w₁) (hw₂ : IsGap w₂) (hw₃ : IsGap w₃) (hsep : sep ∈ rangeSeparators)
include hm hn hw₁ hw₂ hsep

theorem findsOnly_shortRange :
    FindsOnly ("t".toList ++ (m ++ (w₁ ++ (sep.toList ++ (w₂ ++ n))))) m n := by
  have hnone : following "tier".toList
      ("t".toList ++ (m ++ (w₁ ++ (sep.toList ++ (w₂ ++ n))))) = [] := by
    rw [following_tier_t hm, following_tier_afterNumber hm hw₁ hw₂ hsep]
    exact following_of_not_mem hn.not_mem_t
  have honly := takesOnly_shortRangeShape (s := []) readsDigits_numeral hw₁ hw₂ hsep hm hn rfl
  refine .of_finds (finds_range_eq_nil ?_) (honly.finds_eq (by simp)) (finds_fullRange_eq_nil ?_)
    rfl
  · rw [hnone]
    exact List.forall_mem_nil _
  · rw [hnone]
    exact List.forall_mem_nil _

include hw₃

theorem findsOnly_tierRange :
    FindsOnly ("tier".toList ++ (w₁ ++ (m ++ (w₂ ++ (sep.toList ++ (w₃ ++ n)))))) m n := by
  have hlast : following "tier".toList n = [] := following_of_not_mem hn.not_mem_t
  have honly := takesOnly_rangeShape (s := []) readsDigits_numeral hw₁ hw₂ hw₃ hsep hm hn rfl
  -- Behind the separator the third spelling wants another "tier", and there are digits.
  have hrefuse : (tierShape numeral).Refuses n := by
    obtain ⟨d, t, rfl⟩ := List.exists_cons_of_ne_nil hn.ne_nil
    have hd : 't' ≠ d := by
      rintro rfl
      exact hn.not_mem_t (by simp)
    exact (refuses_literal (by simp [List.isPrefixOf, hd])).seq_left
  have hblank := hn.head?_any_isBlank []
  rw [List.append_nil] at hblank
  refine .of_finds (honly.finds_eq (by simp)) (finds_shortRange_eq_nil ?_)
    (finds_fullRange_eq_nil ?_) rfl
  · exact .tier (.append hw₁.not_mem_t
      (.afterNumber hm hw₂ hw₃ hsep (noShortTier_of_not_mem hn.not_mem_t)))
  · rw [following_tier_tier, following_tier_append hw₁.not_mem_t,
      following_tier_afterNumber hm hw₂ hw₃ hsep, hlast, List.forall_mem_singleton]
    exact refuses_afterNumber hw₁ hm hw₂ hw₃ hsep hblank hrefuse

theorem findsOnly_fullRange (hw₄ : IsGap w₄) :
    FindsOnly ("tier".toList ++
      (w₁ ++ (m ++ (w₂ ++ (sep.toList ++ (w₃ ++ ("tier".toList ++ (w₄ ++ n)))))))) m n := by
  have hlast : following "tier".toList n = [] := following_of_not_mem hn.not_mem_t
  have honly :=
    takesOnly_fullRangeShape (s := []) readsDigits_numeral hw₁ hw₂ hw₃ hw₄ hsep hm hn rfl
  refine .of_finds (finds_range_eq_nil ?_) (finds_shortRange_eq_nil ?_) (honly.finds_eq (by simp))
    rfl
  · rw [following_tier_tier, following_tier_append hw₁.not_mem_t,
      following_tier_afterNumber hm hw₂ hw₃ hsep, following_tier_tier,
      following_tier_append hw₄.not_mem_t, hlast, List.forall_mem_cons, List.forall_mem_singleton]
    -- The first spelling wants digits behind the separator, and a separator behind the last number.
    exact ⟨refuses_afterNumber hw₁ hm hw₂ hw₃ hsep rfl (refuses_numeral rfl),
      refuses_number_at_end hw₄ hn⟩
  · exact .tier (.append hw₁.not_mem_t (.afterNumber hm hw₂ hw₃ hsep
      (.tier (.append hw₄.not_mem_t (noShortTier_of_not_mem hn.not_mem_t)))))

end

/-! ## The tiers of a range -/

/-- The tiers of a query in which super ships decide or else the rule of ranges. -/
theorem tiers_values {s : List Char} {a b : Nat} {P : Prop} [Decidable P]
    (hband : bandTiers s = if P then superTiers else []) (hrange : rangeTiers s = Tier.between a b)
    (ha : minTier ≤ a) (hab : a ≤ b) (hb : b ≤ maxTier) :
    (tiers s).map Tier.value = if P then [11] else List.range' a (b + 1 - a) := by
  have hvalues := Tier.between_values ha hb
  have hne : Tier.between a b ≠ [] := by
    intro hnil
    rw [hnil, List.map_nil] at hvalues
    have hlength := congrArg List.length hvalues
    rw [List.length_nil, List.length_range'] at hlength
    omega
  have hsuper : superTiers ≠ [] ∧ superTiers.map Tier.value = [11] := by decide
  rw [tiers_eq, hband, hrange]
  by_cases hP : P
  · rw [if_pos hP, if_pos hP, if_pos hsuper.1, hsuper.2]
  · rw [if_neg hP, if_neg hP, if_neg (by simp), if_pos hne, hvalues]

/-- Where the first number of a range reads "11", the range is tier 11. -/
theorem range'_of_eleven {m : List Char} {a b : Nat} (hm : decimal? m = some a) (hab : a ≤ b)
    (hb : b ≤ maxTier) (heleven : m = "11".toList) : List.range' a (b + 1 - a) = [11] := by
  have hvalue : decimal? "11".toList = some 11 := by decide
  rw [heleven, hvalue, Option.some.injEq] at hm
  have hmax : b ≤ 11 := hb
  obtain rfl : b = 11 := by omega
  subst hm
  rfl

theorem isGap_space : IsGap " ".toList := by
  intro c hc
  rw [List.mem_singleton.1 hc]
  rfl

/-- **A range is read as the tiers from its first to its last**, in whichever spelling and however
its numerals are written. Only if its second "tier" is followed by "11" the band of super ships
decides instead. -/
theorem tiers_of_range {m n w₁ w₂ w₃ w₄ : List Char} {sep : String} {a b : Nat}
    (hm : decimal? m = some a) (hn : decimal? n = some b) (ha : 1 ≤ a) (hab : a ≤ b) (hb : b ≤ 11)
    (hsep : sep ∈ rangeSeparators) (hw₁ : IsGap w₁) (hw₂ : IsGap w₂) (hw₃ : IsGap w₃)
    (hw₄ : IsGap w₄) :
    (tiers ("tier".toList ++ (w₁ ++ (m ++ (w₂ ++ (sep.toList ++ (w₃ ++ n))))))).map Tier.value =
        List.range' a (b + 1 - a) ∧
      (tiers ("t".toList ++ (m ++ (w₂ ++ (sep.toList ++ (w₃ ++ n)))))).map Tier.value =
        List.range' a (b + 1 - a) ∧
      (tiers ("tier".toList ++
          (w₁ ++ (m ++ (w₂ ++ (sep.toList ++ (w₃ ++ ("tier".toList ++ (w₄ ++ n))))))))).map
          Tier.value =
        if n = "11".toList then [11] else List.range' a (b + 1 - a) := by
  have hdm := isDigits_of_decimal? hm
  have hdn := isDigits_of_decimal? hn
  have hamax : a ≤ maxTier := hab.trans hb
  refine ⟨?_, ?_, ?_⟩
  · have htiers := tiers_values (bandTiers_tierRange hm hn hw₁ hw₂ hw₃ hsep hamax)
      ((findsOnly_tierRange hdm hdn hw₁ hw₂ hw₃ hsep).rangeTiers_eq hm hn ha hab hb) ha hab hb
    rw [htiers]
    split
    · next heleven => exact (range'_of_eleven hm hab hb heleven).symm
    · rfl
  · have htiers := tiers_values (P := False) (bandTiers_shortRange hm hn hw₂ hw₃ hsep)
      ((findsOnly_shortRange hdm hdn hw₂ hw₃ hsep).rangeTiers_eq hm hn ha hab hb) ha hab hb
    rw [htiers, if_neg not_false]
  · have htiers := tiers_values (bandTiers_fullRange hm hn hw₁ hw₂ hw₃ hsep hw₄ hamax hb)
      ((findsOnly_fullRange hdm hdn hw₁ hw₂ hw₃ hsep hw₄).rangeTiers_eq hm hn ha hab hb) ha hab hb
    rw [htiers]
    by_cases hlast : n = "11".toList
    · rw [if_pos hlast, if_pos (.inr hlast)]
    · rw [if_neg hlast]
      split
      · next heleven => exact (range'_of_eleven hm hab hb (heleven.resolve_right hlast)).symm
      · rfl

/-- Leading zeros, blanks on some sides of the separator, and a dash between. -/
theorem tiers_of_range_seven_ten :
    decimal? "07".toList = some 7 ∧ decimal? "10".toList = some 10 ∧ "–" ∈ rangeSeparators ∧
      IsGap " ".toList ∧ IsGap [] ∧
      (tiers "tier 07 –10".toList).map Tier.value = [7, 8, 9, 10] ∧
      (tiers "t07 –10".toList).map Tier.value = [7, 8, 9, 10] ∧
      (tiers "tier 07 –tier 10".toList).map Tier.value = [7, 8, 9, 10] := by
  have hm : decimal? "07".toList = some 7 := by decide
  have hn : decimal? "10".toList = some 10 := by decide
  have hsep : "–" ∈ rangeSeparators := by decide
  obtain ⟨htier, hshort, hfull⟩ := tiers_of_range hm hn (by omega) (by omega) (by omega) hsep
    isGap_space isGap_space isGap_nil isGap_space
  exact ⟨hm, hn, hsep, isGap_space, isGap_nil, htier, hshort, hfull⟩

/-- A range in its longest spelling that ends with "tier 11" is read as super ships alone. -/
theorem range_to_tier_eleven :
    RangeSpelling "9".toList "11".toList "tier 9 to tier 11".toList ∧
      decimal? "9".toList = some 9 ∧ decimal? "11".toList = some 11 ∧
      (tiers "tier 9 to tier 11".toList).map Tier.value = [11] ∧
      (tiers "tier 9 to tier 11".toList).map Tier.value ≠ [9, 10, 11] := by
  have hspelling : RangeSpelling "9".toList "11".toList "tier 9 to tier 11".toList :=
    .full (a := "to") isGap_space isGap_space isGap_space isGap_space (by decide)
  exact ⟨hspelling, by decide, by decide, by decide, by decide⟩

end FleetSearch.Query
