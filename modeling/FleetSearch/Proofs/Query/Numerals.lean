/-
# FleetSearch.Proofs.Query.Numerals -- a numeral on its own

Behind "t" a numeral is read whole: a query of nothing else has the tier of its number, or none if
the number is that of no tier, however many digits and leading zeros it has. Behind "tier" the same
holds, save for numbers whose first two digits are "11". The name "tier 11" of super ships may stand
inside a longer word, so the band takes these two digits and leaves the others: "tier 110" is read
as tier 11 (`tiers_of_numeral`).
-/

import FleetSearch.Proofs.Query.Ranges

namespace FleetSearch.Query

open Text Vocabulary Pattern

/-! ## Ranges -/

/-- Characters that stand in a range nowhere but in its separator. Each separator has one. -/
def joints : List Char := "-–—o".toList

/-- Without a separator there is no range. -/
theorem rangeTiers_eq_nil {q : List Char} (hq : q.countP joints.contains = 0) :
    rangeTiers q = [] := by
  have hneeds : ∀ p ∈ rangePatterns, 0 < p.atLeast joints.contains := by decide
  rw [List.eq_nil_iff_forall_not_mem]
  intro t ht
  obtain ⟨p, hp, h, hh, -⟩ := mem_rangeTiers.1 ht
  have hnone : p.finds q = [] := by
    apply finds_eq_nil_of_not_occurs
    apply occurs_eq_false_of_countP joints.contains
    rw [hq]
    exact hneeds p hp
  rw [hnone] at hh
  cases hh

/-! ## The rules for a numeral -/

/-- Where one numeral is found and no roman one, its tier is the only one, if it is a tier. -/
theorem singleTiers_of_finds {s u ds : List Char} {n : Nat} (hds : decimal? ds = some n)
    (hfinds : (tierShape numeral).finds s ++ (shortShape numeral).finds s = [⟨u, [ds], []⟩])
    (hroman : romanTierPattern.finds s = []) : singleTiers s = (Tier.ofNat? n).toList := by
  have hread : tierOf Tier.ofDigits? ⟨u, [ds], []⟩ = Tier.ofNat? n :=
    Tier.ofDigits?_of_decimal? hds
  rw [singleTiers, digitPatterns_eq, List.flatMap_cons, List.flatMap_singleton,
    ← List.filterMap_append, hfinds, hroman, List.filterMap_nil, List.append_nil,
    List.filterMap_cons, hread, List.filterMap_nil]
  cases Tier.ofNat? n <;> rfl

section

variable {ds w : List Char} {n : Nat} (hds : decimal? ds = some n)
include hds

/-- There is no "tier" in the query. -/
theorem following_tier_short : following "tier".toList ("t".toList ++ ds) = [] := by
  have hdigits := isDigits_of_decimal? hds
  have hsame := following_tier_t (s := []) hdigits
  rw [List.append_nil] at hsame
  rw [hsame]
  exact following_of_not_mem hdigits.not_mem_t

theorem bandTiers_short : bandTiers ("t".toList ++ ds) = [] := by
  have hforeign : ∀ c ∈ "t".toList ++ ds, isForeign c = false :=
    List.forall_mem_append.2
      ⟨isForeign_of_all (by decide), isForeign_of_isDigit (isDigits_of_decimal? hds)⟩
  rw [bandTiers_of_following (P := False) hforeign, if_neg not_false]
  rw [following_tier_short hds]
  simp

/-- What stands behind "tier" in the query is the gap and the numeral. -/
theorem following_tier_numeral (hw : IsGap w) :
    following "tier".toList ("tier".toList ++ (w ++ ds)) = [w ++ ds] := by
  have hnone : following "tier".toList ds = [] :=
    following_of_not_mem (isDigits_of_decimal? hds).not_mem_t
  rw [following_tier_tier, following_tier_append hw.not_mem_t, hnone]

theorem bandTiers_tier (hw : IsGap w) : bandTiers ("tier".toList ++ (w ++ ds)) =
    if "11".toList <+: ds then superTiers else [] := by
  have hdigits := isDigits_of_decimal? hds
  have hforeign : ∀ c ∈ "tier".toList ++ (w ++ ds), isForeign c = false := by
    simp only [List.forall_mem_append]
    exact ⟨isForeign_of_all (by decide), isForeign_of_isBlank hw, isForeign_of_isDigit hdigits⟩
  apply bandTiers_of_following hforeign
  have heleven := hits_blanks_eleven_iff (s := []) hw hdigits (some 'r')
  rw [List.append_nil, List.isPrefixOf_iff_prefix] at heleven
  rw [following_tier_numeral hds hw]
  simpa only [List.mem_singleton, exists_eq_left] using heleven

theorem singleTiers_short : singleTiers ("t".toList ++ ds) = (Tier.ofNat? n).toList := by
  have hdigits := isDigits_of_decimal? hds
  have hshort := (takesOnly_shortShape (s := []) readsDigits_numeral hdigits rfl).finds_eq (by simp)
  have htier : ∀ v ∈ following "tier".toList ("t".toList ++ ds), False := by
    rw [following_tier_short hds]
    exact List.forall_mem_nil _
  apply singleTiers_of_finds hds
  · rw [hshort, finds_eq_nil_of_not_occurs, List.nil_append]
    exact occurs_literal_seq_eq_false (c := 't') fun v hv => (htier v hv).elim
  · apply finds_eq_nil_of_not_occurs
    exact occurs_literal_seq_eq_false (c := 't') fun v hv => (htier v hv).elim

theorem singleTiers_tier (hw : IsGap w) :
    singleTiers ("tier".toList ++ (w ++ ds)) = (Tier.ofNat? n).toList := by
  have hdigits := isDigits_of_decimal? hds
  have htier :=
    (takesOnly_tierShape (s := []) readsDigits_numeral hw hdigits rfl).finds_eq (by simp)
  apply singleTiers_of_finds hds
  · rw [htier, finds_eq_nil_of_not_occurs, List.append_nil]
    have hnone : NoShortTier ("tier".toList ++ (w ++ ds)) :=
      .tier (.append hw.not_mem_t (noShortTier_of_not_mem hdigits.not_mem_t))
    exact occurs_literal_seq_eq_false (c := 't') fun v hv => refuses_numeral (hnone v hv)
  · apply finds_eq_nil_of_not_occurs
    apply occurs_literal_seq_eq_false (c := 't')
    intro v hv
    obtain rfl : v = w ++ ds := by
      rw [← List.mem_singleton, ← following_tier_numeral hds hw]
      exact hv
    -- A digit stands where the roman numeral should be.
    have hblank := hdigits.head?_any_isBlank []
    rw [List.append_nil] at hblank
    refine (takesOnly_gap hw hblank).seq_refuses (Refuses.seq_left (Refuses.capture ?_))
    obtain ⟨d, t, rfl⟩ := List.exists_cons_of_ne_nil hdigits.ne_nil
    intro b
    exact romanPattern_hits_digit (hdigits.all d (by simp)) b t

theorem rangeTiers_short : rangeTiers ("t".toList ++ ds) = [] := by
  apply rangeTiers_eq_nil
  rw [List.countP_append, (isDigits_of_decimal? hds).countP_eq_zero (by decide)]
  decide

theorem rangeTiers_tier (hw : IsGap w) : rangeTiers ("tier".toList ++ (w ++ ds)) = [] := by
  apply rangeTiers_eq_nil
  rw [List.countP_append, List.countP_append, hw.countP_eq_zero (by decide),
    (isDigits_of_decimal? hds).countP_eq_zero (by decide)]
  decide

end

/-! ## The tiers of a numeral -/

/-- The number of a tier, or nothing. -/
theorem map_value_ofNat? (n : Nat) :
    (Tier.ofNat? n).toList.map Tier.value = if 1 ≤ n ∧ n ≤ 11 then [n] else [] := by
  unfold Tier.ofNat? minTier maxTier
  split <;> rfl

/-- **A numeral is read whole**, behind "t" always, and behind "tier" if it does not begin with
"11"; if it does, it is read as tier 11. So behind "tier" a numeral is read whole exactly if it is
"11" itself whenever it begins with "11". -/
theorem tiers_of_numeral {ds w : List Char} {n : Nat} (hds : decimal? ds = some n) (hw : IsGap w) :
    (tiers ("t".toList ++ ds)).map Tier.value = (if 1 ≤ n ∧ n ≤ 11 then [n] else []) ∧
      (tiers ("tier".toList ++ (w ++ ds))).map Tier.value =
        (if "11".toList <+: ds then [11] else if 1 ≤ n ∧ n ≤ 11 then [n] else []) ∧
      ((tiers ("tier".toList ++ (w ++ ds))).map Tier.value =
          (if 1 ≤ n ∧ n ≤ 11 then [n] else []) ↔
        ("11".toList <+: ds → ds = "11".toList)) := by
  have hshort : (tiers ("t".toList ++ ds)).map Tier.value =
      if 1 ≤ n ∧ n ≤ 11 then [n] else [] := by
    rw [tiers_eq, bandTiers_short hds, rangeTiers_short hds, singleTiers_short hds,
      if_neg (by simp), if_neg (by simp), map_value_ofNat?]
  have htier : (tiers ("tier".toList ++ (w ++ ds))).map Tier.value =
      if "11".toList <+: ds then [11] else if 1 ≤ n ∧ n ≤ 11 then [n] else [] := by
    rw [tiers_eq, bandTiers_tier hds hw, rangeTiers_tier hds hw, singleTiers_tier hds hw]
    by_cases heleven : "11".toList <+: ds
    · rw [if_pos heleven, if_pos heleven]
      rfl
    · rw [if_neg heleven, if_neg heleven, if_neg (by simp), if_neg (by simp), map_value_ofNat?]
  refine ⟨hshort, htier, ?_⟩
  rw [htier]
  by_cases heleven : "11".toList <+: ds
  · rw [if_pos heleven]
    constructor
    · intro hread _
      -- Only a tier has a number to be read, and of these "11" is the one that begins so.
      have hle : n ≤ maxTier := by
        by_contra hlarge
        rw [if_neg fun h => hlarge h.2] at hread
        cases hread
      have hself := isPrefixOf_eleven (s := []) hds hle rfl
      rw [List.append_nil, List.isPrefixOf_iff_prefix] at hself
      exact hself.1 heleven
    · intro hself
      have hvalue : decimal? "11".toList = some 11 := by decide
      rw [hself heleven, hvalue, Option.some.injEq] at hds
      subst hds
      rfl
  · rw [if_neg heleven]
    exact ⟨fun _ h => absurd h heleven, fun _ => rfl⟩

/-- Leading zeros before "11" keep it from being taken for super ships, and do not change it. -/
theorem tiers_of_numeral_eleven :
    decimal? "0011".toList = some 11 ∧ IsGap " ".toList ∧
      (tiers "t0011".toList).map Tier.value = [11] ∧
      (tiers "tier 0011".toList).map Tier.value = [11] := by
  have hds : decimal? "0011".toList = some 11 := by decide
  obtain ⟨hshort, htier, -⟩ := tiers_of_numeral hds isGap_space
  exact ⟨hds, isGap_space, hshort, htier⟩

/-- The number 110 is that of no tier, and behind "t" it is read as none. Behind "tier" its first
two digits are read as tier 11. -/
theorem tier_one_hundred_ten :
    decimal? "110".toList = some 110 ∧ IsGap " ".toList ∧
      (tiers "t110".toList).map Tier.value = [] ∧
      (tiers "tier 110".toList).map Tier.value = [11] ∧
      (tiers "tier 110".toList).map Tier.value ≠ if 1 ≤ 110 ∧ 110 ≤ 11 then [110] else [] :=
  ⟨by decide, isGap_space, by decide, by decide, by decide⟩

end FleetSearch.Query
