/-
# FleetSearch.Proofs.Query.TierMentions -- the mentions that tiers are read from

A single tier is written in one of three forms, as in "tier 8", "t8" and "tier viii"
(`TierMention`), and a range of tiers in one of three as well, as in "tier 7-10", "t7-10" and
"tier 7 to tier 10" (`RangeMention`). In digits the number may be as large as it likes; whether it
is that of a tier is asked afterwards.

The rule of single tiers misses no mention of any form: it lists the tiers among all numbers
mentioned, form by form (`singleTiers_lists_mentions`). Ranges may share characters, as in
"tier 5 - tier 6 - tier 7", and then only the first counts. The rule of ranges yields the tiers that
lie in some range mentioned whose ends are tiers in the right order (`rangeTiers_unites_mentions`).
-/

import FleetSearch.Proofs.Pattern.Mentions
import FleetSearch.Proofs.Query.Ranges

namespace FleetSearch.Query

open Text Vocabulary Pattern

/-! ## The forms of mentions -/

/-- The forms in which a single tier is written. -/
inductive SingleForm where
  | tier | short | roman

/-- The text is a number in the given form, and the number does not go on behind it. -/
inductive TierMention : SingleForm → List Char → Nat → List Char → Prop
  | tier {w ds s : List Char} {n : Nat} :
      IsGap w → decimal? ds = some n → s.head?.any Char.isDigit = false →
      TierMention .tier ("tier".toList ++ (w ++ ds)) n s
  | short {ds s : List Char} {n : Nat} :
      decimal? ds = some n → s.head?.any Char.isDigit = false →
      TierMention .short ("t".toList ++ ds) n s
  | roman {w s : List Char} {r : String} {n : Nat} :
      IsGap w → (r, n) ∈ romanNumerals → isWordEdge r.toList.getLast? s.head? = true →
      TierMention .roman ("tier".toList ++ (w ++ r.toList)) n s

/-- The forms in which a range of tiers is written. -/
inductive RangeForm where
  | tier | short | full

/-- The text is a range from one number to another in the given form, and the second number does
not go on behind it. -/
inductive RangeMention : RangeForm → List Char → Nat × Nat → List Char → Prop
  | tier {w₁ w₂ w₃ m n s : List Char} {sep : String} {a b : Nat} :
      IsGap w₁ → IsGap w₂ → IsGap w₃ → sep ∈ rangeSeparators → decimal? m = some a →
      decimal? n = some b → s.head?.any Char.isDigit = false →
      RangeMention .tier
        ("tier".toList ++ (w₁ ++ (m ++ (w₂ ++ (sep.toList ++ (w₃ ++ n)))))) (a, b) s
  | short {w₁ w₂ m n s : List Char} {sep : String} {a b : Nat} :
      IsGap w₁ → IsGap w₂ → sep ∈ rangeSeparators → decimal? m = some a →
      decimal? n = some b → s.head?.any Char.isDigit = false →
      RangeMention .short ("t".toList ++ (m ++ (w₁ ++ (sep.toList ++ (w₂ ++ n))))) (a, b) s
  | full {w₁ w₂ w₃ w₄ m n s : List Char} {sep : String} {a b : Nat} :
      IsGap w₁ → IsGap w₂ → IsGap w₃ → IsGap w₄ → sep ∈ rangeSeparators → decimal? m = some a →
      decimal? n = some b → s.head?.any Char.isDigit = false →
      RangeMention .full
        ("tier".toList ++
          (w₁ ++ (m ++ (w₂ ++ (sep.toList ++ (w₃ ++ ("tier".toList ++ (w₄ ++ n)))))))) (a, b) s

/-! ## Hits part by part -/

section Hits

variable {b : Option Char} {s : List Char} {h : Hit}

/-- Behind "tier" and a gap the rest of a pattern is hit. -/
theorem mem_hits_tierThen {q : Pattern}
    (hh : h ∈ ((word "tier").seq (blanks.seq q)).hits b s) :
    ∃ w k c t, IsGap w ∧ k ∈ q.hits c t ∧ h.text = "tier".toList ++ (w ++ k.text) ∧
      h.groups = k.groups ∧ h.rest = k.rest := by
  obtain ⟨h₁, hh₁, k₁, hk₁, rfl⟩ := mem_hits_seq.1 hh
  obtain ⟨h₂, hh₂, k, hk, rfl⟩ := mem_hits_seq.1 hk₁
  obtain ⟨htext, hgroups⟩ := mem_hits_literal hh₁
  obtain ⟨hgap, hnone⟩ := mem_hits_gap hh₂
  exact ⟨h₂.text, k, _, _, hgap, hk, by simp [htext], by simp [hgroups, hnone], rfl⟩

/-- Behind the first number of a range and a separator between gaps the rest of a pattern is hit. -/
theorem mem_hits_afterNumber {q : Pattern}
    (hh : h ∈ (all [numeral, .blanks, separatorPattern, .blanks, q]).hits b s) :
    ∃ m w₁ sep w₂ k c t, IsDigits m ∧ IsGap w₁ ∧ sep ∈ rangeSeparators ∧ IsGap w₂ ∧ k ∈ q.hits c t ∧
      h.text = m ++ (w₁ ++ (sep.toList ++ (w₂ ++ k.text))) ∧ h.groups = m :: k.groups ∧
      h.rest = k.rest := by
  obtain ⟨h₁, hh₁, k₁, hk₁, rfl⟩ := mem_hits_seq.1 hh
  obtain ⟨h₂, hh₂, k₂, hk₂, rfl⟩ := mem_hits_seq.1 hk₁
  obtain ⟨h₃, hh₃, k₃, hk₃, rfl⟩ := mem_hits_seq.1 hk₂
  obtain ⟨h₄, hh₄, k, hk, rfl⟩ := mem_hits_seq.1 hk₃
  obtain ⟨hm, hgroup, -⟩ := mem_hits_numeral hh₁
  obtain ⟨hw₁, hnone₁⟩ := mem_hits_gap hh₂
  obtain ⟨sep, hsep, htext, hnone⟩ := mem_hits_separator hh₃
  obtain ⟨hw₂, hnone₂⟩ := mem_hits_gap hh₄
  exact ⟨h₁.text, h₂.text, sep, h₄.text, k, _, _, hm, hw₁, hsep, hw₂, hk, by simp [htext],
    by simp [hgroup, hnone₁, hnone, hnone₂], rfl⟩

end Hits

/-! ## Mentions of single tiers -/

/-- The pattern of each form. -/
def SingleForm.pattern : SingleForm → Pattern
  | .tier => tierShape numeral
  | .short => shortShape numeral
  | .roman => romanTierPattern

/-- How the number of each form is read. -/
def SingleForm.read : SingleForm → List Char → Option Tier
  | .tier | .short => Tier.ofDigits?
  | .roman => romanTier?

theorem IsDigits.decimal?_eq {ds : List Char} (h : IsDigits ds) :
    decimal? ds = some (decimalAfter 0 ds) := decimal?_eq_some.2 ⟨h.ne_nil, h.all, rfl⟩

/-- A roman numeral of the table is a word and has no "t", and one entry has its value. -/
theorem roman_entry {r : String} {n : Nat} (hr : (r, n) ∈ romanNumerals) :
    r.toList ≠ [] ∧ (∀ c ∈ r.toList, isWord c = true) ∧ 't' ∉ r.toList ∧
      romanValue? r = some n := by
  have hall : ∀ row ∈ romanNumerals, row.1.toList ≠ [] ∧ row.1.toList.all isWord = true ∧
      't' ∉ row.1.toList ∧ romanValue? row.1 = some row.2 := by
    decide
  obtain ⟨hne, hword, ht, hvalue⟩ := hall _ hr
  exact ⟨hne, List.all_eq_true.1 hword, ht, hvalue⟩

/-- Behind a roman numeral there is a word edge exactly if no word goes on. -/
theorem isWordEdge_roman_iff {r : String} {n : Nat} (hr : (r, n) ∈ romanNumerals)
    (c : Option Char) : isWordEdge r.toList.getLast? c = true ↔ isWordAt c = false := by
  obtain ⟨hne, hword, -, -⟩ := roman_entry hr
  have hlast : isWordAt r.toList.getLast? = true := by
    rw [List.getLast?_eq_some_getLast hne]
    exact hword _ (List.getLast_mem hne)
  simp [isWordEdge, hlast]

theorem exists_mem_romanNumerals {r : String} (hr : r ∈ romanNumerals.map Prod.fst) :
    ∃ n, (r, n) ∈ romanNumerals := by
  obtain ⟨⟨_, n⟩, hmem, rfl⟩ := List.mem_map.1 hr
  exact ⟨n, hmem⟩

/-- The pattern of roman tiers takes a numeral behind which no word goes on. -/
theorem takes_romanTierPattern {w s : List Char} {r : String} {n : Nat} (hw : IsGap w)
    (hr : (r, n) ∈ romanNumerals) (hs : isWordEdge r.toList.getLast? s.head? = true) :
    romanTierPattern.Takes ("tier".toList ++ (w ++ r.toList)) [r.toList] s := by
  have hmem : r ∈ romanNumerals.map Prod.fst := List.mem_map_of_mem hr
  have hnumeral : (capture romanPattern).Takes r.toList [r.toList] s :=
    (takes_oneOf (List.mem_map_of_mem hmem) (takesOnly_word r).takes).capture
  have hend : (all [capture romanPattern, .edge]).Takes r.toList [r.toList] s := by
    intro b
    have hlast : Hit.lastOr ⟨r.toList, [r.toList], s⟩ b = r.toList.getLast? := by
      simp [Hit.lastOr, List.getLast?_eq_some_getLast (roman_entry hr).1]
    have hstop : Hit.here s ∈ edge.hits (Hit.lastOr ⟨r.toList, [r.toList], s⟩ b) s :=
      mem_hits_edge.2 ⟨by rwa [hlast], rfl⟩
    exact mem_hits_seq.2 ⟨_, hnumeral b, _, hstop, by simp [Hit.andThen, Hit.here]⟩
  exact (takesOnly_word "tier").takes.seq ((takesOnly_gap hw (roman_head hmem s)).takes.seq hend)

/-- A hit of the pattern of roman tiers is a mention. -/
theorem mem_hits_romanTierPattern {b : Option Char} {s : List Char} {h : Hit}
    (hh : h ∈ romanTierPattern.hits b s) :
    ∃ r n, (r, n) ∈ romanNumerals ∧ h.groups = [r.toList] ∧ TierMention .roman h.text n h.rest := by
  obtain ⟨w, k, c, t, hw, hk, htext, hgroups, hrest⟩ := mem_hits_tierThen hh
  obtain ⟨h₁, hh₁, h₂, hh₂, rfl⟩ := mem_hits_seq.1 hk
  obtain ⟨h₃, hh₃, rfl⟩ := mem_hits_capture.1 hh₁
  obtain ⟨hedge, rfl⟩ := mem_hits_edge.1 hh₂
  obtain ⟨r, hr, hnumeral, hnone⟩ := mem_hits_romanPattern hh₃
  obtain ⟨n, hr⟩ := exists_mem_romanNumerals hr
  have hlast : h₃.captured.lastOr c = r.toList.getLast? := by
    simp [Hit.lastOr, Hit.captured, hnumeral, List.getLast?_eq_some_getLast (roman_entry hr).1]
  rw [hlast] at hedge
  refine ⟨r, n, hr, by simp [hgroups, Hit.captured, hnumeral, hnone], ?_⟩
  rw [htext, hrest]
  simpa [Hit.captured, hnumeral] using TierMention.roman hw hr hedge

/-- A roman numeral behind which no word goes on is known by the text that it begins. -/
theorem roman_unique {r r' : String} {m n : Nat} {s t : List Char} (hr : (r, m) ∈ romanNumerals)
    (hr' : (r', n) ∈ romanNumerals) (hs : isWordEdge r.toList.getLast? s.head? = true)
    (ht : isWordEdge r'.toList.getLast? t.head? = true) (h : r.toList ++ s = r'.toList ++ t) :
    r = r' ∧ m = n := by
  have hrun : ∀ {r n s}, (r, n) ∈ romanNumerals → isWordEdge r.toList.getLast? s.head? = true →
      Hit.run isWord (r.toList ++ s) = ⟨r.toList, [], s⟩ := by
    intro r n s hr hs
    have hstop : s.head?.any isWord = false := (isWordEdge_roman_iff hr _).1 hs
    exact run_append (roman_entry hr).2.1 hstop
  have hsame := hrun hr hs
  rw [h, hrun hr' ht, Hit.mk.injEq] at hsame
  obtain rfl : r = r' := (String.toList_inj.1 hsame.1).symm
  have hvalue := (roman_entry hr).2.2.2
  rw [(roman_entry hr').2.2.2, Option.some.injEq] at hvalue
  exact ⟨rfl, hvalue.symm⟩

/-- A text that is taken by its numeral is known with its number by the text that it begins. -/
theorem unique_of_takesOnly {p : Pattern} {u v s t ds ds' : List Char} {m n : Nat}
    (hu : p.TakesOnly u [ds] s) (hv : p.TakesOnly v [ds'] t) (hds : decimal? ds = some m)
    (hds' : decimal? ds' = some n) (h : u ++ s = v ++ t) : u = v ∧ m = n := by
  obtain ⟨htext, hgroups⟩ := hu.unique hv h
  obtain rfl := List.singleton_inj.1 hgroups
  exact ⟨htext, Option.some.inj (hds.symm.trans hds')⟩

theorem isDefinite_tierMention (f : SingleForm) : IsDefinite (TierMention f) where
  ne_nil := by
    intro u s n h
    cases h <;> simp
  unique := by
    intro u v s t m n hu hv hcut
    cases hu with
    | tier hw hds hs =>
      cases hv with
      | tier hw' hds' ht =>
        have honly := takesOnly_tierShape readsDigits_numeral hw (isDigits_of_decimal? hds) hs
        have honly' := takesOnly_tierShape readsDigits_numeral hw' (isDigits_of_decimal? hds') ht
        exact unique_of_takesOnly honly honly' hds hds' hcut
    | short hds hs =>
      cases hv with
      | short hds' ht =>
        have honly := takesOnly_shortShape readsDigits_numeral (isDigits_of_decimal? hds) hs
        have honly' := takesOnly_shortShape readsDigits_numeral (isDigits_of_decimal? hds') ht
        exact unique_of_takesOnly honly honly' hds hds' hcut
    | roman hw hr hs =>
      cases hv with
      | roman hw' hr' ht =>
        simp only [List.append_assoc] at hcut
        have hbehind := List.append_cancel_left hcut
        have hhead := roman_head (List.mem_map_of_mem hr) s
        have hhead' := roman_head (List.mem_map_of_mem hr') t
        obtain ⟨rfl, -⟩ := (takesOnly_gap hw hhead).unique (takesOnly_gap hw' hhead') hbehind
        obtain ⟨rfl, rfl⟩ := roman_unique hr hr' hs ht (List.append_cancel_left hbehind)
        exact ⟨rfl, rfl⟩

theorem opensWith_tierMention (f : SingleForm) : OpensWith 't' (TierMention f) := by
  intro u n s h
  cases h with
  | @tier w ds _ _ hw hds _ =>
    refine ⟨"ier".toList ++ (w ++ ds), rfl, ?_⟩
    simp [hw.not_mem_t, (isDigits_of_decimal? hds).not_mem_t]
  | short hds _ => exact ⟨_, rfl, (isDigits_of_decimal? hds).not_mem_t⟩
  | @roman w _ r _ hw hr _ =>
    refine ⟨"ier".toList ++ (w ++ r.toList), rfl, ?_⟩
    simp [hw.not_mem_t, (roman_entry hr).2.2.1]

/-- The pattern of a form reads its mentions, and the number as a tier if it is one. -/
theorem reads_tierMention (f : SingleForm) :
    f.pattern.Reads (TierMention f) fun h n => tierOf f.read h = Tier.ofNat? n where
  mention := by
    intro b s h hh
    cases f with
    | tier =>
      obtain ⟨w, k, c, t, hw, hk, htext, hgroups, hrest⟩ := mem_hits_tierThen hh
      obtain ⟨hds, hgroup, hstop⟩ := mem_hits_numeral hk
      refine ⟨decimalAfter 0 k.text, ?_, ?_⟩
      · rw [htext, hrest]
        exact .tier hw hds.decimal?_eq hstop
      · rw [tierOf, hgroups, hgroup]
        exact Tier.ofDigits?_of_decimal? hds.decimal?_eq
    | short =>
      obtain ⟨h₁, hh₁, k, hk, rfl⟩ := mem_hits_seq.1 hh
      obtain ⟨htext, hgroups⟩ := mem_hits_literal hh₁
      obtain ⟨hds, hgroup, hstop⟩ := mem_hits_numeral hk
      refine ⟨decimalAfter 0 k.text, ?_, ?_⟩
      · rw [Hit.andThen_text, htext]
        exact .short hds.decimal?_eq hstop
      · rw [tierOf, Hit.andThen_groups, hgroups, hgroup]
        exact Tier.ofDigits?_of_decimal? hds.decimal?_eq
    | roman =>
      obtain ⟨r, n, hr, hgroups, hmention⟩ := mem_hits_romanTierPattern hh
      refine ⟨n, hmention, ?_⟩
      show h.groups.head?.bind romanTier? = Tier.ofNat? n
      rw [hgroups, List.head?_singleton, Option.bind_some, romanTier?, String.ofList_toList,
        (roman_entry hr).2.2.2, Option.bind_some]
  takes := by
    intro u s n h
    cases h with
    | tier hw hds hs =>
      exact ⟨_, (takesOnly_tierShape readsDigits_numeral hw (isDigits_of_decimal? hds) hs).takes⟩
    | short hds hs =>
      exact ⟨_, (takesOnly_shortShape readsDigits_numeral (isDigits_of_decimal? hds) hs).takes⟩
    | roman hw hr hs => exact ⟨_, takes_romanTierPattern hw hr hs⟩

/-- What is read one for one is listed one for one. -/
theorem filterMap_eq_of_forall₂ {α β γ : Type} {f : α → Option γ} {g : β → Option γ} {as : List α}
    {bs : List β} (h : List.Forall₂ (fun a b => f a = g b) as bs) :
    as.filterMap f = bs.filterMap g := by
  induction h with
  | nil => rfl
  | cons hab _ ih => rw [List.filterMap_cons, List.filterMap_cons, hab, ih]

/-- **No mention of a single tier is missed.** The tiers are those among the numbers mentioned
anywhere in the query, first as "tier 8", then as "t8" and then as "tier viii", each where it comes
first. -/
theorem singleTiers_lists_mentions (q : List Char) :
    ∃ numbers : SingleForm → List Nat,
      (∀ f ns, MentionsEverywhere (TierMention f) q ns ↔ ns = numbers f) ∧
        singleTiers q =
          ((numbers .tier ++ numbers .short ++ numbers .roman).filterMap
            Tier.ofNat?).eraseDups := by
  have hform : ∀ f : SingleForm, ∃ ns, MentionsEverywhere (TierMention f) q ns ∧
      (f.pattern.finds q).filterMap (tierOf f.read) = ns.filterMap Tier.ofNat? := by
    intro f
    obtain ⟨ns, hturn, hall⟩ := (reads_tierMention f).exists_inTurn (isDefinite_tierMention f) q
    exact ⟨ns, hturn.everywhere (opensWith_tierMention f), filterMap_eq_of_forall₂ hall⟩
  choose numbers hmentions hread using hform
  refine ⟨numbers, fun f => (hmentions f).iff_eq (isDefinite_tierMention f), ?_⟩
  have hfinds : (digitPatterns.flatMap fun p => (p.finds q).filterMap (tierOf Tier.ofDigits?)) =
      (numbers .tier).filterMap Tier.ofNat? ++ (numbers .short).filterMap Tier.ofNat? := by
    rw [← hread .tier, ← hread .short, digitPatterns_eq, List.flatMap_cons,
      List.flatMap_singleton]
    rfl
  have hroman : (romanTierPattern.finds q).filterMap (tierOf romanTier?) =
      (numbers .roman).filterMap Tier.ofNat? := hread .roman
  rw [singleTiers, firstSeen_eq_eraseDups, hfinds, hroman, List.filterMap_append,
    List.filterMap_append]

/-! ## Mentions of ranges -/

/-- The pattern of each form. -/
def RangeForm.pattern : RangeForm → Pattern
  | .tier => rangeShape numeral
  | .short => shortRangeShape numeral
  | .full => fullRangeShape numeral

theorem mem_rangePatterns {p : Pattern} : p ∈ rangePatterns ↔ ∃ f : RangeForm, f.pattern = p := by
  rw [rangePatterns_eq]
  constructor
  · intro hp
    simp only [List.mem_cons, List.not_mem_nil, or_false] at hp
    rcases hp with rfl | rfl | rfl
    · exact ⟨.tier, rfl⟩
    · exact ⟨.short, rfl⟩
    · exact ⟨.full, rfl⟩
  · rintro ⟨f, rfl⟩
    cases f <;> simp [RangeForm.pattern]

/-- The tier lies in the range, and both ends of the range are tiers. -/
def InRange (t : Tier) (m : Nat × Nat) : Prop :=
  1 ≤ m.1 ∧ m.1 ≤ t.value ∧ t.value ≤ m.2 ∧ m.2 ≤ 11

/-- A range that is found by its two numerals has the tiers in it, none if an end is no tier or
the ends are reversed. -/
theorem mem_rangeOf {h : Hit} {m n : List Char} {a b : Nat} (hgroups : h.groups = [m, n])
    (hm : decimal? m = some a) (hn : decimal? n = some b) (t : Tier) :
    t ∈ rangeOf h ↔ InRange t (a, b) := by
  have hmin : 1 ≤ t.value := t.min_le
  have hmax : t.value ≤ 11 := t.le_max
  rw [rangeOf, hgroups, List.map_cons, List.map_singleton, Tier.ofDigits?_of_decimal? hm,
    Tier.ofDigits?_of_decimal? hn]
  unfold InRange Tier.ofNat? minTier maxTier
  by_cases ha : 1 ≤ a ∧ a ≤ 11
  · by_cases hb : 1 ≤ b ∧ b ≤ 11
    · rw [dif_pos ha, dif_pos hb]
      show t ∈ Tier.between a b ↔ _
      rw [Tier.mem_between]
      show _ ↔ 1 ≤ a ∧ a ≤ t.value ∧ t.value ≤ b ∧ b ≤ 11
      omega
    · rw [dif_neg hb]
      simp
      omega
  · rw [dif_neg ha]
    simp
    omega

/-- The pattern of a form takes a mention of it in one way, by its two numerals. -/
theorem RangeMention.exists_takesOnly {f : RangeForm} {u s : List Char} {a b : Nat}
    (h : RangeMention f u (a, b) s) : ∃ m n, decimal? m = some a ∧ decimal? n = some b ∧
      f.pattern.TakesOnly u [m, n] s := by
  cases h with
  | tier hw₁ hw₂ hw₃ hsep hm hn hs =>
    exact ⟨_, _, hm, hn, takesOnly_rangeShape readsDigits_numeral hw₁ hw₂ hw₃ hsep
      (isDigits_of_decimal? hm) (isDigits_of_decimal? hn) hs⟩
  | short hw₁ hw₂ hsep hm hn hs =>
    exact ⟨_, _, hm, hn, takesOnly_shortRangeShape readsDigits_numeral hw₁ hw₂ hsep
      (isDigits_of_decimal? hm) (isDigits_of_decimal? hn) hs⟩
  | full hw₁ hw₂ hw₃ hw₄ hsep hm hn hs =>
    exact ⟨_, _, hm, hn, takesOnly_fullRangeShape readsDigits_numeral hw₁ hw₂ hw₃ hw₄ hsep
      (isDigits_of_decimal? hm) (isDigits_of_decimal? hn) hs⟩

theorem isDefinite_rangeMention (f : RangeForm) : IsDefinite (RangeMention f) where
  ne_nil := by
    intro u s m h
    cases h <;> simp
  unique := by
    rintro u v s t ⟨a, b⟩ ⟨a', b'⟩ hu hv hcut
    obtain ⟨m, n, hm, hn, honly⟩ := hu.exists_takesOnly
    obtain ⟨m', n', hm', hn', honly'⟩ := hv.exists_takesOnly
    obtain ⟨htext, hgroups⟩ := honly.unique honly' hcut
    obtain ⟨rfl, hlast⟩ := List.cons.inj hgroups
    obtain rfl := List.singleton_inj.1 hlast
    have ha := Option.some.inj (hm.symm.trans hm')
    have hb := Option.some.inj (hn.symm.trans hn')
    exact ⟨htext, Prod.ext ha hb⟩

/-- A hit of the pattern of a form is a mention, and its two numerals are captured. -/
theorem mem_hits_rangePattern {f : RangeForm} {c : Option Char} {s : List Char} {h : Hit}
    (hh : h ∈ f.pattern.hits c s) : ∃ m n, IsDigits m ∧ IsDigits n ∧ h.groups = [m, n] ∧
      RangeMention f h.text (decimalAfter 0 m, decimalAfter 0 n) h.rest := by
  cases f with
  | tier =>
    obtain ⟨w₁, k₁, _, _, hw₁, hk₁, htext₁, hgroups₁, hrest₁⟩ := mem_hits_tierThen hh
    obtain ⟨m, w₂, sep, w₃, k₂, _, _, hm, hw₂, hsep, hw₃, hk₂, htext₂, hgroups₂, hrest₂⟩ :=
      mem_hits_afterNumber hk₁
    obtain ⟨hn, hgroup, hstop⟩ := mem_hits_numeral hk₂
    refine ⟨m, k₂.text, hm, hn, by rw [hgroups₁, hgroups₂, hgroup], ?_⟩
    rw [htext₁, htext₂, hrest₁, hrest₂]
    exact .tier hw₁ hw₂ hw₃ hsep hm.decimal?_eq hn.decimal?_eq hstop
  | short =>
    obtain ⟨h₁, hh₁, k₁, hk₁, rfl⟩ := mem_hits_seq.1 hh
    obtain ⟨htext₁, hgroups₁⟩ := mem_hits_literal hh₁
    obtain ⟨m, w₁, sep, w₂, k₂, _, _, hm, hw₁, hsep, hw₂, hk₂, htext₂, hgroups₂, hrest₂⟩ :=
      mem_hits_afterNumber hk₁
    obtain ⟨hn, hgroup, hstop⟩ := mem_hits_numeral hk₂
    refine ⟨m, k₂.text, hm, hn, by rw [Hit.andThen_groups, hgroups₁, hgroups₂, hgroup]; rfl, ?_⟩
    rw [Hit.andThen_text, Hit.andThen_rest, htext₁, htext₂, hrest₂]
    exact .short hw₁ hw₂ hsep hm.decimal?_eq hn.decimal?_eq hstop
  | full =>
    obtain ⟨w₁, k₁, _, _, hw₁, hk₁, htext₁, hgroups₁, hrest₁⟩ := mem_hits_tierThen hh
    obtain ⟨m, w₂, sep, w₃, k₂, _, _, hm, hw₂, hsep, hw₃, hk₂, htext₂, hgroups₂, hrest₂⟩ :=
      mem_hits_afterNumber hk₁
    obtain ⟨w₄, k₃, _, _, hw₄, hk₃, htext₃, hgroups₃, hrest₃⟩ := mem_hits_tierThen hk₂
    obtain ⟨hn, hgroup, hstop⟩ := mem_hits_numeral hk₃
    refine ⟨m, k₃.text, hm, hn, by rw [hgroups₁, hgroups₂, hgroups₃, hgroup], ?_⟩
    rw [htext₁, htext₂, htext₃, hrest₁, hrest₂, hrest₃]
    exact .full hw₁ hw₂ hw₃ hw₄ hsep hm.decimal?_eq hn.decimal?_eq hstop

/-- The pattern of a form reads its mentions, and of each the tiers in the range. -/
theorem reads_rangeMention (f : RangeForm) :
    f.pattern.Reads (RangeMention f) fun h m => ∀ t, t ∈ rangeOf h ↔ InRange t m where
  mention := by
    intro c s h hh
    obtain ⟨m, n, hm, hn, hgroups, hmention⟩ := mem_hits_rangePattern hh
    exact ⟨_, hmention, mem_rangeOf hgroups hm.decimal?_eq hn.decimal?_eq⟩
  takes := by
    rintro u s ⟨a, b⟩ h
    obtain ⟨m, n, -, -, honly⟩ := h.exists_takesOnly
    exact ⟨_, honly.takes⟩

/-- What holds of some item holds of some item that goes with it. -/
theorem exists_mem_iff_of_forall₂ {α β : Type} {P : α → Prop} {Q : β → Prop} {as : List α}
    {bs : List β} (h : List.Forall₂ (fun a b => P a ↔ Q b) as bs) :
    (∃ a ∈ as, P a) ↔ ∃ b ∈ bs, Q b := by
  induction h with
  | nil => simp
  | cons hab _ ih => simp only [List.exists_mem_cons_iff, hab, ih]

/-- **The ranges of a query are united.** Each tier is listed once, and it is listed exactly if it
lies in a range mentioned in one of the three forms, with both ends among the tiers. The mentions of
a form are those in turn, so none of them shares characters with the one before. -/
theorem rangeTiers_unites_mentions (q : List Char) :
    (rangeTiers q).Nodup ∧
      ∃ ranges : RangeForm → List (Nat × Nat),
        (∀ f ms, MentionsInTurn (RangeMention f) q ms ↔ ms = ranges f) ∧
          ∀ t, t ∈ rangeTiers q ↔ ∃ f, ∃ m ∈ ranges f,
            1 ≤ m.1 ∧ m.1 ≤ t.value ∧ t.value ≤ m.2 ∧ m.2 ≤ 11 := by
  have hform : ∀ f : RangeForm, ∃ ms, MentionsInTurn (RangeMention f) q ms ∧
      ∀ t, (∃ h ∈ f.pattern.finds q, t ∈ rangeOf h) ↔ ∃ m ∈ ms, InRange t m := by
    intro f
    obtain ⟨ms, hturn, hall⟩ := (reads_rangeMention f).exists_inTurn (isDefinite_rangeMention f) q
    refine ⟨ms, hturn, ?_⟩
    intro t
    exact exists_mem_iff_of_forall₂ (hall.imp fun h m hread => hread t)
  choose ranges hmentions hread using hform
  refine ⟨firstSeen_nodup _, ranges, fun f => (hmentions f).iff_eq (isDefinite_rangeMention f), ?_⟩
  intro t
  have hsome : t ∈ rangeTiers q ↔ ∃ f : RangeForm, ∃ h ∈ f.pattern.finds q, t ∈ rangeOf h := by
    simp only [mem_rangeTiers, mem_rangePatterns, exists_exists_eq_and]
  rw [hsome]
  exact exists_congr fun f => hread f t

/-- Of two ranges that share their middle only the first is taken. -/
example : (rangeTiers "tier 5 - tier 6 - tier 7".toList).map Tier.value = [5, 6] := by decide

end FleetSearch.Query
