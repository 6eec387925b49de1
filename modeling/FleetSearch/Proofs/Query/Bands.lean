/-
# FleetSearch.Proofs.Query.Bands -- what names a band of tiers

A band is named by two words with any white space between them, or none: a qualifier and a band
noun, and for super ships "super" and "ship" or "tier" and "11" (`Adjoin`). The words may stand
anywhere, also inside longer ones: "tier 110" names super ships.

The first band that is named, in the order high, mid, low and super ships, decides the tiers of a
query, whatever else the query mentions; without a band ranges decide, and without ranges single
tiers (`tiers_by_band`).
-/

import FleetSearch.Proofs.Pattern.Following
import FleetSearch.Proofs.Query.Tiers
import FleetSearch.Proofs.Query.Vocabulary

namespace FleetSearch.Query

open Text Vocabulary Pattern

/-! ## Two words with white space between them -/

/-- The two words stand somewhere in the text, with nothing but white space between them. -/
def Adjoin (a n : String) (q : List Char) : Prop :=
  ∃ w, IsGap w ∧ a.toList ++ (w ++ n.toList) <:+: q

/-- The two words with white space between them are searched for by their pattern. -/
theorem occurs_adjoin_iff {a n : String} {q : List Char}
    (hn : n.toList.head?.any (fun c => !isBlank c) = true) :
    (all [word a, .blanks, word n]).occurs q = true ↔ Adjoin a n q := by
  rw [occurs_iff]
  constructor
  · rintro ⟨u, v, rfl, h, hh⟩
    obtain ⟨h₁, hh₁, k, hk, rfl⟩ := mem_hits_seq.1 hh
    obtain ⟨h₂, hh₂, h₃, hh₃, rfl⟩ := mem_hits_seq.1 hk
    have hcut := text_append_rest hh
    rw [Hit.andThen_text, Hit.andThen_text, (mem_hits_literal hh₁).1,
      (mem_hits_literal hh₃).1] at hcut
    exact ⟨h₂.text, (mem_hits_gap hh₂).1, u, _, by rw [List.append_assoc, hcut]⟩
  · rintro ⟨w, hw, u, v, rfl⟩
    have hhead : (n.toList ++ v).head?.any isBlank = false := by
      cases hlist : n.toList with
      | nil => simp [hlist] at hn
      | cons c t => simpa [hlist] using hn
    have htakes : (all [word a, .blanks, word n]).Takes (a.toList ++ (w ++ n.toList)) [] v :=
      (takesOnly_word a).takes.seq ((takesOnly_gap hw hhead).takes.seq (takesOnly_word n).takes)
    exact ⟨u, _, List.append_assoc .., _, htakes _⟩

/-! ## Names of bands -/

/-- One of the qualifiers adjoins a band noun in the query. -/
def NamesBand (as : List String) (q : List Char) : Prop :=
  ∃ a ∈ as, ∃ n ∈ bandNouns, Adjoin a n q

/-- Super ships are mentioned in the query, by name or by their tier. -/
def NamesSuper (q : List Char) : Prop := Adjoin "super" "ship" q ∨ Adjoin "tier" "11" q

section

variable {as : List String} {q : List Char}

/-- A band noun has no space in it and does not begin with white space. -/
theorem bandNoun_head {n : String} (hn : n ∈ bandNouns) :
    ' ' ∉ n.toList ∧ n.toList.head?.any (fun c => !isBlank c) = true := by
  have hall : ∀ n ∈ bandNouns, ' ' ∉ n.toList ∧
      n.toList.head?.any (fun c => !isBlank c) = true := by
    decide
  exact hall n hn

theorem namesBand_iff : NamesBand as q ↔
    ∃ a ∈ as, ∃ n ∈ bandNouns, (all [word a, .blanks, word n]).occurs q = true := by
  unfold NamesBand
  apply exists_congr
  intro a
  apply and_congr_right
  intro _
  apply exists_congr
  intro n
  apply and_congr_right
  intro hn
  exact (occurs_adjoin_iff (bandNoun_head hn).2).symm

instance : Decidable (NamesBand as q) := decidable_of_iff _ namesBand_iff.symm

/-- Phrases of one word are hit as they stand. -/
theorem mem_hits_anyPhrase_iff_word (has : as ≠ []) (hspace : ∀ a ∈ as, ' ' ∉ a.toList)
    {b : Option Char} {s : List Char} {h : Hit} :
    h ∈ (anyPhrase as).hits b s ↔ ∃ a ∈ as, h ∈ (word a).hits b s := by
  show h ∈ (oneOf (as.map phrase)).hits b s ↔ _
  rw [mem_hits_oneOf (by simpa using has)]
  constructor
  · rintro ⟨p, hp, hh⟩
    obtain ⟨a, ha, rfl⟩ := List.mem_map.1 hp
    rw [phrase, loose_eq_literal (hspace a ha)] at hh
    exact ⟨a, ha, hh⟩
  · rintro ⟨a, ha, hh⟩
    refine ⟨phrase a, List.mem_map_of_mem ha, ?_⟩
    rwa [phrase, loose_eq_literal (hspace a ha)]

/-- A band pattern looks for each qualifier with each noun. -/
theorem occurs_bandPattern_iff (has : as ≠ []) (hspace : ∀ a ∈ as, ' ' ∉ a.toList) :
    (bandPattern as).occurs q = true ↔ NamesBand as q := by
  have hnoun : ∀ {b s h}, h ∈ (anyPhrase bandNouns).hits b s ↔
      ∃ n ∈ bandNouns, h ∈ (word n).hits b s :=
    mem_hits_anyPhrase_iff_word (by decide) fun n hn => (bandNoun_head hn).1
  have hhits : ∀ {b s h}, h ∈ (bandPattern as).hits b s ↔
      ∃ p ∈ as.flatMap fun a => bandNouns.map fun n => all [word a, .blanks, word n],
        h ∈ p.hits b s := by
    intro b s h
    simp only [bandPattern, all_cons_cons, all_singleton, mem_hits_seq, hnoun,
      mem_hits_anyPhrase_iff_word has hspace, List.mem_flatMap, List.mem_map]
    constructor
    · rintro ⟨h₁, ⟨a, ha, hh₁⟩, _, ⟨h₂, hh₂, h₃, ⟨n, hn, hh₃⟩, rfl⟩, rfl⟩
      refine ⟨_, ⟨a, ha, n, hn, rfl⟩, ?_⟩
      exact mem_hits_seq.2 ⟨h₁, hh₁, _, mem_hits_seq.2 ⟨h₂, hh₂, h₃, hh₃, rfl⟩, rfl⟩
    · rintro ⟨_, ⟨a, ha, n, hn, rfl⟩, hh⟩
      obtain ⟨h₁, hh₁, k, hk, rfl⟩ := mem_hits_seq.1 hh
      obtain ⟨h₂, hh₂, h₃, hh₃, rfl⟩ := mem_hits_seq.1 hk
      exact ⟨h₁, ⟨a, ha, hh₁⟩, _, ⟨h₂, hh₂, h₃, ⟨n, hn, hh₃⟩, rfl⟩, rfl⟩
  rw [occurs_iff_of_hits hhits, namesBand_iff]
  simp only [List.mem_flatMap, List.mem_map]
  constructor
  · rintro ⟨_, ⟨a, ha, n, hn, rfl⟩, hocc⟩
    exact ⟨a, ha, n, hn, hocc⟩
  · rintro ⟨a, ha, n, hn, hocc⟩
    exact ⟨_, ⟨a, ha, n, hn, rfl⟩, hocc⟩

theorem occurs_superPattern_iff : superPattern.occurs q = true ↔ NamesSuper q := by
  rw [superPattern, occurs_either, Bool.or_eq_true, occurs_adjoin_iff rfl, occurs_adjoin_iff rfl]
  rfl

instance : Decidable (NamesSuper q) := decidable_of_iff _ occurs_superPattern_iff

end

/-! ## The band that decides -/

/-- The rule of bands takes the first band that is named. -/
theorem bandTiers_eq (q : List Char) : bandTiers q =
    if NamesBand ["high", "top"] q then Tier.between 8 11
    else if NamesBand ["middle", "mid"] q then Tier.between 5 7
    else if NamesBand ["bottom", "low"] q then Tier.between 1 4
    else if NamesSuper q then Tier.between 11 11
    else [] := by
  have hband : ∀ band ∈ bands, (bandPattern band.qualifiers).occurs q =
      decide (NamesBand band.qualifiers q) := by
    have hplain : ∀ band ∈ bands, band.qualifiers ≠ [] ∧
        ∀ a ∈ band.qualifiers, ' ' ∉ a.toList := by
      decide
    intro band hmem
    obtain ⟨hne, hspace⟩ := hplain band hmem
    rw [Bool.eq_iff_iff, decide_eq_true_iff, occurs_bandPattern_iff hne hspace]
  have hsuper : superPattern.occurs q = decide (NamesSuper q) := by
    rw [Bool.eq_iff_iff, decide_eq_true_iff, occurs_superPattern_iff]
  simp only [bands, List.forall_mem_cons] at hband
  obtain ⟨hhigh, hmid, hlow, -⟩ := hband
  unfold bandTiers bandPatterns
  simp only [bands, List.map_cons, List.map_nil, List.cons_append, List.nil_append,
    List.find?_cons, hhigh, hmid, hlow, hsuper]
  by_cases h₁ : NamesBand ["high", "top"] q
  · simp [h₁]
  by_cases h₂ : NamesBand ["middle", "mid"] q
  · simp [h₁, h₂]
  by_cases h₃ : NamesBand ["bottom", "low"] q
  · simp [h₁, h₂, h₃]
  by_cases h₄ : NamesSuper q
  · simp [h₁, h₂, h₃, h₄, superTier]
  · simp [h₁, h₂, h₃, h₄]

theorem tiers_eq_of_band {q : List Char} {ts : List Tier} (h : bandTiers q = ts) (hne : ts ≠ []) :
    tiers q = ts := by rw [tiers_eq, h, if_pos hne]

/-- **A band decides.** The tiers of a query are all those of the first band that it names anywhere,
whatever else it mentions. If it names none, they are those of its ranges, and if it has none of
these either, its single tiers. -/
theorem tiers_by_band (q : List Char) :
    (tiers q).map Tier.value =
      if NamesBand ["high", "top"] q then [8, 9, 10, 11]
      else if NamesBand ["middle", "mid"] q then [5, 6, 7]
      else if NamesBand ["bottom", "low"] q then [1, 2, 3, 4]
      else if NamesSuper q then [11]
      else if rangeTiers q ≠ [] then (rangeTiers q).map Tier.value
      else (singleTiers q).map Tier.value := by
  have hband := bandTiers_eq q
  by_cases h₁ : NamesBand ["high", "top"] q
  · rw [if_pos h₁] at hband ⊢
    rw [tiers_eq_of_band hband (by decide)]
    rfl
  rw [if_neg h₁] at hband ⊢
  by_cases h₂ : NamesBand ["middle", "mid"] q
  · rw [if_pos h₂] at hband ⊢
    rw [tiers_eq_of_band hband (by decide)]
    rfl
  rw [if_neg h₂] at hband ⊢
  by_cases h₃ : NamesBand ["bottom", "low"] q
  · rw [if_pos h₃] at hband ⊢
    rw [tiers_eq_of_band hband (by decide)]
    rfl
  rw [if_neg h₃] at hband ⊢
  by_cases h₄ : NamesSuper q
  · rw [if_pos h₄] at hband ⊢
    rw [tiers_eq_of_band hband (by decide)]
    rfl
  rw [if_neg h₄] at hband ⊢
  rw [tiers_eq, hband, if_neg (by simp)]
  split <;> rfl

/-- The names of bands need not be words of their own, and the order of the bands counts. -/
example : NamesBand ["bottom", "low"] "slowtiers t9, tier 110".toList ∧
    NamesSuper "slowtiers t9, tier 110".toList ∧
    (tiers "slowtiers t9, tier 110".toList).map Tier.value = [1, 2, 3, 4] := by decide

end FleetSearch.Query
