/-
# FleetSearch.Proofs.Pattern.Scan -- scanning a text as a run of steps

A scan goes through a text step by step: where the pattern matches it takes a find and goes on
behind it, and elsewhere it keeps one character. `Scan` is this run as a relation, and
`scan_iff` says that the pieces of a text are its only run. Facts about erasing and finding are
proved by induction on the run.

Texts that are joined by a clause break are scanned apart (`scan_append_break`).
-/

import FleetSearch.Pattern.Scan
import FleetSearch.Proofs.Pattern.WholeWord

namespace FleetSearch

open Text

/-! ## Pieces -/

namespace Piece

/-- The same piece of a text that goes on with `t`. -/
def extend (t : List Char) : Piece → Piece
  | .kept c => .kept c
  | .found h => .found (h.extend t)

/-- The characters that are kept. -/
def keptText (ps : List Piece) : List Char :=
  ps.filterMap fun | .found _ => none | .kept c => some c

/-- The finds. -/
def foundHits (ps : List Piece) : List Hit :=
  ps.filterMap fun | .found h => some h | .kept _ => none

@[simp] theorem keptText_nil : keptText [] = [] := rfl
@[simp] theorem keptText_kept (c : Char) (ps : List Piece) :
    keptText (.kept c :: ps) = c :: keptText ps := rfl
@[simp] theorem keptText_found (h : Hit) (ps : List Piece) :
    keptText (.found h :: ps) = keptText ps := rfl
@[simp] theorem foundHits_nil : foundHits [] = [] := rfl
@[simp] theorem foundHits_kept (c : Char) (ps : List Piece) :
    foundHits (.kept c :: ps) = foundHits ps := rfl
@[simp] theorem foundHits_found (h : Hit) (ps : List Piece) :
    foundHits (.found h :: ps) = h :: foundHits ps := rfl

@[simp] theorem keptText_append (ps qs : List Piece) :
    keptText (ps ++ qs) = keptText ps ++ keptText qs := List.filterMap_append ..

@[simp] theorem foundHits_append (ps qs : List Piece) :
    foundHits (ps ++ qs) = foundHits ps ++ foundHits qs := List.filterMap_append ..

@[simp] theorem keptText_map_extend (t : List Char) (ps : List Piece) :
    keptText (ps.map (extend t)) = keptText ps := by
  induction ps with
  | nil => rfl
  | cons q ps ih => cases q <;> simp [extend, ih]

@[simp] theorem foundHits_map_extend (t : List Char) (ps : List Piece) :
    foundHits (ps.map (extend t)) = (foundHits ps).map (.extend t) := by
  induction ps with
  | nil => rfl
  | cons q ps ih => cases q <;> simp [extend, ih]

@[simp] theorem keptText_map_kept (s : List Char) : keptText (s.map .kept) = s := by
  induction s with
  | nil => rfl
  | cons c s ih => simp [ih]

end Piece

namespace Pattern

/-! ## The best hit at one place -/

theorem hit?_eq_some {p : Pattern} {b : Option Char} {s : List Char} {h : Hit}
    (hh : p.hit? b s = some h) : h ∈ p.hits b s ∧ h.text ≠ [] := by
  unfold hit? at hh
  refine ⟨List.mem_of_find?_eq_some hh, ?_⟩
  simpa using List.find?_some hh

/-- A find leaves less of the text. -/
theorem length_rest_lt {p : Pattern} {b : Option Char} {s : List Char} {h : Hit}
    (hh : p.hit? b s = some h) : h.rest.length < s.length := by
  obtain ⟨hmem, hne⟩ := hit?_eq_some hh
  have hpos := List.length_pos_iff.2 hne
  rw [← text_append_rest hmem, List.length_append]
  omega

theorem hit?_eq_none_iff {p : Pattern} {b : Option Char} {s : List Char} :
    p.hit? b s = none ↔ ∀ h ∈ p.hits b s, h.text = [] := by
  simp [hit?]

theorem hit?_nil (p : Pattern) (b : Option Char) : p.hit? b [] = none := by
  rw [hit?_eq_none_iff]
  intro h hh
  have hcut := text_append_rest hh
  exact (List.append_eq_nil_iff.1 hcut).1

/-- A pattern occurs in a text if there is a hit at some place of it. -/
theorem occursAfter_iff {p : Pattern} {b : Option Char} {s : List Char} :
    p.occursAfter b s = true ↔ ∃ u v, s = u ++ v ∧ ∃ h, h ∈ p.hits (u.getLast?.or b) v := by
  induction s generalizing b with
  | nil =>
    rw [occursAfter, Bool.not_eq_true', List.isEmpty_eq_false_iff_exists_mem]
    constructor
    · rintro ⟨h, hh⟩
      exact ⟨[], [], rfl, h, hh⟩
    · rintro ⟨u, v, hcut, h, hh⟩
      obtain ⟨rfl, rfl⟩ := List.append_eq_nil_iff.1 hcut.symm
      exact ⟨h, hh⟩
  | cons c s ih =>
    rw [occursAfter, Bool.or_eq_true, Bool.not_eq_true', List.isEmpty_eq_false_iff_exists_mem, ih]
    have hlast : ∀ u : List Char, (c :: u).getLast?.or b = u.getLast?.or (some c) := by
      intro u
      rw [List.getLast?_cons]
      cases u.getLast? <;> rfl
    constructor
    · rintro (⟨h, hh⟩ | ⟨u, v, rfl, h, hh⟩)
      · exact ⟨[], c :: s, rfl, h, hh⟩
      · exact ⟨c :: u, v, rfl, h, hlast u ▸ hh⟩
    · rintro ⟨u, v, hcut, h, hh⟩
      cases u with
      | nil =>
        rw [List.nil_append] at hcut
        exact .inl ⟨h, hcut ▸ hh⟩
      | cons d u =>
        obtain ⟨rfl, rfl⟩ := List.cons.inj hcut
        exact .inr ⟨u, v, rfl, h, hlast u ▸ hh⟩

theorem occurs_iff {p : Pattern} {s : List Char} :
    p.occurs s = true ↔ ∃ u v, s = u ++ v ∧ ∃ h, h ∈ p.hits u.getLast? v := by
  simp only [occurs, occursAfter_iff, Option.or_none]

/-- A pattern with the hits of several others occurs where one of them does. -/
theorem occurs_iff_of_hits {p : Pattern} {ps : List Pattern} {s : List Char}
    (hhits : ∀ {b t h}, h ∈ p.hits b t ↔ ∃ q ∈ ps, h ∈ q.hits b t) :
    p.occurs s = true ↔ ∃ q ∈ ps, q.occurs s = true := by
  simp only [occurs_iff, hhits]
  constructor
  · rintro ⟨u, v, hcut, h, q, hq, hh⟩
    exact ⟨q, hq, u, v, hcut, h, hh⟩
  · rintro ⟨q, hq, u, v, hcut, h, hh⟩
    exact ⟨u, v, hcut, h, q, hq, hh⟩

/-- A hit at the start of a text is an occurrence. -/
theorem occurs_of_mem_hits {p : Pattern} {s : List Char} {h : Hit} (hh : h ∈ p.hits none s) :
    p.occurs s = true := occurs_iff.2 ⟨[], s, rfl, h, hh⟩

theorem exists_hit? {p : Pattern} {b : Option Char} {s : List Char} {h : Hit}
    (hh : h ∈ p.hits b s) (hne : h.text ≠ []) : ∃ k, p.hit? b s = some k := by
  cases hk : p.hit? b s with
  | none => exact absurd (hit?_eq_none_iff.1 hk h hh) hne
  | some k => exact ⟨k, rfl⟩

theorem mem_finds_of_hit? {p : Pattern} {s : List Char} {h : Hit} (hh : p.hit? none s = some h) :
    h ∈ p.finds s := by
  cases s with
  | nil => simp [hit?_nil] at hh
  | cons c s => simp [finds, pieces, piecesAfter, hh]

theorem hit?_congr {p : Pattern} {b b' : Option Char} (hb : isWordAt b = isWordAt b')
    (s : List Char) : p.hit? b s = p.hit? b' s := by
  unfold hit?
  rw [hits_congr hb]

theorem hit?_append_break {p : Pattern} {c : Char} (hw : isWord c = false)
    (hp : p.avoids c = true) (b : Option Char) (s t : List Char) :
    p.hit? b (s ++ c :: t) = (p.hit? b s).map (.extend (c :: t)) := by
  unfold hit?
  rw [hits_append_break hw hp, List.find?_map]
  rfl

/-! ## The run -/

/-- A scan of a text that follows the character `b`, step by step, with the pieces it yields. -/
inductive Scan (p : Pattern) : Option Char → List Char → List Piece → Prop
  | done (b : Option Char) : Scan p b [] []
  | keep {b : Option Char} {c : Char} {s : List Char} {ps : List Piece} :
      p.hit? b (c :: s) = none → Scan p (some c) s ps → Scan p b (c :: s) (.kept c :: ps)
  | find {b : Option Char} {s : List Char} {h : Hit} {ps : List Piece} :
      p.hit? b s = some h → Scan p (h.lastOr b) h.rest ps → Scan p b s (.found h :: ps)

/-- Passing over a text leads to the place behind it. -/
theorem piecesAfter_append (p : Pattern) (b : Option Char) (t s : List Char) :
    p.piecesAfter t.length b (t ++ s) = p.piecesAfter 0 (t.getLast?.or b) s := by
  induction t generalizing b with
  | nil => rfl
  | cons c t ih =>
    rw [List.length_cons, List.cons_append]
    cases s with
    | nil =>
      cases t with
      | nil => rfl
      | cons d t =>
        show p.piecesAfter (d :: t).length (some c) (d :: t ++ []) = []
        rw [ih (some c)]
        rfl
    | cons d s =>
      show p.piecesAfter t.length (some c) (t ++ d :: s) = _
      rw [ih (some c), List.getLast?_cons]
      cases t.getLast? <;> rfl

/-- The pieces of a text come from a scan. -/
theorem scan_piecesAfter (p : Pattern) (b : Option Char) (s : List Char) :
    Scan p b s (p.piecesAfter 0 b s) := by
  -- A find goes on behind its text, so the induction is on the length of what is left.
  induction hn : s.length using Nat.strong_induction_on generalizing b s with
  | _ n ih =>
    cases s with
    | nil => exact .done b
    | cons c s =>
      cases hh : p.hit? b (c :: s) with
      | none =>
        rw [piecesAfter, hh]
        exact .keep hh (ih s.length (by simp [← hn]) (some c) s rfl)
      | some h =>
        obtain ⟨hmem, hne⟩ := hit?_eq_some hh
        obtain ⟨d, t, ht⟩ := List.exists_cons_of_ne_nil hne
        have hcut := text_append_rest hmem
        rw [ht, List.cons_append, List.cons.injEq] at hcut
        obtain ⟨rfl, hs⟩ := hcut
        -- The first character is passed over with the find itself, the others one by one.
        have hnext : p.piecesAfter (h.text.length - 1) (some d) s =
            p.piecesAfter 0 (h.lastOr b) h.rest := by
          rw [ht, ← hs, List.length_cons, Nat.add_sub_cancel, piecesAfter_append, Hit.lastOr, ht,
            List.getLast?_cons]
          cases t.getLast? <;> rfl
        rw [piecesAfter, hh]
        refine .find hh ?_
        rw [hnext]
        exact ih _ (hn ▸ length_rest_lt hh) _ _ rfl

/-- A text has one scan only. -/
theorem scan_unique {p : Pattern} {b : Option Char} {s : List Char} {ps qs : List Piece}
    (hps : Scan p b s ps) (hqs : Scan p b s qs) : ps = qs := by
  induction hps generalizing qs with
  | done b =>
    cases hqs with
    | done => rfl
    | find hh _ => simp [hit?_nil] at hh
  | keep hnone _ ih =>
    cases hqs with
    | keep _ hqs => rw [ih hqs]
    | find hh _ => simp [hnone] at hh
  | find hsome _ ih =>
    cases hqs with
    | done => simp [hit?_nil] at hsome
    | keep hh _ => simp [hsome] at hh
    | find hh hqs =>
      obtain rfl : _ = _ := Option.some.inj (hsome.symm.trans hh)
      rw [ih hqs]

/-- The pieces of a text are its one scan. -/
theorem scan_iff {p : Pattern} {b : Option Char} {s : List Char} {ps : List Piece} :
    Scan p b s ps ↔ p.piecesAfter 0 b s = ps := by
  constructor
  · intro h
    exact scan_unique (scan_piecesAfter p b s) h
  · rintro rfl
    exact scan_piecesAfter p b s

theorem erase_eq_of_scan {p : Pattern} {s : List Char} {ps : List Piece} (h : Scan p none s ps) :
    p.erase s = Piece.keptText ps := by
  rw [← scan_iff.1 h]
  rfl

theorem finds_eq_of_scan {p : Pattern} {s : List Char} {ps : List Piece} (h : Scan p none s ps) :
    p.finds s = Piece.foundHits ps := by
  rw [← scan_iff.1 h]
  rfl

/-- Of the character before a scan it only matters whether it belongs to a word. -/
theorem scan_congr {p : Pattern} {b b' : Option Char} {s : List Char} {ps : List Piece}
    (hb : isWordAt b = isWordAt b') (h : Scan p b s ps) : Scan p b' s ps := by
  cases h with
  | done => exact .done b'
  | keep hnone hps => exact .keep (hit?_congr hb _ ▸ hnone) hps
  | @find _ _ h _ hsome hps =>
    refine .find (hit?_congr hb _ ▸ hsome) ?_
    obtain ⟨_, hne⟩ := hit?_eq_some hsome
    have hlast : h.lastOr b' = h.lastOr b := by
      simp [Hit.lastOr, List.getLast?_eq_some_getLast hne]
    rwa [hlast]

/-- Behind a character that belongs to no word a pattern occurs as at the start of a text. -/
theorem occursAfter_break {p : Pattern} {c : Char} (hw : isWord c = false) (s : List Char) :
    p.occursAfter (some c) s = p.occurs s := by
  have hb : isWordAt (some c) = isWordAt none := by simp [isWordAt, hw]
  cases s <;> simp only [occurs, occursAfter, hits_congr hb]

/-! ## Clause breaks -/

/-- **Clauses are scanned apart.** No find reaches across a clause break. -/
theorem scan_append_break {p : Pattern} {c : Char} (hw : isWord c = false)
    (hp : p.avoids c = true) {b : Option Char} {s t : List Char} {ps qs : List Piece}
    (hps : Scan p b s ps) (hqs : Scan p none t qs) :
    Scan p b (s ++ c :: t) (ps.map (.extend (c :: t)) ++ .kept c :: qs) := by
  induction hps with
  | done b =>
    -- A hit at the break would have to take it.
    have hnone : p.hit? b (c :: t) = none := by
      simpa [hit?_nil] using hit?_append_break hw hp b [] t
    have hb : isWordAt none = isWordAt (some c) := by simp [isWordAt, hw]
    exact .keep hnone (scan_congr hb hqs)
  | @keep b d s ps hnone _ ih =>
    have hnone' : p.hit? b (d :: s ++ c :: t) = none := by
      rw [hit?_append_break hw hp, hnone]
      rfl
    exact .keep hnone' ih
  | @find b s h ps hsome _ ih =>
    have hsome' : p.hit? b (s ++ c :: t) = some (h.extend (c :: t)) := by
      rw [hit?_append_break hw hp, hsome]
      rfl
    exact .find hsome' ih

section Break

variable {p : Pattern} {c : Char} (hw : isWord c = false) (hp : p.avoids c = true)
include hw hp

theorem erase_append_break (s t : List Char) :
    p.erase (s ++ c :: t) = p.erase s ++ c :: p.erase t := by
  have hs := scan_piecesAfter p none s
  have ht := scan_piecesAfter p none t
  rw [erase_eq_of_scan (scan_append_break hw hp hs ht), erase_eq_of_scan hs, erase_eq_of_scan ht]
  simp

theorem finds_append_break (s t : List Char) :
    p.finds (s ++ c :: t) = (p.finds s).map (.extend (c :: t)) ++ p.finds t := by
  have hs := scan_piecesAfter p none s
  have ht := scan_piecesAfter p none t
  rw [finds_eq_of_scan (scan_append_break hw hp hs ht), finds_eq_of_scan hs, finds_eq_of_scan ht]
  simp

/-- What a find is like on its own does not depend on where the text goes on. -/
theorem exists_finds_append_break {P : Hit → Prop} (hP : ∀ h t, P (h.extend t) ↔ P h)
    (s t : List Char) :
    (∃ h ∈ p.finds (s ++ c :: t), P h) ↔ (∃ h ∈ p.finds s, P h) ∨ ∃ h ∈ p.finds t, P h := by
  rw [finds_append_break hw hp]
  simp only [List.mem_append, List.mem_map, or_and_right, exists_or]
  refine or_congr_left ?_
  constructor
  · rintro ⟨_, ⟨h, hh, rfl⟩, hext⟩
    exact ⟨h, hh, (hP h _).1 hext⟩
  · rintro ⟨h, hh, hprop⟩
    exact ⟨_, ⟨h, hh, rfl⟩, (hP h _).2 hprop⟩

theorem occursAfter_append_break (b : Option Char) (s t : List Char) :
    p.occursAfter b (s ++ c :: t) = (p.occursAfter b s || p.occurs t) := by
  induction s generalizing b with
  | nil =>
    have hhits : p.hits b (c :: t) = (p.hits b []).map (.extend (c :: t)) :=
      hits_append_break hw hp b [] t
    simp only [List.nil_append, occursAfter, hhits, List.isEmpty_map, occursAfter_break hw]
  | cons d s ih =>
    have hhits : p.hits b (d :: (s ++ c :: t)) = (p.hits b (d :: s)).map (.extend (c :: t)) :=
      hits_append_break hw hp b (d :: s) t
    simp only [List.cons_append, occursAfter, hhits, List.isEmpty_map, ih, Bool.or_assoc]

theorem occurs_append_break (s t : List Char) :
    p.occurs (s ++ c :: t) = (p.occurs s || p.occurs t) :=
  occursAfter_append_break hw hp none s t

end Break

/-! ## Before the first word -/

section LeadingBreak

variable {p : Pattern} {c : Char} (hproper : p.isProper = true) (hstart : p.startsInWord = true)
  (hw : isWord c = false)
include hproper hstart hw

/-- A pattern that begins inside a word has no hit at a character that belongs to none. -/
theorem hits_cons_break (b : Option Char) (s : List Char) : p.hits b (c :: s) = [] := by
  rw [List.eq_nil_iff_forall_not_mem]
  intro h hh
  obtain ⟨d, t, ht⟩ := List.exists_cons_of_ne_nil (text_ne_nil hproper hh)
  have hcut := text_append_rest hh
  rw [ht, List.cons_append, List.cons.injEq] at hcut
  have hd : isWord d = true := isWord_of_mem_head? hstart hh d (by simp [ht])
  rw [hcut.1, hw] at hd
  cases hd

theorem occurs_cons_break (s : List Char) : p.occurs (c :: s) = p.occurs s := by
  rw [occurs, occursAfter, hits_cons_break hproper hstart hw, occursAfter_break hw]
  rfl

theorem finds_cons_break (s : List Char) : p.finds (c :: s) = p.finds s := by
  have hs := scan_piecesAfter p none s
  have hnone : p.hit? none (c :: s) = none := by
    rw [hit?, hits_cons_break hproper hstart hw]
    rfl
  have hb : isWordAt none = isWordAt (some c) := by simp [isWordAt, hw]
  rw [finds_eq_of_scan (.keep hnone (scan_congr hb hs)), finds_eq_of_scan hs,
    Piece.foundHits_kept]

end LeadingBreak

/-! ## Erasing nothing, erasing all -/

/-- A pattern that needs more characters of some kind than the text has erases nothing. -/
theorem erase_eq_self {p : Pattern} (test : Char → Bool) {s : List Char}
    (hlt : s.countP test < p.atLeast test) : p.erase s = s := by
  have hscan : ∀ b, Scan p b s (s.map .kept) := by
    induction s with
    | nil => exact .done
    | cons c s ih =>
      have hcount : s.countP test ≤ (c :: s).countP test := by
        rw [List.countP_cons]
        omega
      intro b
      refine .keep (hit?_eq_none_iff.2 ?_) (ih (by omega) (some c))
      intro h hh
      have hle := atLeast_le_countP test hh
      have hsub : h.text.countP test ≤ (c :: s).countP test := by
        rw [← text_append_rest hh, List.countP_append]
        omega
      omega
  rw [erase_eq_of_scan (hscan none), Piece.keptText_map_kept]

/-- A pattern whose best hit is the whole text erases all of it. -/
theorem erase_eq_nil {p : Pattern} {s : List Char} {h : Hit} (hh : p.hit? none s = some h)
    (hrest : h.rest = []) : p.erase s = [] := by
  have hscan : Scan p none s [.found h] := .find hh (hrest ▸ .done _)
  rw [erase_eq_of_scan hscan]
  rfl

/-- What is kept is part of the text. -/
theorem keptText_sublist {p : Pattern} {b : Option Char} {s : List Char} {ps : List Piece}
    (h : Scan p b s ps) : (Piece.keptText ps).Sublist s := by
  induction h with
  | done => exact .slnil
  | keep _ _ ih => exact ih.cons_cons _
  | @find b s h ps hsome _ ih =>
    rw [← text_append_rest (hit?_eq_some hsome).1]
    exact ih.trans (List.sublist_append_right _ _)

theorem erase_sublist (p : Pattern) (s : List Char) : (p.erase s).Sublist s :=
  keptText_sublist (scan_piecesAfter p none s)

/-! ## Erasing one pattern after the other -/

theorem foldl_erase_nil (ps : List Pattern) : ps.foldl (fun s p => p.erase s) [] = [] := by
  induction ps with
  | nil => rfl
  | cons p ps ih => exact ih

theorem foldl_erase_eq_self {ps : List Pattern} {s : List Char} (hps : ∀ p ∈ ps, p.erase s = s) :
    ps.foldl (fun s p => p.erase s) s = s := by
  induction ps with
  | nil => rfl
  | cons p ps ih =>
    rw [List.foldl_cons, hps p (by simp)]
    apply ih
    intro q hq
    exact hps q (List.mem_cons_of_mem p hq)

theorem foldl_erase_sublist (ps : List Pattern) (s : List Char) :
    (ps.foldl (fun s p => p.erase s) s).Sublist s := by
  induction ps generalizing s with
  | nil => exact List.Sublist.refl s
  | cons p ps ih =>
    show (ps.foldl (fun s p => p.erase s) (p.erase s)).Sublist s
    exact (ih (p.erase s)).trans (erase_sublist p s)

theorem foldl_erase_append_break {ps : List Pattern} {c : Char} (hw : isWord c = false)
    (hps : ∀ p ∈ ps, p.avoids c = true) (s t : List Char) :
    ps.foldl (fun s p => p.erase s) (s ++ c :: t) =
      ps.foldl (fun s p => p.erase s) s ++ c :: ps.foldl (fun s p => p.erase s) t := by
  induction ps generalizing s t with
  | nil => rfl
  | cons p ps ih =>
    rw [List.foldl_cons, List.foldl_cons, List.foldl_cons,
      erase_append_break hw (hps p (by simp))]
    apply ih
    intro q hq
    exact hps q (List.mem_cons_of_mem p hq)

end Pattern

end FleetSearch
