/-
# FleetSearch.Proofs.Config -- settings are read from what gives them

A configuration file may give any of the settings, in any order and among members of other names
(`Config.Gives`). It is read as the settings that it gives, with the defaults for the others
(`Config.only`), whatever its text looks like. The file that settings are saved to gives all of
them, so they are read back (`Config.settings_read_back`).
-/

import FleetSearch.Config
import FleetSearch.Proofs.Failure
import FleetSearch.Proofs.Json.RecordText

namespace FleetSearch.Config

open Json

/-! ## Single settings -/

theorem takesText_catalogPath {path : Option String} {v : List Char}
    (h : TextOf ((path.map Tree.string).getD .null) v) :
    TakesText (readOptional (readText "path string")) v path := by
  cases path with
  | none => exact takesText_null h
  | some path =>
    refine (takesText_text _ h).optional ?_
    change TextOf (.string path) v at h
    cases h with
    | string _ => simp

theorem takesText_limit {limit : UInt64} {v : List Char} (h : TextOf (.natural limit.toNat) v) :
    TakesText readLimit v limit := by
  have hnat := takesText_nat "usize" limit.toNat_lt_size (Nat.le_refl wordLimit) h
  rw [← UInt64.ofNat_toNat (x := limit)]
  exact hnat.map UInt64.ofNat

/-! ## Some of the settings -/

/-- The settings as members of an object. -/
def members (c : Config) : List (String × Tree) := [
  ("catalog_path", (c.catalogPath.map Tree.string).getD .null),
  ("color", .boolean c.color),
  ("limit", .natural c.limit.toNat)]

/-- The settings with the given names, and the defaults for the others. -/
def only (c : Config) (names : List String) : Config where
  catalogPath := if "catalog_path" ∈ names then c.catalogPath else none
  color := if "color" ∈ names then c.color else true
  limit := if "limit" ∈ names then c.limit else 0

/-- A draft with the settings of the given names. -/
def draftOf (c : Config) (names : List String) : Draft where
  catalogPath := if "catalog_path" ∈ names then some c.catalogPath else none
  color := if "color" ∈ names then some c.color else none
  limit := if "limit" ∈ names then some c.limit else none

theorem build_draftOf (c : Config) (names : List String) :
    (c.draftOf names).build = .ok (c.only names) := by
  have hget : ∀ {α : Type} (p : Prop) [Decidable p] (a b : α),
      (if p then some a else none).getD b = if p then a else b := by
    intro α p _ a b
    split <;> rfl
  unfold Draft.build draftOf only
  simp only [hget]

/-- The names of the settings. -/
def names : List String := ["catalog_path", "color", "limit"]

theorem draftOf_congr {c : Config} {given given' : List String}
    (h : ∀ name ∈ names, name ∈ given ↔ name ∈ given') : c.draftOf given = c.draftOf given' := by
  unfold draftOf
  simp only [h "catalog_path" (by decide), h "color" (by decide), h "limit" (by decide)]

theorem only_congr {c : Config} {given given' : List String}
    (h : ∀ name ∈ names, name ∈ given ↔ name ∈ given') : c.only given = c.only given' := by
  unfold only
  simp only [h "catalog_path" (by decide), h "color" (by decide), h "limit" (by decide)]

/-- A name and a text that give a setting, or a name of none and the text of any value. -/
inductive IsEntry (c : Config) : String × List Char → Prop
  | given {name : String} {t : Tree} {v : List Char} :
      (name, t) ∈ c.members → TextOf t v → IsEntry c (name, v)
  | extra {name : String} {v : List Char} : name ∉ names → IsValue v → IsEntry c (name, v)

/-- A setting is added to a draft that does not have it yet. -/
theorem receives_given {c : Config} {name : String} {t : Tree} {v : List Char}
    (hmember : (name, t) ∈ c.members) (htext : TextOf t v) {given : List String}
    (hfree : name ∉ given) :
    Receives record.fields (c.draftOf given) (name, v) (c.draftOf (name :: given)) := by
  simp only [members, List.mem_cons, Prod.mk.injEq, List.not_mem_nil, or_false] at hmember
  rcases hmember with ⟨rfl, rfl⟩ | ⟨rfl, rfl⟩ | ⟨rfl, rfl⟩
  · have hnext : c.draftOf ("catalog_path" :: given) =
        { c.draftOf given with catalogPath := some c.catalogPath } := by
      simp [draftOf]
    have hblank : (c.draftOf given).catalogPath.isSome = false := by
      simp [draftOf, hfree]
    rw [hnext]
    exact .field rfl hblank ((takesText_catalogPath htext).field _ _ _ _)
  · have hnext : c.draftOf ("color" :: given) =
        { c.draftOf given with color := some c.color } := by
      simp [draftOf]
    have hblank : (c.draftOf given).color.isSome = false := by
      simp [draftOf, hfree]
    rw [hnext]
    exact .field rfl hblank ((takesText_bool htext).field _ _ _ _)
  · have hnext : c.draftOf ("limit" :: given) =
        { c.draftOf given with limit := some c.limit } := by
      simp [draftOf]
    have hblank : (c.draftOf given).limit.isSome = false := by
      simp [draftOf, hfree]
    rw [hnext]
    exact .field rfl hblank ((takesText_limit htext).field _ _ _ _)

/-- A member of another name changes nothing. -/
theorem receives_extra {c : Config} {name : String} {v : List Char} (hname : name ∉ names)
    (hvalue : IsValue v) (given : List String) :
    Receives record.fields (c.draftOf given) (name, v) (c.draftOf (name :: given)) := by
  have hnext : c.draftOf (name :: given) = c.draftOf given := by
    apply draftOf_congr
    intro setting hsetting
    rw [List.mem_cons, or_iff_right]
    rintro rfl
    exact hname hsetting
  have hfind : (record.fields.find? fun field => field.name == name) = none := by
    rw [List.find?_eq_none]
    intro field hfield
    rw [beq_iff_eq]
    rintro rfl
    exact hname (List.mem_map_of_mem (f := Field.name) hfield)
  rw [hnext]
  exact .extra hfind hvalue

/-- An entry adds its setting to a draft that does not have it yet. -/
theorem receives_draftOf {c : Config} {e : String × List Char} (he : c.IsEntry e)
    {given : List String} (hnew : e.1 ∈ names → e.1 ∉ given) :
    Receives record.fields (c.draftOf given) e (c.draftOf (e.1 :: given)) := by
  cases he with
  | given hmember htext =>
    exact receives_given hmember htext (hnew (List.mem_map_of_mem (f := Prod.fst) hmember))
  | extra hname hvalue => exact receives_extra hname hvalue given

/-- The entries give the chosen settings, each once and in any order, and no other, among entries of
other names. -/
structure Gives (c : Config) (chosen : List String) (entries : List (String × List Char)) :
    Prop where
  isEntry : ∀ e ∈ entries, c.IsEntry e
  once : entries.Pairwise fun d e => d.1 = e.1 → d.1 ∉ names
  mem_chosen : ∀ name ∈ names, name ∈ entries.map Prod.fst ↔ name ∈ chosen

/-- Entries add their settings to a draft. -/
theorem gathers_draftOf {c : Config} {entries : List (String × List Char)}
    (hentries : ∀ e ∈ entries, c.IsEntry e)
    (honce : entries.Pairwise fun d e => d.1 = e.1 → d.1 ∉ names) {given : List String}
    (hnew : ∀ e ∈ entries, e.1 ∈ names → e.1 ∉ given) :
    Gathers record.fields (c.draftOf given) entries
      (c.draftOf (entries.map Prod.fst ++ given)) := by
  induction entries generalizing given with
  | nil => exact .nil _
  | cons e entries ih =>
    rw [List.forall_mem_cons] at hentries hnew
    rw [List.pairwise_cons] at honce
    have hlater : ∀ d ∈ entries, d.1 ∈ names → d.1 ∉ e.1 :: given := by
      intro d hd hname
      rw [List.mem_cons, not_or]
      refine ⟨?_, hnew.2 d hd hname⟩
      intro heq
      exact honce.1 d hd heq.symm (heq ▸ hname)
    have hlast : c.draftOf ((e :: entries).map Prod.fst ++ given) =
        c.draftOf (entries.map Prod.fst ++ e.1 :: given) := by
      apply draftOf_congr
      intro name _
      simp only [List.map_cons, List.cons_append, List.mem_cons, List.mem_append]
      exact or_left_comm
    rw [hlast]
    exact .cons (receives_draftOf hentries.1 hnew.1) (ih hentries.2 honce.2 hlater)

/-- **Settings are taken** from any text of an object that gives them, and the others are the
defaults. -/
theorem takesText_only {c : Config} {chosen : List String} {entries : List (String × List Char)}
    (hgives : c.Gives chosen entries) {text : List Char} (htext : IsObject entries text) :
    TakesText record.read text (c.only chosen) := by
  have hgathers := gathers_draftOf hgives.isEntry hgives.once
    (fun _ _ _ => List.not_mem_nil : ∀ e ∈ entries, e.1 ∈ names → e.1 ∉ [])
  have hbuild : record.build (c.draftOf (entries.map Prod.fst ++ [])) = .ok (c.only chosen) := by
    rw [List.append_nil]
    show Draft.build _ = _
    rw [build_draftOf, only_congr hgives.mem_chosen]
  exact Record.takesText_of_gathers htext hgathers hbuild

/-! ## Files -/

/-- A file of text is loaded as the settings of the text. -/
theorem load_of_ofText {c : Config} {text : String} (h : ofText text = .ok c) :
    load (some text.toUTF8) = .ok c := by
  have hbytes : textOf text.toUTF8 = .ok text := textOf_eq_ok_iff.2 rfl
  unfold load
  simp only [hbytes, h]

/-- The members of the written settings give all of them. -/
theorem gives_names (c : Config) (depth : Nat) :
    c.Gives names (c.members.map fun m => (m.1, m.2.print depth)) where
  isEntry := by
    rw [List.forall_mem_map]
    intro m hm
    refine .given hm ?_
    simp only [members, List.mem_cons, List.not_mem_nil, or_false] at hm
    rcases hm with rfl | rfl | rfl
    · cases hpath : c.catalogPath with
      | none => exact textOf_null depth
      | some path => exact textOf_string path depth
    · exact textOf_boolean c.color depth
    · exact textOf_natural c.limit.toNat depth
  once := by
    rw [List.pairwise_map]
    simp [members]
  mem_chosen _ _ := by
    rw [List.map_map]
    exact .rfl

theorem only_names (c : Config) : c.only names = c := by
  simp [only, names]

/-- A file with a text that gives some of the settings is loaded as these. -/
theorem load_of_gives {c : Config} {chosen : List String} {entries : List (String × List Char)}
    {lead object trail : List Char} {text : String} (hgives : c.Gives chosen entries)
    (hobject : IsObject entries object) (hlead : IsSpacing lead) (htrail : IsSpacing trail)
    (htext : text.toList = lead ++ (object ++ trail)) :
    load (some text.toUTF8) = .ok (c.only chosen) :=
  load_of_ofText ((takesText_only hgives hobject).readWhole hlead htrail htext)

/-- **Settings are read back** from the file that they are saved to. A file that gives only some of
them, in any text of an object, is loaded as these and the defaults for the others. -/
theorem settings_read_back (c : Config) :
    load (some c.save) = .ok c ∧
      ∀ {chosen : List String} {entries : List (String × List Char)}
        {lead object trail : List Char} {text : String},
        c.Gives chosen entries → IsObject entries object → IsSpacing lead → IsSpacing trail →
        text.toList = lead ++ (object ++ trail) →
        load (some text.toUTF8) = .ok (c.only chosen) := by
  refine ⟨?_, load_of_gives⟩
  have hsaved : c.text.toList = [] ++ (c.toTree.print 0 ++ []) := by
    rw [text, Tree.pretty, String.toList_ofList, List.nil_append, List.append_nil]
  have hread := load_of_gives (c.gives_names 1) (isObject_print c.members 0) (List.forall_mem_nil _)
    (List.forall_mem_nil _) hsaved
  rw [only_names] at hread
  exact hread

/-- A limit alone, behind a member that is no setting. -/
theorem settings_read_back_limit :
    load (some "\x7b\"x\": [\x7b\"y\":1e999\x7d], \"limit\" :25\x7d\n".toUTF8) =
      .ok { limit := 25 } := by
  have hblank : IsSpacing [] := List.forall_mem_nil _
  have hspace : IsSpacing [' '] := List.forall_mem_singleton.2 rfl
  have hletter : IsChars ['y'] := .plain (by decide) (by decide) (by decide) .nil
  have hname : Spells ['x'] ['x'] := .plain (by decide) (by decide) (by decide) .nil
  have hexponent : IsExponent ['e', '9', '9', '9'] :=
    @IsExponent.digits 'e' '9' [] ['9', '9'] (by decide) (by decide)
      ((List.all_eq_true (p := Char.isDigit)).1 (by decide))
  have hwhole : IsWhole ['1'] :=
    .digits ((List.all_eq_true (p := Char.isDigit)).1 (by decide)) (by decide)
  have hnumber : IsValue ['1', 'e', '9', '9', '9'] :=
    .number (@IsUnsigned.parts ['1'] [] _ hwhole .none hexponent)
  have hmember : IsMember IsChars ['1', 'e', '9', '9', '9'] "\"y\":1e999".toList :=
    .member hletter hblank hblank
  have hinner : IsValue "\x7b\"y\":1e999\x7d".toList :=
    @IsValue.object [(_, _)] _ (List.forall_mem_singleton.2 hnumber)
      (List.forall_mem_singleton.2 hmember) (.row hblank (.last hblank))
  have hextra : IsValue "[\x7b\"y\":1e999\x7d]".toList :=
    @IsValue.list [_] _ (List.forall_mem_singleton.2 hinner) (.row hblank (.last hblank))
  have hgives : Gives { limit := 25 } ["limit"]
      [("x", "[\x7b\"y\":1e999\x7d]".toList), ("limit", "25".toList)] := by
    refine ⟨?_, ?_, by decide⟩
    · rw [List.forall_mem_cons, List.forall_mem_singleton]
      exact ⟨.extra (by decide) hextra, .given (by simp [members]) (.natural 25)⟩
    · simp
  have hobject : IsObject [("x", "[\x7b\"y\":1e999\x7d]".toList), ("limit", "25".toList)]
      "\x7b\"x\": [\x7b\"y\":1e999\x7d], \"limit\" :25\x7d".toList :=
    .object (.cons (.member hname hblank hspace)
        (.cons (.member (spells_written "limit".toList) hspace hblank) .nil))
      (.row hblank (.cons hblank hspace (.last hblank)))
  exact (settings_read_back { limit := 25 }).2 hgives hobject hblank
    (List.forall_mem_singleton.2 rfl : IsSpacing ['\n']) rfl

end FleetSearch.Config
