/-
# FleetSearch.Proofs.Command.SearchLine -- every search can be asked for

Any words can be searched for, also words that look like options, in any named catalog, with any
limit, in either form and with any choice of colors: a command line gives the options with their
values and then, behind a double dash, the words (`searchLine`). It is read as the search
(`read_searchLine`).
-/

import FleetSearch.Command.Arguments
import FleetSearch.Proofs.Json.Numeral

namespace FleetSearch.Command

/-! ## Words for options -/

namespace Opt

/-- The word for the option without a value. -/
def flag (opt : Opt) : String := "--" ++ opt.name

/-- The word for the option with a value. -/
def assign (opt : Opt) (value : String) : String := "--" ++ opt.name ++ "=" ++ value

theorem name_injective : Function.Injective name := by
  intro opt other h
  cases opt <;> cases other <;> first | rfl | exact absurd h (by decide)

theorem find?_name {allowed : List Opt} {opt : Opt} (h : opt ∈ allowed) :
    (allowed.find? fun other => other.name == opt.name) = some opt := by
  have hfound : (allowed.find? fun other => other.name == opt.name).isSome :=
    List.find?_isSome.2 ⟨opt, h, beq_iff_eq.2 rfl⟩
  obtain ⟨found, hfound⟩ := Option.isSome_iff_exists.1 hfound
  have hname := List.find?_some hfound
  rw [beq_iff_eq] at hname
  rw [hfound, name_injective hname]

theorem name_toList (opt : Opt) :
    ∃ c s, opt.name.toList = c :: s ∧ '=' ∉ c :: s ∧ String.ofList (c :: s) = opt.name := by
  cases opt <;> exact ⟨_, _, rfl, by decide, rfl⟩

end Opt

/-- The name ends at the first equals sign. -/
theorem splitEquals_append {name : List Char} (h : '=' ∉ name) (value : List Char) :
    splitEquals (name ++ '=' :: value) = (name, some value) := by
  induction name with
  | nil => rfl
  | cons c name ih =>
    rw [List.mem_cons, not_or] at h
    rw [List.cons_append, splitEquals, if_neg (Ne.symm h.1), ih h.2]

theorem splitEquals_of_not_mem {name : List Char} (h : '=' ∉ name) :
    splitEquals name = (name, none) := by
  induction name with
  | nil => rfl
  | cons c name ih =>
    rw [List.mem_cons, not_or] at h
    rw [splitEquals, if_neg (Ne.symm h.1), ih h.2]

theorem wordOf_long {word : String} {c : Char} {s : List Char}
    (h : word.toList = '-' :: '-' :: c :: s) :
    wordOf word = .long (String.ofList (splitEquals (c :: s)).1)
      ((splitEquals (c :: s)).2.map String.ofList) := by
  unfold wordOf
  rw [h]
  rfl

theorem wordOf_flag (opt : Opt) : wordOf opt.flag = .long opt.name none := by
  obtain ⟨c, s, hname, hequals, hof⟩ := opt.name_toList
  have htext : opt.flag.toList = '-' :: '-' :: c :: s := by
    unfold Opt.flag
    rw [String.toList_append, hname]
    rfl
  rw [wordOf_long htext, splitEquals_of_not_mem hequals, hof]
  rfl

theorem wordOf_assign (opt : Opt) (value : String) :
    wordOf (opt.assign value) = .long opt.name (some value) := by
  obtain ⟨c, s, hname, hequals, hof⟩ := opt.name_toList
  have htext : (opt.assign value).toList = '-' :: '-' :: c :: (s ++ '=' :: value.toList) := by
    unfold Opt.assign
    simp only [String.toList_append, hname, List.append_assoc]
    rfl
  have hsplit := splitEquals_append hequals value.toList
  rw [List.cons_append] at hsplit
  rw [wordOf_long htext, hsplit, hof]
  simp only [Option.map_some, String.ofList_toList]

/-! ## Reading options -/

/-- An option with its value in the same word is set to it. -/
theorem readOptions_attached {allowed : List Opt} {opt : Opt} {word value : String}
    (h : optionOf allowed word (wordOf word) = .ok (opt, some value)) (settings : Settings)
    (words : List String) :
    readOptions allowed settings none (word :: words) =
      settings.setValue opt value >>= fun next => readOptions allowed next none words := by
  rw [readOptions]
  split
  · next hplain => rw [hplain] at h; cases h
  · next hdashes => rw [hdashes] at h; cases h
  · simp only [settleWaiting, bind, Except.bind, h]

/-- An option that takes a value waits with the next word for it to be judged, unless that word
looks like an option. -/
theorem readOptions_apart {allowed : List Opt} {opt : Opt} {word : String}
    (h : optionOf allowed word (wordOf word) = .ok (opt, none)) (htakes : opt.takesValue = true)
    (settings : Settings) (value : String) (words : List String) :
    readOptions allowed settings none (word :: value :: words) =
      if isValue value then readOptions allowed settings (some (opt, value)) words
      else .error (.usage (.missingValue opt.name)) := by
  rw [readOptions]
  split
  · next hplain => rw [hplain] at h; cases h
  · next hdashes => rw [hdashes] at h; cases h
  · simp only [settleWaiting, bind, Except.bind, h, htakes, if_true]

section

variable {allowed : List Opt} {opt : Opt} (h : opt ∈ allowed)
include h

theorem optionOf_long {word : String} {value : Option String}
    (hvalue : value.isSome = true → opt.takesValue = true) :
    optionOf allowed word (.long opt.name value) = .ok (opt, value) := by
  have hfind := Opt.find?_name h
  have hhelp : opt.name ≠ "help" := by
    cases opt <;> decide
  unfold optionOf
  split
  · next heq => exact absurd (Word.long.inj heq).1 hhelp
  · next heq => exact absurd (Word.long.inj heq).1 hhelp
  · next heq =>
    cases heq
    rw [hfind]
    cases value with
    | none => rfl
    | some value => simp [hvalue rfl]
  · next heq => cases heq
  · next heq => cases heq
  · next hlong _ _ => exact absurd rfl (hlong _ _)

/-- An option with a value is read and set. -/
theorem readOptions_assign (htakes : opt.takesValue = true) {settings next : Settings}
    {value : String} (hset : settings.setValue opt value = .ok next) (words : List String) :
    readOptions allowed settings none (opt.assign value :: words) =
      readOptions allowed next none words := by
  have hoption : optionOf allowed (opt.assign value) (wordOf (opt.assign value)) =
      .ok (opt, some value) := by
    rw [wordOf_assign, optionOf_long h fun _ => htakes]
  rw [readOptions_attached hoption, hset]
  rfl

/-- An option without a value is read and set. -/
theorem readOptions_flag (htakes : opt.takesValue = false) {settings next : Settings}
    (hset : settings.setFlag opt = .ok next) (words : List String) :
    readOptions allowed settings none (opt.flag :: words) =
      readOptions allowed next none words := by
  have hoption : optionOf allowed opt.flag (.long opt.name none) = .ok (opt, none) :=
    optionOf_long h fun hsome => by cases hsome
  rw [readOptions, wordOf_flag]
  simp only [settleWaiting, bind, Except.bind, hoption, htakes, Bool.false_eq_true, if_false, hset]

end

theorem readOptions_dashes (allowed : List Opt) (settings : Settings)
    (waiting : Option (Opt × String)) (words : List String) :
    readOptions allowed settings waiting ("--" :: words) =
      .ok ⟨settings, waiting, words, true⟩ := by
  rw [readOptions]
  rfl

/-! ## Values of options -/

/-- A limit is read from its numeral. -/
theorem limit?_numeral (n : UInt64) : limit? (Text.numeral n.toNat) = some n := by
  unfold limit?
  rw [Text.unsigned?_of_decimal? (Text.decimal?_numeral n.toNat)]
  simp only [if_pos n.toNat_lt_size, UInt64.ofNat_toNat]

/-- A choice of colors by its name. -/
def ColorChoice.name : ColorChoice → String
  | .auto => "auto"
  | .always => "always"
  | .never => "never"

theorem colorChoice?_name (color : ColorChoice) : colorChoice? color.name = some color := by
  cases color <;> rfl

/-! ## Searches -/

/-- The command line of a search: its options and then its words. -/
def searchLine (words : List String) (r : SearchRequest) : List String :=
  "search" :: ((r.catalog.map Opt.catalog.assign).toList ++
    ((if r.asJson then [Opt.json.flag] else []) ++
    ((r.limit.map fun n => Opt.limit.assign (Text.numeral n.toNat)).toList ++
    (Opt.color.assign r.color.name :: "--" :: words))))

/-- The options of a search. -/
def searchOptions : List Opt := [.catalog, .json, .limit, .color]

/-- The options of a search line are read one after another, and then its words. -/
theorem readOptions_searchLine (words : List String) (r : SearchRequest)
    (hcatalog : r.catalog ≠ some "") :
    readOptions searchOptions {} none (searchLine words r).tail =
      .ok ⟨⟨r.catalog, r.limit, some r.color, r.asJson, false⟩, none, words, true⟩ := by
  have hcatalogs : ∀ rest, readOptions searchOptions {} none
      ((r.catalog.map Opt.catalog.assign).toList ++ rest) =
      readOptions searchOptions { catalog := r.catalog } none rest := by
    intro rest
    cases hnamed : r.catalog with
    | none => rfl
    | some path =>
      have hpath : path.isEmpty = false := by
        rw [hnamed] at hcatalog
        rw [String.isEmpty_eq_false_iff]
        exact fun h => hcatalog (congrArg some h)
      refine readOptions_assign (by decide) rfl ?_ rest
      simp [Settings.setValue, hpath]
  have hforms : ∀ rest, readOptions searchOptions { catalog := r.catalog } none
      ((if r.asJson then [Opt.json.flag] else []) ++ rest) =
      readOptions searchOptions { catalog := r.catalog, json := r.asJson } none rest := by
    intro rest
    cases r.asJson with
    | false => rfl
    | true => exact readOptions_flag (by decide) rfl rfl rest
  have hlimits : ∀ rest, readOptions searchOptions { catalog := r.catalog, json := r.asJson } none
      ((r.limit.map fun n => Opt.limit.assign (Text.numeral n.toNat)).toList ++ rest) =
      readOptions searchOptions { catalog := r.catalog, json := r.asJson, limit := r.limit } none
        rest := by
    intro rest
    cases r.limit with
    | none => rfl
    | some n =>
      refine readOptions_assign (by decide) rfl ?_ rest
      simp [Settings.setValue, limit?_numeral]
  have hcolor : Settings.setValue
      { catalog := r.catalog, json := r.asJson, limit := r.limit } .color r.color.name =
      .ok ⟨r.catalog, r.limit, some r.color, r.asJson, false⟩ := by
    simp [Settings.setValue, colorChoice?_name]
  show readOptions searchOptions {} none (_ ++ (_ ++ (_ ++ _))) = _
  rw [hcatalogs, hforms, hlimits, readOptions_assign (by decide) rfl hcolor, readOptions_dashes]

/-- **Every search can be asked for**, if it does not name an empty path. -/
theorem read_searchLine (words : List String) (r : SearchRequest) (hquery : r.query = queryOf words)
    (hcatalog : r.catalog ≠ some "") : read (searchLine words r) = .ok (.search r) := by
  have hread : readSearch (searchLine words r).tail = .ok (.search r) := by
    unfold readSearch readAllOptions
    rw [← searchOptions, readOptions_searchLine words r hcatalog]
    show Except.ok (Request.search ⟨queryOf words, r.catalog, r.asJson, r.limit, r.color⟩) = _
    rw [← hquery]
  have hcommand : readOptions [.catalog] {} none (searchLine words r) =
      .ok ⟨{}, none, searchLine words r, false⟩ := by
    unfold searchLine
    rw [readOptions]
    rfl
  unfold read
  rw [hcommand]
  show (readSearch (searchLine words r).tail >>= _) = _
  rw [hread]
  rfl

end FleetSearch.Command
