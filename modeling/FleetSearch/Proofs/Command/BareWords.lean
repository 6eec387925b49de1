/-
# FleetSearch.Proofs.Command.BareWords -- words without a command are searched for

A command line without a command is read with fewer options than a search, and then by itself. Both
readings agree on a line that names a catalog or none and goes on with a word: what stands before
that word is read alike whatever other options there are (`readOptions_namesCatalog`), and what
stands behind it is query text for both. So the command can be left out (`search_by_bare_words`).
-/

import FleetSearch.Proofs.Command.Opening
import FleetSearch.Proofs.Command.SearchLine

namespace FleetSearch.Command

/-! ## Naming a catalog -/

/-- The words that name a catalog, in each spelling of the option, or no words. -/
inductive NamesCatalog : Option String → List String → Prop
  | nothing : NamesCatalog none []
  /-- `--catalog=fleet.json` -/
  | assign (path : String) : NamesCatalog (some path) [Opt.catalog.assign path]
  /-- `--catalog fleet.json` -/
  | flag (path : String) : NamesCatalog (some path) [Opt.catalog.flag, path]
  /-- `-c fleet.json` -/
  | letter (path : String) : NamesCatalog (some path) ["-c", path]
  /-- `-c=fleet.json` -/
  | letterAssign (path : String) : NamesCatalog (some path) ["-c=" ++ path]
  /-- `-cfleet.json` -/
  | letterJoined {c : Char} {s : List Char} :
      c ≠ '=' → NamesCatalog (some (.ofList (c :: s))) ["-c" ++ .ofList (c :: s)]

/-- What the words that name a catalog set, or why they are refused. A path that stands by itself
must not look like an option, and no path is empty. -/
def settingsOf (named : Option String) (option : List String) : Except Stop Settings :=
  if option.tail.all isValue then settleWaiting {} (named.map fun path => (.catalog, path))
  else .error (.usage (.missingValue Opt.catalog.name))

theorem setValue_catalog (path : String) :
    Settings.setValue {} .catalog path =
      if path.isEmpty then .error (.usage (.badValue Opt.catalog.name path))
      else .ok { catalog := some path } :=
  rfl

theorem settingsOf_eq_ok {named : Option String} {option : List String} {s : Settings}
    (h : settingsOf named option = .ok s) : s = { catalog := named } := by
  unfold settingsOf at h
  split at h
  · cases named with
    | none => exact (Except.ok.inj h).symm
    | some path =>
      change Settings.setValue {} .catalog path = _ at h
      rw [setValue_catalog] at h
      split at h
      · cases h
      · exact (Except.ok.inj h).symm
  · cases h

theorem settingsOf_of_isValue {named : Option String} {option : List String}
    (hpath : named ≠ some "") (hvalue : ∀ value ∈ option.tail, isValue value = true) :
    settingsOf named option = .ok { catalog := named } := by
  unfold settingsOf
  rw [if_pos (List.all_eq_true.2 hvalue)]
  cases named with
  | none => rfl
  | some path =>
    have hempty : ¬ path.isEmpty = true := by
      rw [String.isEmpty_iff]
      exact fun h => hpath (congrArg some h)
    show Settings.setValue {} .catalog path = _
    rw [setValue_catalog, if_neg hempty]

/-! ## Reading options up to a word -/

/-- How the options before plain words are read: up to these words, with what is set once all values
are judged, or up to a fault. -/
inductive ReadsUpTo (words : List String) : Except Stop OptionsRead → Except Stop Settings → Prop
  | words (settings : Settings) (waiting : Option (Opt × String)) :
      ReadsUpTo words (.ok ⟨settings, waiting, words, false⟩) (settleWaiting settings waiting)
  | stop (stop : Stop) : ReadsUpTo words (.error stop) (.error stop)

theorem wordOf_short {word : String} {c : Char} {s : List Char} (h : word.toList = '-' :: c :: s)
    (hc : c ≠ '-') : wordOf word = .short c s := by
  unfold wordOf
  rw [h]
  split
  · next heq => cases heq; exact absurd rfl hc
  · next heq => cases heq; exact absurd rfl hc
  · next heq => cases heq; rfl
  · next hshort => exact absurd rfl (hshort c s)

theorem optionOf_letter {allowed : List Opt} (hallowed : .catalog ∈ allowed) (word : String)
    (rest : List Char) :
    optionOf allowed word (.short 'c' rest) = .ok (.catalog, attached? rest) := by
  have hfound : (allowed.find? fun opt => opt.letter? == some 'c') = some .catalog := by
    have hsome : (allowed.find? fun opt => opt.letter? == some 'c').isSome :=
      List.find?_isSome.2 ⟨.catalog, hallowed, rfl⟩
    obtain ⟨opt, hopt⟩ := Option.isSome_iff_exists.1 hsome
    have hletter := List.find?_some hopt
    rw [hopt]
    cases opt <;> first | rfl | exact absurd hletter (by decide)
  unfold optionOf
  split
  · next heq => cases heq
  · next heq => cases heq
  · next heq => cases heq
  · next heq => cases heq
  · next heq => cases heq; rw [hfound]
  · next hshort => exact absurd rfl (hshort 'c' rest)

section

variable {allowed : List Opt} {word : String} (hword : wordOf word = .plain) (words : List String)
include hword

theorem readOptions_plain (settings : Settings) (waiting : Option (Opt × String)) :
    readOptions allowed settings waiting (word :: words) =
      .ok ⟨settings, waiting, word :: words, false⟩ := by
  rw [readOptions, hword]

theorem readsUpTo_attached {option path : String}
    (hoption : optionOf allowed option (wordOf option) = .ok (.catalog, some path)) :
    ReadsUpTo (word :: words) (readOptions allowed {} none (option :: word :: words))
      (settingsOf (some path) [option]) := by
  rw [readOptions_attached hoption]
  show ReadsUpTo _ _ (Settings.setValue {} .catalog path)
  cases Settings.setValue {} .catalog path with
  | error stop => exact .stop stop
  | ok settings =>
    show ReadsUpTo _ (readOptions allowed settings none (word :: words)) _
    rw [readOptions_plain hword]
    exact .words settings none

theorem readsUpTo_apart {option path : String}
    (hoption : optionOf allowed option (wordOf option) = .ok (.catalog, none)) :
    ReadsUpTo (word :: words) (readOptions allowed {} none (option :: path :: word :: words))
      (settingsOf (some path) [option, path]) := by
  have htail : [option, path].tail.all isValue = isValue path := Bool.and_true _
  unfold settingsOf
  rw [readOptions_apart hoption rfl, htail]
  split
  · rw [readOptions_plain hword]
    exact .words {} (some (.catalog, path))
  · exact .stop _

/-- **Naming a catalog** is read alike, whatever other options there are. -/
theorem readOptions_namesCatalog (hallowed : .catalog ∈ allowed) {named : Option String}
    {option : List String} (h : NamesCatalog named option) :
    ReadsUpTo (word :: words) (readOptions allowed {} none (option ++ word :: words))
      (settingsOf named option) := by
  cases h with
  | nothing =>
    rw [List.nil_append, readOptions_plain hword]
    exact .words {} none
  | assign path =>
    apply readsUpTo_attached hword
    rw [wordOf_assign, optionOf_long hallowed fun _ => rfl]
  | flag path =>
    apply readsUpTo_apart hword
    rw [wordOf_flag, optionOf_long hallowed fun _ => rfl]
  | letter path => exact readsUpTo_apart hword words (optionOf_letter hallowed _ [])
  | letterAssign path =>
    have hkind : wordOf ("-c=" ++ path) = .short 'c' ('=' :: path.toList) :=
      wordOf_short String.toList_append (by decide)
    apply readsUpTo_attached hword
    rw [hkind, optionOf_letter hallowed, attached?, String.ofList_toList]
  | @letterJoined c s hc =>
    have hkind : wordOf ("-c" ++ .ofList (c :: s)) = .short 'c' (c :: s) := by
      refine wordOf_short ?_ (by decide)
      rw [String.toList_append]
      exact congrArg ("-c".toList ++ ·) String.toList_ofList
    apply readsUpTo_attached hword
    rw [hkind, optionOf_letter hallowed]
    unfold attached?
    split
    · next heq => cases heq
    · next heq => exact absurd (List.cons.inj heq).1 hc
    · rfl

end

/-! ## Searching without a command -/

theorem wordOf_plain {word : String} (h : word.toList.head? ≠ some '-') :
    wordOf word = .plain := by
  unfold wordOf
  split
  · next heq => exact absurd (congrArg List.head? heq) h
  · next heq => exact absurd (congrArg List.head? heq) h
  · next heq => exact absurd (congrArg List.head? heq) h
  · rfl

/-- The words that are commands where a query may begin. -/
def commandWords : List String := ["parse", "search", "facets", "config", "help"]

theorem command?_eq_none {word : String} (h : word ∉ commandWords) : command? word = none := by
  unfold command?
  rw [List.lookup_eq_none_iff]
  intro command hcommand
  have hmem : command.1 ∈ commandWords :=
    (by decide : commands.map Prod.fst ⊆ commandWords) (List.mem_map_of_mem hcommand)
  rw [bne_iff_ne]
  rintro rfl
  exact h hmem

/-- The words after the options are searched for, by a line without a command. -/
theorem read_of_readsUpTo {args words : List String} {word : String} {option : Except Stop Settings}
    (h : ReadsUpTo (word :: words) (readOptions [.catalog] {} none args) option)
    (hname : word ∉ commandWords) :
    read args = option.map fun s =>
      .search ⟨queryOf (word :: words), s.catalog, false, none, .auto⟩ := by
  unfold read
  generalize readOptions [.catalog] {} none args = r at h
  cases h with
  | stop stop => rfl
  | words settings waiting =>
    have hhelp : word ≠ "help" := by
      rintro rfl
      exact hname (by decide)
    have hcommand : command? word = none := command?_eq_none hname
    simp only [bind, Except.bind]
    split
    · next heq _ => exact absurd (List.cons.inj heq).1 hhelp
    · simp only [Bool.false_eq_true, if_false, List.head?_cons, Option.bind_some, hcommand]
      cases settleWaiting settings waiting with
      | error stop => rfl
      | ok s => rfl

theorem readAllOptions_of_readsUpTo {allowed : List Opt} {args words : List String}
    {option : Except Stop Settings}
    (h : ReadsUpTo words (readOptions allowed {} none args) option) :
    readAllOptions allowed args = option.map fun s => (s, words) := by
  unfold readAllOptions
  generalize readOptions allowed {} none args = r at h
  cases h with
  | stop stop => rfl
  | words settings waiting =>
    show (settleWaiting settings waiting >>= fun s => .ok (s, words)) = _
    cases settleWaiting settings waiting with
    | error stop => rfl
    | ok s => rfl

theorem read_search (args : List String) : read ("search" :: args) = readSearch args := by
  have hword : readOptions [.catalog] {} none ("search" :: args) =
      .ok ⟨{}, none, "search" :: args, false⟩ := readOptions_plain rfl args {} none
  unfold read
  rw [hword]
  show (readSearch args >>= fun request => .ok request) = _
  cases readSearch args with
  | error stop => rfl
  | ok request => rfl

/-- **Words without a command are searched for.** A line that names a catalog or none and goes on
with a word that is no command and does not look like an option leads to the same with and without
the command in front, whatever the words after it look like. If the path can be read, it is the
search for these words with nothing else set. -/
theorem search_by_bare_words (w : Surroundings) {named : Option String} {option : List String}
    (hoption : NamesCatalog named option) {word : String} (hdash : word.toList.head? ≠ some '-')
    (hname : word ∉ commandWords) (words : List String) :
    perform w (option ++ word :: words) = perform w ("search" :: (option ++ word :: words)) ∧
      (named ≠ some "" → (∀ value ∈ option.tail, isValue value = true) →
        perform w (option ++ word :: words) =
          .ok (run w (.search { query := queryOf (word :: words), catalog := named }))) := by
  have hword := wordOf_plain hdash
  have hbare := read_of_readsUpTo
    (readOptions_namesCatalog hword words (List.mem_singleton_self _) hoption) hname
  have hsearch : read ("search" :: (option ++ word :: words)) =
      (settingsOf named option).map fun s =>
        .search { query := queryOf (word :: words), catalog := s.catalog } := by
    rw [read_search, readSearch, readAllOptions_of_readsUpTo
      (readOptions_namesCatalog hword words (by decide) hoption)]
    cases hset : settingsOf named option with
    | error stop => rfl
    | ok s => rw [settingsOf_eq_ok hset]; rfl
  constructor
  · unfold perform
    rw [hbare, hsearch]
  · intro hpath hvalue
    unfold perform
    rw [hbare, settingsOf_of_isValue hpath hvalue]
    rfl

/-- Words that look like options are searched for, in the catalog that was named. -/
theorem search_by_bare_words_kaga :
    perform emptyFleet (["-c=fleet.json"] ++ "kaga" :: ["--json", "-n", "2"]) =
        perform emptyFleet ("search" :: (["-c=fleet.json"] ++ "kaga" :: ["--json", "-n", "2"])) ∧
      perform emptyFleet (["-c=fleet.json"] ++ "kaga" :: ["--json", "-n", "2"]) =
        .ok (run emptyFleet
          (.search { query := "kaga --json -n 2", catalog := some "fleet.json" })) := by
  have hsame := search_by_bare_words emptyFleet (.letterAssign "fleet.json")
    (by decide : "kaga".toList.head? ≠ some '-') (by decide) ["--json", "-n", "2"]
  exact ⟨hsame.1, hsame.2 (by decide) (by decide)⟩

end FleetSearch.Command
