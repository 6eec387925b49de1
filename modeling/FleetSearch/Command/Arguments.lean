/-
# FleetSearch.Command.Arguments -- what the words of a command line ask for

Options come before the first other word; from there on every word belongs to the query, also
one that looks like an option. A double dash ends the options without being part of the query,
and a single dash is a word. Without a command the words are a query to search for, and without
words there is help to show.

Words are read from left to right and the first fault counts, as does a call for help if it comes
first. The value of an option that stands by itself is judged when the next option, query word or
the end is reached, so a command that comes before that is read first.
-/

import FleetSearch.Text.Decimal

namespace FleetSearch.Command

/-! ## What can be asked for -/

/-- When to use colors. -/
inductive ColorChoice where
  /-- As configured, on a terminal. -/
  | auto
  | always
  | never
  deriving DecidableEq

/-- A search as asked for. -/
structure SearchRequest where
  query : String
  catalog : Option String := none
  asJson : Bool := false
  limit : Option UInt64 := none
  color : ColorChoice := .auto
  deriving DecidableEq

/-- What a command line asks for. -/
inductive Request where
  /-- Show the filters of a query. -/
  | parse (query : String)
  | search (request : SearchRequest)
  /-- List the facets of a catalog. -/
  | facets (catalog : Option String)
  /-- Show the settings, or only where their file is. -/
  | config (pathOnly : Bool)
  deriving DecidableEq

/-- Why a command line is refused. -/
inductive UsageFault where
  | unknownOption (word : String)
  | unknownCommand (word : String)
  | unexpectedWord (word : String)
  | missingValue (option : String)
  | badValue (option value : String)
  | needlessValue (option : String)
  | repeatedOption (option : String)
  | missingQuery
  deriving DecidableEq

/-- Why a command line leads to no request. -/
inductive Stop where
  | help
  | usage (fault : UsageFault)
  deriving DecidableEq

/-! ## Options -/

/-- An option other than the call for help. -/
inductive Opt where
  | catalog
  | json
  | limit
  | color
  | path
  deriving DecidableEq

namespace Opt

/-- The name of an option after two dashes. -/
def name : Opt → String
  | .catalog => "catalog"
  | .json => "json"
  | .limit => "limit"
  | .color => "color"
  | .path => "path"

/-- The letter of an option after one dash; only options with a value have one. -/
def letter? : Opt → Option Char
  | .catalog => some 'c'
  | .limit => some 'n'
  | _ => none

/-- Whether the option takes a value. -/
def takesValue : Opt → Bool
  | .catalog | .limit | .color => true
  | .json | .path => false

end Opt

/-- What the options read so far have set. -/
structure Settings where
  catalog : Option String := none
  limit : Option UInt64 := none
  color : Option ColorChoice := none
  json : Bool := false
  path : Bool := false

/-- A limit in decimal digits that fits in 64 bits. -/
def limit? (value : String) : Option UInt64 :=
  match Text.unsigned? value.toList with
  | some n => if n < UInt64.size then some (.ofNat n) else none
  | none => none

/-- A choice of colors by its name. -/
def colorChoice? (value : String) : Option ColorChoice :=
  if value = "auto" then some .auto
  else if value = "always" then some .always
  else if value = "never" then some .never
  else none

namespace Settings

/-- Set an option that takes no value. -/
def setFlag (s : Settings) (opt : Opt) : Except Stop Settings :=
  let repeated : Except Stop Settings := .error (.usage (.repeatedOption opt.name))
  match opt with
  | .json => if s.json then repeated else .ok { s with json := true }
  | .path => if s.path then repeated else .ok { s with path := true }
  | _ => .error (.usage (.missingValue opt.name))

/-- Set an option to a value. -/
def setValue (s : Settings) (opt : Opt) (value : String) : Except Stop Settings :=
  let repeated : Except Stop Settings := .error (.usage (.repeatedOption opt.name))
  let bad : Except Stop Settings := .error (.usage (.badValue opt.name value))
  match opt with
  | .catalog =>
    if s.catalog.isSome then repeated
    else if value.isEmpty then bad
    else .ok { s with catalog := some value }
  | .limit =>
    if s.limit.isSome then repeated
    else match limit? value with
      | some n => .ok { s with limit := some n }
      | none => bad
  | .color =>
    if s.color.isSome then repeated
    else match colorChoice? value with
      | some choice => .ok { s with color := some choice }
      | none => bad
  | _ => .error (.usage (.needlessValue opt.name))

end Settings

/-! ## Words -/

/-- What a word is as long as options are read. -/
inductive Word where
  /-- A word that is no option. -/
  | plain
  /-- The end of the options. -/
  | dashes
  /-- A name after two dashes, and the value after an equals sign. -/
  | long (name : String) (value : Option String)
  /-- A letter after one dash, and the characters after it. -/
  | short (letter : Char) (rest : List Char)

/-- The text before the first equals sign, and the text after it if there is one. -/
def splitEquals : List Char → List Char × Option (List Char)
  | [] => ([], none)
  | c :: s =>
    if c = '=' then ([], some s)
    else
      let (name, value) := splitEquals s
      (c :: name, value)

/-- What a word is as long as options are read. -/
def wordOf (word : String) : Word :=
  match word.toList with
  | ['-', '-'] => .dashes
  | '-' :: '-' :: s =>
    let (name, value) := splitEquals s
    .long (String.ofList name) (value.map String.ofList)
  | '-' :: c :: s => .short c s
  | _ => .plain

/-- Whether a word can be the value of the option before it. -/
def isValue (word : String) : Bool :=
  match wordOf word with
  | .plain => true
  | _ => false

/-- The value written right after the letter of an option, perhaps with an equals sign. -/
def attached? : List Char → Option String
  | [] => none
  | '=' :: s => some (String.ofList s)
  | s => some (String.ofList s)

/-! ## Reading options -/

/-- The options at the start of a command line, and the words after them. -/
structure OptionsRead where
  settings : Settings
  /-- An option whose value stood by itself and is yet to be judged. -/
  waiting : Option (Opt × String)
  words : List String
  /-- Whether a double dash came before the words. -/
  isEnded : Bool

/-- Judge the value of the option that waits for it. -/
def settleWaiting (settings : Settings) : Option (Opt × String) → Except Stop Settings
  | none => .ok settings
  | some (opt, value) => settings.setValue opt value

/-- The option meant by a word, its attached value, and whether it may take the next word as its
value; or a stop. -/
def optionOf (allowed : List Opt) (word : String) : Word → Except Stop (Opt × Option String)
  | .long "help" none => .error .help
  | .long "help" (some _) => .error (.usage (.needlessValue "help"))
  | .long name value =>
    match allowed.find? fun opt => opt.name == name with
    | some opt =>
      if value.isSome && !opt.takesValue then .error (.usage (.needlessValue opt.name))
      else .ok (opt, value)
    | none => .error (.usage (.unknownOption word))
  | .short 'h' _ => .error .help
  | .short c rest =>
    match allowed.find? fun opt => opt.letter? == some c with
    | some opt => .ok (opt, attached? rest)
    | none => .error (.usage (.unknownOption word))
  | _ => .error (.usage (.unknownOption word))

/-- Read the allowed options at the start of a command line. -/
def readOptions (allowed : List Opt) (settings : Settings) (waiting : Option (Opt × String)) :
    List String → Except Stop OptionsRead
  | [] => .ok ⟨settings, waiting, [], false⟩
  | word :: words =>
    match wordOf word with
    | .plain => .ok ⟨settings, waiting, word :: words, false⟩
    | .dashes => .ok ⟨settings, waiting, words, true⟩
    | kind => do
      let settings ← settleWaiting settings waiting
      let (opt, value) ← optionOf allowed word kind
      match value with
      | some value => readOptions allowed (← settings.setValue opt value) none words
      | none =>
        if opt.takesValue then
          match words with
          | value :: rest =>
            if isValue value then readOptions allowed settings (some (opt, value)) rest
            else .error (.usage (.missingValue opt.name))
          | [] => .error (.usage (.missingValue opt.name))
        else readOptions allowed (← settings.setFlag opt) none words

/-- Read the allowed options at the start of a command line and judge all values. -/
def readAllOptions (allowed : List Opt) (args : List String) :
    Except Stop (Settings × List String) := do
  let r ← readOptions allowed {} none args
  .ok (← settleWaiting r.settings r.waiting, r.words)

/-! ## Commands -/

/-- Words as one query. -/
def queryOf (words : List String) : String := " ".intercalate words

/-- Read the command line of the command that shows filters. -/
def readParse (args : List String) : Except Stop Request := do
  let (_, words) ← readAllOptions [] args
  if words.isEmpty then .error (.usage .missingQuery) else .ok (.parse (queryOf words))

/-- Read the command line of a search. -/
def readSearch (args : List String) : Except Stop Request := do
  let (s, words) ← readAllOptions [.catalog, .json, .limit, .color] args
  .ok (.search ⟨queryOf words, s.catalog, s.json, s.limit, s.color.getD .auto⟩)

/-- Refuse words where none are expected. -/
def noWords (words : List String) : Except Stop Unit :=
  match words with
  | [] => .ok ()
  | word :: _ => .error (.usage (.unexpectedWord word))

/-- Read the command line of the command that lists facets. -/
def readFacets (args : List String) : Except Stop Request := do
  let (s, words) ← readAllOptions [.catalog] args
  noWords words
  .ok (.facets s.catalog)

/-- Read the command line of the command that shows settings. -/
def readConfig (args : List String) : Except Stop Request := do
  let (s, words) ← readAllOptions [.path] args
  noWords words
  .ok (.config s.path)

/-- The commands by name. -/
def commands : List (String × (List String → Except Stop Request)) := [
  ("parse", readParse), ("search", readSearch), ("facets", readFacets), ("config", readConfig)]

/-- The command with this name. -/
def command? (name : String) : Option (List String → Except Stop Request) := commands.lookup name

/-- Read what help is called for: help as such, or for one command. -/
def readHelp : List String → Stop
  | [] => .help
  | [word] =>
    if word = "help" || (command? word).isSome then .help
    else .usage (.unknownCommand word)
  | word :: next :: _ =>
    if word = "help" || (command? word).isSome then .usage (.unknownCommand next)
    else .usage (.unknownCommand word)

/-- Read what a whole command line asks for. -/
def read (args : List String) : Except Stop Request := do
  let r ← readOptions [.catalog] {} none args
  match r.words, r.isEnded with
  | "help" :: words, false => .error (readHelp words)
  | words, isEnded =>
    match if isEnded then none else words.head?.bind command? with
    | some command => do
      let request ← command (words.drop 1)
      let _ ← settleWaiting r.settings r.waiting
      .ok request
    | none => do
      let s ← settleWaiting r.settings r.waiting
      if words.isEmpty then .error .help
      else .ok (.search ⟨queryOf words, s.catalog, false, none, .auto⟩)

end FleetSearch.Command
