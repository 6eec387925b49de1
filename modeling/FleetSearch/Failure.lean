/-
# FleetSearch.Failure -- what goes wrong around a search

A failure has a cause and says what was being done when it struck. Causes are faults of a JSON
text, files that cannot be read, and the lack of a catalog.
-/

import FleetSearch.Json.Fault

namespace FleetSearch

/-- Why a file cannot be read or written. -/
inductive FileFault where
  | missing
  | notDirectory
  | isDirectory
  | nameTooLong
  | nulInName
  /-- The bytes of the file are not UTF-8. -/
  | notText
  /-- Any other fault, in the words of the system. -/
  | other (message : String)
  deriving DecidableEq

/-- A file fault in words. -/
def FileFault.message : FileFault → String
  | .missing => "No such file or directory (os error 2)"
  | .notDirectory => "Not a directory (os error 20)"
  | .isDirectory => "Is a directory (os error 21)"
  | .nameTooLong => "File name too long (os error 36)"
  | .nulInName => "file name contained an unexpected NUL byte"
  | .notText => "stream did not contain valid UTF-8"
  | .other message => message

/-- Why something failed. -/
inductive FailureCause where
  | json (fault : Json.Fault)
  | file (fault : FileFault)
  /-- There is neither an explicit catalog nor one in the configuration. -/
  | noCatalog
  deriving DecidableEq

/-- A cause in words. -/
def FailureCause.message : FailureCause → String
  | .json fault => fault.message
  | .file fault => fault.message
  | .noCatalog => "No catalog given: pass --catalog or set catalog_path in config.json"

/-- A cause and what was being done, if that needs saying. -/
structure Failure where
  context : Option String
  cause : FailureCause
  deriving DecidableEq

namespace Failure

/-- The failure in one line. -/
def line (f : Failure) : String :=
  match f.context with
  | some context => context ++ ": " ++ f.cause.message
  | none => f.cause.message

/-- The failure as the last words of a run. -/
def report (f : Failure) : String :=
  match f.context with
  | some context => "Error: " ++ context ++ "\n\nCaused by:\n    " ++ f.cause.message ++ "\n"
  | none => "Error: " ++ f.cause.message ++ "\n"

end Failure

/-- The text of a file's bytes. -/
def textOf (bytes : ByteArray) : Except FileFault String :=
  match String.fromUTF8? bytes with
  | some text => .ok text
  | none => .error .notText

end FleetSearch
