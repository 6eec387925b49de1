/-
# FleetSearch.Command.Help -- what a command line can say, in words

The text that is shown when help is called for, and the line that says why a command line is
refused.
-/

import FleetSearch.Command.Arguments

namespace FleetSearch.Command

/-- What a command line can say. -/
def helpText : String := "\n".intercalate [
  "Search a ship catalog with free-text queries like \"high tier battleships\"",
  "",
  "Usage: shipsearch [OPTIONS] [QUERY]...",
  "       shipsearch <COMMAND>",
  "",
  "Commands:",
  "  parse QUERY...                  Show the filters a query is interpreted as",
  "  search [OPTIONS] [QUERY]...     Search the catalog",
  "  facets [-c CATALOG]             List the nations, tiers and types in the catalog",
  "  config [--path]                 Show the effective configuration",
  "  help [COMMAND]                  Print help",
  "",
  "Options:",
  "  -c, --catalog <CATALOG>         Catalog JSON file (defaults to catalog_path in config.json)",
  "  -n, --limit <LIMIT>             Maximum ships to print (0 = all)",
  "      --json                      Print filters and matches as JSON",
  "      --color <auto|always|never> When to use colors",
  "  -h, --help                      Print help",
  ""]

/-- Why a command line is refused, in words. -/
def UsageFault.message : UsageFault → String
  | .unknownOption word => "unexpected argument '" ++ word ++ "' found"
  | .unknownCommand word => "unrecognized subcommand '" ++ word ++ "'"
  | .unexpectedWord word => "unexpected argument '" ++ word ++ "' found"
  | .missingValue option => "a value is required for '--" ++ option ++ "' but none was supplied"
  | .badValue option value => "invalid value '" ++ value ++ "' for '--" ++ option ++ "'"
  | .needlessValue option => "unexpected value for '--" ++ option ++ "' found"
  | .repeatedOption option => "the argument '--" ++ option ++ "' cannot be used multiple times"
  | .missingQuery => "the following required arguments were not provided: <QUERY>..."

end FleetSearch.Command
