import FleetSearch.Folder
import FleetSearch.Main
import FleetSearch.Proofs.Pattern.Source
import FleetSearch.Proofs.Query.Bands
import FleetSearch.Proofs.Query.Keywords
import FleetSearch.Proofs.Query.Numerals
import FleetSearch.Proofs.Query.Reread
import FleetSearch.Proofs.Query.Spacing
import FleetSearch.Proofs.Catalog.NameSearch
import FleetSearch.Proofs.Catalog.QuerySearch
import FleetSearch.Proofs.Catalog.Layouts
import FleetSearch.Proofs.Catalog.Stages
import FleetSearch.Proofs.Command.BrokenConfig
import FleetSearch.Proofs.Command.SearchForms
import FleetSearch.Proofs.Command.BareWords
import FleetSearch.Proofs.Config
import FleetSearch.Proofs.Display.Colors
import FleetSearch.Proofs.Display.FilterLine
import FleetSearch.Proofs.Display.ShipLines
