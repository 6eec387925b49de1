/-
# FleetSearch.Label -- ship types, nations and categories

Each of the three is a closed list of values with fixed labels. The labels are those that
catalogs use, so a filter is compared with a ship by its label.
-/

namespace FleetSearch

/-! ## Ship types -/

/-- The class of a ship. -/
inductive ShipType where
  | battleship
  | cruiser
  | destroyer
  | airCarrier
  | submarine
  deriving DecidableEq

namespace ShipType

/-- Every ship type. -/
def all : List ShipType := [.battleship, .cruiser, .destroyer, .airCarrier, .submarine]

/-- The label of a ship type. -/
def label : ShipType → String
  | .battleship => "Battleship"
  | .cruiser => "Cruiser"
  | .destroyer => "Destroyer"
  | .airCarrier => "AirCarrier"
  | .submarine => "Submarine"

end ShipType

/-! ## Nations -/

/-- The nation that a ship sails for. -/
inductive Nation where
  | japan
  | usa
  | ussr
  | germany
  | uk
  | france
  | panAsia
  | italy
  | commonwealth
  | panAmerica
  | europe
  | netherlands
  | spain
  | portugal
  deriving DecidableEq

namespace Nation

/-- Every nation. -/
def all : List Nation :=
  [.japan, .usa, .ussr, .germany, .uk, .france, .panAsia, .italy, .commonwealth, .panAmerica,
    .europe, .netherlands, .spain, .portugal]

/-- The label of a nation. -/
def label : Nation → String
  | .japan => "japan"
  | .usa => "usa"
  | .ussr => "ussr"
  | .germany => "germany"
  | .uk => "uk"
  | .france => "france"
  | .panAsia => "pan_asia"
  | .italy => "italy"
  | .commonwealth => "commonwealth"
  | .panAmerica => "pan_america"
  | .europe => "europe"
  | .netherlands => "netherlands"
  | .spain => "spain"
  | .portugal => "portugal"

end Nation

/-! ## Categories -/

/-- How a ship is acquired. -/
inductive Category where
  /-- Bought for real money. -/
  | premium
  /-- Given out in events, promotions and rewards. -/
  | special
  /-- Researched along a line of ships. -/
  | techTree
  deriving DecidableEq

namespace Category

/-- Every category. -/
def all : List Category := [.premium, .special, .techTree]

/-- The label of a category. -/
def label : Category → String
  | .premium => "premium"
  | .special => "special"
  | .techTree => "tech_tree"

end Category

end FleetSearch
