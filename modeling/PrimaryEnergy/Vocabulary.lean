/-
  The words of the regulation.

  Every word is a constructor of an enumeration; its token is how it is written in
  tables, and only the exact token is read (`Token.ofText?`).

  * `Carrier`, `Source`, `Dest` and `Step` make up the key of a weighting factor;
  * `FlowType` and `FlowSubtype` classify a component, `Flow` are the four
    combinations that exist;
  * `Service` is what a building uses energy for.
-/
namespace PrimaryEnergy

/-- Enumerations written by tokens. -/
class Token (τ : Type) where
  /-- What the words are called in messages. -/
  noun : String
  words : List τ
  /-- How a word is written. -/
  text : τ → String

/-- The word with this token. -/
def Token.ofText? {τ : Type} [Token τ] (s : String) : Option τ :=
  (Token.words (τ := τ)).find? fun w => Token.text w == s

/-- The word whose token has these characters. -/
def Token.ofChars? {τ : Type} [Token τ] (s : List Char) : Option τ := ofText? (String.ofList s)

/-! ## Keys of weighting factors -/

/-- An energy carrier. -/
inductive Carrier where
  | biofuel | biomass | densifiedBiomass | coal | electricity | fuelOil | naturalGas | gasOil
  | liquefiedGas
  /-- Ambient energy, taken up by heat pumps and solar thermal collectors. -/
  | ambient
  /-- District networks, with factors that the user may define. -/
  | district1 | district2
deriving DecidableEq, Repr

/-- Where the energy delivered into a carrier comes from. -/
inductive Source where
  | grid | onsite | cogeneration
deriving DecidableEq, Repr

/-- Where the energy goes: to the building, or exported to the grid or to uses outside
    the assessment. -/
inductive Dest where
  | supply | toGrid | toOtherUses
deriving DecidableEq, Repr

/-- The step of the calculation: delivery and export, or credit for the export. -/
inductive Step where
  | a | b
deriving DecidableEq, Repr

instance : Token Carrier where
  noun := "Carrier"
  words := [.biofuel, .biomass, .densifiedBiomass, .coal, .electricity, .fuelOil, .naturalGas,
    .gasOil, .liquefiedGas, .ambient, .district1, .district2]
  text
    | .biofuel => "BIOCARBURANTE"
    | .biomass => "BIOMASA"
    | .densifiedBiomass => "BIOMASADENSIFICADA"
    | .coal => "CARBON"
    | .electricity => "ELECTRICIDAD"
    | .fuelOil => "FUELOIL"
    | .naturalGas => "GASNATURAL"
    | .gasOil => "GASOLEO"
    | .liquefiedGas => "GLP"
    | .ambient => "MEDIOAMBIENTE"
    | .district1 => "RED1"
    | .district2 => "RED2"

instance : Token Source where
  noun := "Source"
  words := [.grid, .onsite, .cogeneration]
  text
    | .grid => "RED"
    | .onsite => "INSITU"
    | .cogeneration => "COGENERACION"

instance : Token Dest where
  noun := "Dest"
  words := [.supply, .toGrid, .toOtherUses]
  text
    | .supply => "SUMINISTRO"
    | .toGrid => "A_RED"
    | .toOtherUses => "A_NEPB"

instance : Token Step where
  noun := "Step"
  words := [.a, .b]
  text
    | .a => "A"
    | .b => "B"

/-! ## Components -/

/-- Whether energy is used or produced. -/
inductive FlowType where
  | consumption | production
deriving DecidableEq, Repr

/-- What a consumption is for, or how a production comes about. -/
inductive FlowSubtype where
  | assessed | notAssessed | onsite | cogeneration
deriving DecidableEq, Repr

/-- The combinations of type and subtype that exist. -/
inductive Flow where
  /-- Energy for uses inside the assessment. -/
  | assessedUse
  /-- Energy for uses outside the assessment. -/
  | otherUse
  /-- Energy produced on site. -/
  | onsiteProduction
  /-- Energy produced by cogeneration. -/
  | cogeneratedProduction
deriving DecidableEq, Repr

/-- What a building uses energy for. -/
inductive Service where
  | hotWater | heating | cooling | ventilation | lighting | humidification | dehumidification
  | automation
  /-- No service in particular. -/
  | undefined
deriving DecidableEq, Repr

instance : Token FlowType where
  noun := "CType"
  words := [.consumption, .production]
  text
    | .consumption => "CONSUMO"
    | .production => "PRODUCCION"

instance : Token FlowSubtype where
  noun := "CSubtype"
  words := [.assessed, .notAssessed, .onsite, .cogeneration]
  text
    | .assessed => "EPB"
    | .notAssessed => "NEPB"
    | .onsite => "INSITU"
    | .cogeneration => "COGENERACION"

instance : Token Service where
  noun := "Service"
  words := [.hotWater, .heating, .cooling, .ventilation, .lighting, .humidification,
    .dehumidification, .automation, .undefined]
  text
    | .hotWater => "ACS"
    | .heating => "CAL"
    | .cooling => "REF"
    | .ventilation => "VEN"
    | .lighting => "ILU"
    | .humidification => "HU"
    | .dehumidification => "DHU"
    | .automation => "BAC"
    | .undefined => "NDEF"

namespace Flow

def type : Flow → FlowType
  | assessedUse | otherUse => .consumption
  | onsiteProduction | cogeneratedProduction => .production

def subtype : Flow → FlowSubtype
  | assessedUse => .assessed
  | otherUse => .notAssessed
  | onsiteProduction => .onsite
  | cogeneratedProduction => .cogeneration

/-- The flow with a type and a subtype, if they go together. -/
def of? : FlowType → FlowSubtype → Option Flow
  | .consumption, .assessed => some assessedUse
  | .consumption, .notAssessed => some otherUse
  | .production, .onsite => some onsiteProduction
  | .production, .cogeneration => some cogeneratedProduction
  | _, _ => none

/-- Type and subtype determine the flow, and every flow has them. -/
theorem of?_eq_some_iff {t : FlowType} {s : FlowSubtype} {f : Flow} :
    of? t s = some f ↔ f.type = t ∧ f.subtype = s := by
  cases t <;> cases s <;> cases f <;> simp [of?, type, subtype]

end Flow

end PrimaryEnergy
