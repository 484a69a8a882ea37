/-
  The regulation in force: default values and the supply factors of four territories.

  Factors have at most three decimals and are given in thousandths.  Those of electricity
  differ from one territory to another, all others are the same.
-/
import PrimaryEnergy.Regulation.Basic

namespace PrimaryEnergy.Regulation

/-- The double nearest to a number of thousandths. -/
def thousandths (n : Nat) : Float := Decimal.nearestDecimal false n (-3)

/-- A pair given in thousandths. -/
def pairOf (ren nren : Nat) : Pair Float := ⟨thousandths ren, thousandths nren⟩

/-- Supply from the grid. -/
def gridRow (c : Carrier) (ren nren : Nat) (comment : String) : Factor Float :=
  ⟨⟨c, .grid, .supply, .a⟩, pairOf ren nren, comment⟩

/-- The comment on carriers without a network of their own. -/
def deliveryNote : String := "Recursos usados para suministrar el vector desde la red"

/-- The rows that all territories share. -/
def sharedRows : List (Factor Float) :=
  [⟨⟨.electricity, .onsite, .supply, .a⟩, pairOf 1000 0,
      "Recursos usados para producir electricidad in situ"⟩,
   ⟨⟨.ambient, .onsite, .supply, .a⟩, pairOf 1000 0,
      "Recursos usados para obtener energía térmica del medioambiente"⟩,
   gridRow .ambient 1000 0
      "Recursos usados para obtener energía térmica del medioambiente (red ficticia)",
   gridRow .biofuel 28 1082 deliveryNote,
   gridRow .biomass 1003 34 deliveryNote,
   gridRow .densifiedBiomass 1028 85 deliveryNote,
   gridRow .coal 2 1082 deliveryNote,
   gridRow .fuelOil 3 1179 deliveryNote,
   gridRow .naturalGas 5 1190 deliveryNote,
   gridRow .gasOil 3 1179 deliveryNote,
   gridRow .liquefiedGas 3 1201 deliveryNote]

/-- A territory: its name, how comments name it and the factors of its electricity. -/
def territory (name label : String) (ren nren : Nat) : Location where
  name := name
  table :=
    { metadata :=
        [⟨"CTE_FUENTE", "CTE2013"⟩,
         ⟨"CTE_FUENTE_COMENTARIO",
           "Factores de paso del documento reconocido del IDAE de 20/07/2014"⟩,
         ⟨Metadata.locationKey, name⟩]
      rows :=
        gridRow .electricity ren nren
          ("Recursos usados para suministrar electricidad (" ++ label ++ ") desde la red") ::
          sharedRows }

/-- The regulation in force. -/
def current : Regulation where
  version := "CTE2013-RITE2014"
  defaults := ⟨pairOf 0 2500, pairOf 0 2500, pairOf 0 1300, pairOf 0 1300⟩
  locations :=
    [territory "PENINSULA" "peninsular" 414 1954,
     territory "BALEARES" "Baleares" 82 2968,
     territory "CANARIAS" "Canarias" 70 2924,
     territory "CEUTAMELILLA" "Ceuta y Melilla" 72 2718]

end PrimaryEnergy.Regulation
