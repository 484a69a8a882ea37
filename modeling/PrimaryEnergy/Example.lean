/-
  Example bundles: three buildings, month by month from January.

  * a dwelling with a heat pump and photovoltaics, on the peninsula;
  * a dwelling on a district network, with a factor table of its own;
  * a hotel with cogeneration, on the Balearic Islands.

  Their energy is as if it was measured: never negative, with two decimals (`Series.measured`).
-/
import PrimaryEnergy.Bundle.Basic

namespace PrimaryEnergy

/-! ## Measured energy -/

namespace Decimal

/-- The nearest whole number, ties to even; the sign of zero is kept. -/
def toWhole (x : Float) : Float :=
  match Double.ofFloat x with
  | .finite negative m q => nearest negative (scaledUnits 0 m q) 1
  | _ => x

/-- The whole number of hundredths nearest to the hundredfold, as a double. -/
def toHundredths (x : Float) : Float := toWhole (x * 100) / 100

end Decimal

namespace Series

/-- The number if it is positive or undefined, else zero. -/
def positivePart (x : Float) : Float := if 0 < x || !(x == x) then x else 0

/-- The positive parts, rounded to hundredths. -/
def measured (v : List Float) : List Float := v.map fun x => Decimal.toHundredths (positivePart x)

end Series

/-- An example bundle. -/
structure Example where
  /-- The name of its directory. -/
  name : String
  /-- What it holds. -/
  bundle : Bundle.Loaded
deriving DecidableEq, Repr

namespace Example

/-! ## Seasons -/

/-- How far a month is in winter: `(cos x + 1) / 2` at twelve equal steps, from one in
    January to zero in July. -/
def winter : List Float :=
  [1, 0.9330127018922194, 0.75, 0.5, 0.25, 0.0669872981077807, 0, 0.0669872981077807, 0.25, 0.5,
   0.75, 0.9330127018922194]

/-- How far a month is in summer. -/
def summer : List Float := winter.map fun x => 1 - x

/-- The same in every month. -/
def steady (x : Float) : List Float := List.replicate 12 x

/-- An amount that goes with a season. -/
def seasonal (x : Float) (season : List Float) : List Float := season.map (x * ·)

/-! ## Buildings -/

/-- A component with measured values. -/
def component (c : Carrier) (f : Flow) (s : Service) (values : List Float) (comment : String) :
    Component Float :=
  ⟨c, f, s, Series.measured values, comment⟩

/-- Components with the reference area in the metadata. -/
def components (area : String) (rows : List (Component Float)) : ComponentTable Float :=
  ⟨[⟨"CTE_AREAREF", area⟩], rows⟩

/-- Heat that a heat pump with a seasonal performance of three delivers for a service: one
    third is electricity, the rest ambient energy. -/
def heatPumpRows (s : Service) (heat : List Float) (comment : String) : List (Component Float) :=
  [component .electricity .assessedUse s (heat.map (· / 3)) comment,
   component .ambient .assessedUse s (heat.map (· * 2 / 3)) comment]

/-- A dwelling with a heat pump and photovoltaics. -/
def heatPump : Example where
  name := "heat_pump_pv"
  bundle :=
    { settings :=
        { runId := "heat_pump_pv_001", location := some "PENINSULA", strip := false, prune := true,
          area := 100 }
      components := components "100.0"
        (heatPumpRows .heating (seasonal 600 winter) "Bomba de calor" ++
          heatPumpRows .hotWater ((seasonal 30 winter).map (150 + ·)) "Bomba de calor ACS" ++
          [component .electricity .otherUse .undefined (steady 120) "Electrodomésticos",
           component .electricity .onsiteProduction .undefined
             ((seasonal 120 summer).map (80 + ·)) "Fotovoltaica"])
      factors := none }

/-- A dwelling on a district network. -/
def districtHeating : Example where
  name := "district_heating_nearby"
  bundle :=
    { settings :=
        { runId := "district_heating_001", service := some .heating, nearby := true, area := 80 }
      components := components "80.0"
        [component .district1 .assessedUse .heating (seasonal 500 winter) "Red de distrito",
         component .district1 .assessedUse .hotWater (steady 120) "Red de distrito",
         component .electricity .assessedUse .cooling (seasonal 90 summer) "Enfriadora"]
      factors := some
        ⟨[⟨"CTE_FUENTE", "USUARIO"⟩, ⟨Family.district1.metaKey, "0.650, 0.350"⟩],
         [⟨⟨.electricity, .grid, .supply, .a⟩, ⟨0.414, 1.954⟩,
           "Recursos usados para suministrar electricidad (peninsular) desde la red"⟩]⟩ }

/-- A hotel with cogeneration. -/
def cogeneration : Example where
  name := "cogeneration_islands"
  bundle :=
    { settings :=
        { runId := "cogeneration_001", location := some "BALEARES",
          overrides := { Overrides.none with cogenToGrid := some ⟨0, 2.2⟩ }, exportCredit := 1,
          area := 1500 }
      components := components "1500.0"
        [component .naturalGas .assessedUse .hotWater (steady 900) "Cogeneración",
         component .naturalGas .assessedUse .heating (seasonal 2000 winter) "Caldera",
         component .electricity .assessedUse .cooling (seasonal 1500 summer) "Enfriadora",
         component .electricity .assessedUse .lighting (steady 400) "Iluminación",
         component .electricity .cogeneratedProduction .undefined ((steady 900).map (· * 0.3))
           "Cogeneración"]
      factors := none }

def all : List Example := [heatPump, districtHeating, cogeneration]

/-! ## Creation -/

/-- Writes the bundle of an example into a directory, and tells so. -/
def create (e : Example) (t : Files) (place : Path) : Files × List String :=
  let p := place.child e.name
  ((Bundle.init t p e.bundle).1,
    ["Generating " ++ e.name ++ " bundle...", "✓ Created " ++ p.text])

end Example

end PrimaryEnergy
