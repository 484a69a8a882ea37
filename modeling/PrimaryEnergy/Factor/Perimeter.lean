/-
  The nearby perimeter.

  Energy from outside the nearby perimeter counts as non renewable.  On site and
  cogenerated energy, and the carriers in `nearbyCarriers`, are inside.
-/
import PrimaryEnergy.Factor.Basic

namespace PrimaryEnergy

namespace Factor

/-- Carriers inside the nearby perimeter: solid biomass, district networks and ambient
    energy. -/
def nearbyCarriers : List Carrier :=
  [.biomass, .densifiedBiomass, .district1, .district2, .ambient]

/-- Whether a key belongs to the nearby perimeter. -/
def Key.isNearby (k : Key) : Bool :=
  k.source == .onsite || k.source == .cogeneration || nearbyCarriers.contains k.carrier

/-- What is put in front of the comments of converted rows. -/
def nearbyNote : String := "Perímetro nearby: "

/-- Makes a factor from outside the perimeter fully non renewable. -/
def toNearby {α : Type} [Zero α] [Add α] (f : Factor α) : Factor α :=
  if f.key.isNearby then f else ⟨f.key, ⟨0, f.value.total⟩, nearbyNote ++ f.comment⟩

/-- Conversion keeps the key. -/
@[simp] theorem key_toNearby {α : Type} [Zero α] [Add α] (f : Factor α) :
    f.toNearby.key = f.key := by
  unfold toNearby; split <;> rfl

end Factor

namespace FactorTable

variable {α : Type}

/-- Converts every row and marks the table. -/
def toNearby [Zero α] [Add α] (t : FactorTable α) : FactorTable α :=
  ⟨t.metadata.set Metadata.perimeterKey Metadata.nearbyPerimeter, t.rows.map (·.toNearby)⟩

/-- The number of rows from outside the perimeter. -/
def distantCount (t : FactorTable α) : Nat := t.rows.countP fun f => !f.key.isNearby

end FactorTable

end PrimaryEnergy
