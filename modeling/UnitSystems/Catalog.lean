import UnitSystems.Definition

/-!
# Systems that ship with the generator

In the systems of root two, one whole unit is the exponent two, so that half powers of a base
unit can be written.
-/

namespace UnitSystems.Catalog

/-- The international system. -/
def si : Definition where
  name := "SI"
  units := ["Meter", "Kilogram", "Second", "Ampere", "Kelvin", "Candela", "Mole"]
  symbols := ["m", "kg", "s", "A", "K", "cd", "mol"]
  constants := ["meter", "kilogram", "second", "ampere", "kelvin", "candela", "mole"]
  extraConstants := [⟨"MIN", "60.0 * second"⟩, ⟨"HR", "60.0 * MIN"⟩, ⟨"DAY", "24.0 * HR"⟩]

/-- Centimeter, gram and second. -/
def cgs : Definition where
  name := "CGS"
  units := ["Centimeter", "Gram", "Second"]
  symbols := ["cm", "g", "s"]
  constants := ["centimeter", "gram", "second"]
  allowedRoot := 2

/-- Meter, kilogram and second. -/
def mks : Definition where
  name := "MKS"
  units := ["Meter", "Kilogram", "Second"]
  symbols := ["m", "kg", "s"]
  constants := ["meter", "kilogram", "second"]
  allowedRoot := 2

/-- Foot, pound and second. -/
def fps : Definition where
  name := "FPS"
  units := ["Foot", "Pound", "Second"]
  symbols := ["ft", "lb", "s"]
  constants := ["foot", "pound", "second"]
  allowedRoot := 2

/-- The base units of the unified code for units of measure. -/
def ucum : Definition where
  name := "UCUM"
  units := ["Meter", "Second", "Gram", "Radian", "Kelvin", "Coulomb", "Candela"]
  symbols := ["m", "s", "g", "rad", "K", "C", "cd"]
  constants := ["meter", "second", "gram", "radian", "kelvin", "coulomb", "candela"]

/-- A single abstract unit. -/
def single : Definition where
  name := "U"
  units := ["Unit"]
  symbols := ["u"]
  constants := ["unit"]

/-- Every system of the catalog, each marked as coming from it. -/
def systems : List Definition :=
  [si, cgs, mks, fps, ucum, single].map fun d => { d with source := some "<builtin>" }

/-- The names of the systems, in catalog order. -/
def names : List String :=
  systems.map (·.name)

/-- A character with the case of the letters A to Z taken away. -/
def upperLetter (c : Char) : Char :=
  if 'a' ≤ c ∧ c ≤ 'z' then Char.ofNat (c.toNat - 32) else c

/-- The system with a name, the case of the letters A to Z ignored. -/
def find? (name : String) : Option Definition :=
  systems.find? fun d => d.name.toList == name.toList.map upperLetter

end UnitSystems.Catalog
