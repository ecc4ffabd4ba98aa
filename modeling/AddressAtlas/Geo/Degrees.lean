import AddressAtlas.Binary64.Basic

/-!
# Quantised degrees

The full circle from -180 to 180 degrees is cut into 2048 steps. `quantise` computes
`(degrees + 180) / 360 * 2048` in exact arithmetic with the rounding of each floating point operation
written out, cuts the fraction off and stays within the steps.
-/

namespace AddressAtlas.Degrees

abbrev Step := BitVec 11

/-- The step a scaled value falls on: the fraction is cut off, and values outside go to the nearest end. -/
def clampStep (scaled : Rat) : Step :=
  BitVec.ofNat 11 (min scaled.floor.toNat 2047)

/-- The place of an angle on a circle of length 2048. -/
def scaled (degrees : Rat) : Rat :=
  let shifted := Binary64.roundRat (degrees + 180)
  let turns := Binary64.roundRat (shifted / 360)
  Binary64.roundRat (turns * 2048)

/-- The step of an angle; what is no number goes to the first. -/
def quantise (degrees : Float) : Step :=
  match Binary64.ofFloat degrees with
  | .nan | .infinite true => 0
  | .infinite false => 2047
  | .finite negative significand exponent =>
    clampStep (scaled (Binary64.valueOf negative significand exponent))

/-- The angle at which a step starts. -/
def ofStep (step : Step) : Float :=
  step.toNat.toUInt32.toFloat * 360.0 / 2048.0 - 180.0

end AddressAtlas.Degrees
