import PointAndClick.Number.Binary64

/-!
# The palette of hotspot maps

Colour 0 is black. Each other colour has a hue that is one golden section of the circle further
than the one before, at fixed saturation and brightness. Every operation rounds to double
precision.
-/

set_option autoImplicit false

namespace PointAndClick.Palette

/-- A product in double precision. -/
def mul (a b : Rat) : Rat := Binary64.nearest (a * b)

/-- A difference in double precision. -/
def sub (a b : Rat) : Rat := Binary64.nearest (a - b)

/-- The part of a number behind its point. -/
def fraction (a : Rat) : Rat := a - a.floor

/-- The share of the circle between two hues. -/
def goldenStep : Rat := Binary64.nearest (mkRat 618034 1000000)

/-- The saturation of all colours. -/
def saturation : Rat := Binary64.nearest (mkRat 75 100)

/-- The brightness of all colours. -/
def brightness : Rat := Binary64.nearest (mkRat 95 100)

/-- The shares of red, green and blue in the colour of a hue. -/
def ofHue (hue : Rat) : Rat × Rat × Rat :=
  let position := mul hue 6
  let sector := position.floor
  let within := sub position sector
  let low := mul brightness (sub 1 saturation)
  let falling := mul brightness (sub 1 (mul saturation within))
  let rising := mul brightness (sub 1 (mul saturation (sub 1 within)))
  if sector % 6 = 0 then (brightness, rising, low)
  else if sector % 6 = 1 then (falling, brightness, low)
  else if sector % 6 = 2 then (low, brightness, rising)
  else if sector % 6 = 3 then (low, falling, brightness)
  else if sector % 6 = 4 then (rising, low, brightness)
  else (brightness, low, falling)

/-- A share as a byte. -/
def toByte (share : Rat) : Nat := (mul share 255).floor.toNat

/-- The red, green and blue bytes of a colour. -/
def colour (i : Nat) : List Nat :=
  if i = 0 then [0, 0, 0]
  else
    let (red, green, blue) := ofHue (fraction (mul i goldenStep))
    [toByte red, toByte green, toByte blue]

/-- The bytes of all 256 colours. -/
def bytes : List Nat := (List.range 256).flatMap colour

end PointAndClick.Palette
