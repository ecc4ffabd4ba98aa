/-!
# Points on the globe

A point is a latitude and a longitude in degrees. The haversine formula gives the angle between two
points as seen from the centre of the globe.
-/

namespace AddressAtlas

structure Point where
  latitude : Float
  longitude : Float
  deriving DecidableEq

namespace Point

def radians (degrees : Float) : Float :=
  degrees * 0.017453292519943295

/-- The square of the sine of half an angle. -/
def halfSineSquared (angle : Float) : Float :=
  let s := Float.sin (angle / 2.0)
  s * s

/-- The haversine of the angle between two points. -/
def haversine (p q : Point) : Float :=
  halfSineSquared (radians q.latitude - radians p.latitude) +
    Float.cos (radians p.latitude) * Float.cos (radians q.latitude) *
      halfSineSquared (radians q.longitude - radians p.longitude)

/-- A sine of at most one; what is no number counts as one. -/
def clampSine (x : Float) : Float :=
  if x < 1.0 then x else 1.0

/-- The angle between two points in radians. -/
def angle (p q : Point) : Float :=
  2.0 * Float.asin (clampSine (Float.sqrt (haversine p q)))

end Point

end AddressAtlas
