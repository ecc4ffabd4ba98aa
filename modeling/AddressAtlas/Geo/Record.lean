import AddressAtlas.Binary64.Parse
import AddressAtlas.Geo.Address
import AddressAtlas.Geo.Place

/-!
# Records

A row of text fields describes a range of addresses and its place: start, end and country come first,
latitude and longitude stand in fields 7 and 8. A row with an empty coordinate is no record and no fault.
-/

namespace AddressAtlas

/-- A range of addresses, both ends included, and its place. -/
structure Record where
  start : Key .wide
  stop : Key .wide
  place : Place
  deriving DecidableEq

namespace Record

/-- The positions of the fields that are read. -/
def startField : Nat := 0

@[inherit_doc startField]
def stopField : Nat := 1

@[inherit_doc startField]
def countryField : Nat := 2

@[inherit_doc startField]
def latitudeField : Nat := 7

@[inherit_doc startField]
def longitudeField : Nat := 8

def field (fields : List String) (index : Nat) : Except GeoFault String :=
  match fields[index]? with
  | some text => .ok text
  | none => .error (.missingField index)

def address (fields : List String) (index : Nat) : Except GeoFault (Key .wide) := do
  let text ← field fields index
  (IpAddress.parseNumber text.toList).mapError .invalidAddress

def coordinate (text : String) : Except GeoFault Float :=
  match Binary64.parse? text.toList with
  | some x => .ok x
  | none => .error (.invalidCoordinate (if text.isEmpty then .empty else .invalid))

/-- A point in the country with the given code. -/
def located (country : String) (point : Point) : Except GeoFault Place :=
  match Country.ofText? country with
  | some c => .ok ⟨c, point⟩
  | none => .error (.invalidCountry country)

/-- Reads a row; `none` is a row without coordinates. -/
def ofFields (fields : List String) : Except GeoFault (Option Record) := do
  let latitudeText ← field fields latitudeField
  let longitudeText ← field fields longitudeField
  if latitudeText.isEmpty || longitudeText.isEmpty then
    return none
  let start ← address fields startField
  let stop ← address fields stopField
  let latitude ← coordinate latitudeText
  let longitude ← coordinate longitudeText
  let country ← field fields countryField
  let place ← located country ⟨latitude, longitude⟩
  return some ⟨start, stop, place⟩

end Record

end AddressAtlas
