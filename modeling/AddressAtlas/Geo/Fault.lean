import AddressAtlas.Entry
import AddressAtlas.Text.Decimal
import AddressAtlas.Text.Quoted

/-!
# Faults of geographic records

Each fault has a message, and a chain of the messages of its causes, the nearest first.
-/

namespace AddressAtlas

/-- Why a text is not a whole number of the kind that is asked for. An address, which has no sign and may be
zero, is at fault in the first three ways only. -/
inductive AddressFault where
  | empty
  | invalidDigit
  | tooLarge
  | tooSmall
  | zero
  deriving DecidableEq, Repr

def AddressFault.message : AddressFault → String
  | empty => "cannot parse integer from empty string"
  | invalidDigit => "invalid digit found in string"
  | tooLarge => "number too large to fit in target type"
  | tooSmall => "number too small to fit in target type"
  | zero => "number would be zero for non-zero type"

/-- Why a text is not a decimal number. -/
inductive CoordinateFault where
  | empty
  | invalid
  deriving DecidableEq, Repr

def CoordinateFault.message : CoordinateFault → String
  | empty => "cannot parse float from empty string"
  | invalid => "invalid float literal"

/-- Why a record cannot be read or stored. -/
inductive GeoFault where
  | invalidCountry (text : String)
  | missingField (index : Nat)
  | invalidAddress (cause : AddressFault)
  | invalidCoordinate (cause : CoordinateFault)
  | narrowOrdering (cause : Violation .narrow)
  | wideOrdering (cause : Violation .wide)
  /-- The record with this number within a load is at fault. -/
  | record (index : Nat) (cause : GeoFault)
  deriving DecidableEq, Repr

namespace GeoFault

def message : GeoFault → String
  | invalidCountry text => "country must be an alpha-2 country code, was " ++ Text.quoted text
  | missingField index => "missing field " ++ Text.decimal index
  | invalidAddress cause => "invalid address: " ++ cause.message
  | invalidCoordinate cause => "invalid coordinate: " ++ cause.message
  | narrowOrdering cause => cause.message
  | wideOrdering cause => cause.message
  | record index cause => "failed to load record " ++ Text.decimal index ++ ": " ++ cause.message

/-- The messages of the causes of a fault. -/
def chain : GeoFault → List String
  | invalidCountry _ | missingField _ => []
  | invalidAddress cause => [cause.message]
  | invalidCoordinate cause => [cause.message]
  | narrowOrdering cause => [cause.message]
  | wideOrdering cause => [cause.message]
  | record _ cause => cause.message :: cause.chain

end GeoFault

end AddressAtlas
