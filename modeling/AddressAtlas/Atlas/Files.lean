import AddressAtlas.Atlas.Rows
import AddressAtlas.Gzip.Member

/-!
# Loading files

An atlas is filled from delimited rows, plain or compressed. A load that fails keeps the rows before the
fault, gives no room back and reports no end.
-/

namespace AddressAtlas

inductive LoadFault where
  | delimited (cause : Delimited.Fault)
  | geo (cause : GeoFault)
  deriving DecidableEq, Repr

namespace LoadFault

def message : LoadFault → String
  | delimited cause => "failed to read csv: " ++ cause.message
  | geo cause => cause.message

/-- The messages of the causes of a fault. -/
def chain : LoadFault → List String
  | delimited cause => cause.message :: cause.chain
  | geo cause => cause.message :: cause.chain

end LoadFault

namespace Load

/-- Takes in what the reader yields next. -/
def addItem (l : Load) : Delimited.Item → Outcome Load LoadFault
  | .error fault => { state := l, fault := some (.delimited fault) }
  | .ok fields => (l.addRow fields).mapFault .geo

/-- Takes in all that the reader yields, up to the first fault. -/
def addItems (l : Load) (items : List Delimited.Item) : Outcome Load LoadFault :=
  Outcome.fold addItem l items

end Load

namespace Atlas

/-- Adds the rows of a source and gives spare room back. -/
def extend (a : Atlas) (source : ByteSource) : Outcome Atlas LoadFault :=
  ((Load.addItems ⟨a, 0, 0⟩ (Delimited.items source)).andThen Load.finish).map Load.atlas

def extendPlain (a : Atlas) (bytes : List UInt8) : Outcome Atlas LoadFault :=
  a.extend { bytes }

def extendGzip (a : Atlas) (file : List UInt8) : Outcome Atlas LoadFault :=
  a.extend (Gzip.source file)

def ofPlain (bytes : List UInt8) : Outcome Atlas LoadFault :=
  empty.extendPlain bytes

def ofGzip (file : List UInt8) : Outcome Atlas LoadFault :=
  empty.extendGzip file

end Atlas

end AddressAtlas
