import AddressAtlas.Geo.Record
import AddressAtlas.RangeTable.Lookup

/-!
# The atlas

An atlas keeps address ranges with their places in two tables: ranges that lie below `2 ^ 32` as a whole
go to the narrow one, all others to the wide one. Each table has its own order, and an address is looked
up in the table of its own size.
-/

namespace AddressAtlas

/-- Packed places by narrow and by wide address ranges. -/
structure Atlas where
  narrow : RangeTable .narrow
  wide : RangeTable .wide

namespace Atlas

instance : BEq Atlas where
  beq a b := a.narrow == b.narrow && a.wide == b.wide

def empty : Atlas :=
  ⟨.empty, .empty⟩

def size (a : Atlas) : Nat :=
  a.narrow.size + a.wide.size

def isEmpty (a : Atlas) : Bool :=
  a.narrow.isEmpty && a.wide.isEmpty

def copy (a : Atlas) : Atlas :=
  ⟨a.narrow.copy, a.wide.copy⟩

def insert (a : Atlas) (r : Record) : Outcome Atlas GeoFault :=
  match r.start.toNarrow?, r.stop.toNarrow? with
  | some start, some stop =>
    ((a.narrow.insert ⟨start, stop, r.place.pack⟩).map fun t => { a with narrow := t }).mapFault
      .narrowOrdering
  | _, _ =>
    ((a.wide.insert ⟨r.start, r.stop, r.place.pack⟩).map fun t => { a with wide := t }).mapFault
      .wideOrdering

/-- The place of the address with this number. -/
def findKey? (a : Atlas) (key : Key .wide) : Option Place :=
  let packed :=
    match key.toNarrow? with
    | some key => a.narrow.find? key
    | none => a.wide.find? key
  packed.map Place.unpack

def find? (a : Atlas) (address : IpAddress) : Option Place :=
  a.findKey? address.key

/-- Gives spare room back, first in the narrow table. -/
def trim {ε : Type} (a : Atlas) : Outcome Atlas ε :=
  (a.narrow.trim.map fun t => { a with narrow := t }).andThen fun a =>
    a.wide.trim.map fun t => { a with wide := t }

/-- Adds records from number `index` on, up to the first that is refused. -/
def insertMany (index : Nat) (a : Atlas) : List Record → Outcome Atlas GeoFault
  | [] => .idle a
  | r :: rest =>
    ((a.insert r).mapFault (.record index)).andThen fun a => insertMany (index + 1) a rest

/-- An atlas of the given records without spare room. -/
def ofRecords (records : List Record) : Outcome Atlas GeoFault :=
  (insertMany 0 empty records).andThen trim

end Atlas

end AddressAtlas
