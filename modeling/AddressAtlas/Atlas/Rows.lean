import AddressAtlas.Atlas.Basic

/-!
# Loading rows

A load takes in rows of fields one by one, counts them, and passes over those without coordinates. The
first row at fault stops it; at its end spare room is given back and the counts are reported.
-/

namespace AddressAtlas

/-- A load under way: the atlas so far, the number of rows seen, and of those that were passed over. -/
structure Load where
  atlas : Atlas
  rows : Nat := 0
  skipped : Nat := 0

namespace Load

/-- Takes in one row; a fault names the number of the row. -/
def addRow (l : Load) (fields : List String) : Outcome Load GeoFault :=
  match Record.ofFields fields with
  | .error cause => { state := l, fault := some (.record l.rows cause) }
  | .ok none =>
    { state := { l with rows := l.rows + 1, skipped := l.skipped + 1 }, events := [.skipped l.rows] }
  | .ok (some r) =>
    ((l.atlas.insert r).map fun a => { l with atlas := a, rows := l.rows + 1 }).mapFault
      (.record l.rows)

def addRows (l : Load) (rows : List (List String)) : Outcome Load GeoFault :=
  Outcome.fold addRow l rows

/-- Ends a load: spare room is given back and the counts are reported. -/
def finish {ε : Type} (l : Load) : Outcome Load ε :=
  (l.atlas.trim.map fun a => { l with atlas := a }).andThen fun l =>
    { state := l, events := [.loaded l.atlas.narrow.size l.atlas.wide.size l.skipped] }

end Load

def Atlas.ofRows (rows : List (List String)) : Outcome Atlas GeoFault :=
  ((Load.addRows ⟨.empty, 0, 0⟩ rows).andThen Load.finish).map Load.atlas

end AddressAtlas
