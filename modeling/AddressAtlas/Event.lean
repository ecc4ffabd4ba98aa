/-!
# Events

What an operation reports about itself while it runs. An `Event` names the occurrence and carries its
numbers; `severity`, `message` and `fields` give its text.
-/

namespace AddressAtlas

inductive Severity where
  | trace
  | debug
  deriving DecidableEq, Repr

/-- The upper-case name of a severity. -/
def Severity.label : Severity → String
  | .trace => "TRACE"
  | .debug => "DEBUG"

/-- Keys and counts appear as plain numbers, so tables of both widths share one kind of event. -/
inductive Event where
  /-- A range was refused because it does not start after the end of the last one. -/
  | rejected (start stop previousStop : Nat)
  /-- A full table made room; the number is the capacity from now on. -/
  | grew (capacity : Nat)
  /-- A table gave its spare room back. -/
  | trimmed (entries : Nat)
  /-- A row without coordinates was passed over. -/
  | skipped (index : Nat)
  /-- A load came to its end. -/
  | loaded (narrow wide skipped : Nat)
  deriving DecidableEq, Repr

namespace Event

def severity : Event → Severity
  | rejected .. | grew .. | skipped .. => .trace
  | trimmed .. | loaded .. => .debug

def message : Event → String
  | rejected .. => "rejected out-of-order range"
  | grew .. => "grew range map storage"
  | trimmed .. => "trimmed range map storage"
  | skipped .. => "skipped row without coordinates"
  | loaded .. => "loaded ip info map"

/-- The numbers of an event under their names, in the order in which they are listed. -/
def fields : Event → List (String × Nat)
  | .rejected start stop previousStop =>
    [("start", start), ("end", stop), ("previous_end", previousStop)]
  | .grew capacity => [("capacity", capacity)]
  | .trimmed entries => [("entries", entries)]
  | .skipped index => [("index", index)]
  | .loaded narrow wide passed => [("narrow", narrow), ("wide", wide), ("skipped", passed)]

end Event

end AddressAtlas
