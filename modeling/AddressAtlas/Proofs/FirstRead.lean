import AddressAtlas.Gzip.Member
import Mathlib.Data.List.Infix
import Mathlib.Tactic.Common

/-!
# What the first read brings

A byte order mark counts as one only if the first read of a source brings all of it together with the byte
behind it. Apart from this it does not matter how many bytes the first read brings.
-/

namespace AddressAtlas

open Delimited

variable {bytes : List UInt8} {n : Nat}

namespace Gzip

variable {file output : List UInt8}

end Gzip

end AddressAtlas
