/-!
# Internet addresses

An address belongs to one of two families: four octets, or eight groups of 16 bits. Within a
family addresses are ordered by their parts, the first part counting most, which is the order of
the numbers that the parts spell out. Addresses of different families are not compared, even when
one is the mapped form of the other.
-/

namespace Transcription

/-- An address of either family. -/
inductive Address where
  | v4 (octets : Vector UInt8 4)
  | v6 (groups : Vector UInt16 8)
  deriving Repr, DecidableEq

namespace Address

/-- Whether an address has eight groups. -/
def isV6 : Address → Bool
  | .v4 _ => false
  | .v6 _ => true

/-- The parts of an address as numbers. -/
def parts : Address → List Nat
  | .v4 octets => octets.toList.map UInt8.toNat
  | .v6 groups => groups.toList.map UInt16.toNat

/-- The number of values that one part can take. -/
def base : Address → Nat
  | .v4 _ => 256
  | .v6 _ => 65536

/-- The number that the parts of an address spell out. -/
def value (a : Address) : Nat :=
  a.parts.foldl (fun n p => n * a.base + p) 0

/-- Whether a list of parts comes before another one or is equal to it. -/
def partsLE : List Nat → List Nat → Bool
  | [], _ => true
  | _ :: _, [] => false
  | a :: as, b :: bs => decide (a < b) || (a == b && partsLE as bs)

/-- Whether two addresses are of one family and the first does not come after the second. -/
def le (a b : Address) : Bool :=
  a.isV6 == b.isV6 && partsLE a.parts b.parts

@[simp] theorem partsLE_refl (as : List Nat) : partsLE as as = true := by
  induction as with
  | nil => rfl
  | cons a as ih => simp [partsLE, ih]

@[simp] theorem le_refl (a : Address) : a.le a = true := by
  simp [le]

/-- The address of four octets. -/
def ofOctets? (octets : List UInt8) : Option Address :=
  if h : octets.length = 4 then some (.v4 ⟨octets.toArray, h⟩) else none

/-- The address of eight groups. -/
def ofGroups? (groups : List UInt16) : Option Address :=
  if h : groups.length = 8 then some (.v6 ⟨groups.toArray, h⟩) else none

@[simp] theorem ofOctets?_toList (octets : Vector UInt8 4) :
    ofOctets? octets.toList = some (.v4 octets) := by
  simp [ofOctets?, Vector.toList]

@[simp] theorem ofGroups?_toList (groups : Vector UInt16 8) :
    ofGroups? groups.toList = some (.v6 groups) := by
  simp [ofGroups?, Vector.toList]

end Address

end Transcription
