import Transcription.Address

/-!
# Writing addresses

Four octets are written as decimal numbers between points. Eight groups are written as
hexadecimal numbers in lower case between colons, where the first of the longest runs of zero
groups gives way to a double colon if it is at least two groups long. An address that maps four
octets into the wide family is written with these octets at its end.
-/

namespace Transcription.Address

/-- Octets in decimal, between points. -/
def writeOctets (octets : List UInt8) : List Char :=
  ['.'].intercalate (octets.map fun o => Nat.toDigits 10 o.toNat)

/-- Groups in hexadecimal, between colons. -/
def writeGroups (groups : List UInt16) : List Char :=
  [':'].intercalate (groups.map fun g => Nat.toDigits 16 g.toNat)

/-- The length of the run of zero groups that begins at an index. -/
def zerosAt (groups : List UInt16) (i : Nat) : Nat :=
  ((groups.drop i).takeWhile (· == 0)).length

/-- Index and length of the first of the longest runs of zero groups. -/
def longestZeros (groups : List UInt16) : Nat × Nat :=
  (List.range groups.length).foldl
    (fun best i => if best.2 < zerosAt groups i then (i, zerosAt groups i) else best) (0, 0)

/-- The high and the low octet of a group. -/
def octetsOfGroup (g : UInt16) : List UInt8 :=
  [(g >>> 8).toUInt8, g.toUInt8]

/-- Groups with their longest run of zeros left out. -/
def writeShortened (groups : List UInt16) : List Char :=
  let (start, length) := longestZeros groups
  if 2 ≤ length then
    writeGroups (groups.take start) ++ [':', ':'] ++ writeGroups (groups.drop (start + length))
  else writeGroups groups

/-- The text of an address. -/
def toList : Address → List Char
  | .v4 octets => writeOctets octets.toList
  | .v6 groups =>
    match groups.toList with
    | [0, 0, 0, 0, 0, 0xFFFF, high, low] =>
      [':', ':', 'f', 'f', 'f', 'f', ':'] ++
        writeOctets (octetsOfGroup high ++ octetsOfGroup low)
    | gs => writeShortened gs

instance : ToString Address := ⟨fun a => String.ofList a.toList⟩

end Transcription.Address
