import Transcription.Address
import Transcription.Text.Hex

/-!
# Reading addresses

Four octets are decimal numbers up to 255 without leading zeros, between points. Eight groups are
hexadecimal numbers of one to four digits between colons; the last two may be given as four
octets, and one double colon may stand for one or more zero groups. Nothing else may stand in the
text, no blank, bracket or zone included.
-/

namespace Transcription.Address

/-- Read an octet. -/
def octet? (cs : List Char) : Option UInt8 :=
  if cs.all Char.isDigit && decide (1 ≤ cs.length) && decide (cs.length ≤ 3) &&
      !(cs.head? == some '0' && cs.length != 1) then
    let v := Nat.ofDigitChars 10 cs 0
    if v ≤ 255 then some (UInt8.ofNat v) else none
  else none

/-- Read four octets. -/
def octets? (cs : List Char) : Option (List UInt8) := do
  let octets ← (cs.splitOn '.').mapM octet?
  if octets.length = 4 then some octets else none

/-- Read a group. -/
def group? (cs : List Char) : Option UInt16 :=
  if 1 ≤ cs.length ∧ cs.length ≤ 4 then
    (cs.mapM Text.hexValue?).map fun ds => UInt16.ofNat (ds.foldl (fun n d => n * 16 + d) 0)
  else none

/-- Read groups between colons; the empty text has none. -/
def groups? (cs : List Char) : Option (List UInt16) :=
  if cs.isEmpty then some [] else (cs.splitOn ':').mapM group?

/-- The group of two octets. -/
def groupOfOctets (high low : UInt8) : UInt16 :=
  (high.toUInt16 <<< 8) ||| low.toUInt16

/-- The two groups of four octets. -/
def groupsOfOctets : List UInt8 → List UInt16
  | [a, b, c, d] => [groupOfOctets a b, groupOfOctets c d]
  | _ => []

/-- Read the groups at the end of an address, the last two of which may be given as octets. -/
def lastGroups? (cs : List Char) : Option (List UInt16) :=
  if cs.isEmpty then some []
  else
    let pieces := cs.splitOn ':'
    match pieces.getLast?.bind octets? with
    | some octets => (pieces.dropLast.mapM group?).map (· ++ groupsOfOctets octets)
    | none => pieces.mapM group?

/-- What stands before and after the first double colon. -/
def splitAtGap : List Char → Option (List Char × List Char)
  | [] => none
  | ':' :: ':' :: cs => some ([], cs)
  | c :: cs => (splitAtGap cs).map fun p => (c :: p.1, p.2)

/-- Read the eight groups of an address. -/
def wide? (cs : List Char) : Option (List UInt16) :=
  match splitAtGap cs with
  | none => lastGroups? cs
  | some (front, back) => do
    let front ← groups? front
    let back ← lastGroups? back
    if front.length + back.length < 8 then
      some (front ++ List.replicate (8 - front.length - back.length) 0 ++ back)
    else none

/-- Read an address. -/
def ofList? (cs : List Char) : Option Address :=
  match octets? cs with
  | some octets => ofOctets? octets
  | none => (wide? cs).bind ofGroups?

/-- Read an address from a string. -/
def ofString? (s : String) : Option Address := ofList? s.toList

end Transcription.Address
