/-!
# JSON numerals

A numeral is kept as it is spelled: sign, whole digits, fraction and exponent. Two questions are
asked of it. `natural?` reads it as an unsigned 64-bit number, which a numeral with a sign, a
fraction or an exponent never is, whatever its value. `isFinite` tells whether a double can hold
its magnitude; the rule is that of a reader which gathers as many digits as fit 64 bits, drops
the rest, and multiplies the rounded digits by the rounded power of ten.
-/

namespace Transcription.Json

/-- The spelling of a number. -/
structure Numeral where
  negative : Bool
  whole : List Char
  /-- The digits after the point; none when there is no point. -/
  fraction : List Char
  /-- The exponent's digits and whether a minus sign stands before them. -/
  exponent : Option (Bool × List Char)
  deriving Repr, DecidableEq

namespace Numeral

/-- The largest unsigned number of 64 bits. -/
def maxNatural : Nat := 18446744073709551615

/-- The numeral of a natural number. -/
def ofNat (n : Nat) : Numeral :=
  ⟨false, Nat.toDigits 10 n, [], none⟩

/-- The value of a run of decimal digits. -/
def digitsValue (ds : List Char) : Nat :=
  Nat.ofDigitChars 10 ds 0

/-- An exponent: a mark, an optional sign and at least one digit, and nothing after them. -/
def exponentOf? : List Char → Option (Option (Bool × List Char))
  | [] => some none
  | mark :: cs =>
    let (negative, ds) := match cs with
      | '-' :: r => (true, r)
      | '+' :: r => (false, r)
      | _ => (false, cs)
    if (mark = 'e' ∨ mark = 'E') ∧ ds ≠ [] ∧ ds.all Char.isDigit then some (some (negative, ds))
    else none

/-- A fraction and what follows it: a point with at least one digit, or nothing. -/
def fractionOf? : List Char → Option (List Char × List Char)
  | '.' :: cs =>
    let (ds, rest) := cs.span Char.isDigit
    if ds.isEmpty then none else some (ds, rest)
  | cs => some ([], cs)

/-- Read a numeral. A whole part of several digits does not begin with zero. -/
def ofList? (cs : List Char) : Option Numeral := do
  let (negative, cs) := match cs with
    | '-' :: r => (true, r)
    | _ => (false, cs)
  let (whole, cs) := cs.span Char.isDigit
  if whole.isEmpty || (whole.head? == some '0' && whole.length != 1) then none
  else
    let (fraction, cs) ← fractionOf? cs
    let exponent ← exponentOf? cs
    some ⟨negative, whole, fraction, exponent⟩

/-- The spelling of a numeral. -/
def toList (n : Numeral) : List Char :=
  (if n.negative then ['-'] else []) ++ n.whole ++
    (if n.fraction.isEmpty then [] else '.' :: n.fraction) ++
    (match n.exponent with
      | none => []
      | some (negative, ds) => 'e' :: ((if negative then ['-'] else []) ++ ds))

@[simp] theorem toList_ofNat (n : Nat) : (ofNat n).toList = Nat.toDigits 10 n := by
  simp [ofNat, toList]

/-- The numeral as an unsigned 64-bit number, when it is spelled as one. -/
def natural? (n : Numeral) : Option Nat :=
  if n.negative || !n.fraction.isEmpty || n.exponent.isSome then none
  else
    let v := digitsValue n.whole
    if v ≤ maxNatural then some v else none

theorem natural?_ofNat {n : Nat} (h : n ≤ maxNatural) : (ofNat n).natural? = some n := by
  simp [natural?, ofNat, digitsValue, Nat.ofDigitChars_toDigits, h]

/-! ## Magnitude -/

/-- Digits gathered into a number of at most 64 bits, and the power of ten that belongs to it. -/
structure Scaled where
  digits : Nat
  power : Int
  /-- A digit has been dropped. -/
  full : Bool

/-- Gather a digit of the whole part; a dropped one counts as a power of ten. -/
def Scaled.pushWhole (s : Scaled) (c : Char) : Scaled :=
  let next := s.digits * 10 + (c.toNat - '0'.toNat)
  if s.full || decide (maxNatural < next) then { s with power := s.power + 1, full := true }
  else { s with digits := next }

/-- Gather a digit of the fraction; a dropped one counts as nothing. -/
def Scaled.pushFraction (s : Scaled) (c : Char) : Scaled :=
  let next := s.digits * 10 + (c.toNat - '0'.toNat)
  if s.full || decide (maxNatural < next) then { s with full := true }
  else { s with digits := next, power := s.power - 1 }

/-- The gathered digits of a numeral without its exponent. -/
def scaled (n : Numeral) : Scaled :=
  let s := n.whole.foldl Scaled.pushWhole ⟨0, 0, false⟩
  n.fraction.foldl Scaled.pushFraction { s with full := false }

/-- A natural number rounded to 53 significant bits, a tie to the even neighbour. -/
def round53 (n : Nat) : Nat :=
  if n < 1 <<< 53 then n
  else
    let shift := n.log2 - 52
    let half := 1 <<< (shift - 1)
    let quotient := n >>> shift
    let remainder := n % (1 <<< shift)
    let up := decide (half < remainder) || (remainder == half && quotient % 2 == 1)
    (if up then quotient + 1 else quotient) <<< shift

/-- The largest power of ten below the range of a double. -/
def maxPower : Nat := 308

/-- Whether the product of digits and a power of ten, each rounded, stays in the range of a
double. -/
def productIsFinite (digits power : Nat) : Bool :=
  digits == 0 ||
    (decide (power ≤ maxPower) &&
      decide (round53 (round53 digits * round53 (Nat.pow 10 power)) < 1 <<< 1024))

/-- The largest exponent that is read as a number; it has 31 bits. -/
def maxExponent : Nat := 2147483647

/-- Whether a double can hold the numeral's magnitude. -/
def isFinite (n : Numeral) : Bool :=
  let s := n.scaled
  match n.exponent with
  | none => s.power < 0 || productIsFinite s.digits s.power.toNat
  | some (negative, ds) =>
    let e := digitsValue ds
    if maxExponent < e then negative || s.digits == 0
    else
      let power := if negative then s.power - e else s.power + e
      power < 0 || productIsFinite s.digits power.toNat

end Numeral

end Transcription.Json
