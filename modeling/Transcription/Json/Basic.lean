import Transcription.Json.Numeral

/-!
# JSON values

A value is kept as it is written: numbers by their spelling, and the members of an object in
order with every repetition of a key. String content is optional, because a string token may be
well formed and still name no text, when an escape stands for half of a surrogate pair; such a
string does no harm where its content is not looked at.
-/

namespace Transcription

/-- The content of a JSON string; none when its escapes spell no text. -/
abbrev Json.Text := Option String

/-- A JSON value as it is written. -/
inductive Json where
  | null
  | bool (b : Bool)
  | number (n : Json.Numeral)
  | text (content : Json.Text)
  | array (items : List Json)
  | object (members : List (Json.Text × Json))
  deriving Repr

namespace Json

/-- The value of a string. -/
def ofString (s : String) : Json := .text (some s)

/-- The value of a natural number. -/
def ofNat (n : Nat) : Json := .number (.ofNat n)

/-- An object with the given keys. -/
def ofMembers (ms : List (String × Json)) : Json :=
  .object (ms.map fun m => (some m.1, m.2))

/-- A value that may be absent. -/
def ofOption (f : α → Json) : Option α → Json
  | none => .null
  | some a => f a

/-- The text of a readable string. -/
def string? : Json → Option String
  | .text content => content
  | _ => none

/-- The truth value that a value is. -/
def bool? : Json → Option Bool
  | .bool b => some b
  | _ => none

/-- The unsigned 64-bit number that a value is. -/
def natural? : Json → Option Nat
  | .number n => n.natural?
  | _ => none

/-- The items of an array. -/
def items? : Json → Option (List Json)
  | .array items => some items
  | _ => none

/-- The value of a key of an object; of several members with the key the last one counts. -/
def member? (key : String) : Json → Option Json
  | .object ms => (ms.findRev? fun m => m.1 == some key).map Prod.snd
  | _ => none

/-- An object with one member replaced, or added at the end. -/
def setMember (j : Json) (key : String) (value : Json) : Json :=
  match j with
  | .object ms =>
    if ms.any (fun m => m.1 == some key) then
      .object (ms.map fun m => if m.1 == some key then (m.1, value) else m)
    else .object (ms ++ [(some key, value)])
  | j => j

@[simp] theorem string?_ofString (s : String) : (ofString s).string? = some s := rfl

theorem string?_eq_some_iff {j : Json} {s : String} : j.string? = some s ↔ j = ofString s := by
  cases j <;> simp [string?, ofString]

@[simp] theorem bool?_bool (b : Bool) : (bool b).bool? = some b := rfl

@[simp] theorem items?_array (items : List Json) : (array items).items? = some items := rfl

theorem natural?_ofNat {n : Nat} (h : n ≤ Numeral.maxNatural) : (ofNat n).natural? = some n :=
  Numeral.natural?_ofNat h

theorem natural?_le {j : Json} {n : Nat} (h : j.natural? = some n) : n ≤ Numeral.maxNatural := by
  cases j with
  | number numeral =>
      simp only [natural?, Numeral.natural?] at h
      split at h
      · cases h
      · split at h
        · next hle => exact Option.some.inj h ▸ hle
        · cases h
  | _ => cases h

end Json

end Transcription
