import Transcription.Json.Basic
import Transcription.Text.Hex

/-!
# String tokens

Between its quotes a string token is a sequence of pieces: characters that stand for themselves or
are named by a short escape, and UTF-16 units named by four hexadecimal digits. `textOf` joins the
pieces to a text. A unit of a surrogate pair counts only together with the other one; on its own
it spells no text.

`escape` writes a character inside quotes: the quote, the backslash and the five control
characters with a short name get their short escape, other characters below the space a numeric
one, and every other character stands for itself.
-/

namespace Transcription.Json

/-- A part of a string token. -/
inductive Piece where
  | char (c : Char)
  /-- A UTF-16 unit given by its number. -/
  | unit (u : Nat)
  deriving Repr, DecidableEq

namespace Piece

/-- First half of a surrogate pair. -/
def isHigh (u : Nat) : Bool := decide (0xD800 ≤ u) && decide (u ≤ 0xDBFF)

/-- Second half of a surrogate pair. -/
def isLow (u : Nat) : Bool := decide (0xDC00 ≤ u) && decide (u ≤ 0xDFFF)

/-- The character of a surrogate pair. -/
def ofPair (high low : Nat) : Char :=
  Char.ofNat (0x10000 + (high - 0xD800) * 0x400 + (low - 0xDC00))

/-- The characters that a sequence of pieces spells. -/
def chars? : List Piece → Option (List Char)
  | [] => some []
  | .char c :: ps => (chars? ps).map (c :: ·)
  | .unit u :: .unit v :: ps =>
    if isHigh u && isLow v then (chars? ps).map (ofPair u v :: ·)
    else if isHigh u || isLow u then none
    else (chars? (.unit v :: ps)).map (Char.ofNat u :: ·)
  | .unit u :: ps =>
    if isHigh u || isLow u then none else (chars? ps).map (Char.ofNat u :: ·)

/-- The text that a sequence of pieces spells. -/
def textOf (ps : List Piece) : Text := (chars? ps).map String.ofList

@[simp] theorem chars?_nil : chars? [] = some [] := rfl

@[simp] theorem chars?_char (c : Char) (ps : List Piece) :
    chars? (.char c :: ps) = (chars? ps).map (c :: ·) := rfl

end Piece

/-- The character named by a one-letter escape. -/
def shortEscape? : Char → Option Char
  | '"' => some '"'
  | '\\' => some '\\'
  | '/' => some '/'
  | 'b' => some '\x08'
  | 'f' => some '\x0c'
  | 'n' => some '\n'
  | 'r' => some '\r'
  | 't' => some '\t'
  | _ => none

/-- Characters below the space may not stand in a string token. -/
def isControl (c : Char) : Bool := decide (c.toNat < 0x20)

/-- A character as it is written between quotes. -/
def escape (c : Char) : List Char :=
  if c = '"' then ['\\', '"']
  else if c = '\\' then ['\\', '\\']
  else if c = '\x08' then ['\\', 'b']
  else if c = '\x0c' then ['\\', 'f']
  else if c = '\n' then ['\\', 'n']
  else if c = '\r' then ['\\', 'r']
  else if c = '\t' then ['\\', 't']
  else if isControl c then
    ['\\', 'u', '0', '0', Nat.digitChar (c.toNat / 16), Nat.digitChar (c.toNat % 16)]
  else [c]

/-- A text as a string token. -/
def quote (s : String) : List Char :=
  '"' :: s.toList.flatMap escape ++ ['"']

end Transcription.Json
