import Transcription.Json.StringToken

/-!
# Writing JSON

A layout says what stands between the tokens of a value. The compact layout puts nothing there.
The pretty layout begins a line before every item, every member and every closing mark of a
container that is not empty, indented by two spaces for each open container, and puts a space
after the colon.
-/

namespace Transcription.Json

/-- What stands between tokens. -/
structure Layout where
  /-- Before an item, a member or a closing mark that has `depth` containers around it. -/
  line : (depth : Nat) → List Char
  /-- After a colon. -/
  afterColon : List Char

namespace Layout

/-- Nothing between tokens. -/
def compact : Layout := ⟨fun _ => [], []⟩

/-- One line per item and member. -/
def pretty : Layout := ⟨fun depth => '\n' :: List.replicate (2 * depth) ' ', [' ']⟩

end Layout

/-- A string token; content that spells no text is written as the empty text. -/
def writeText (content : Text) : List Char :=
  quote (content.getD "")

mutual

/-- Write a value inside of `depth` containers. -/
def write (l : Layout) (depth : Nat) : Json → List Char
  | .null => ['n', 'u', 'l', 'l']
  | .bool true => ['t', 'r', 'u', 'e']
  | .bool false => ['f', 'a', 'l', 's', 'e']
  | .number n => n.toList
  | .text content => writeText content
  | .array [] => ['[', ']']
  | .array (j :: js) =>
    '[' :: (l.line (depth + 1) ++ write l (depth + 1) j ++ writeItems l (depth + 1) js ++
      l.line depth ++ [']'])
  | .object [] => ['\x7b', '\x7d']
  | .object ((k, j) :: ms) =>
    '\x7b' :: (l.line (depth + 1) ++ writeText k ++ ':' :: l.afterColon ++
      write l (depth + 1) j ++ writeMembers l (depth + 1) ms ++ l.line depth ++ ['\x7d'])

/-- Write the items after the first one. -/
def writeItems (l : Layout) (depth : Nat) : List Json → List Char
  | [] => []
  | j :: js => ',' :: (l.line depth ++ write l depth j ++ writeItems l depth js)

/-- Write the members after the first one. -/
def writeMembers (l : Layout) (depth : Nat) : List (Text × Json) → List Char
  | [] => []
  | (k, j) :: ms =>
    ',' :: (l.line depth ++ writeText k ++ ':' :: l.afterColon ++ write l depth j ++
      writeMembers l depth ms)

end

/-- The text of a value without blanks. -/
def compact (j : Json) : String :=
  String.ofList (write .compact 0 j)

/-- The text of a value with one line per item and member. -/
def pretty (j : Json) : String :=
  String.ofList (write .pretty 0 j)

end Transcription.Json
