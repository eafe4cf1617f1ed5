import Transcription.Json.Reader

/-!
# JSON documents

A value that is read without knowing what it should be is a document. It is held to more than the
form of its text: every string has to spell a text, every number has to fit a double, containers
are nested 127 deep at most, and of several members with one key only the last one is kept.
-/

namespace Transcription.Json

/-- How deep the containers of a document may be nested. -/
def maxDepth : Nat := 127

/-- Drop every member that a later one with the same key replaces. -/
def lastOfEachKey : List (Text × Json) → List (Text × Json)
  | [] => []
  | m :: ms => if ms.any (fun n => n.1 == m.1) then lastOfEachKey ms else m :: lastOfEachKey ms

mutual

/-- The document that a value is, when `depth` more containers may be opened. -/
def document? (depth : Nat) : Json → Option Json
  | .null => some .null
  | .bool b => some (.bool b)
  | .number n => if n.isFinite then some (.number n) else none
  | .text content => content.map ofString
  | .array items =>
    match depth with
    | 0 => none
    | depth + 1 => (documentItems? depth items).map .array
  | .object members =>
    match depth with
    | 0 => none
    | depth + 1 => (documentMembers? depth members).map fun ms => .object (lastOfEachKey ms)

/-- The documents of the items of an array. -/
def documentItems? (depth : Nat) : List Json → Option (List Json)
  | [] => some []
  | j :: js => do
    let j ← document? depth j
    let js ← documentItems? depth js
    some (j :: js)

/-- The documents of the members of an object, every one with a readable key. -/
def documentMembers? (depth : Nat) : List (Text × Json) → Option (List (Text × Json))
  | [] => some []
  | (k, j) :: ms => do
    let k ← k
    let j ← document? depth j
    let ms ← documentMembers? depth ms
    some ((some k, j) :: ms)

end

/-- Read a text as a document. -/
def parseDocument? (s : String) : Option Json :=
  (parse? s).bind (document? maxDepth)

end Transcription.Json
