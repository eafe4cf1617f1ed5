import Transcription.Json.Token

/-!
# Reading JSON

A value is built from its tokens by a machine with a stack: the containers that have been opened
and not yet closed, the innermost first. After every token the machine knows what may come next.
A text is read when its tokens leave one finished value and an empty stack, so nothing but blanks
may follow a value.
-/

namespace Transcription.Json

/-- A container that is still open; what it holds is kept with the last entry first. -/
inductive Opened where
  /-- An array whose next item is being read. -/
  | array (items : List Json)
  /-- An object whose member `key` is being read. -/
  | member (members : List (Text × Json)) (key : Text)

/-- What the machine has read and what it waits for. -/
inductive Progress where
  /-- A value must come. -/
  | value (stack : List Opened)
  /-- An array has been opened: a value or its end must come. -/
  | firstItem (stack : List Opened)
  /-- An object has been opened: a key or its end must come. -/
  | firstKey (stack : List Opened)
  /-- A key must come. -/
  | key (members : List (Text × Json)) (stack : List Opened)
  /-- A colon must come. -/
  | colon (members : List (Text × Json)) (key : Text) (stack : List Opened)
  /-- A value is complete: a comma or the end of its container must come, if it has one. -/
  | done (value : Json) (stack : List Opened)

namespace Progress

/-- Begin a value. -/
def beginValue (stack : List Opened) : Token → Option Progress
  | .openBrace => some (.firstKey stack)
  | .openBracket => some (.firstItem stack)
  | .null => some (.done .null stack)
  | .bool b => some (.done (.bool b) stack)
  | .number n => some (.done (.number n) stack)
  | .text content => some (.done (.text content) stack)
  | _ => none

/-- Go on after a complete value. -/
def afterValue (v : Json) : List Opened → Token → Option Progress
  | .array items :: stack, .comma => some (.value (.array (v :: items) :: stack))
  | .array items :: stack, .closeBracket => some (.done (.array (v :: items).reverse) stack)
  | .member members k :: stack, .comma => some (.key ((k, v) :: members) stack)
  | .member members k :: stack, .closeBrace =>
    some (.done (.object ((k, v) :: members).reverse) stack)
  | _, _ => none

/-- Read one token. -/
def step : Progress → Token → Option Progress
  | .value stack, t => beginValue stack t
  | .firstItem stack, .closeBracket => some (.done (.array []) stack)
  | .firstItem stack, t => beginValue (.array [] :: stack) t
  | .firstKey stack, .closeBrace => some (.done (.object []) stack)
  | .firstKey stack, .text k => some (.colon [] k stack)
  | .firstKey _, _ => none
  | .key members stack, .text k => some (.colon members k stack)
  | .key _ _, _ => none
  | .colon members k stack, .colon => some (.value (.member members k :: stack))
  | .colon _ _ _, _ => none
  | .done v stack, t => afterValue v stack t

/-- The value of a text that ends here. -/
def result? : Progress → Option Json
  | .done v [] => some v
  | _ => none

end Progress

/-- The value that a list of tokens spells. -/
def ofTokens? (ts : List Token) : Option Json :=
  (ts.foldlM Progress.step (.value [])).bind Progress.result?

/-- The value that a text spells. -/
def parse? (s : String) : Option Json :=
  (Token.scan? s.toList).bind ofTokens?

end Transcription.Json
