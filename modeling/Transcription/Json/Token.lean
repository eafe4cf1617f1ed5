import Transcription.Json.StringToken

/-!
# JSON tokens

The scanner reads a text from left to right and keeps the tokens that it has completed. Between
tokens stand blanks (space, tab, line feed, carriage return). A punctuation mark is a token by
itself and a string token runs to its closing quote. Everything else is a bare word, which ends
where one of these begins; a bare word is `null`, `true`, `false` or a numeral, and nothing else.
-/

namespace Transcription.Json

/-- A token of a JSON text. -/
inductive Token where
  | openBrace
  | closeBrace
  | openBracket
  | closeBracket
  | colon
  | comma
  | null
  | bool (b : Bool)
  | number (n : Numeral)
  | text (content : Text)
  deriving Repr, DecidableEq

namespace Token

/-- The blanks that may stand between tokens. -/
def isGap (c : Char) : Bool :=
  c == ' ' || c == '\t' || c == '\n' || c == '\r'

/-- The token that a punctuation mark is. -/
def ofMark? : Char → Option Token
  | '\x7b' => some .openBrace
  | '\x7d' => some .closeBrace
  | '[' => some .openBracket
  | ']' => some .closeBracket
  | ':' => some .colon
  | ',' => some .comma
  | _ => none

/-- The token that a bare word is. -/
def ofWord? (w : List Char) : Option Token :=
  if w = ['n', 'u', 'l', 'l'] then some .null
  else if w = ['t', 'r', 'u', 'e'] then some (.bool true)
  else if w = ['f', 'a', 'l', 's', 'e'] then some (.bool false)
  else (Numeral.ofList? w).map .number

/-- Where the scanner stands. -/
inductive Mode where
  /-- Between two tokens. -/
  | gap
  /-- In a bare word, of which these characters have been read, the last one first. -/
  | word (read : List Char)
  /-- In a string token, of which these pieces have been read, the last one first. -/
  | string (read : List Piece)
  /-- After the backslash of an escape. -/
  | escape (read : List Piece)
  /-- In a numeric escape, of which `digits` digits with the value `value` have been read. -/
  | unit (read : List Piece) (digits value : Nat)
  deriving Repr, DecidableEq

/-- The scanner: the completed tokens, the last one first, and where it stands. -/
structure Scanner where
  tokens : List Token
  mode : Mode
  deriving Repr, DecidableEq

namespace Scanner

/-- The scanner before the first character. -/
def start : Scanner := ⟨[], .gap⟩

/-- Complete a token. -/
def emit (tokens : List Token) (t : Token) : Scanner := ⟨t :: tokens, .gap⟩

/-- Read a character between two tokens. -/
def stepGap (tokens : List Token) (c : Char) : Scanner :=
  if isGap c then ⟨tokens, .gap⟩
  else if c = '"' then ⟨tokens, .string []⟩
  else match ofMark? c with
    | some t => emit tokens t
    | none => ⟨tokens, .word [c]⟩

/-- Whether a character ends the bare word before it. -/
def endsWord (c : Char) : Bool :=
  isGap c || c == '"' || (ofMark? c).isSome

/-- Read one character; none when no token can be continued with it. -/
def step (s : Scanner) (c : Char) : Option Scanner :=
  match s.mode with
  | .gap => some (stepGap s.tokens c)
  | .word read =>
    if endsWord c then (ofWord? read.reverse).map fun t => stepGap (t :: s.tokens) c
    else some ⟨s.tokens, .word (c :: read)⟩
  | .string read =>
    if c = '"' then some (emit s.tokens (.text (Piece.textOf read.reverse)))
    else if c = '\\' then some ⟨s.tokens, .escape read⟩
    else if isControl c then none
    else some ⟨s.tokens, .string (.char c :: read)⟩
  | .escape read =>
    if c = 'u' then some ⟨s.tokens, .unit read 0 0⟩
    else (shortEscape? c).map fun d => ⟨s.tokens, .string (.char d :: read)⟩
  | .unit read digits value =>
    (Text.hexValue? c).map fun d =>
      if digits = 3 then ⟨s.tokens, .string (.unit (value * 16 + d) :: read)⟩
      else ⟨s.tokens, .unit read (digits + 1) (value * 16 + d)⟩

/-- The tokens of a text that ends here; none inside a string token. -/
def finish? (s : Scanner) : Option (List Token) :=
  match s.mode with
  | .gap => some s.tokens.reverse
  | .word read => (ofWord? read.reverse).map fun t => (t :: s.tokens).reverse
  | _ => none

end Scanner

/-- The tokens of a text. -/
def scan? (cs : List Char) : Option (List Token) :=
  (cs.foldlM Scanner.step .start).bind Scanner.finish?

end Token

end Transcription.Json
