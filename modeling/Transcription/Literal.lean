/-!
# String literals in a text

A literal begins at a double quote and runs through the next one, or to the end of the text when
none follows. Which quotes count is the quote policy's decision: the naive policy counts every
quote, the escape-aware policy passes over the character after a backslash, inside a literal and
outside of it alike.

The scanner is a machine with two bits. `step` reads one character; a character belongs to a
literal when the machine is inside a literal before it or after it, so both quotes of a literal
belong to it. `scan` lists the literals of a text as spans of UTF-8 offsets, and `isProtected`
looks an offset up in such a list.
-/

namespace Transcription

/-- Which double quotes open and close a literal. -/
inductive QuotePolicy where
  /-- A backslash takes its meaning away from the next character. -/
  | escapeAware
  /-- Every quote counts. -/
  | naive
  deriving Repr, DecidableEq

instance : Inhabited QuotePolicy := ⟨.escapeAware⟩

/-- A half-open range of UTF-8 offsets. -/
structure Span where
  start : Nat
  stop : Nat
  deriving Repr, DecidableEq

/-- Whether an offset lies in a span. -/
def Span.contains (s : Span) (pos : Nat) : Bool :=
  decide (s.start ≤ pos) && decide (pos < s.stop)

namespace Literal

/-- What the scanner knows of the text that it has read. -/
structure State where
  /-- A literal is open. -/
  inside : Bool
  /-- The next character has lost its meaning. -/
  escaped : Bool
  deriving Repr, DecidableEq

/-- The scanner's state at the beginning of a text. -/
def State.start : State := ⟨false, false⟩

/-- Read one character. -/
def step (policy : QuotePolicy) (s : State) (c : Char) : State :=
  if s.escaped then { s with escaped := false }
  else if policy = .escapeAware ∧ c = '\\' then { s with escaped := true }
  else if c = '"' then { s with inside := !s.inside }
  else s

/-- Whether a character that is read in a given state belongs to a literal. -/
def covers (policy : QuotePolicy) (s : State) (c : Char) : Bool :=
  s.inside || (step policy s c).inside

/-- The literals of the rest of a text, which begins at offset `pos` in the state `s`; when a
literal is open it began at `start`. -/
def spansFrom (policy : QuotePolicy) (s : State) (start pos : Nat) : List Char → List Span
  | [] => if s.inside then [⟨start, pos⟩] else []
  | c :: cs =>
    let next := step policy s c
    let stop := pos + c.utf8Size
    match s.inside, next.inside with
    | false, true => spansFrom policy next pos stop cs
    | true, false => ⟨start, stop⟩ :: spansFrom policy next start stop cs
    | _, _ => spansFrom policy next start stop cs

/-- The literals of a text, from left to right. -/
def scan (policy : QuotePolicy) (text : String) : List Span :=
  spansFrom policy .start 0 0 text.toList

/-- Whether an offset lies in one of the spans of an ordered list: the last span that begins at
or before it decides. -/
def isProtected (spans : List Span) (pos : Nat) : Bool :=
  (spans.takeWhile fun s => decide (s.start ≤ pos)).getLast?.any fun s => s.contains pos

@[simp] theorem scan_empty (policy : QuotePolicy) : scan policy "" = [] := rfl

@[simp] theorem isProtected_nil (pos : Nat) : isProtected [] pos = false := rfl

@[simp] theorem step_escaped (policy : QuotePolicy) (inside : Bool) (c : Char) :
    step policy ⟨inside, true⟩ c = ⟨inside, false⟩ := rfl

/-- The naive scanner never waits for an escaped character. -/
theorem step_naive_escaped {s : State} (h : s.escaped = false) (c : Char) :
    (step .naive s c).escaped = false := by
  by_cases hq : c = '"' <;> simp [step, h, hq]

end Literal

end Transcription
