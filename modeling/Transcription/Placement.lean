import Transcription.Text.Blank
import Transcription.Text.Substitution

/-!
# Currency placeholders

A price is written as the marker, an empty pair of braces, with a currency symbol against it, on
the left or on the right as the currency's custom is. Placement turns each such annotated
placeholder of one symbol into the canonical placeholder, which keeps the marker and drops the
symbol.

Custom is decided by the symbol without the blanks around it and up to canonical equivalence, so
that a letter with its caron as one character or as two is the same symbol; the placeholder
itself is looked for exactly as the symbol is given.
-/

namespace Transcription

open Text

/-- On which side of an amount a currency symbol stands. -/
inductive Placement where
  | leftside
  | rightside
  deriving Repr, DecidableEq

namespace Placement

/-- The symbols that stand on the right of an amount. -/
def rightsideSymbols : List String :=
  ["€", "£", "CHF", "kr", "zł", "Ft", "Kč", "kn", "RSD", "лв", "lei", "₽", "₺", "₴"]

/-- The composed spelling of a symbol, as far as a listed symbol has another one: the Kelvin sign
is a letter K, and a letter c with a combining caron is one letter. -/
def composed : List Char → List Char
  | [] => []
  | '\u212a' :: cs => 'K' :: composed cs
  | 'c' :: '\u030c' :: cs => 'č' :: composed cs
  | c :: cs => c :: composed cs

/-- The side on which a symbol stands. -/
def ofSymbol (symbol : String) : Placement :=
  if String.ofList (composed (trimList symbol.toList)) ∈ rightsideSymbols then .rightside
  else .leftside

/-- Whether a symbol stands on the right. -/
def isRightside (symbol : String) : Bool :=
  ofSymbol symbol == .rightside

/-- Where an amount is inserted. -/
def marker : String := "\x7b\x7d"

/-- The placeholder that names no currency. -/
def canonical : String := "$\x7b\x7d"

/-- The marker with a symbol on its side. -/
def annotated (symbol : String) : String :=
  match ofSymbol symbol with
  | .rightside => marker ++ symbol
  | .leftside => symbol ++ marker

/-- The substitution of the canonical placeholder for a pattern, wherever it stands. -/
def ofPattern (pattern : List Char) : Substitution Unit where
  target := pattern
  replacement := canonical.toList
  extend _ _ := ()
  admits _ _ := true

@[simp] theorem target_ofPattern (p : List Char) : (ofPattern p).target = p := rfl

@[simp] theorem replacement_ofPattern (p : List Char) :
    (ofPattern p).replacement = canonical.toList := rfl

/-- Put the canonical placeholder in place of the annotated placeholders of a symbol. A blank
symbol has none. -/
def rewrite (symbol : String) (text : List Char) : Rewritten :=
  if isBlankString symbol then ⟨text, 0⟩
  else (ofPattern (annotated symbol).toList).apply () text

theorem rewrite_of_isBlankString {symbol : String} (h : isBlankString symbol = true)
    (text : List Char) : rewrite symbol text = ⟨text, 0⟩ := by
  simp [rewrite, h]

end Placement

/-- Place a currency in a text and count the placeholders that were rewritten. -/
def placeCurrencyCounted (text symbol : String) : String × Nat :=
  let r := Placement.rewrite symbol text.toList
  (String.ofList r.text, r.count)

/-- Place a currency in a text. -/
def placeCurrency (text symbol : String) : String :=
  (placeCurrencyCounted text symbol).1

@[simp] theorem toList_placeCurrency (text symbol : String) :
    (placeCurrency text symbol).toList = (Placement.rewrite symbol text.toList).text := by
  simp [placeCurrency, placeCurrencyCounted]

/-- A blank symbol places nothing. -/
theorem placeCurrency_of_isBlankString {symbol : String}
    (h : Text.isBlankString symbol = true) (text : String) : placeCurrency text symbol = text := by
  simp [placeCurrency, placeCurrencyCounted, Placement.rewrite_of_isBlankString h]

end Transcription
