/-!
# Blank characters

A character is blank when it has the Unicode property `White_Space`. The property is a short
table of ranges: it holds of the no-break space and of the ideographic space, and it fails of
the zero-width space, the byte-order mark and the four information separators. Trimming removes
blank characters at both ends of a text and nothing between them.
-/

namespace Transcription.Text

/-- Inclusive code-point ranges of the property `White_Space`. -/
def blankRanges : List (Nat × Nat) :=
  [(0x09, 0x0D), (0x20, 0x20), (0x85, 0x85), (0xA0, 0xA0), (0x1680, 0x1680), (0x2000, 0x200A),
   (0x2028, 0x2029), (0x202F, 0x202F), (0x205F, 0x205F), (0x3000, 0x3000)]

/-- Whether a character has the property `White_Space`. -/
def isBlank (c : Char) : Bool :=
  blankRanges.any fun r => decide (r.1 ≤ c.toNat) && decide (c.toNat ≤ r.2)

/-- What is left of a text without its blank beginning and its blank end. -/
def trimList (cs : List Char) : List Char :=
  ((cs.dropWhile isBlank).reverse.dropWhile isBlank).reverse

@[simp] theorem trimList_nil : trimList [] = [] := rfl

/-- Remove the blank characters at both ends of a string. -/
def trim (s : String) : String :=
  String.ofList (trimList s.toList)

@[simp] theorem toList_trim (s : String) : (trim s).toList = trimList s.toList := by
  simp [trim]

/-- A string that holds nothing but blank characters, the empty string included. -/
def isBlankString (s : String) : Bool :=
  s.toList.all isBlank

end Transcription.Text
