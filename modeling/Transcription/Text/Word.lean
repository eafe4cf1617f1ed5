/-!
# Word characters and word edges

A word character is an ASCII letter, an ASCII digit or the underscore; every other character,
a letter with an accent included, is not. A position in a text is a word edge when exactly one
of its two neighbours is a word character, where the outside of the text counts as a character
that is none.
-/

namespace Transcription.Text

/-- The characters that words are made of: ASCII letters, ASCII digits and the underscore. -/
def isWordChar (c : Char) : Bool :=
  c.isAlphanum || c == '_'

/-- Whether a word has its edge between two neighbouring characters; `none` is the outside of
the text. -/
def isEdge (left right : Option Char) : Bool :=
  left.any isWordChar != right.any isWordChar

@[simp] theorem isEdge_none_none : isEdge none none = false := rfl

end Transcription.Text
