import Transcription.Text.Invisible

/-!
# Quoted text in messages

A message shows a text between double quotes. The quote and the backslash get a backslash, four
control characters their short names, and any other invisible character its code point in
hexadecimal digits between braces, so that a message shows every character of the text and stays
on one line.
-/

namespace Transcription.Text

/-- One character between quotes. -/
def quotedChar (c : Char) : List Char :=
  if c = '"' then ['\\', '"']
  else if c = '\\' then ['\\', '\\']
  else if c = '\n' then ['\\', 'n']
  else if c = '\r' then ['\\', 'r']
  else if c = '\t' then ['\\', 't']
  else if c = '\x00' then ['\\', '0']
  else if isInvisible c then ['\\', 'u', '\x7b'] ++ Nat.toDigits 16 c.toNat ++ ['\x7d']
  else [c]

/-- A text as a message shows it. -/
def quoted (s : String) : String :=
  String.ofList ('"' :: s.toList.flatMap quotedChar ++ ['"'])

end Transcription.Text
