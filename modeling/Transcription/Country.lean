import Transcription.Json.Basic
import Transcription.Text.Blank

/-!
# Country codes

A country is named by a code. Codes from outside are normalised: the blanks around them are
removed and ASCII letters are put in upper case. What is blank names no country.
-/

namespace Transcription.Country

open Text

/-- The normal form of a country code, if it is one. -/
def normalize? (code : String) : Option String :=
  let cs := trimList code.toList
  if cs.isEmpty then none else some (String.ofList (cs.map Char.toUpper))

@[simp] theorem normalize?_empty : normalize? "" = none := rfl

/-- The members of a location document that may hold a country code, the preferred one first. -/
def locationKeys : List String := ["country_code", "country"]

/-- The country that a location document names: the first member that holds a code. -/
def ofDocument? (j : Json) : Option String :=
  locationKeys.findSome? fun key => ((j.member? key).bind Json.string?).bind normalize?

end Transcription.Country
