import Transcription.Address.Reader
import Transcription.Address.Writer
import Transcription.Country
import Transcription.Json.Reader
import Transcription.Json.Record

/-!
# Tables of address ranges

A range gives a country to all addresses from a first to a last one, both included and all of one
family; a range whose ends are reversed or of two families is empty. A table is a list of ranges.
The first range that holds an address decides on its country, also when it names none.
-/

namespace Transcription

open Json

/-- The country of an interval of addresses. -/
structure GeoRange where
  first : Address
  last : Address
  country : String
  deriving Repr, DecidableEq

namespace GeoRange

/-- Whether an address lies in a range. -/
def contains (r : GeoRange) (a : Address) : Bool :=
  r.first.le a && a.le r.last

/-- The address that a JSON string spells. -/
def address? (j : Json) : Option Address :=
  j.string?.bind Address.ofString?

instance : Persisted GeoRange where
  toJson r := ofMembers
    [("start", ofString (toString r.first)), ("end", ofString (toString r.last)),
     ("country", ofString r.country)]
  ofJson? j := do
    let [some first, some last, some country] ← fields? ["start", "end", "country"] j | none
    some ⟨← address? first, ← address? last, ← country.string?⟩

end GeoRange

/-- A list of address ranges. -/
abbrev GeoTable := List GeoRange

namespace GeoTable

/-- The country of the first range that holds an address. -/
def lookup (t : GeoTable) (a : Address) : Option String :=
  (List.find? (fun r => r.contains a) t).bind fun r => Country.normalize? r.country

/-- The table that a JSON text holds. -/
def ofJsonText? (s : String) : Option GeoTable :=
  (parse? s).bind (list? ofJson?)

@[simp] theorem lookup_nil (a : Address) : lookup [] a = none := rfl

end GeoTable

end Transcription
