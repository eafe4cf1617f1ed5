import Transcription.Json.Reader
import Transcription.Json.Record

/-!
# Currency tables

A currency table is a list of records, one for a country each, and the first record of a country
counts. Codes are compared as they are, so case and blanks matter.
-/

namespace Transcription

open Json

/-- The currency symbol and the language of a country. -/
structure CurrencyRecord where
  country : String
  symbol : String
  language : String
  deriving Repr, DecidableEq

namespace CurrencyRecord

instance : Persisted CurrencyRecord where
  toJson r := ofMembers
    [("code", ofString r.country),
     ("currency", ofMembers [("symbol", ofString r.symbol)]),
     ("language", ofMembers [("code", ofString r.language)])]
  ofJson? j := do
    let [some country, some currency, some language] ←
      fields? ["code", "currency", "language"] j | none
    let [some symbol] ← fields? ["symbol"] currency | none
    let [some tongue] ← fields? ["code"] language | none
    some ⟨← country.string?, ← symbol.string?, ← tongue.string?⟩

end CurrencyRecord

/-- A list of currency records. -/
abbrev CurrencyTable := List CurrencyRecord

namespace CurrencyTable

/-- The first record of a country. -/
def find? (t : CurrencyTable) (country : String) : Option CurrencyRecord :=
  List.find? (fun r => r.country == country) t

/-- The table that a JSON text holds. -/
def ofJsonText? (s : String) : Option CurrencyTable :=
  (parse? s).bind (list? ofJson?)

end CurrencyTable

end Transcription
