import Transcription.Engine.Persisted
import Transcription.Path
import Transcription.Text.Blank

/-!
# Settings

The settings of a user are kept as a record with seven fields, every one of which has a default.
A record is accepted as a whole when each field that is given can be read; fields that are not
given take their defaults. From a document that is not accepted as a whole every field that can
be read on its own is recovered, and the others take their defaults.
-/

namespace Transcription

open Json

/-- The settings of a user. -/
structure Settings where
  quotePolicy : QuotePolicy
  /-- Where the public address is asked for. -/
  ipServiceUrl : String
  /-- Where the country of an address is asked for. -/
  geoEndpoint : String
  /-- A table of address ranges; with it no country is asked for. -/
  geoTable : Option Path
  /-- A currency table in place of the built-in one. -/
  currencyTable : Option Path
  defaultCurrency : Option String
  requestTimeoutSecs : UInt64
  deriving Repr, DecidableEq

namespace Settings

/-- The settings of a user who has chosen nothing. -/
instance : Inhabited Settings where
  default :=
    { quotePolicy := .escapeAware
      ipServiceUrl := "https://api64.ipify.org?format=json"
      geoEndpoint := "https://ipapi.co/\x7bip\x7d/json/"
      geoTable := none
      currencyTable := none
      defaultCurrency := none
      requestTimeoutSecs := 30 }

/-- The names of the fields, in order. -/
def fieldNames : List String :=
  ["quote_policy", "ip_service_url", "geo_endpoint", "geo_table", "currency_table",
   "default_currency", "request_timeout_secs"]

/-- Read a path. -/
def path? (j : Json) : Option Path := j.string?.map Path.mk

/-- A string is a path, and nothing else is one. -/
theorem path?_eq_some_iff {j : Json} {p : Path} : path? j = some p ↔ j = ofString p.text := by
  rw [path?, ← string?_eq_some_iff, Option.map_eq_some_iff]
  constructor
  · rintro ⟨s, hs, rfl⟩
    exact hs
  · intro hs
    exact ⟨p.text, hs, rfl⟩

/-- Read a number of seconds. -/
def seconds? (j : Json) : Option UInt64 := j.natural?.map UInt64.ofNat

/-- Read a field that may be left out. -/
def given (read : Json → Option α) (fallback : α) : Option Json → Option α
  | none => some fallback
  | some j => read j

@[simp] theorem given_none (read : Json → Option α) (fallback : α) :
    given read fallback none = some fallback := rfl

@[simp] theorem given_some (read : Json → Option α) (fallback : α) (j : Json) :
    given read fallback (some j) = read j := rfl

instance : Persisted Settings where
  toJson s := ofMembers
    [("quote_policy", toJson s.quotePolicy),
     ("ip_service_url", ofString s.ipServiceUrl),
     ("geo_endpoint", ofString s.geoEndpoint),
     ("geo_table", ofOption (fun p => ofString p.text) s.geoTable),
     ("currency_table", ofOption (fun p => ofString p.text) s.currencyTable),
     ("default_currency", ofOption ofString s.defaultCurrency),
     ("request_timeout_secs", ofNat s.requestTimeoutSecs.toNat)]
  ofJson? j := do
    let [policy, ipUrl, geoUrl, geoTable, currencyTable, currency, seconds] ←
      fields? fieldNames j | none
    let fallback : Settings := default
    some
      { quotePolicy := ← given ofJson? fallback.quotePolicy policy
        ipServiceUrl := ← given string? fallback.ipServiceUrl ipUrl
        geoEndpoint := ← given string? fallback.geoEndpoint geoUrl
        geoTable := ← given (option? path?) fallback.geoTable geoTable
        currencyTable := ← given (option? path?) fallback.currencyTable currencyTable
        defaultCurrency := ← given (option? string?) fallback.defaultCurrency currency
        requestTimeoutSecs := ← given seconds? fallback.requestTimeoutSecs seconds }

/-- Read one field of a document, or take its default. -/
def recoverField (j : Json) (name : String) (read : Json → Option α) (fallback : α) : α :=
  ((j.member? name).bind read).getD fallback

/-- The settings that can be recovered from a document, field by field. -/
def recover (j : Json) : Settings :=
  let fallback : Settings := default
  { quotePolicy := recoverField j "quote_policy" ofJson? fallback.quotePolicy
    ipServiceUrl := recoverField j "ip_service_url" string? fallback.ipServiceUrl
    geoEndpoint := recoverField j "geo_endpoint" string? fallback.geoEndpoint
    geoTable := recoverField j "geo_table" (option? path?) fallback.geoTable
    currencyTable := recoverField j "currency_table" (option? path?) fallback.currencyTable
    defaultCurrency := recoverField j "default_currency" (option? string?) fallback.defaultCurrency
    requestTimeoutSecs :=
      recoverField j "request_timeout_secs" seconds? fallback.requestTimeoutSecs }

/-- The settings that a document holds. -/
def ofDocument (j : Json) : Settings :=
  (ofJson? j).getD (recover j)

/-- A currency symbol without the blanks around it; none when nothing is left. -/
def symbol? (s : String) : Option String :=
  if Text.isBlankString s then none else some (Text.trim s)

/-- The currency to use when none is named: that of the environment, else the configured one. A
blank one counts as none, and a blank one of the environment gives way to the configured one. -/
def pickCurrency (environment configured : Option String) : Option String :=
  (environment.bind symbol?).or (configured.bind symbol?)

/-- The currency that the settings and an environment variable of some bytes name. Bytes that are
no text count as an unset variable. -/
def currency (s : Settings) (environment : Option ByteArray) : Option String :=
  pickCurrency (environment.bind String.fromUTF8?) s.defaultCurrency

end Settings

end Transcription
