import Transcription.Address.Writer
import Transcription.CurrencyTable

/-!
# From an address to a currency

A resolver knows the public address and can locate an address, that is, name its country. The
currency of the caller is found in three steps, each of which needs the one before: the address is
looked up, it is located, and the first record of its country is taken. The locator is asked once
when there is an address and never otherwise.
-/

namespace Transcription

/-- Why no currency is found; `ι` and `γ` are the causes that the two services can give. -/
inductive ResolveError (ι γ : Type) where
  | ipLookup (cause : ι)
  | geoLookup (address : Address) (cause : γ)
  /-- The address was located in no country. -/
  | noCountry (address : Address)
  /-- No record has the country. -/
  | notFound (country : String)
  deriving Repr, DecidableEq

namespace ResolveError

/-- Whether it was only the record that was missing. -/
def isNotFound : ResolveError ι γ → Bool
  | .notFound _ => true
  | _ => false

/-- What a user is told, given the texts of the causes. -/
def message (ipText : ι → String) (geoText : γ → String) : ResolveError ι γ → String
  | .ipLookup cause => "公网 IP 查询失败: " ++ ipText cause
  | .geoLookup a cause => "地理定位查询失败 (" ++ toString a ++ "): " ++ geoText cause
  | .noCountry a => "无法确定 IP " ++ toString a ++ " 所属国家"
  | .notFound country => "未找到国家 " ++ country ++ " 的货币记录"

end ResolveError

/-- A source of the public address and a locator, with the effects of `m`. -/
structure Resolver (m : Type → Type) (ι γ : Type) where
  publicAddress : m (Except ι Address)
  /-- The country of an address, if it is known. -/
  locate : Address → m (Except γ (Option String))

namespace Resolver

variable {m : Type → Type} [Monad m] {ι γ : Type}

/-- The country of the caller. -/
def country (r : Resolver m ι γ) : m (Except (ResolveError ι γ) String) := do
  match ← r.publicAddress with
  | .error cause => pure (.error (.ipLookup cause))
  | .ok a =>
    match ← r.locate a with
    | .error cause => pure (.error (.geoLookup a cause))
    | .ok none => pure (.error (.noCountry a))
    | .ok (some country) => pure (.ok country)

/-- The record of a country in a table. -/
def recordOf (table : CurrencyTable) (country : String) :
    Except (ResolveError ι γ) CurrencyRecord :=
  match table.find? country with
  | none => .error (.notFound country)
  | some r => .ok r

/-- The currency record of the caller. -/
def record (r : Resolver m ι γ) (table : CurrencyTable) :
    m (Except (ResolveError ι γ) CurrencyRecord) := do
  return (← r.country).bind (recordOf table)

/-- The currency symbol of the caller. -/
def currency (r : Resolver m ι γ) (table : CurrencyTable) :
    m (Except (ResolveError ι γ) String) := do
  return (← r.record table).map CurrencyRecord.symbol

/-- A resolver with settled answers. It notes the addresses that it is asked to locate, the last
one first. -/
def settled (publicAddress : Except ι Address) (locate : Address → Except γ (Option String)) :
    Resolver (StateM (List Address)) ι γ where
  publicAddress := pure publicAddress
  locate a := do
    modify (a :: ·)
    return locate a

end Resolver

end Transcription
