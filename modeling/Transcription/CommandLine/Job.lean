import Transcription.CommandLine.Host
import Transcription.CommandLine.Options
import Transcription.CurrencyTable.File
import Transcription.GeoTable.File
import Transcription.Online
import Transcription.Settings.File

/-!
# From options to a job

A job is a source text with the currency and the policy to transcribe it with. The options of a
run lead to it in three steps: the settings are loaded, and settings that cannot be loaded count
as the defaults; the currency is determined; the source is read. Resolving the currency begins
with the tables that the settings name, so that no request is made when one of them is no good,
and it has no default to fall back on.
-/

namespace Transcription.CommandLine

/-- Why there is no job. -/
inductive Failure where
  /-- No currency is named anywhere. -/
  | noCurrency
  | currencyTable (error : CurrencyTable.LoadError)
  | geoTable (error : GeoTable.LoadError)
  | resolution (error : ResolveError Online.IpError Online.GeoError)
  | unreadableFile (path : Path)
  /-- The standard input is no text. -/
  | unreadableInput
  deriving Repr, DecidableEq

/-- What a user is told. -/
def Failure.message : Failure → String
  | .noCurrency => "未指定货币符号：请使用 --currency 或 --auto"
  | .currencyTable e => e.message
  | .geoTable e => e.message
  | .resolution e => e.message Online.IpError.message Online.GeoError.message
  | .unreadableFile p => "无法读取输入文件: " ++ p.quoted
  | .unreadableInput => "stream did not contain valid UTF-8"

/-- A source text with what is needed to transcribe it. -/
structure Job where
  policy : QuotePolicy
  currency : String
  source : String
  deriving Repr, DecidableEq

namespace Job

/-- Do the work. -/
def report (j : Job) : Report := transcribeDetailed j.policy j.source j.currency

end Job

/-- The policy of a run. -/
def Options.policy (o : Options) (s : Settings) : QuotePolicy :=
  if o.naive then .naive else s.quotePolicy

namespace Host

variable {m : Type → Type} [Monad m]

/-- The settings of the user; the defaults when they cannot be loaded. -/
def settings (h : Host m) : m Settings := do
  match h.settingsPath with
  | none => pure default
  | some p =>
    match Settings.ofReading p (← h.read p) with
    | .error _ => pure default
    | .ok s => pure s

/-- The currency table that the settings name. -/
def currencyTable (h : Host m) (s : Settings) : m (Except CurrencyTable.LoadError CurrencyTable) :=
  match s.currencyTable with
  | none => pure (.ok CurrencyTable.builtin)
  | some p => do return CurrencyTable.ofReading p (← h.read p)

/-- The resolver that the settings ask for. With a table of ranges it does not ask for a country
over the web. -/
def resolver (h : Host m) (s : Settings) :
    m (Except GeoTable.LoadError (Resolver m Online.IpError Online.GeoError)) :=
  match s.geoTable with
  | none => pure (.ok (Online.resolver h.web s.ipServiceUrl s.geoEndpoint))
  | some p => do
    return (GeoTable.ofReading p (← h.read p)).map
      (Online.resolverWithTable h.web s.ipServiceUrl)

/-- The currency of the caller's country. -/
def resolvedCurrency (h : Host m) (s : Settings) : m (Except Failure String) := do
  match ← h.currencyTable s with
  | .error e => pure (.error (.currencyTable e))
  | .ok table =>
    match ← h.resolver s with
    | .error e => pure (.error (.geoTable e))
    | .ok r => return (← r.currency table).mapError .resolution

/-- The currency that the environment or the settings name. -/
def configuredCurrency (h : Host m) (s : Settings) : Except Failure String :=
  match s.currency h.environment with
  | none => .error .noCurrency
  | some symbol => .ok symbol

/-- The currency of a run. One that the options give is taken as it is. -/
def currency (h : Host m) (o : Options) (s : Settings) : m (Except Failure String) :=
  match o.currency with
  | some symbol => pure (.ok symbol)
  | none => if o.auto then h.resolvedCurrency s else pure (h.configuredCurrency s)

/-- The source text of a run. -/
def source (h : Host m) (o : Options) : m (Except Failure String) := do
  match o.inputFile with
  | some p =>
    match (← h.read p).text? with
    | none => pure (.error (.unreadableFile p))
    | some text => pure (.ok text)
  | none =>
    match String.fromUTF8? (← h.readInput) with
    | none => pure (.error .unreadableInput)
    | some text => pure (.ok text)

/-- The job of a run. -/
def job (h : Host m) (o : Options) : m (Except Failure Job) := do
  let s ← h.settings
  match ← h.currency o s with
  | .error e => pure (.error e)
  | .ok symbol =>
    match ← h.source o with
    | .error e => pure (.error e)
    | .ok text => pure (.ok ⟨o.policy s, symbol, text⟩)

end Host

end Transcription.CommandLine
