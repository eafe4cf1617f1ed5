import Transcription.CommandLine.Job
import Transcription.Proofs.Online

/-!
# Watched runs

A watched host notes what it is asked for, in order: the files that are read, the standard input
and the requests. Its web may answer in any way, also depending on what was asked for before. What
the parts of a run find is then known from the scene, and what they ask for can be read off.
-/

namespace Transcription.CommandLine

/-- What a run asks its surroundings for. -/
inductive Event where
  | read (path : Path)
  | readInput
  | request (url : String)
  deriving Repr, DecidableEq

namespace Event

/-- The URL of a request. -/
def url? : Event → Option String
  | .request url => some url
  | _ => none

/-- The URLs that were requested. -/
def urls (events : List Event) : List String :=
  events.filterMap url?

/-- The reading of a file, if there is one to read. -/
def reads (p : Option Path) : List Event :=
  p.toList.map read

@[simp] theorem urls_nil : urls [] = [] := rfl

@[simp] theorem urls_append (a b : List Event) : urls (a ++ b) = urls a ++ urls b :=
  List.filterMap_append

@[simp] theorem urls_reads (p : Option Path) : urls (reads p) = [] := by
  cases p <;> rfl

@[simp] theorem urls_map_request (l : List String) : urls (l.map request) = l := by
  rw [urls, List.filterMap_map]
  exact List.filterMap_some

end Event

/-- What a web answers to a request for a URL after some events. -/
abbrev Answers := List Event → String → Except Web.Failure Web.Response

namespace Scene

open Event

/-- The host of a scene that notes what it is asked for. -/
def watched (s : Scene) (answers : Answers) : Host (StateM (List Event)) :=
  { s.host fun url => do
      let events ← get
      set (events ++ [.request url])
      return answers events url with
    read := fun p => do
      modify (· ++ [.read p])
      return s.files.read p
    readInput := do
      modify (· ++ [.readInput])
      return s.input }

/-- The settings that are loaded in a scene; the defaults when they cannot be. -/
def settings (s : Scene) : Settings :=
  (s.settingsPath.bind fun p => (Settings.load s.files p).toOption).getD default

/-- The currency table of a scene. -/
def currencyTable (s : Scene) : Except CurrencyTable.LoadError CurrencyTable :=
  CurrencyTable.load s.files s.settings.currencyTable

/-- The resolver of a watched scene. -/
def resolver (s : Scene) (answers : Answers) :
    Except GeoTable.LoadError (Resolver (StateM (List Event)) Online.IpError Online.GeoError) :=
  match s.settings.geoTable with
  | none =>
    .ok (Online.resolver (s.watched answers).web s.settings.ipServiceUrl s.settings.geoEndpoint)
  | some p =>
    (GeoTable.load s.files p).map
      (Online.resolverWithTable (s.watched answers).web s.settings.ipServiceUrl)

/-- What is read before a currency is resolved: the settings and the tables that they name. -/
def preparation (s : Scene) : List Event :=
  reads s.settingsPath ++ reads s.settings.currencyTable ++ reads s.settings.geoTable

/-- The source text of a run; none when it cannot be read as text. -/
def sourceText? (s : Scene) (o : Options) : Option String :=
  match o.inputFile with
  | some p => (s.files.read p).text?
  | none => String.fromUTF8? s.input

/-- What is read to have the source. -/
def sourceEvents (o : Options) : List Event :=
  match o.inputFile with
  | some p => [.read p]
  | none => [.readInput]

variable (s : Scene) (answers : Answers) (events : List Event)

theorem run_read (p : Path) :
    ((s.watched answers).read p).run events = (s.files.read p, events ++ [.read p]) := rfl

theorem run_readInput :
    (s.watched answers).readInput.run events = (s.input, events ++ [.readInput]) := rfl

theorem run_web (url : String) :
    ((s.watched answers).web url).run events =
      (answers events url, events ++ [.request url]) := rfl

theorem run_settings :
    (s.watched answers).settings.run events = (s.settings, events ++ reads s.settingsPath) := by
  have hpath : (s.watched answers).settingsPath = s.settingsPath := rfl
  rw [Host.settings, hpath, settings]
  cases s.settingsPath with
  | none =>
      show (default, events) = (default, events ++ [])
      rw [List.append_nil]
  | some p =>
      dsimp only
      rw [run_bind_of_run_eq (s.run_read answers events p), Option.bind_some, Settings.load]
      cases Settings.ofReading p (s.files.read p) <;> rfl

theorem run_currencyTable :
    ((s.watched answers).currencyTable s.settings).run events =
      (s.currencyTable, events ++ reads s.settings.currencyTable) := by
  rw [Host.currencyTable, currencyTable]
  cases s.settings.currencyTable with
  | none =>
      show (Except.ok CurrencyTable.builtin, events) =
        (Except.ok CurrencyTable.builtin, events ++ [])
      rw [List.append_nil]
  | some p => exact run_bind_of_run_eq (s.run_read answers events p)

theorem run_resolver :
    ((s.watched answers).resolver s.settings).run events =
      (s.resolver answers, events ++ reads s.settings.geoTable) := by
  rw [Host.resolver, resolver]
  cases s.settings.geoTable with
  | none =>
      show (_, events) = (_, events ++ [])
      rw [List.append_nil]
  | some p => exact run_bind_of_run_eq (s.run_read answers events p)

theorem run_source (o : Options) : ∃ text, ((s.watched answers).source o).run events =
    (text, events ++ sourceEvents o) ∧ text.toOption = s.sourceText? o := by
  rw [Host.source, sourceText?, sourceEvents]
  cases o.inputFile with
  | some p =>
      dsimp only
      rw [run_bind_of_run_eq (s.run_read answers events p)]
      cases (s.files.read p).text? with
      | none => exact ⟨_, rfl, rfl⟩
      | some text => exact ⟨_, rfl, rfl⟩
  | none =>
      dsimp only
      rw [run_bind_of_run_eq (s.run_readInput answers events)]
      cases String.fromUTF8? s.input with
      | none => exact ⟨_, rfl, rfl⟩
      | some text => exact ⟨_, rfl, rfl⟩

/-- A resolution asks for the public address first, and it asks for nothing else when there is a
table of ranges. -/
theorem exists_urls_currency {r : Resolver (StateM (List Event)) Online.IpError Online.GeoError}
    (hr : s.resolver answers = .ok r) (table : CurrencyTable) :
    ∃ urls, ((r.currency table).run events).2 =
        events ++ (s.settings.ipServiceUrl :: urls).map .request ∧
      (s.settings.geoTable ≠ none → urls = []) := by
  have hip := s.run_web answers events s.settings.ipServiceUrl
  rw [resolver] at hr
  cases hgeo : s.settings.geoTable with
  | none =>
      rw [hgeo] at hr
      obtain rfl := Except.ok.inj hr
      rw [(Online.givesAnswers_resolver hip fun a _ => s.run_web answers _ _).run_currency]
      obtain h | ⟨a, -, h⟩ := Resolver.finalState_eq
        (Online.addressOf (answers events s.settings.ipServiceUrl)) _ _
      · exact ⟨[], h, fun h => absurd rfl h⟩
      · refine ⟨[Online.geoUrl s.settings.geoEndpoint a], ?_, fun h => absurd rfl h⟩
        rw [h, List.append_assoc]
        rfl
  | some p =>
      rw [hgeo] at hr
      obtain ⟨ranges, -, rfl⟩ := Except.map_eq_ok_iff.mp hr
      rw [(Online.givesAnswers_resolverWithTable hip ranges).run_currency]
      refine ⟨[], ?_, fun _ => rfl⟩
      obtain h | ⟨a, -, h⟩ := Resolver.finalState_eq
        (Online.addressOf (answers events s.settings.ipServiceUrl)) _ _
      · exact h
      · exact h

end Scene

end Transcription.CommandLine
