import Transcription.CommandLine.Run
import Transcription.Proofs.CommandLine.Arguments
import Transcription.Proofs.CommandLine.Watched
import Transcription.Proofs.Settings.RoundTrip

/-!
# The contract of the command

A run succeeds when a currency is determined and the source can be read, and only a run that
succeeds writes anything. The currency comes from the options, from a resolution or from the
configuration, and one of these is never a fallback for a resolution that fails. Requests are made
by a resolution only, and not before everything that it needs has been read and understood.
-/

namespace Transcription

namespace Settings

theorem symbol?_eq_some_iff {text symbol : String} :
    symbol? text = some symbol ↔ Text.isBlankString text = false ∧ symbol = Text.trim text := by
  rw [symbol?]
  cases Text.isBlankString text <;> simp [eq_comm]

theorem symbol?_eq_none_iff {text : String} :
    symbol? text = none ↔ Text.isBlankString text = true := by
  rw [symbol?]
  cases Text.isBlankString text <;> simp

/-- The currency that is picked is the trimmed one of the environment if it is not blank, else the
trimmed configured one if it is not blank. -/
theorem pickCurrency_eq_some_iff {environment configured : Option String} {symbol : String} :
    pickCurrency environment configured = some symbol ↔
      (∃ text, environment = some text ∧ Text.isBlankString text = false ∧
        symbol = Text.trim text) ∨
      (∀ text, environment = some text → Text.isBlankString text = true) ∧
        ∃ text, configured = some text ∧ Text.isBlankString text = false ∧
          symbol = Text.trim text := by
  simp only [pickCurrency, Option.or_eq_some_iff, Option.bind_eq_some_iff,
    Option.bind_eq_none_iff, symbol?_eq_some_iff, symbol?_eq_none_iff]

end Settings

namespace CommandLine

open Event

namespace Scene

/-- A resolution gives a symbol: the tables are loaded, and what they and the web answer leads to
the symbol. -/
def IsResolved (s : Scene) (answers : Answers) (symbol : String) : Prop :=
  ∃ table r, s.currencyTable = .ok table ∧ s.resolver answers = .ok r ∧
    ((r.currency table).run s.preparation).1 = .ok symbol

/-- The tables that the settings name can be loaded. -/
def HasTables (s : Scene) : Prop :=
  (∃ table, s.currencyTable = .ok table) ∧
    ∀ p, s.settings.geoTable = some p → ∃ ranges, GeoTable.load s.files p = .ok ranges

/-- What determines the currency of a run. -/
inductive Determines (s : Scene) (answers : Answers) (o : Options) : String → Prop where
  /-- A currency that is given is taken as it is. -/
  | given {symbol : String} (h : o.currency = some symbol) : Determines s answers o symbol
  /-- Where it is to be resolved, nothing but the resolution counts. -/
  | resolved {symbol : String} (h : o.currency = none) (hauto : o.auto = true)
    (hsymbol : s.IsResolved answers symbol) : Determines s answers o symbol
  /-- The environment names it by text that is not blank. -/
  | environment {text : String} (h : o.currency = none) (hauto : o.auto = false)
    (htext : s.environment.bind String.fromUTF8? = some text)
    (hblank : Text.isBlankString text = false) : Determines s answers o (Text.trim text)
  /-- The environment does not name it and the settings do. -/
  | configured {text : String} (h : o.currency = none) (hauto : o.auto = false)
    (henvironment : ∀ other, s.environment.bind String.fromUTF8? = some other →
      Text.isBlankString other = true)
    (htext : s.settings.defaultCurrency = some text) (hblank : Text.isBlankString text = false) :
    Determines s answers o (Text.trim text)

variable {s : Scene} {answers : Answers} {o : Options} {symbol : String}

theorem hasTables_of_resolver {table : CurrencyTable}
    {r : Resolver (StateM (List Event)) Online.IpError Online.GeoError}
    (htable : s.currencyTable = .ok table) (hr : s.resolver answers = .ok r) : s.HasTables := by
  refine ⟨⟨table, htable⟩, fun p hp => ?_⟩
  rw [resolver, hp] at hr
  obtain ⟨ranges, hranges, -⟩ := Except.map_eq_ok_iff.mp hr
  exact ⟨ranges, hranges⟩

/-- A resolution is carried out with the tables, or it ends without a request. -/
theorem run_resolvedCurrency_cases (s : Scene) (answers : Answers) :
    (∃ table r, s.currencyTable = .ok table ∧ s.resolver answers = .ok r ∧
      ((s.watched answers).resolvedCurrency s.settings).run (reads s.settingsPath) =
        (((r.currency table).run s.preparation).1.mapError .resolution,
          ((r.currency table).run s.preparation).2)) ∨
    ∃ f events, ((s.watched answers).resolvedCurrency s.settings).run (reads s.settingsPath) =
      (.error f, events) ∧ urls events = [] ∧ ∀ symbol, ¬ s.IsResolved answers symbol := by
  rw [Host.resolvedCurrency, run_bind_of_run_eq (s.run_currencyTable answers _)]
  cases htable : s.currencyTable with
  | error e =>
      refine .inr ⟨.currencyTable e, _, rfl, by simp, ?_⟩
      rintro symbol ⟨_, _, h, -⟩
      cases htable.symm.trans h
  | ok table =>
      dsimp only
      rw [run_bind_of_run_eq (s.run_resolver answers _)]
      cases hr : s.resolver answers with
      | error e =>
          refine .inr ⟨.geoTable e, _, rfl, by simp, ?_⟩
          rintro symbol ⟨_, _, -, h, -⟩
          cases hr.symm.trans h
      | ok r => exact .inl ⟨table, r, rfl, rfl, rfl⟩

theorem resolvedCurrency_eq_ok_iff :
    (((s.watched answers).resolvedCurrency s.settings).run (reads s.settingsPath)).1 = .ok symbol ↔
      s.IsResolved answers symbol := by
  obtain ⟨table, r, htable, hr, hrun⟩ | ⟨f, events, hrun, -, hnone⟩ :=
    run_resolvedCurrency_cases s answers
  · rw [hrun, Except.mapError_eq_ok_iff]
    constructor
    · intro h
      exact ⟨table, r, htable, hr, h⟩
    · rintro ⟨other, q, hother, hq, h⟩
      obtain rfl := Except.ok.inj (htable.symm.trans hother)
      obtain rfl := Except.ok.inj (hr.symm.trans hq)
      exact h
  · rw [hrun]
    constructor
    · intro h
      cases h
    · intro h
      exact absurd h (hnone symbol)

/-- A resolution makes its requests in one go, after everything that it needs has been read. -/
theorem resolvedCurrency_events (s : Scene) (answers : Answers) :
    let events :=
      (((s.watched answers).resolvedCurrency s.settings).run (reads s.settingsPath)).2
    urls events = [] ∨ s.HasTables ∧ ∃ l, events = s.preparation ++ l.map .request ∧
      (s.settings.geoTable ≠ none → l = [s.settings.ipServiceUrl]) := by
  intro events
  obtain ⟨table, r, htable, hr, hrun⟩ | ⟨f, before, hrun, hbefore, -⟩ :=
    run_resolvedCurrency_cases s answers
  · obtain ⟨l, hl, hgeo⟩ := s.exists_urls_currency answers s.preparation hr table
    refine .inr ⟨hasTables_of_resolver htable hr, s.settings.ipServiceUrl :: l, ?_, ?_⟩
    · rw [← hl]
      exact congrArg Prod.snd hrun
    · intro h
      rw [hgeo h]
  · left
    rw [show events = before from congrArg Prod.snd hrun]
    exact hbefore

/-- Without a resolution the configuration names the currency. -/
theorem configuredCurrency_eq_ok_iff (h : o.currency = none) (hauto : o.auto = false) :
    (s.watched answers).configuredCurrency s.settings = .ok symbol ↔
      s.Determines answers o symbol := by
  have hconfigured : (s.watched answers).configuredCurrency s.settings = .ok symbol ↔
      s.settings.currency s.environment = some symbol := by
    have henvironment : (s.watched answers).environment = s.environment := rfl
    rw [Host.configuredCurrency, henvironment]
    cases s.settings.currency s.environment <;> simp
  rw [hconfigured, Settings.currency, Settings.pickCurrency_eq_some_iff]
  constructor
  · rintro (⟨text, htext, hblank, rfl⟩ | ⟨henvironment, text, htext, hblank, rfl⟩)
    · exact .environment h hauto htext hblank
    · exact .configured h hauto henvironment htext hblank
  · intro hdetermines
    cases hdetermines with
    | given hgiven => cases h.symm.trans hgiven
    | resolved _ htrue _ => cases hauto.symm.trans htrue
    | environment _ _ htext hblank => exact .inl ⟨_, htext, hblank, rfl⟩
    | configured _ _ henvironment htext hblank =>
        exact .inr ⟨henvironment, _, htext, hblank, rfl⟩

theorem currency_eq_ok_iff :
    (((s.watched answers).currency o s.settings).run (reads s.settingsPath)).1 = .ok symbol ↔
      s.Determines answers o symbol := by
  rw [Host.currency]
  cases h : o.currency with
  | some given =>
      constructor
      · intro hgiven
        obtain rfl : given = symbol := Except.ok.inj hgiven
        exact .given h
      · intro hdetermines
        cases hdetermines with
        | given hgiven => exact congrArg Except.ok (Option.some.inj (h.symm.trans hgiven))
        | resolved hnone _ _ => cases h.symm.trans hnone
        | environment hnone _ _ _ => cases h.symm.trans hnone
        | configured hnone _ _ _ _ => cases h.symm.trans hnone
  | none =>
      dsimp only
      cases hauto : o.auto with
      | true =>
          rw [if_pos rfl, resolvedCurrency_eq_ok_iff]
          constructor
          · intro hsymbol
            exact .resolved h hauto hsymbol
          · intro hdetermines
            cases hdetermines with
            | given hgiven => cases h.symm.trans hgiven
            | resolved _ _ hsymbol => exact hsymbol
            | environment _ hfalse _ _ => cases hauto.symm.trans hfalse
            | configured _ hfalse _ _ _ => cases hauto.symm.trans hfalse
      | false =>
          rw [if_neg Bool.false_ne_true]
          exact configuredCurrency_eq_ok_iff h hauto

/-- Requests are made for a currency that is to be resolved, and only with all tables at hand. -/
theorem currency_events (s : Scene) (answers : Answers) (o : Options) :
    let events := (((s.watched answers).currency o s.settings).run (reads s.settingsPath)).2
    urls events = [] ∨ o.auto = true ∧ s.HasTables ∧
      ∃ l, events = s.preparation ++ l.map .request ∧
        (s.settings.geoTable ≠ none → l = [s.settings.ipServiceUrl]) := by
  dsimp only
  rw [Host.currency]
  cases o.currency with
  | some given => exact .inl (urls_reads s.settingsPath)
  | none =>
      cases hauto : o.auto with
      | true =>
          obtain hnone | hsome := s.resolvedCurrency_events answers
          · exact .inl hnone
          · exact .inr ⟨rfl, hsome⟩
      | false => exact .inl (urls_reads s.settingsPath)

/-! ### Runs -/

theorem urls_preparation (s : Scene) : urls s.preparation = [] := by
  simp [preparation]

theorem urls_sourceEvents (o : Options) : urls (sourceEvents o) = [] := by
  rw [sourceEvents]
  cases o.inputFile <;> rfl

section Job

variable {events : List Event}

/-- Without a currency there is no job, and the source is not read. -/
theorem run_job_of_error {f : Failure}
    (h : ((s.watched answers).currency o s.settings).run (reads s.settingsPath) =
      (.error f, events)) :
    ((s.watched answers).job o).run [] = (.error f, events) := by
  rw [Host.job, run_bind_of_run_eq (s.run_settings answers []), List.nil_append,
    run_bind_of_run_eq h]
  rfl

/-- With a currency it depends on the source whether there is a job. -/
theorem run_job_of_ok (h : ((s.watched answers).currency o s.settings).run (reads s.settingsPath) =
      (.ok symbol, events)) :
    ∃ source : Except Failure String, ((s.watched answers).job o).run [] =
        (source.map fun text => ⟨o.policy s.settings, symbol, text⟩, events ++ sourceEvents o) ∧
      source.toOption = s.sourceText? o := by
  obtain ⟨source, hsource, htext⟩ := s.run_source answers events o
  refine ⟨source, ?_, htext⟩
  rw [Host.job, run_bind_of_run_eq (s.run_settings answers []), List.nil_append,
    run_bind_of_run_eq h]
  dsimp only
  rw [run_bind_of_run_eq hsource]
  cases source <;> rfl

end Job

/-- A run has a job when a currency is determined and the source can be read, and after the currency
has been determined it makes no request. -/
theorem run_job (s : Scene) (answers : Answers) (o : Options) :
    ∃ job rest, ((s.watched answers).job o).run [] = (job,
        (((s.watched answers).currency o s.settings).run (reads s.settingsPath)).2 ++ rest) ∧
      urls rest = [] ∧
      ∀ j, job = .ok j ↔ ∃ symbol text, s.Determines answers o symbol ∧
        s.sourceText? o = some text ∧ j = ⟨o.policy s.settings, symbol, text⟩ := by
  simp only [← currency_eq_ok_iff]
  cases hrun : ((s.watched answers).currency o s.settings).run (reads s.settingsPath) with
  | mk currency events =>
      cases currency with
      | error f =>
          refine ⟨.error f, [], ?_, rfl, fun j => ?_⟩
          · rw [run_job_of_error hrun, List.append_nil]
          · simp
      | ok given =>
          obtain ⟨source, hjob, htext⟩ := run_job_of_ok hrun
          refine ⟨_, _, hjob, urls_sourceEvents o, fun j => ?_⟩
          rw [Except.map_eq_ok_iff, ← htext]
          constructor
          · rintro ⟨text, rfl, rfl⟩
            exact ⟨given, text, rfl, rfl, rfl⟩
          · rintro ⟨symbol, text, hsymbol, hsource, rfl⟩
            obtain rfl : given = symbol := Except.ok.inj hsymbol
            refine ⟨text, ?_, rfl⟩
            cases source with
            | error f => cases hsource
            | ok other => exact congrArg Except.ok (Option.some.inj hsource)

/-- How a run in a scene ends, from its job or the reason why there is none. -/
def ending (s : Scene) (o : Options) : Except Failure Job → Ending
  | .error f => .failed f
  | .ok j => .printed (o.rendering (j.timed j.report s.elapsed))

/-- A job is carried out, and nothing is asked for any more. -/
theorem run_carryOut {job : Except Failure Job} {events : List Event}
    (h : ((s.watched answers).job o).run [] = (job, events)) :
    ((s.watched answers).carryOut o).run [] = (s.ending o job, events) := by
  rw [Host.carryOut, run_bind_of_run_eq h]
  cases job <;> rfl

theorem text_timed (j : Job) (r : Report) (elapsed : UInt64) :
    (j.timed r elapsed).text = r.text := by
  rw [Job.timed]
  split <;> rfl

/-- A source whose only quotes are escaped. -/
def escapedSource : String := "use \\\"use\\\""

/-- A scene with a source and nothing else. -/
def bare : Scene where
  files := .empty
  input := escapedSource.toUTF8
  settingsPath := none
  environment := none
  elapsed := 0

/-- The first request is answered by an address and every other one by a country. -/
def japaneseAnswers : Answers := fun events _ =>
  if urls events = [] then .ok ⟨200, Json.compact Online.addressReply⟩
  else .ok ⟨200, Json.compact Online.countryReply⟩

theorem determines_bare : bare.Determines japaneseAnswers ⟨none, true, true, false, none⟩ "¥" := by
  have hip : ((bare.watched japaneseAnswers).web bare.settings.ipServiceUrl).run bare.preparation =
      (.ok ⟨200, Json.compact Online.addressReply⟩,
        bare.preparation ++ [.request bare.settings.ipServiceUrl]) := rfl
  have hgeo : ∀ url, ((bare.watched japaneseAnswers).web url).run
      (bare.preparation ++ [.request bare.settings.ipServiceUrl]) =
        (.ok ⟨200, Json.compact Online.countryReply⟩,
          bare.preparation ++ [.request bare.settings.ipServiceUrl] ++ [.request url]) :=
    fun _ => rfl
  have hrecord : CurrencyTable.builtin.IsFirstOf "JP" ⟨"JP", "¥", "ja"⟩ :=
    CurrencyTable.find?_eq_some_iff.mp (by decide)
  refine .resolved rfl rfl ⟨CurrencyTable.builtin, _, rfl, rfl, ?_⟩
  rw [(Online.givesAnswers_resolver hip fun a _ => hgeo _).run_currency]
  refine Resolver.currency_eq_ok_iff.mpr ⟨_, ⟨"JP", Online.leadsTo_iff.mpr ?_, hrecord⟩, rfl⟩
  exact ⟨⟨_, Online.gives_addressReply_iff.mpr rfl⟩, _, _, Online.shows_countryReply,
    Online.isNamedIn_countryReply, Online.toUpper_trim_jp.symm⟩

/-- A scene whose environment names a currency. -/
def priced : Scene where
  files := .empty
  input := "catch \x7b\x7d € ".toUTF8
  settingsPath := none
  environment := some "$".toUTF8
  elapsed := 0

end Scene

end CommandLine

end Transcription
