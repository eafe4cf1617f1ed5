import Transcription.Proofs.CommandLine.Contract
import Transcription.Proofs.CommandLine.Flag
import Transcription.Proofs.Engine.Accounting
import Transcription.Proofs.Persistence

/-!
# The text and the report

Two runs whose arguments differ in the flag for a report alone have the same job or fail for the
same reason, since the flag is looked at only when a report is printed. What they print agrees: the
text of the report, once the document is read back, is what the other run prints as it is. Reading
back needs every number of the report to have 64 bits, and the numbers are bounded by the size of
the source.
-/

namespace Transcription

/-- The largest number of bytes that a text can have. -/
def maxTextSize : Nat := 9223372036854775807

/-- The numbers of a report on a text have 64 bits. -/
theorem isStorable_transcribeDetailed (policy : QuotePolicy) {code : String}
    (h : code.utf8ByteSize ≤ maxTextSize) (currency : String) :
    (transcribeDetailed policy code currency).IsStorable := by
  have happlied := (applied_transcribeDetailed_sublist policy code currency).2
  have hplaceholders := currencyPlaceholders_le policy code currency
  have helapsed : (transcribeDetailed policy code currency).elapsedMicros = 0 := by
    rw [transcribeDetailed]
    split <;> rfl
  rw [maxTextSize] at h
  refine ⟨fun hit hmem => ?_, ?_, ?_⟩
  · have hcount := (happlied hit hmem).2
    rw [RuleHit.IsStorable, Json.Numeral.maxNatural]
    omega
  · rw [Json.Numeral.maxNatural]
    omega
  · rw [helapsed]
    exact Nat.zero_le _

namespace CommandLine

open Json

/-- Timing a report changes its time alone, to one that has 64 bits. -/
theorem exists_timed_eq (j : Job) {r : Report} (h : r.elapsedMicros ≤ Numeral.maxNatural)
    (elapsed : UInt64) :
    ∃ n ≤ Numeral.maxNatural, j.timed r elapsed = { r with elapsedMicros := n } := by
  rw [Job.timed]
  split
  · exact ⟨r.elapsedMicros, h, rfl⟩
  · refine ⟨elapsed.toNat, ?_, rfl⟩
    have := elapsed.toNat_lt
    rw [Numeral.maxNatural]
    omega

namespace Scene

variable {s : Scene} {answers : Answers} {o : Options} {args : List String}

/-- The job of a run with some options, or the reason why there is none. -/
def job (s : Scene) (answers : Answers) (o : Options) : Except Failure Job :=
  (((s.watched answers).job o).run []).1

theorem job_eq_ok_iff {j : Job} :
    s.job answers o = .ok j ↔ ∃ symbol text, s.Determines answers o symbol ∧
      s.sourceText? o = some text ∧ j = ⟨o.policy s.settings, symbol, text⟩ := by
  obtain ⟨job, rest, hrun, -, hok⟩ := run_job s answers o
  rw [Scene.job, hrun]
  exact hok j

/-- A run ends as its job says, whether a report is asked for or not and however long it takes. -/
theorem run_of_request {b : Bool} (h : request args = .run (o.withDetailed b)) (elapsed : UInt64) :
    let timed := { s with elapsed := elapsed }
    (((timed.watched answers).run args).run []).1 =
      timed.ending (o.withDetailed b) (s.job answers o) := by
  intro timed
  have hjob : ((timed.watched answers).job (o.withDetailed b)).run [] =
      ((s.watched answers).job o).run [] := rfl
  rw [Host.run, h]
  exact congrArg Prod.fst (run_carryOut hjob)

/-- What is printed agrees for a run that prints a text and one that prints a report on it: the
report is a document on lines of its own, and it is read back from there. It has the text that the
other run prints, it says whether this is another text than the source, and it lists hits of rules
of the book, in its order, which all count something. -/
structure Agrees (source plain detailed : String) (report : Report) : Prop where
  printed : detailed = encodePretty report ++ "\n"
  decoded : decode? Report (encodePretty report) = some report
  text : report.text = plain
  changed : report.changed = true ↔ plain ≠ source
  counted : ∀ hit ∈ report.applied, 0 < hit.count
  ordered : (report.applied.map RuleHit.keyword).Sublist (rulebook.map Rule.keyword)

/-- The report on a job agrees with its text. -/
theorem agrees_of_job {j : Job} (hsize : j.source.utf8ByteSize ≤ maxTextSize) (elapsed : UInt64) :
    let report := j.timed j.report elapsed
    Agrees j.source j.report.text (encodePretty report ++ "\n") report := by
  intro report
  obtain ⟨hhits, hplaceholders, helapsed⟩ :=
    isStorable_transcribeDetailed j.policy hsize j.currency
  obtain ⟨hordered, hcounted⟩ := applied_transcribeDetailed_sublist j.policy j.source j.currency
  obtain ⟨n, hn, htimed⟩ := exists_timed_eq j helapsed elapsed
  have hreport : report = { j.report with elapsedMicros := n } := htimed
  rw [hreport]
  exact {
    printed := rfl
    decoded := Report.isLawful.decode?_encodePretty ⟨hhits, hplaceholders, hn⟩
    text := rfl
    changed := changed_iff_text_ne j.policy j.source j.currency
    counted := fun hit hmem => (hcounted hit hmem).1
    ordered := hordered }

theorem exitCode_ending_ok (s : Scene) (o : Options) (j : Job) :
    (s.ending o (.ok j)).exitCode = 0 := rfl

theorem exitCode_ending_error (s : Scene) (o : Options) (f : Failure) :
    (s.ending o (.error f)).exitCode = 1 := rfl

theorem output_ending_plain (s : Scene) (o : Options) (j : Job) :
    (s.ending (o.withDetailed false) (.ok j)).output = j.report.text :=
  text_timed j j.report s.elapsed

theorem output_ending_detailed (s : Scene) (o : Options) (j : Job) :
    (s.ending (o.withDetailed true) (.ok j)).output =
      encodePretty (j.timed j.report s.elapsed) ++ "\n" := rfl

/-- Of two runs that differ in the flag for a report alone, and in the time that they take, both
succeed or both fail. Where they are to transcribe and succeed, what the one prints and the report
that the other prints agree. Runs that are asked for the version or for help, or whose arguments are
refused, end in the same way with the flag and without it. -/
theorem runs_agree (s : Scene) (answers : Answers) (elapsed : UInt64) {r : Request}
    {plain detailed : List String} (hplain : request plain = r.withDetailed false)
    (hdetailed : request detailed = r.withDetailed true)
    (hsize : ∀ o text, r = .run o → s.sourceText? o = some text →
      text.utf8ByteSize ≤ maxTextSize) :
    let plainEnding := ((({ s with elapsed := elapsed }.watched answers).run plain).run []).1
    let detailedEnding := (((s.watched answers).run detailed).run []).1
    (plainEnding.exitCode = 0 ↔ detailedEnding.exitCode = 0) ∧
    (∀ o, r = .run o → detailedEnding.exitCode = 0 → ∃ source report,
      s.sourceText? o = some source ∧
        Agrees source plainEnding.output detailedEnding.output report) ∧
    ((∀ o, r ≠ .run o) → plainEnding = detailedEnding) := by
  intro plainEnding detailedEnding
  by_cases hrun : ∃ o, r = .run o
  · obtain ⟨o, rfl⟩ := hrun
    have hp : plainEnding = Scene.ending _ _ _ := run_of_request hplain elapsed
    have hd : detailedEnding = s.ending _ _ := run_of_request hdetailed s.elapsed
    rw [hp, hd]
    refine ⟨?success, ?printed, fun hnone => absurd rfl (hnone o)⟩
    case success =>
      cases s.job answers o with
      | error f => rw [exitCode_ending_error, exitCode_ending_error]
      | ok j => rw [exitCode_ending_ok, exitCode_ending_ok]
    case printed =>
      intro _ heq hcode
      cases heq
      cases hjob : s.job answers o with
      | error f =>
          rw [hjob, exitCode_ending_error] at hcode
          exact absurd hcode (by decide)
      | ok j =>
          obtain ⟨symbol, text, -, htext, rfl⟩ := job_eq_ok_iff.mp hjob
          have hagrees := agrees_of_job (j := ⟨o.policy s.settings, symbol, text⟩)
            (hsize o text rfl htext) s.elapsed
          rw [output_ending_plain, output_ending_detailed]
          exact ⟨text, _, htext, hagrees⟩
  · -- the flag has been given to no run, so both requests are the same
    have hsame : plainEnding = detailedEnding := by
      dsimp only [plainEnding, detailedEnding]
      rw [Host.run, Host.run, hplain, hdetailed]
      cases r with
      | run o => exact absurd ⟨o, rfl⟩ hrun
      | version | help | misused => rfl
    rw [hsame]
    exact ⟨Iff.rfl, fun o ho => absurd ⟨o, ho⟩ hrun, fun _ => rfl⟩

/-- A currency with a text and a currency with a report, where the source can be read. -/
theorem runs_agree_bare :
    let ending := fun args => (((bare.watched japaneseAnswers).run args).run []).1
    (ending ["--naive", "--detailed", "-c", "€"]).exitCode = 0 ∧
      ∃ report, Agrees escapedSource (ending ["--naive", "-c", "€"]).output
        (ending ["--naive", "--detailed", "-c", "€"]).output report := by
  intro ending
  have hrequest : request ["--naive", "-c", "€"] =
      .run ⟨some "€", false, true, false, none⟩ := by
    decide
  have hreads : Options.none.Reads ["--naive"] ⟨none, false, true, false, none⟩ :=
    .option rfl (.nil _)
  obtain ⟨hplain, hdetailed⟩ :=
    @request_insert_detailedFlag ["--naive"] ["-c", "€"] _ hreads (by decide)
  have htext : bare.sourceText? ⟨some "€", false, true, false, none⟩ = some escapedSource :=
    fromUTF8?_toUTF8 escapedSource
  have hsize : ∀ o text, request ["--naive", "-c", "€"] = .run o → bare.sourceText? o = some text →
      text.utf8ByteSize ≤ maxTextSize := by
    intro o text ho hsource
    cases hrequest.symm.trans ho
    cases htext.symm.trans hsource
    decide
  obtain ⟨hcodes, hprinted, -⟩ :=
    runs_agree bare japaneseAnswers bare.elapsed hplain hdetailed hsize
  have hcode : (ending ["--naive", "--detailed", "-c", "€"]).exitCode = 0 := by
    have hsymbol : bare.Determines japaneseAnswers ⟨some "€", false, true, false, none⟩ "€" :=
      .given rfl
    have hjob := job_eq_ok_iff.mpr ⟨"€", escapedSource, hsymbol, htext, rfl⟩
    have hending := @run_of_request bare japaneseAnswers _ _ _
      (hdetailed.trans (congrArg (fun r => r.withDetailed true) hrequest)) bare.elapsed
    rw [hjob] at hending
    exact (congrArg Ending.exitCode hending).trans (exitCode_ending_ok _ _ _)
  obtain ⟨source, report, hsource, hagrees⟩ := hprinted _ hrequest hcode
  cases htext.symm.trans hsource
  exact ⟨hcode, report, hagrees⟩

end Scene

end CommandLine

end Transcription
