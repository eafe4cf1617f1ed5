import Transcription.CommandLine.Job

/-!
# Runs of the command

A run ends in one of four ways: it prints a text, it fails, it refuses the arguments, or it shows
how the command is used. The text is that of the transcription or, for a detailed run, its report
as JSON on lines of its own. Each way has its exit code, and only a run that succeeds writes to
the standard output.
-/

namespace Transcription.CommandLine

/-- How a run ends. -/
inductive Ending where
  | printed (output : String)
  | failed (failure : Failure)
  | misused
  | helped
  deriving Repr, DecidableEq

/-- The name of the command with its version. -/
def version : String := "pokescript 0.1.0"

/-- How the command is used. The descriptions are those of the arguments; the layout and the words
around them are chosen here, and nothing else looks at them. -/
def usage : String :=
  "Usage: pokescript [OPTIONS] [FILE]\n" ++
  "\n" ++
  "Arguments:\n" ++
  "  [FILE]  输入文件，省略或为 `-` 时读取标准输入\n" ++
  "\n" ++
  "Options:\n" ++
  "  -c, --currency <SYMBOL>  货币符号（如 €、$、zł）\n" ++
  "      --auto               根据公网 IP 自动解析货币符号\n" ++
  "      --naive              使用朴素引号计数（不识别 \\\"）\n" ++
  "      --detailed           输出 JSON 格式的详细结果\n" ++
  "  -h, --help               Print help\n" ++
  "  -V, --version            Print version\n"

namespace Ending

/-- What is written to the standard output. -/
def output : Ending → String
  | .printed s => s
  | .helped => usage
  | .failed _ | .misused => ""

/-- The exit code. -/
def exitCode : Ending → UInt8
  | .printed _ | .helped => 0
  | .failed _ => 1
  | .misused => 2

/-- The first line of what a user is told about a failure. -/
def errorLine? : Ending → Option String
  | .failed f => some (String.ofList (f.message.toList.takeWhile (· != '\n')))
  | _ => none

end Ending

/-- The report of a job with the time that it took. Nothing is measured for an empty source. -/
def Job.timed (j : Job) (r : Report) (elapsed : UInt64) : Report :=
  if j.source.isEmpty then r else { r with elapsedMicros := elapsed.toNat }

/-- What a run prints for a report. -/
def Options.rendering (o : Options) (r : Report) : String :=
  if o.detailed then Json.pretty (Json.toJson r) ++ "\n" else r.text

namespace Host

variable {m : Type → Type} [Monad m]

/-- Carry out a run with some options. -/
def carryOut (h : Host m) (o : Options) : m Ending := do
  match ← h.job o with
  | .error f => pure (.failed f)
  | .ok j =>
    let (r, elapsed) ← h.measure fun _ => j.report
    pure (.printed (o.rendering (j.timed r elapsed)))

/-- Run the command with some arguments. -/
def run (h : Host m) (args : List String) : m Ending :=
  match request args with
  | .run o => h.carryOut o
  | .version => pure (.printed (version ++ "\n"))
  | .help => pure .helped
  | .misused => pure .misused

end Host

end Transcription.CommandLine
