import Transcription.CommandLine.Run

/-!
# The command

The host of the command reads the files of the machine it runs on. It has no client for the web,
so that every request fails and a run that resolves its currency says so.
-/

namespace Transcription.CommandLine

/-- Read a file of this machine. A path that leads through a file leads nowhere. -/
def readFile (p : Path) : IO FileTree.Reading := do
  try
    return .content (← IO.FS.readBinFile p.text)
  catch
    | .noFileOrDirectory .. => return .missing
    | .inappropriateType _ 20 _ => return .missing
    | _ => return .refused

/-- Make a report and time it. -/
def measureReport (make : Unit → Report) : IO (Report × UInt64) := do
  let start ← IO.monoNanosNow
  let r ← IO.lazyPure make
  let stop ← IO.monoNanosNow
  return (r, UInt64.ofNat ((stop - start) / 1000))

/-- The directory for a user's configuration: the one that the environment names by an absolute
path, else the usual one below the home directory. -/
def configurationDirectory (configured home : Option String) : Option Path :=
  match configured.filter (·.startsWith "/") with
  | some dir => some ⟨dir⟩
  | none => (home.filter (!·.isEmpty)).map fun dir => Path.join ⟨dir⟩ ⟨".config"⟩

/-- The host of this machine. -/
def machine : IO (Host IO) := do
  let directory := configurationDirectory (← IO.getEnv "XDG_CONFIG_HOME") (← IO.getEnv "HOME")
  let currency ← IO.getEnv "POKESCRIPT_CURRENCY"
  return {
    settingsPath := directory.map Settings.defaultPath
    environment := currency.map String.toUTF8
    read := readFile
    readInput := do (← IO.getStdin).readBinToEnd
    web := Web.unreachable
    measure := measureReport }

/-- Tell the user what is not part of the output. -/
def complain : Ending → IO Unit
  | .failed f => IO.eprintln ("Error: " ++ f.message)
  | .misused => IO.eprint usage
  | _ => pure ()

end Transcription.CommandLine

/-- Run the command, print what it says and leave with its exit code. -/
def main (args : List String) : IO UInt32 := do
  let host ← Transcription.CommandLine.machine
  let ending ← host.run args
  IO.print ending.output
  Transcription.CommandLine.complain ending
  return ending.exitCode.toUInt32
