import Transcription.Engine
import Transcription.FileTree
import Transcription.Web

/-!
# The surroundings of a run

A host gives a run what it needs from outside: files, the standard input, the web, a clock, the
place of the user's settings and the environment's currency. A scene is a host's unchanging part;
the host of a scene reads from it and leaves effects to the web alone.
-/

namespace Transcription.CommandLine

/-- What a run needs from outside, with the effects of `m`. -/
structure Host (m : Type → Type) where
  /-- The settings file of the user, if there is a place for one. -/
  settingsPath : Option Path
  /-- The value of the environment variable that names a currency. -/
  environment : Option ByteArray
  read : Path → m FileTree.Reading
  /-- Read the whole standard input. -/
  readInput : m ByteArray
  web : Web m
  /-- Make a report, and tell how many microseconds it took. -/
  measure : (Unit → Report) → m (Report × UInt64)

/-- Surroundings that stay as they are during a run. -/
structure Scene where
  files : FileTree
  input : ByteArray
  settingsPath : Option Path
  environment : Option ByteArray
  /-- The microseconds that making a report takes. -/
  elapsed : UInt64

/-- The host of a scene, with a web. -/
def Scene.host [Monad m] (s : Scene) (web : Web m) : Host m where
  settingsPath := s.settingsPath
  environment := s.environment
  read p := pure (s.files.read p)
  readInput := pure s.input
  web := web
  measure make := pure (make (), s.elapsed)

namespace Scene

variable {m : Type → Type} [Monad m] (s : Scene) (web : Web m)

@[simp] theorem settingsPath_host : (s.host web).settingsPath = s.settingsPath := rfl

@[simp] theorem environment_host : (s.host web).environment = s.environment := rfl

@[simp] theorem read_host (p : Path) : (s.host web).read p = pure (s.files.read p) := rfl

@[simp] theorem readInput_host : (s.host web).readInput = pure s.input := rfl

@[simp] theorem web_host : (s.host web).web = web := rfl

@[simp] theorem measure_host (make : Unit → Report) :
    (s.host web).measure make = pure (make (), s.elapsed) := rfl

end Scene

end Transcription.CommandLine
