import Transcription.FileTree
import Transcription.Json.Document
import Transcription.Settings

/-!
# The settings file

Settings are loaded from a file that holds a JSON document; a missing file stands for the
defaults. They are saved in three steps: the directories around the file are made, the whole text
is written to a temporary file beside it, and the temporary file is renamed over it, so that a
reader never finds half a text.
-/

namespace Transcription.Settings

/-- Why settings cannot be loaded. -/
inductive LoadError where
  /-- The file exists and cannot be read as text. -/
  | unreadable (path : Path)
  /-- The text is no JSON document. -/
  | notJson (path : Path)
  deriving Repr, DecidableEq

/-- What a user is told. -/
def LoadError.message : LoadError → String
  | .unreadable p => "无法读取配置文件: " ++ p.quoted
  | .notJson p => "配置文件不是有效 JSON: " ++ p.quoted

/-- The settings in a file that has been read. -/
def ofReading (p : Path) : FileTree.Reading → Except LoadError Settings
  | .missing => .ok default
  | r =>
    match r.text? with
    | none => .error (.unreadable p)
    | some s =>
      match Json.parseDocument? s with
      | none => .error (.notJson p)
      | some j => .ok (ofDocument j)

/-- Load settings from a file of a file tree. -/
def load (files : FileTree) (p : Path) : Except LoadError Settings :=
  ofReading p (files.read p)

/-- The text of a settings file. -/
def fileText (s : Settings) : String :=
  Json.pretty (Json.toJson s)

/-- The extension of the temporary file. -/
def temporaryExtension : String := "json.tmp"

/-- The steps that save settings at the end of a route. -/
def saveSteps (s : Settings) (r : Route) : List FileTree.Step :=
  let temporary := r.withExtension temporaryExtension
  (r.parent?.map FileTree.Step.makeDirectories).toList ++
    [.write temporary s.fileText.toUTF8, .rename temporary r]

/-- Save settings to a file of a file tree. -/
def save (s : Settings) (files : FileTree) (p : Path) : FileTree.Outcome :=
  match p.route? with
  | none => ⟨files, false⟩
  | some r => files.runSteps (s.saveSteps r)

/-- Where the settings are, below the directory for a user's configuration. -/
def defaultPath (configuration : Path) : Path :=
  (configuration.join ⟨"PokeScript"⟩).join ⟨"config.json"⟩

@[simp] theorem load_of_missing {files : FileTree} {p : Path} (h : files.read p = .missing) :
    load files p = .ok default := by
  simp [load, h, ofReading]

end Transcription.Settings
