import Transcription.FileTree
import Transcription.GeoTable

/-!
# Tables of address ranges from files
-/

namespace Transcription.GeoTable

/-- Why a text or a file gives no table of ranges. -/
inductive LoadError where
  /-- The file cannot be read as text. -/
  | unreadable (path : Path)
  /-- The text is no table. -/
  | malformed
  deriving Repr, DecidableEq

/-- What a user is told. -/
def LoadError.message : LoadError → String
  | .unreadable p => "无法读取 IP 段表: " ++ p.quoted
  | .malformed => "无法解析 IP 段表"

/-- The table in a JSON text. -/
def ofJsonText (s : String) : Except LoadError GeoTable :=
  match ofJsonText? s with
  | none => .error .malformed
  | some t => .ok t

/-- The table in a file that has been read. -/
def ofReading (p : Path) (r : FileTree.Reading) : Except LoadError GeoTable :=
  match r.text? with
  | none => .error (.unreadable p)
  | some s => ofJsonText s

/-- The table in a file of a file tree. -/
def load (files : FileTree) (p : Path) : Except LoadError GeoTable :=
  ofReading p (files.read p)

end Transcription.GeoTable
