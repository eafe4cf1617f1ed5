import Transcription.CurrencyTable.Builtin
import Transcription.FileTree

/-!
# Currency tables from files
-/

namespace Transcription.CurrencyTable

/-- Why a file gives no currency table. -/
inductive LoadError where
  /-- The file cannot be read as text. -/
  | unreadable (path : Path)
  /-- The text is no table. -/
  | malformed (path : Path)
  deriving Repr, DecidableEq

/-- What a user is told. -/
def LoadError.message : LoadError → String
  | .unreadable p => "无法读取货币表: " ++ p.quoted
  | .malformed p => "无法解析货币表: " ++ p.quoted

/-- The table in a file that has been read. -/
def ofReading (p : Path) (r : FileTree.Reading) : Except LoadError CurrencyTable :=
  match r.text? with
  | none => .error (.unreadable p)
  | some s =>
    match ofJsonText? s with
    | none => .error (.malformed p)
    | some t => .ok t

/-- The table in a file of a file tree, or the built-in one when no file is named. -/
def load (files : FileTree) : Option Path → Except LoadError CurrencyTable
  | none => .ok builtin
  | some p => ofReading p (files.read p)

@[simp] theorem load_none (files : FileTree) : load files none = .ok builtin := rfl

end Transcription.CurrencyTable
