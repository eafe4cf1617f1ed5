import Transcription.Text.Quoted

/-!
# Paths

A path is kept as it is given, because messages show it so. What it denotes is its route: the
pieces between its slashes, read from the root or from the working directory. An empty piece and
a single dot are idle and lead nowhere; the others are names. A double dot is a name, since where
it leads depends on the directories that are there. Idle pieces still count for two things: a
route is refused when it is too long, and one that ends in an idle piece asks for a directory.
-/

namespace Transcription

/-- The text of a path. -/
structure Path where
  text : String
  deriving Repr, DecidableEq

/-- What a path denotes. -/
structure Route where
  absolute : Bool
  pieces : List String
  deriving Repr, DecidableEq

namespace Path

/-- The path that a message shows. -/
def quoted (p : Path) : String := Text.quoted p.text

/-- A path that is given relative to another one. -/
def join (base rel : Path) : Path :=
  if rel.text.startsWith "/" then rel
  else if base.text.isEmpty || base.text.endsWith "/" then ⟨base.text ++ rel.text⟩
  else ⟨base.text ++ "/" ++ rel.text⟩

/-- The route of a path. The empty text denotes nothing. -/
def route? (p : Path) : Option Route :=
  if p.text.isEmpty then none
  else
    match p.text.toList.splitOn '/' with
    | [] :: pieces => some ⟨true, pieces.map String.ofList⟩
    | pieces => some ⟨false, pieces.map String.ofList⟩

end Path

namespace Route

/-- Whether a piece leads nowhere. -/
def isIdle (piece : String) : Bool :=
  piece.isEmpty || piece == "."

/-- The names to follow. -/
def names (r : Route) : List String :=
  r.pieces.filter fun piece => !isIdle piece

/-- Whether nothing but a directory may stand at the end. -/
def wantsDirectory (r : Route) : Bool :=
  r.pieces.getLast?.any isIdle

/-- The length of the text of a route, in bytes. -/
def size (r : Route) : Nat :=
  r.pieces.foldl (fun n piece => n + piece.utf8ByteSize)
    ((if r.absolute then 1 else 0) + (r.pieces.length - 1))

/-- The largest length that a route can have. -/
def maxSize : Nat := 4095

/-- Whether a route is one that can be followed at all: it is not too long and holds no null
character. -/
def isWellFormed (r : Route) : Bool :=
  decide (r.size ≤ maxSize) && r.pieces.all fun piece => !piece.toList.contains '\x00'

/-- Pieces up to the last name among them. -/
def upToName (pieces : List String) : List String :=
  (pieces.reverse.dropWhile isIdle).reverse

/-- The route to the directory that holds the end of a route. -/
def parent? (r : Route) : Option Route :=
  let trunk := upToName r.pieces
  if trunk.isEmpty then none else some { r with pieces := upToName trunk.dropLast }

/-- A file name without its extension, which begins at the last dot. A dot at the beginning of
the name begins no extension. -/
def stem (name : String) : String :=
  let back := name.toList.reverse
  let front := (back.dropWhile (· != '.')).drop 1
  if front.isEmpty then name else String.ofList front.reverse

/-- The route to a file beside another one, with the extension of a name replaced. A route that
does not end in a name has no such neighbour and is left as it is. The extension is cut off
before another one is put on: of a name that is two dots and an extension the two dots are left,
which are no file's name, and nothing is put on them. Idle pieces at the end take the cut upon
themselves. -/
def withExtension (r : Route) (extension : String) : Route :=
  let trunk := upToName r.pieces
  match trunk.getLast? with
  | none => r
  | some ".." => r
  | some name =>
    let cut := stem name
    let last := if cut = "." ∧ !r.wantsDirectory then ".." else cut ++ "." ++ extension
    { r with pieces := trunk.dropLast ++ [last] }

end Route

end Transcription
