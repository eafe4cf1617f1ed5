import Transcription.Path

/-!
# File trees

A file tree holds files and directories, each at a place, which is the list of names that lead to
it from the root; the root itself is a directory. Routes are followed name by name: every place
on the way has to be a directory, and a double dot goes back to the directory around it.

Changes are steps. A step may be refused, and then it may have been carried out in part: making a
directory keeps the directories that it has made on the way. A sequence of steps ends at the
first refused one.
-/

namespace Transcription

/-- What stands at a place of a file tree. -/
inductive FileTree.Entry where
  | directory
  | file (content : ByteArray)

/-- The end of an entry's name in a listing: a directory's name ends in a slash. -/
def FileTree.Entry.mark : FileTree.Entry → String
  | .directory => "/"
  | .file _ => ""

/-- Files and directories below a root, and the directory from which relative routes start. -/
structure FileTree where
  entries : List (List String × FileTree.Entry)
  workingDirectory : List String

namespace FileTree

/-- A tree without files. -/
def empty : FileTree := ⟨[], []⟩

/-- What stands at a place. -/
def find? (t : FileTree) (place : List String) : Option Entry :=
  if place.isEmpty then some .directory else t.entries.lookup place

/-- Whether a directory stands at a place. -/
def isDirectory (t : FileTree) (place : List String) : Bool :=
  match t.find? place with
  | some .directory => true
  | _ => false

/-- The tree without what stands at a place. -/
def remove (t : FileTree) (place : List String) : FileTree :=
  { t with entries := t.entries.filter fun e => e.1 != place }

/-- The tree with something put at a place. -/
def put (t : FileTree) (place : List String) (e : Entry) : FileTree :=
  { t with entries := (place, e) :: (t.remove place).entries }

/-- The longest name that a file can have, in bytes. -/
def maxNameLength : Nat := 255

/-- Follow names from a directory. What stands at the last one is not looked at. -/
def follow (t : FileTree) (place : List String) : List String → Option (List String)
  | [] => some place
  | name :: names =>
    if t.isDirectory place && decide (name.utf8ByteSize ≤ maxNameLength) then
      t.follow (if name = ".." then place.dropLast else place ++ [name]) names
    else none

/-- Where a route begins. -/
def origin (t : FileTree) (r : Route) : List String :=
  if r.absolute then [] else t.workingDirectory

/-- The place to which a route leads. -/
def place? (t : FileTree) (r : Route) : Option (List String) :=
  if r.isWellFormed then t.follow (t.origin r) r.names else none

/-- What stands at the end of a route. -/
def at? (t : FileTree) (r : Route) : Option Entry :=
  match (t.place? r).bind t.find? with
  | some (.file content) => if r.wantsDirectory then none else some (.file content)
  | e => e

/-- The result of trying to read a file. -/
inductive Reading where
  | missing
  | refused
  | content (bytes : ByteArray)

/-- Try to read a file. A directory exists and cannot be read. -/
def read (t : FileTree) (p : Path) : Reading :=
  match p.route?.bind t.at? with
  | none => .missing
  | some .directory => .refused
  | some (.file content) => .content content

/-- The text of a reading; none also for bytes that are no text. -/
def Reading.text? : Reading → Option String
  | .content bytes => String.fromUTF8? bytes
  | _ => none

/-- What a change has left, and whether it was carried out to its end. -/
structure Outcome where
  tree : FileTree
  done : Bool

/-- Make the directories along some names that are missing. -/
def makeAlong (t : FileTree) (place : List String) : List String → Outcome
  | [] => ⟨t, t.isDirectory place⟩
  | name :: names =>
    if !(t.isDirectory place && decide (name.utf8ByteSize ≤ maxNameLength)) then ⟨t, false⟩
    else if name = ".." then t.makeAlong place.dropLast names
    else
      match t.find? (place ++ [name]) with
      | some .directory => t.makeAlong (place ++ [name]) names
      | some (.file _) => ⟨t, false⟩
      | none => (t.put (place ++ [name]) .directory).makeAlong (place ++ [name]) names

/-- A change to a file tree. -/
inductive Step where
  /-- Make a directory and those around it, as far as they are missing. -/
  | makeDirectories (route : Route)
  /-- Give a file a content, whether it was there or not. -/
  | write (route : Route) (content : ByteArray)
  /-- Move a file to another place, where it replaces a file. -/
  | rename (source target : Route)

namespace Step

/-- The place where a file may be put: the end of a route at which no directory stands. -/
def filePlace? (t : FileTree) (r : Route) : Option (List String) :=
  match t.place? r with
  | some place => if r.wantsDirectory || t.isDirectory place then none else some place
  | none => none

/-- Carry out a step. -/
def run (t : FileTree) : Step → Outcome
  | .makeDirectories r =>
    if r.isWellFormed then t.makeAlong (t.origin r) r.names else ⟨t, false⟩
  | .write r content =>
    match filePlace? t r with
    | some place => ⟨t.put place (.file content), true⟩
    | none => ⟨t, false⟩
  | .rename source target =>
    match filePlace? t source, filePlace? t target with
    | some a, some b =>
      match t.find? a with
      | some e => ⟨(t.remove a).put b e, true⟩
      | none => ⟨t, false⟩
    | _, _ => ⟨t, false⟩

end Step

/-- Carry out steps in order, up to the first that is refused. -/
def runSteps (t : FileTree) : List Step → Outcome
  | [] => ⟨t, true⟩
  | s :: ss =>
    let o := s.run t
    if o.done then o.tree.runSteps ss else o

/-- Put a file at the end of a path, with the directories around it. -/
def create (t : FileTree) (p : Path) (content : ByteArray) : Outcome :=
  match p.route? with
  | none => ⟨t, false⟩
  | some r => t.runSteps ((r.parent?.map Step.makeDirectories).toList ++ [.write r content])

/-- Make a directory and those around it. -/
def createDirectory (t : FileTree) (p : Path) : Outcome :=
  match p.route? with
  | none => ⟨t, false⟩
  | some r => t.runSteps [.makeDirectories r]

/-- The names of all entries below a place, relative to it and in order. -/
def listing (t : FileTree) (place : List String) : List String :=
  let below := t.entries.filter fun e => place.isPrefixOf e.1 && e.1 != place
  let shown := below.map fun e => "/".intercalate (e.1.drop place.length) ++ e.2.mark
  shown.mergeSort fun a b => decide (a ≤ b)

@[simp] theorem find?_nil (t : FileTree) : t.find? [] = some .directory := rfl

@[simp] theorem isDirectory_nil (t : FileTree) : t.isDirectory [] = true := rfl

@[simp] theorem runSteps_nil (t : FileTree) : t.runSteps [] = ⟨t, true⟩ := rfl

/-- Dropping entries by their places drops what stands at these places and nothing else. -/
theorem lookup_filter_fst (keep : List String → Bool) (place : List String)
    (es : List (List String × Entry)) :
    (es.filter fun e => keep e.1).lookup place = if keep place then es.lookup place else none := by
  induction es with
  | nil => simp
  | cons e es ih =>
    obtain ⟨other, entry⟩ := e
    by_cases h : place = other
    · subst h
      cases hk : keep place <;> simp [hk, ih]
    · have hne : (place == other) = false := by simpa using h
      cases hk : keep other <;> simp [List.lookup_cons, hk, hne, ih]

/-- Where something has been removed, nothing stands. -/
theorem find?_remove_self (t : FileTree) {place : List String} (h : place ≠ []) :
    (t.remove place).find? place = none := by
  simp [find?, remove, h, lookup_filter_fst (fun p => p != place)]

/-- A place that is not removed keeps what stands there. -/
theorem find?_remove_of_ne (t : FileTree) {place other : List String} (h : other ≠ place) :
    (t.remove place).find? other = t.find? other := by
  simp [find?, remove, h, lookup_filter_fst (fun p => p != place)]

/-- What has been put at a place stands there. -/
theorem find?_put_self (t : FileTree) {place : List String} (h : place ≠ []) (e : Entry) :
    (t.put place e).find? place = some e := by
  simp [find?, put, h]

/-- A place that nothing is put at keeps what stands there. -/
theorem find?_put_of_ne (t : FileTree) {place other : List String} (h : other ≠ place)
    (e : Entry) : (t.put place e).find? other = t.find? other := by
  have hne : (other == place) = false := by simpa using h
  simp [find?, put, remove, List.lookup_cons, hne, h, lookup_filter_fst (fun p => p != place)]

end FileTree

end Transcription
