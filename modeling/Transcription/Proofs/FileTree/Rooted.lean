import Transcription.FileTree
import Mathlib.Data.List.Induction

/-!
# Rooted file trees

In a file tree as it is on a disk everything stands in a directory, and the working directory is
one. Such a tree is rooted. Every place on the way to something that stands in a rooted tree is then
a directory, so a route without a double dot leads to an entry just when the entry stands at the end
of its names.

Routes are followed along directories and look at nothing else, so two trees with the same
directories are followed alike.
-/

namespace Transcription.FileTree

variable {t u : FileTree}

/-- Everything stands in a directory. -/
structure IsRooted (t : FileTree) : Prop where
  parent : ∀ place, t.find? place ≠ none → t.isDirectory place.dropLast = true
  workingDirectory : t.isDirectory t.workingDirectory = true

theorem isDirectory_iff {place : List String} :
    t.isDirectory place = true ↔ t.find? place = some .directory := by
  rw [isDirectory]
  split <;> simp_all

theorem find?_ne_none_of_isDirectory {place : List String} (h : t.isDirectory place = true) :
    t.find? place ≠ none := by
  simp [isDirectory_iff.mp h]

theorem isDirectory_eq_false_of_file {place : List String} {content : ByteArray}
    (h : t.find? place = some (.file content)) : t.isDirectory place = false := by
  simp [isDirectory, h]

/-- A tree is rooted when each of its entries is in a directory. -/
theorem IsRooted.of_entries (hentries : ∀ e ∈ t.entries, t.isDirectory e.1.dropLast = true)
    (hworking : t.isDirectory t.workingDirectory = true) : t.IsRooted := by
  refine ⟨fun place hfind => ?_, hworking⟩
  by_cases hroot : place = []
  · rw [hroot]
    exact t.isDirectory_nil
  · obtain ⟨e, he⟩ := Option.ne_none_iff_exists'.mp hfind
    rw [find?, if_neg (by simpa using hroot), List.lookup_eq_some_iff] at he
    obtain ⟨before, rest, heq, -⟩ := he
    exact hentries (place, e) (by simp [heq])

/-- Above a directory of a rooted tree there is a directory. -/
theorem IsRooted.isDirectory_dropLast (h : t.IsRooted) {place : List String}
    (hplace : t.isDirectory place = true) : t.isDirectory place.dropLast = true :=
  h.parent place (find?_ne_none_of_isDirectory hplace)

/-- On the way to something that stands in a rooted tree there are directories. -/
theorem IsRooted.isDirectory_of_append (h : t.IsRooted) {place : List String} {name : String}
    {names : List String} (hfind : t.find? (place ++ name :: names) ≠ none) :
    t.isDirectory place = true := by
  induction names using List.reverseRecOn with
  | nil => simpa using h.parent _ hfind
  | append_singleton names last ih =>
      refine ih (find?_ne_none_of_isDirectory ?_)
      have hparent := h.parent _ hfind
      have hplace : place ++ name :: (names ++ [last]) = (place ++ name :: names) ++ [last] := by
        simp
      rwa [hplace, List.dropLast_concat] at hparent

/-! ### Following names -/

theorem follow_append (t : FileTree) (place : List String) (xs ys : List String) :
    t.follow place (xs ++ ys) = (t.follow place xs).bind fun q => t.follow q ys := by
  induction xs generalizing place with
  | nil => rfl
  | cons x xs ih =>
      rw [List.cons_append, follow, follow]
      split
      · exact ih _
      · rfl

/-- A name at the end of a route leads from a directory into it. -/
theorem exists_of_follow_concat {place q : List String} {dir : List String} {name : String}
    (h : t.follow place (dir ++ [name]) = some q) :
    ∃ d, t.follow place dir = some d ∧ t.isDirectory d = true ∧
      q = if name = ".." then d.dropLast else d ++ [name] := by
  rw [follow_append, Option.bind_eq_some_iff] at h
  obtain ⟨d, hd, hlast⟩ := h
  rw [follow] at hlast
  split at hlast
  · next hcond =>
    rw [Bool.and_eq_true] at hcond
    exact ⟨d, hd, hcond.1, (Option.some.inj hlast).symm⟩
  · simp at hlast

/-- Names without a double dot lead to what stands at their end. -/
theorem IsRooted.bind_follow (h : t.IsRooted) {names : List String} (hdots : ".." ∉ names)
    (place : List String) :
    (t.follow place names).bind t.find? =
      if names.all (fun name => decide (name.utf8ByteSize ≤ maxNameLength)) then
        t.find? (place ++ names)
      else none := by
  induction names generalizing place with
  | nil => simp [follow]
  | cons name names ih =>
      rw [List.mem_cons, not_or] at hdots
      rw [follow, if_neg (Ne.symm hdots.1), List.all_cons]
      by_cases hshort : name.utf8ByteSize ≤ maxNameLength
      · by_cases hdir : t.isDirectory place = true
        · simp only [hdir, hshort, decide_true, Bool.and_self, if_true, Bool.true_and]
          rw [ih hdots.2, List.append_assoc, List.singleton_append]
        · -- nothing stands behind what is no directory
          have hnone : t.find? (place ++ name :: names) = none := by
            by_contra hfind
            exact hdir (h.isDirectory_of_append hfind)
          simp [hdir, hnone]
      · simp [hshort]

/-! ### Trees with the same directories -/

/-- Two trees have the same directories. -/
structure HasSameDirectories (t u : FileTree) : Prop where
  isDirectory : ∀ place, t.isDirectory place = u.isDirectory place
  workingDirectory : t.workingDirectory = u.workingDirectory

namespace HasSameDirectories

theorem trans {v : FileTree} (h : t.HasSameDirectories u) (h' : u.HasSameDirectories v) :
    t.HasSameDirectories v :=
  ⟨fun place => (h.isDirectory place).trans (h'.isDirectory place),
    h.workingDirectory.trans h'.workingDirectory⟩

theorem follow_eq (h : t.HasSameDirectories u) (place names : List String) :
    t.follow place names = u.follow place names := by
  induction names generalizing place with
  | nil => rfl
  | cons name names ih => rw [follow, follow, h.isDirectory, ih]

theorem origin_eq (h : t.HasSameDirectories u) (r : Route) : t.origin r = u.origin r := by
  rw [origin, origin, h.workingDirectory]

theorem place?_eq (h : t.HasSameDirectories u) (r : Route) : t.place? r = u.place? r := by
  rw [place?, place?, h.origin_eq, h.follow_eq]

theorem filePlace?_eq (h : t.HasSameDirectories u) (r : Route) :
    Step.filePlace? t r = Step.filePlace? u r := by
  rw [Step.filePlace?, Step.filePlace?, h.place?_eq]
  simp only [h.isDirectory]

end HasSameDirectories

end Transcription.FileTree
