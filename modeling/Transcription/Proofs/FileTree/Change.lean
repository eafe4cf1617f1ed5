import Transcription.Proofs.FileTree.Rooted

/-!
# Changes to a file tree

Putting a file where no directory stands, and removing one, leaves the directories as they are.
Making directories along names only adds directories, at places where nothing stood and that are no
longer than the names reach, and once it has succeeded it changes nothing when it is done again.
Either change keeps a rooted tree rooted.
-/

namespace Transcription.FileTree

variable {t u : FileTree}

/-- The content of a file. -/
def file? (t : FileTree) (place : List String) : Option ByteArray :=
  match t.find? place with
  | some (.file content) => some content
  | _ => none

/-! ### Files -/

theorem ne_nil_of_isDirectory_eq_false {place : List String} (h : t.isDirectory place = false) :
    place ≠ [] := by
  rintro rfl
  simp at h

theorem hasSameDirectories_put_file {place : List String} (h : t.isDirectory place = false)
    (content : ByteArray) : t.HasSameDirectories (t.put place (.file content)) := by
  refine ⟨fun other => ?_, rfl⟩
  by_cases hsame : other = place
  · subst hsame
    have hput := t.find?_put_self (ne_nil_of_isDirectory_eq_false h) (.file content)
    rw [h, isDirectory_eq_false_of_file hput]
  · rw [isDirectory, isDirectory, t.find?_put_of_ne hsame]

theorem hasSameDirectories_remove {place : List String} (h : t.isDirectory place = false) :
    t.HasSameDirectories (t.remove place) := by
  refine ⟨fun other => ?_, rfl⟩
  by_cases hsame : other = place
  · subst hsame
    rw [h, isDirectory, t.find?_remove_self (ne_nil_of_isDirectory_eq_false h)]
  · rw [isDirectory, isDirectory, t.find?_remove_of_ne hsame]

/-- A file may be put into a directory where no directory stands. -/
theorem IsRooted.put_file (h : t.IsRooted) {place : List String}
    (hparent : t.isDirectory place.dropLast = true) (hplace : t.isDirectory place = false)
    (content : ByteArray) : (t.put place (.file content)).IsRooted := by
  have hsame := hasSameDirectories_put_file hplace content
  refine ⟨fun other hfind => ?_, ?_⟩
  · rw [← hsame.isDirectory]
    by_cases heq : other = place
    · rwa [heq]
    · rw [t.find?_put_of_ne heq] at hfind
      exact h.parent other hfind
  · rw [← hsame.isDirectory]
    exact h.workingDirectory

/-- What is no directory may be removed. -/
theorem IsRooted.remove (h : t.IsRooted) {place : List String}
    (hplace : t.isDirectory place = false) : (t.remove place).IsRooted := by
  have hsame := hasSameDirectories_remove hplace
  refine ⟨fun other hfind => ?_, ?_⟩
  · rw [← hsame.isDirectory]
    by_cases heq : other = place
    · rw [heq, t.find?_remove_self (ne_nil_of_isDirectory_eq_false hplace)] at hfind
      exact absurd rfl hfind
    · rw [t.find?_remove_of_ne heq] at hfind
      exact h.parent other hfind
  · rw [← hsame.isDirectory]
    exact h.workingDirectory

/-! ### Directories -/

/-- The tree `u` is the tree `t` with directories added where nothing stood. -/
structure HasMoreDirectories (t u : FileTree) : Prop where
  find? : ∀ place, u.find? place = t.find? place ∨
    (t.find? place = none ∧ u.find? place = some .directory)
  workingDirectory : u.workingDirectory = t.workingDirectory

namespace HasMoreDirectories

theorem refl (t : FileTree) : t.HasMoreDirectories t :=
  ⟨fun _ => .inl rfl, rfl⟩

theorem put {place : List String} (h : t.HasMoreDirectories u) (hne : place ≠ [])
    (hfind : u.find? place = none) : t.HasMoreDirectories (u.put place .directory) := by
  refine ⟨fun other => ?_, h.workingDirectory⟩
  by_cases heq : other = place
  · subst heq
    right
    refine ⟨?_, u.find?_put_self hne .directory⟩
    rcases h.find? other with hsame | ⟨hnone, -⟩
    · rw [← hsame, hfind]
    · exact hnone
  · rw [u.find?_put_of_ne heq]
    exact h.find? other

theorem isDirectory (h : t.HasMoreDirectories u) {place : List String}
    (hplace : t.isDirectory place = true) : u.isDirectory place = true := by
  rw [isDirectory_iff] at hplace ⊢
  rcases h.find? place with hsame | ⟨-, hdir⟩
  · rwa [hsame]
  · exact hdir

theorem origin_eq (h : t.HasMoreDirectories u) (r : Route) : u.origin r = t.origin r := by
  rw [origin, origin, h.workingDirectory]

theorem file?_eq (h : t.HasMoreDirectories u) (place : List String) :
    u.file? place = t.file? place := by
  rw [file?, file?]
  rcases h.find? place with hsame | ⟨hnone, hdir⟩
  · rw [hsame]
  · rw [hnone, hdir]

end HasMoreDirectories

theorem IsRooted.put_directory (h : t.IsRooted) {dir : List String} {name : String}
    (hdir : t.isDirectory dir = true) (hfind : t.find? (dir ++ [name]) = none) :
    (t.put (dir ++ [name]) .directory).IsRooted := by
  have hmore := (HasMoreDirectories.refl t).put (by simp) hfind
  refine ⟨fun place hplace => ?_, hmore.isDirectory h.workingDirectory⟩
  refine hmore.isDirectory ?_
  by_cases heq : place = dir ++ [name]
  · rwa [heq, List.dropLast_concat]
  · rw [t.find?_put_of_ne heq] at hplace
    exact h.parent place hplace

/-- What making directories along names preserves: it is what putting one directory into another,
where nothing stands, preserves, as far down as the names reach. -/
theorem makeAlong_preserves {motive : FileTree → Prop} {depth : Nat}
    (step : ∀ t dir name, motive t → t.isDirectory dir = true → t.find? (dir ++ [name]) = none →
      dir.length < depth → motive (t.put (dir ++ [name]) .directory))
    {t : FileTree} {place names : List String} (hdepth : place.length + names.length ≤ depth)
    (h : motive t) : motive (t.makeAlong place names).tree := by
  induction names generalizing t place with
  | nil => exact h
  | cons name names ih =>
      rw [List.length_cons] at hdepth
      rw [makeAlong]
      split
      · exact h
      · next hcond =>
        have hdir : t.isDirectory place = true := by
          by_contra hno
          simp [hno] at hcond
        have hplace : (place ++ [name]).length + names.length ≤ depth := by simp; omega
        split
        · refine ih ?_ h
          rw [List.length_dropLast]
          omega
        · split
          · exact ih hplace h
          · exact h
          · next hnone => exact ih hplace (step t place name h hdir hnone (by omega))

theorem hasMoreDirectories_makeAlong (t : FileTree) (place names : List String) :
    t.HasMoreDirectories (t.makeAlong place names).tree :=
  makeAlong_preserves (fun _ _ _ h _ hfind _ => h.put (by simp) hfind) (Nat.le_refl _) (.refl t)

theorem IsRooted.makeAlong (h : t.IsRooted) (place names : List String) :
    (t.makeAlong place names).tree.IsRooted :=
  makeAlong_preserves (fun _ _ _ h hdir hfind _ => h.put_directory hdir hfind) (Nat.le_refl _) h

/-- No directory is made beyond the reach of the names. -/
theorem find?_makeAlong_of_length_lt (t : FileTree) {place names other : List String}
    (h : place.length + names.length < other.length) :
    (t.makeAlong place names).tree.find? other = t.find? other := by
  refine makeAlong_preserves (motive := fun u => u.find? other = t.find? other)
    (fun u dir name hu _ _ hdir => ?_) (Nat.le_refl _) rfl
  have hne : other ≠ dir ++ [name] := by
    rintro rfl
    rw [List.length_append, List.length_singleton] at h
    omega
  rw [u.find?_put_of_ne hne, hu]

/-- Where a directory stands already, making directories goes on behind it. -/
theorem makeAlong_cons_of_isDirectory {place : List String} {name : String} (names : List String)
    (hplace : t.isDirectory place = true) (hshort : name.utf8ByteSize ≤ maxNameLength)
    (hnext : name ≠ ".." → t.isDirectory (place ++ [name]) = true) :
    t.makeAlong place (name :: names) =
      t.makeAlong (if name = ".." then place.dropLast else place ++ [name]) names := by
  have hcond : (t.isDirectory place && decide (name.utf8ByteSize ≤ maxNameLength)) = true := by
    simp [hplace, hshort]
  rw [makeAlong, hcond]
  by_cases hback : name = ".."
  · simp [hback]
  · simp [hback, isDirectory_iff.mp (hnext hback)]

/-- Making directories succeeds past a name when it stands in a directory and leads to one, which
may have been made for it. -/
theorem exists_of_makeAlong_cons_done {place : List String} {name : String} {names : List String}
    (h : (t.makeAlong place (name :: names)).done = true) :
    t.isDirectory place = true ∧ name.utf8ByteSize ≤ maxNameLength ∧
      ∃ v : FileTree, (name ≠ ".." → v.isDirectory (place ++ [name]) = true) ∧
        t.makeAlong place (name :: names) =
          v.makeAlong (if name = ".." then place.dropLast else place ++ [name]) names := by
  rw [makeAlong] at h ⊢
  by_cases hcond : (t.isDirectory place && decide (name.utf8ByteSize ≤ maxNameLength)) = true
  · obtain ⟨hplace, hshort⟩ := Bool.and_eq_true_iff.mp hcond
    refine ⟨hplace, by simpa using hshort, ?_⟩
    rw [hcond] at h ⊢
    by_cases hback : name = ".."
    · exact ⟨t, absurd hback, by simp [hback]⟩
    · cases hfind : t.find? (place ++ [name]) with
      | none =>
          have hne : place ++ [name] ≠ [] := by simp
          have hput := t.find?_put_self hne .directory
          exact ⟨t.put (place ++ [name]) .directory, fun _ => isDirectory_iff.mpr hput,
            by simp [hback]⟩
      | some e =>
          cases e with
          | directory => exact ⟨t, fun _ => isDirectory_iff.mpr hfind, by simp [hback]⟩
          | file content => simp [hback, hfind] at h
  · simp [hcond] at h

/-- Directories that have been made are not made again. -/
theorem makeAlong_of_done {place names : List String} (h : (t.makeAlong place names).done = true)
    (hu : ∀ q, (t.makeAlong place names).tree.isDirectory q = true → u.isDirectory q = true) :
    u.makeAlong place names = ⟨u, true⟩ := by
  induction names generalizing t place with
  | nil =>
      have hdir : u.isDirectory place = true := hu place h
      rw [makeAlong, hdir]
  | cons name names ih =>
      obtain ⟨hplace, hshort, v, hnext, heq⟩ := exists_of_makeAlong_cons_done h
      have hplace' : u.isDirectory place = true :=
        hu place ((hasMoreDirectories_makeAlong t place _).isDirectory hplace)
      have hnext' : name ≠ ".." → u.isDirectory (place ++ [name]) = true := by
        intro hname
        refine hu _ ?_
        rw [heq]
        exact (hasMoreDirectories_makeAlong v _ names).isDirectory (hnext hname)
      rw [heq] at h hu
      rw [makeAlong_cons_of_isDirectory names hplace' hshort hnext']
      exact ih h hu

end Transcription.FileTree
