import Transcription.Proofs.FileTree.Steps

/-!
# Replacing a file

A file is replaced by writing another one beside it and renaming that one over it. In a rooted tree
the two never stand at one place, so in the end the file has what was written, nothing stands beside
it where it was written, and the rest of the tree is as before.
-/

namespace Transcription.FileTree

variable {t : FileTree}

/-- A file that may be put beside the end of a route is not at its end. -/
theorem IsRooted.ne_of_filePlace?_withExtension (h : t.IsRooted) {r : Route} {extension : String}
    (hdot : '.' ∈ extension.toList) (hlength : 2 ≤ extension.toList.length) {a b : List String}
    (ha : Step.filePlace? t (r.withExtension extension) = some a) (hb : t.place? r = some b) :
    a ≠ b := by
  obtain ⟨dir, neighbour, d, hneighbour, hdots, hd, -, rfl⟩ := h.exists_of_filePlace? ha
  obtain ⟨name, hnames, hname, hne⟩ :=
    r.exists_of_names_withExtension hdot hlength hneighbour hdots
  -- both names are looked up in one directory
  obtain ⟨-, hfollow⟩ := place?_eq_some_iff.mp hb
  rw [hnames] at hfollow
  obtain ⟨d', hd', -, rfl⟩ := exists_of_follow_concat hfollow
  have horigin : t.origin (r.withExtension extension) = t.origin r := by
    rw [origin, origin, r.absolute_withExtension]
  rw [horigin] at hd
  obtain rfl : d = d' := Option.some.inj (hd.symm.trans hd')
  rw [if_neg hname]
  intro heq
  exact hne (by simpa using heq)

/-- The tree after a file has been written at one place and moved to another. -/
def replaced (t : FileTree) (a b : List String) (content : ByteArray) : FileTree :=
  ((t.put a (.file content)).remove a).put b (.file content)

section Replaced

variable {source target : Route} {a b : List String} (content : ByteArray)

theorem find?_replaced_source (ha : a ≠ []) (hne : a ≠ b) :
    (t.replaced a b content).find? a = none := by
  rw [replaced, find?_put_of_ne _ hne, find?_remove_self _ ha]

theorem find?_replaced_of_ne {other : List String} (ha : other ≠ a) (hb : other ≠ b) :
    (t.replaced a b content).find? other = t.find? other := by
  rw [replaced, find?_put_of_ne _ hb, find?_remove_of_ne _ ha, find?_put_of_ne _ ha]

theorem hasSameDirectories_replaced (ha : Step.filePlace? t source = some a)
    (hb : Step.filePlace? t target = some b) : t.HasSameDirectories (t.replaced a b content) := by
  have hafree := Step.isDirectory_of_filePlace? ha
  have hbfree := Step.isDirectory_of_filePlace? hb
  have hwritten := hasSameDirectories_put_file hafree content
  have hremoved := hwritten.trans (hasSameDirectories_remove (hwritten.isDirectory a ▸ hafree))
  exact hremoved.trans (hasSameDirectories_put_file (hremoved.isDirectory b ▸ hbfree) content)

/-- What was written is at the end of the route to which it was moved. -/
theorem at?_replaced_target (ha : Step.filePlace? t source = some a)
    (hb : Step.filePlace? t target = some b) :
    (t.replaced a b content).at? target = some (.file content) := by
  have hsame := hasSameDirectories_replaced content ha hb
  rw [Step.at?_of_filePlace? (hsame.filePlace?_eq target ▸ hb)]
  exact find?_put_self _ (ne_nil_of_isDirectory_eq_false (Step.isDirectory_of_filePlace? hb)) _

/-- Nothing is left where it was written first. -/
theorem at?_replaced_source (ha : Step.filePlace? t source = some a)
    (hb : Step.filePlace? t target = some b) (hne : a ≠ b) :
    (t.replaced a b content).at? source = none := by
  have hsame := hasSameDirectories_replaced content ha hb
  rw [Step.at?_of_filePlace? (hsame.filePlace?_eq source ▸ ha)]
  exact find?_replaced_source content
    (ne_nil_of_isDirectory_eq_false (Step.isDirectory_of_filePlace? ha)) hne

theorem runSteps_write_rename (ha : Step.filePlace? t source = some a)
    (hb : Step.filePlace? t target = some b) :
    t.runSteps [.write source content, .rename source target] =
      ⟨t.replaced a b content, true⟩ := by
  have hfree := Step.isDirectory_of_filePlace? ha
  have hsame := hasSameDirectories_put_file hfree content
  have hfind := t.find?_put_self (ne_nil_of_isDirectory_eq_false hfree) (.file content)
  have hrename := Step.run_rename (hsame.filePlace?_eq source ▸ ha)
    (hsame.filePlace?_eq target ▸ hb) hfind
  rw [runSteps, Step.run_write ha]
  exact (runSteps_singleton _ _).trans hrename

/-- Both steps are carried out only where both files may be put. -/
theorem exists_of_write_rename_done
    (h : (t.runSteps [.write source content, .rename source target]).done = true) :
    ∃ a b, Step.filePlace? t source = some a ∧ Step.filePlace? t target = some b := by
  cases ha : Step.filePlace? t source with
  | none => simp [runSteps, Step.run, ha] at h
  | some a =>
      have hsame := hasSameDirectories_put_file (Step.isDirectory_of_filePlace? ha) content
      cases hb : Step.filePlace? t target with
      | some b => exact ⟨a, b, rfl, rfl⟩
      | none =>
          have hb' := hsame.filePlace?_eq target ▸ hb
          rw [runSteps, Step.run_write ha] at h
          simp [runSteps, Step.run, hb'] at h

end Replaced

end Transcription.FileTree
