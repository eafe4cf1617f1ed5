import Transcription.Proofs.FileTree.Replacement
import Transcription.Proofs.Settings.RoundTrip

/-!
# Saving settings

Settings are written to a temporary file beside the settings file, which is then renamed over it.
The two files never stand at one place, whatever the path is, so saving ends with the text at the
path, without the temporary file, and with every other file as it was. What has been saved is loaded
again, and saving it once more leaves the same bytes.
-/

namespace Transcription.Settings

open FileTree

variable {files : FileTree} {p : Path} {r : Route} {s : Settings}

/-- The steps that come before anything is written. -/
def preparation (r : Route) : List Step :=
  (r.parent?.map Step.makeDirectories).toList

theorem preparation_cases (r : Route) :
    preparation r = [] ∨ ∃ d, r.parent? = some d ∧ preparation r = [.makeDirectories d] := by
  rw [preparation]
  cases r.parent? with
  | none => exact .inl rfl
  | some d => exact .inr ⟨d, rfl, rfl⟩

theorem hasMoreDirectories_preparation (files : FileTree) (r : Route) :
    files.HasMoreDirectories (files.runSteps (preparation r)).tree := by
  rcases preparation_cases r with hsteps | ⟨d, -, hsteps⟩
  · rw [hsteps]
    exact .refl files
  · rw [hsteps, runSteps_singleton]
    exact Step.hasMoreDirectories_run_makeDirectories files d

theorem preparation_of_done {after : FileTree} (h : (files.runSteps (preparation r)).done = true)
    (hdirs : ∀ q, (files.runSteps (preparation r)).tree.isDirectory q = true →
      after.isDirectory q = true)
    (hworking : after.workingDirectory = files.workingDirectory) :
    after.runSteps (preparation r) = ⟨after, true⟩ := by
  rcases preparation_cases r with hsteps | ⟨d, -, hsteps⟩
  · rw [hsteps, runSteps_nil]
  · rw [hsteps, runSteps_singleton] at h hdirs ⊢
    exact Step.run_makeDirectories_of_done h hdirs hworking

theorem runSteps_saveSteps (files : FileTree) (s : Settings) (r : Route) :
    files.runSteps (s.saveSteps r) =
      if (files.runSteps (preparation r)).done then
        (files.runSteps (preparation r)).tree.runSteps
          [.write (r.withExtension temporaryExtension) s.fileText.toUTF8,
            .rename (r.withExtension temporaryExtension) r]
      else files.runSteps (preparation r) :=
  runSteps_append files (preparation r) _

/-- The temporary file is not the settings file. -/
theorem ne_of_filePlace?_temporary {t : FileTree} (h : t.IsRooted) {a b : List String}
    (ha : Step.filePlace? t (r.withExtension temporaryExtension) = some a)
    (hb : t.place? r = some b) : a ≠ b :=
  h.ne_of_filePlace?_withExtension (by decide) (by decide) ha hb

/-- What saving has done: the text is in the settings file, the temporary file is gone, and the
other files are as before. -/
structure IsSaved (s : Settings) (r : Route) (before after : FileTree) : Prop where
  target : after.at? r = some (.file s.fileText.toUTF8)
  temporary : after.at? (r.withExtension temporaryExtension) = none
  others : ∀ place, after.place? r ≠ some place →
    after.place? (r.withExtension temporaryExtension) ≠ some place →
    after.file? place = before.file? place

/-- Where the steps of saving are carried out, the tree with the directories in it has places for
both files, and the one text is put there. -/
theorem exists_of_saveSteps_done (h : (files.runSteps (s.saveSteps r)).done = true) :
    (files.runSteps (preparation r)).done = true ∧ ∃ a b,
      Step.filePlace? (files.runSteps (preparation r)).tree
        (r.withExtension temporaryExtension) = some a ∧
      Step.filePlace? (files.runSteps (preparation r)).tree r = some b ∧
      (files.runSteps (s.saveSteps r)).tree =
        (files.runSteps (preparation r)).tree.replaced a b s.fileText.toUTF8 := by
  rw [runSteps_saveSteps] at h ⊢
  by_cases hprepared : (files.runSteps (preparation r)).done = true
  · rw [if_pos hprepared] at h ⊢
    obtain ⟨a, b, ha, hb⟩ := exists_of_write_rename_done _ h
    exact ⟨hprepared, a, b, ha, hb, congrArg Outcome.tree (runSteps_write_rename _ ha hb)⟩
  · rw [if_neg hprepared] at h
    exact absurd h hprepared

/-- Steps of saving that are carried out put the text at the end of the route. -/
theorem at?_of_saveSteps_done (h : (files.runSteps (s.saveSteps r)).done = true) :
    (files.runSteps (s.saveSteps r)).tree.at? r = some (.file s.fileText.toUTF8) := by
  obtain ⟨-, a, b, ha, hb, htree⟩ := exists_of_saveSteps_done h
  rw [htree, at?_replaced_target _ ha hb]

/-- Steps of saving that are carried out save the settings. -/
theorem isSaved_runSteps (hrooted : files.IsRooted)
    (hdone : (files.runSteps (s.saveSteps r)).done = true) :
    IsSaved s r files (files.runSteps (s.saveSteps r)).tree := by
  have htarget := at?_of_saveSteps_done hdone
  obtain ⟨-, a, b, ha, hb, htree⟩ := exists_of_saveSteps_done hdone
  rw [htree] at htarget ⊢
  have hmore := hasMoreDirectories_preparation files r
  have hprepared := hrooted.runSteps (preparation r)
  generalize (files.runSteps (preparation r)).tree = t at ha hb hmore hprepared htarget
  obtain ⟨haend, -, -⟩ := Step.filePlace?_eq_some_iff.mp ha
  obtain ⟨hbend, -, -⟩ := Step.filePlace?_eq_some_iff.mp hb
  have hne : a ≠ b := ne_of_filePlace?_temporary hprepared ha hbend
  have hsame := hasSameDirectories_replaced s.fileText.toUTF8 ha hb
  refine ⟨htarget, at?_replaced_source _ ha hb hne, fun place hplace htemporary => ?_⟩
  rw [← hsame.place?_eq, hbend] at hplace
  rw [← hsame.place?_eq, haend] at htemporary
  have hother : (t.replaced a b s.fileText.toUTF8).find? place = t.find? place :=
    find?_replaced_of_ne _ (fun heq => htemporary (congrArg some heq.symm))
      fun heq => hplace (congrArg some heq.symm)
  rw [← hmore.file?_eq, file?, file?, hother]

/-- Steps of saving that have been carried out are carried out again. -/
theorem saveSteps_done_again (hdone : (files.runSteps (s.saveSteps r)).done = true) :
    ((files.runSteps (s.saveSteps r)).tree.runSteps (s.saveSteps r)).done = true := by
  obtain ⟨hprepared, a, b, ha, hb, htree⟩ := exists_of_saveSteps_done hdone
  rw [htree]
  have hsame := hasSameDirectories_replaced s.fileText.toUTF8 ha hb
  have hagain := preparation_of_done hprepared (fun q hq => hsame.isDirectory q ▸ hq)
    (hsame.workingDirectory.symm.trans (hasMoreDirectories_preparation files r).workingDirectory)
  rw [runSteps_saveSteps, hagain, if_pos rfl,
    runSteps_write_rename _ (hsame.filePlace?_eq _ ▸ ha) (hsame.filePlace?_eq r ▸ hb)]

theorem exists_route_of_save_done (h : (save s files p).done = true) : ∃ r, p.route? = some r := by
  cases hroute : p.route? with
  | none => simp [save, hroute] at h
  | some r => exact ⟨r, rfl⟩

theorem save_of_route (hroute : p.route? = some r) (s : Settings) (files : FileTree) :
    save s files p = files.runSteps (s.saveSteps r) := by
  rw [save, hroute]

/-- Saving leaves a rooted tree rooted, whether it succeeds or not. -/
theorem isRooted_save (h : files.IsRooted) (s : Settings) (p : Path) :
    (save s files p).tree.IsRooted := by
  cases hroute : p.route? with
  | none => simpa only [save, hroute] using h
  | some r =>
      rw [save_of_route hroute]
      exact h.runSteps (s.saveSteps r)

theorem read_of_saveSteps_done (hroute : p.route? = some r)
    (h : (files.runSteps (s.saveSteps r)).done = true) :
    (files.runSteps (s.saveSteps r)).tree.read p = .content s.fileText.toUTF8 := by
  rw [FileTree.read, hroute, Option.bind_some, at?_of_saveSteps_done h]

/-- Saving leaves the text at the path, no temporary file, and the other files as they were. The
settings that are loaded from the path are the ones that were saved, and saving these once more
leaves the same bytes. -/
theorem save_round_trip (hrooted : files.IsRooted) (hdone : (save s files p).done = true) :
    (∃ r, p.route? = some r ∧ IsSaved s r files (save s files p).tree) ∧
    load (save s files p).tree p = .ok s ∧
    (save s (save s files p).tree p).done = true ∧
    (save s (save s files p).tree p).tree.read p = (save s files p).tree.read p := by
  obtain ⟨r, hroute⟩ := exists_route_of_save_done hdone
  simp only [save_of_route hroute] at hdone ⊢
  have hread := read_of_saveSteps_done hroute hdone
  have hagain := saveSteps_done_again hdone
  exact ⟨⟨r, hroute, isSaved_runSteps hrooted hdone⟩, load_of_fileText hread, hagain,
    (read_of_saveSteps_done hroute hagain).trans hread.symm⟩

/-- A tree with a file and no directory for settings. -/
def notesFile : FileTree :=
  ⟨[(["notes.txt"], .file "notes".toUTF8)], []⟩

theorem isRooted_notesFile : notesFile.IsRooted :=
  .of_entries (by decide) (by decide)

/-- The settings can be saved there, in a directory that is made for them. -/
theorem save_round_trip_notesFile :
    notesFile.IsRooted ∧ (save default notesFile ⟨"conf/c.json"⟩).done = true ∧
      load (save default notesFile ⟨"conf/c.json"⟩).tree ⟨"conf/c.json"⟩ = .ok default := by
  have hdone : (save default notesFile ⟨"conf/c.json"⟩).done = true := by decide
  exact ⟨isRooted_notesFile, hdone, (save_round_trip isRooted_notesFile hdone).2.1⟩

end Transcription.Settings
