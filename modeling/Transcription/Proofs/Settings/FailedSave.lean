import Transcription.Proofs.FileTree.Failure
import Transcription.Proofs.Settings.Save

/-!
# Saving that fails

Saving fails when a directory cannot be made, when the temporary file cannot be written, or when it
cannot be renamed. Directories that have been made stay. Of the files only the temporary one is
touched, and it is not cleared away: a first part of the text is left in it when writing it has
failed, and the whole text when the renaming has, also over a file that was there before.
-/

namespace Transcription.Settings

open FileTree

variable {files t u : FileTree} {p : Path} {r : Route} {s : Settings}

/-- The temporary file has a content, and all other files, the one at the end of the route among
them, are as before. -/
def IsLeftBeside (r : Route) (content : ByteArray) (before after : FileTree) : Prop :=
  ∃ place, after.place? (r.withExtension temporaryExtension) = some place ∧
    after.place? r ≠ some place ∧ after.file? place = some content ∧
    ∀ other, other ≠ place → after.file? other = before.file? other

/-- What the failure of a step of saving leaves of the files. -/
def LeavesFiles (s : Settings) (r : Route) (before after : FileTree) : Step → Prop
  | .makeDirectories _ => ∀ place, after.file? place = before.file? place
  | .write _ _ => (∀ place, after.file? place = before.file? place) ∨
      ∃ n, IsLeftBeside r (s.fileText.toUTF8.extract 0 n) before after
  | .rename _ _ => IsLeftBeside r s.fileText.toUTF8 before after

/-- Whatever is put at the place of the temporary file is left beside the other files. -/
theorem isLeftBeside_put (hrooted : t.IsRooted) (hmore : files.HasMoreDirectories t)
    {place : List String}
    (h : Step.filePlace? t (r.withExtension temporaryExtension) = some place)
    (content : ByteArray) : IsLeftBeside r content files (t.put place (.file content)) := by
  obtain ⟨hend, -, hfree⟩ := Step.filePlace?_eq_some_iff.mp h
  have hsame := hasSameDirectories_put_file hfree content
  refine ⟨place, hsame.place?_eq _ ▸ hend, ?_,
    file?_put_self (ne_nil_of_isDirectory_eq_false hfree) content, fun other hother => ?_⟩
  · rw [← hsame.place?_eq]
    exact fun htarget => ne_of_filePlace?_temporary hrooted h htarget rfl
  · rw [file?_put_of_ne hother, hmore.file?_eq]

/-- A failure among the steps that come before anything is written keeps the files. -/
theorem leavesFiles_of_preparation {failing : Step}
    (h : files.IsFailedBy (preparation r) failing u) : s.LeavesFiles r files u failing := by
  rcases preparation_cases r with hsteps | ⟨d, -, hsteps⟩
  · rw [hsteps] at h
    cases h
  · rw [hsteps] at h
    cases h with
    | within failed => exact failed.file?_of_makeDirectories
    | behind done failed => cases failed

/-- A failure to write the temporary file, or to rename it when it has been written. -/
theorem leavesFiles_of_replacing (hrooted : t.IsRooted) (hmore : files.HasMoreDirectories t)
    {failing : Step}
    (h : t.IsFailedBy [.write (r.withExtension temporaryExtension) s.fileText.toUTF8,
      .rename (r.withExtension temporaryExtension) r] failing u) :
    s.LeavesFiles r files u failing := by
  cases h with
  | within failed =>
      cases failed with
      | refused => exact .inl hmore.file?_eq
      | firstBytes _ n free => exact .inr ⟨n, isLeftBeside_put hrooted hmore free _⟩
  | behind done failed =>
      cases ha : Step.filePlace? t (r.withExtension temporaryExtension) with
      | none => simp [Step.run, ha] at done
      | some place =>
          rw [Step.run_write ha] at failed
          cases failed with
          | within failed =>
              cases failed
              exact isLeftBeside_put hrooted hmore ha _
          | behind _ failed => cases failed

/-- Wherever saving fails, it has changed no file but the temporary one. A path that denotes nothing
changes nothing. Otherwise one of the steps fails, for want of a place in the tree or for another
reason. When it is the making of directories, every file is as before. When it is the writing, this
is so too, or the temporary file has a first part of the text. When it is the renaming, the
temporary file has the whole text. -/
theorem failed_save (hrooted : files.IsRooted) (s : Settings) (p : Path) :
    (p.route? = none → (save s files p).tree = files) ∧
    ∀ r, p.route? = some r →
      ((save s files p).done = false →
        ∃ failing, files.IsFailedBy (s.saveSteps r) failing (save s files p).tree) ∧
      ∀ failing u, files.IsFailedBy (s.saveSteps r) failing u →
        s.LeavesFiles r files u failing := by
  refine ⟨fun hnone => by rw [save, hnone], fun r hroute => ⟨fun hfailed => ?_, ?_⟩⟩
  · rw [save_of_route hroute] at hfailed ⊢
    exact exists_isFailedBy_runSteps hfailed
  · intro failing u hfailed
    have hsplit : s.saveSteps r = preparation r ++
        [.write (r.withExtension temporaryExtension) s.fileText.toUTF8,
          .rename (r.withExtension temporaryExtension) r] := rfl
    rw [hsplit] at hfailed
    rcases hfailed.of_append with hfirst | hrest
    · exact leavesFiles_of_preparation hfirst
    · exact leavesFiles_of_replacing (hrooted.runSteps (preparation r))
        (hasMoreDirectories_preparation files r) hrest

/-- A tree with a directory, and with notes where the temporary file for it would be. -/
def notesBeside : FileTree :=
  ⟨[(["c"], .directory), (["c.json.tmp"], .file "notes".toUTF8)], []⟩

theorem isRooted_notesBeside : notesBeside.IsRooted :=
  .of_entries (by decide) (by decide)

/-- Settings cannot be saved over the directory, and the text is left in the place of the notes. -/
theorem failed_save_notesBeside :
    notesBeside.IsRooted ∧ (Path.mk "c").route? = some ⟨false, ["c"]⟩ ∧
      (save default notesBeside ⟨"c"⟩).done = false ∧
      IsLeftBeside ⟨false, ["c"]⟩ (fileText default).toUTF8 notesBeside
        (save default notesBeside ⟨"c"⟩).tree := by
  have hroute : (Path.mk "c").route? = some ⟨false, ["c"]⟩ := by decide
  have hfailed : notesBeside.IsFailedBy ((default : Settings).saveSteps ⟨false, ["c"]⟩)
      (.rename (Route.withExtension ⟨false, ["c"]⟩ temporaryExtension) ⟨false, ["c"]⟩)
      (save default notesBeside ⟨"c"⟩).tree :=
    .behind rfl (.behind rfl (.within (.refused _)))
  have hleaves := (failed_save isRooted_notesBeside default ⟨"c"⟩).2 _ hroute
  exact ⟨isRooted_notesBeside, hroute, by decide, hleaves.2 _ _ hfailed⟩

/-- The text of settings is that of an object. -/
theorem head?_fileText (s : Settings) : s.fileText.toList.head? = some '\x7b' := by
  rw [fileText, Json.pretty, String.toList_ofList]
  rfl

/-- A failed save does not keep every file: the notes are overwritten. -/
theorem not_keeps_files_of_failed_save :
    notesBeside.IsRooted ∧ (save default notesBeside ⟨"c"⟩).done = false ∧
      ¬ ∀ place, (save default notesBeside ⟨"c"⟩).tree.file? place = notesBeside.file? place := by
  refine ⟨isRooted_notesBeside, by decide, fun hkept => ?_⟩
  have hbytes : some (fileText default).toUTF8 = some "notes".toUTF8 := hkept ["c.json.tmp"]
  have htext := congrArg String.fromUTF8? (Option.some.inj hbytes)
  rw [fromUTF8?_toUTF8, fromUTF8?_toUTF8, Option.some.injEq] at htext
  have hhead := head?_fileText default
  rw [htext] at hhead
  exact absurd hhead (by decide)

end Transcription.Settings
