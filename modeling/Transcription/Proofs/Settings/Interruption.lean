import Transcription.Proofs.Settings.Save

/-!
# Saving that is broken off

Each step of saving may fail or be broken off: directories are then made in part, and of the
temporary file any first part may have been written; a renaming is carried out or not. Wherever
saving ends, the settings file is as it was before or has the whole new text, so loading never
meets half a text. This rests on the two files being different, and on the directories that are made
being above the settings file.
-/

namespace Transcription.Settings

open FileTree

variable {files u : FileTree} {p : Path} {r : Route} {s : Settings}

/-- Making the directories for a file keeps what stands at the end of the route to the file. -/
theorem at?_of_isLeftBy_preparation (hrooted : files.IsRooted) (hdots : ".." ∉ r.names)
    (h : files.IsLeftBy (preparation r) u) : u.at? r = files.at? r := by
  rcases preparation_cases r with hsteps | ⟨d, hparent, hsteps⟩
  · rw [hsteps] at h
    cases h
    rfl
  · have hrun : ((Step.makeDirectories d).run files).tree.at? r = files.at? r := by
      rw [Step.run]
      split
      · have hmade := at?_makeAlong_parent hrooted hparent hdots d.names.length
        rwa [List.take_length] at hmade
      · rfl
    rw [hsteps] at h
    cases h with
    | within left =>
        cases left with
        | nothing => rfl
        | firstDirectories n => exact at?_makeAlong_parent hrooted hparent hdots n
        | carriedOut => exact hrun
    | behind done left =>
        cases left
        exact hrun

/-- Whatever is written of the temporary file, what stands at the end of the route is kept. -/
theorem at?_of_mayLeave_write {t : FileTree} (hrooted : t.IsRooted) {content : ByteArray}
    (h : (Step.write (r.withExtension temporaryExtension) content).MayLeave t u) :
    u.at? r = t.at? r := by
  have hput : ∀ {a}, Step.filePlace? t (r.withExtension temporaryExtension) = some a →
      ∀ bytes, (t.put a (.file bytes)).at? r = t.at? r := by
    intro a ha bytes
    exact at?_put_file (Step.isDirectory_of_filePlace? ha)
      (fun hend => ne_of_filePlace?_temporary hrooted ha hend rfl) bytes
  cases h with
  | nothing => rfl
  | firstBytes _ n free => exact hput free _
  | carriedOut =>
      cases ha : Step.filePlace? t (r.withExtension temporaryExtension) with
      | none => simp only [Step.run, ha]
      | some a =>
          rw [Step.run_write ha]
          exact hput ha content

/-- Renaming what has been written puts it at the end of the route, or is refused. -/
theorem at?_run_rename {t written : FileTree} (hrooted : t.IsRooted) {content : ByteArray}
    (hwritten : (Step.write (r.withExtension temporaryExtension) content).run t = ⟨written, true⟩) :
    ((Step.rename (r.withExtension temporaryExtension) r).run written).tree.at? r = t.at? r ∨
      ((Step.rename (r.withExtension temporaryExtension) r).run written).tree.at? r =
        some (.file content) := by
  have hsteps : t.runSteps [.write (r.withExtension temporaryExtension) content,
      .rename (r.withExtension temporaryExtension) r] =
      (Step.rename (r.withExtension temporaryExtension) r).run written := by
    rw [runSteps, hwritten]
    exact runSteps_singleton _ _
  by_cases hrenamed :
      ((Step.rename (r.withExtension temporaryExtension) r).run written).done = true
  · right
    rw [← hsteps] at hrenamed ⊢
    obtain ⟨a, b, ha, hb⟩ := exists_of_write_rename_done content hrenamed
    rw [runSteps_write_rename content ha hb, at?_replaced_target content ha hb]
  · left
    have hcarried := Step.MayLeave.carriedOut (t := t)
      (.write (r.withExtension temporaryExtension) content)
    rw [hwritten] at hcarried
    rw [Step.run_rename_of_refused hrenamed, at?_of_mayLeave_write hrooted hcarried]

/-- Writing the temporary file and renaming it keeps what stands at the end of the route, or puts
the whole text there. -/
theorem at?_of_isLeftBy_replacing {t : FileTree} (hrooted : t.IsRooted) {content : ByteArray}
    (h : t.IsLeftBy [.write (r.withExtension temporaryExtension) content,
      .rename (r.withExtension temporaryExtension) r] u) :
    u.at? r = t.at? r ∨ u.at? r = some (.file content) := by
  cases h with
  | within left => exact .inl (at?_of_mayLeave_write hrooted left)
  | behind done left =>
      have hwritten := congrArg (Outcome.mk
        (Step.run t (.write (r.withExtension temporaryExtension) content)).tree) done
      cases left with
      | within left =>
          cases left with
          | nothing => exact .inl (at?_of_mayLeave_write hrooted (.carriedOut _))
          | carriedOut => exact at?_run_rename hrooted hwritten
      | behind done' left =>
          cases left
          exact at?_run_rename hrooted hwritten

/-- Wherever the steps of saving end, what stands at the end of the route is as before, or it is the
whole text. -/
theorem at?_of_isLeftBy_saveSteps (hrooted : files.IsRooted) (hdots : ".." ∉ r.names)
    (h : files.IsLeftBy (s.saveSteps r) u) :
    u.at? r = files.at? r ∨ u.at? r = some (.file s.fileText.toUTF8) := by
  have hsplit : s.saveSteps r = preparation r ++
      [.write (r.withExtension temporaryExtension) s.fileText.toUTF8,
        .rename (r.withExtension temporaryExtension) r] := rfl
  rw [hsplit] at h
  rcases h.of_append with hfirst | hrest
  · exact .inl (at?_of_isLeftBy_preparation hrooted hdots hfirst)
  · have hprepared : (files.runSteps (preparation r)).tree.at? r = files.at? r :=
      at?_of_isLeftBy_preparation hrooted hdots (isLeftBy_runSteps files (preparation r))
    rw [← hprepared]
    exact at?_of_isLeftBy_replacing (hrooted.runSteps (preparation r)) hrest

/-- The trees that saving may leave, wherever it fails or is broken off. -/
def MayLeave (s : Settings) (files : FileTree) (p : Path) (u : FileTree) : Prop :=
  match p.route? with
  | none => u = files
  | some r => files.IsLeftBy (s.saveSteps r) u

/-- What saving leaves by itself is one of the trees that it may leave. -/
theorem mayLeave_save (s : Settings) (files : FileTree) (p : Path) :
    s.MayLeave files p (save s files p).tree := by
  rw [MayLeave, save]
  cases p.route? with
  | none => rfl
  | some r => exact isLeftBy_runSteps files (s.saveSteps r)

/-- Saving is all or nothing for a reader. Wherever it ends, the file at the path is as it was, and
what was loaded from it before is loaded, or the file has the whole new text, and the new settings
are loaded from it. -/
theorem save_all_or_nothing (hrooted : files.IsRooted)
    (hdots : ∀ r, p.route? = some r → ".." ∉ r.names) (hleft : s.MayLeave files p u) :
    (u.read p = files.read p ∧ load u p = load files p) ∨
      (u.read p = .content s.fileText.toUTF8 ∧ load u p = .ok s) := by
  have hread : u.read p = files.read p ∨ u.read p = .content s.fileText.toUTF8 := by
    rw [MayLeave] at hleft
    rw [FileTree.read, FileTree.read]
    cases hroute : p.route? with
    | none => exact .inl rfl
    | some r =>
        rw [hroute] at hleft
        rcases at?_of_isLeftBy_saveSteps hrooted (hdots r hroute) hleft with hkept | hnew
        · exact .inl (by rw [Option.bind_some, Option.bind_some, hkept])
        · exact .inr (by rw [Option.bind_some, hnew])
  rcases hread with hkept | hnew
  · exact .inl ⟨hkept, by rw [load, load, hkept]⟩
  · exact .inr ⟨hnew, load_of_fileText hnew⟩

/-- The tree with the notes, after four bytes of the text of the default settings have been written
to the temporary file beside them. -/
def cutTree : FileTree :=
  notesFile.put ["notes.json.tmp"] (.file ((fileText default).toUTF8.extract 0 4))

/-- Settings that are saved over the notes leave the notes alone when they are broken off there. -/
theorem save_all_or_nothing_cutTree :
    notesFile.IsRooted ∧ (∀ r, (Path.mk "notes.txt").route? = some r → ".." ∉ r.names) ∧
      (default : Settings).MayLeave notesFile ⟨"notes.txt"⟩ cutTree ∧
      ((cutTree.read ⟨"notes.txt"⟩ = notesFile.read ⟨"notes.txt"⟩ ∧
          load cutTree ⟨"notes.txt"⟩ = load notesFile ⟨"notes.txt"⟩) ∨
        (cutTree.read ⟨"notes.txt"⟩ = .content (fileText default).toUTF8 ∧
          load cutTree ⟨"notes.txt"⟩ = .ok default)) := by
  have hroute : (Path.mk "notes.txt").route? = some ⟨false, ["notes.txt"]⟩ := by decide
  have hdots : ∀ r, (Path.mk "notes.txt").route? = some r → ".." ∉ r.names := by decide
  have hleft : (default : Settings).MayLeave notesFile ⟨"notes.txt"⟩ cutTree := by
    rw [MayLeave, hroute]
    exact .behind rfl (.within (.firstBytes _ 4 rfl))
  exact ⟨isRooted_notesFile, hdots, hleft, save_all_or_nothing isRooted_notesFile hdots hleft⟩

end Transcription.Settings
