import Transcription.Proofs.FileTree.Change
import Transcription.Proofs.Path.Neighbour

/-!
# Steps

A file is put only where a route ends in a name, in a directory, and where no directory stands. So
every step, and every sequence of steps, leaves a rooted tree rooted.

A step may also fail or be broken off on the way. `Step.MayLeave` says which trees it may leave
then, and `IsLeftBy` which ones a sequence of steps may leave; what the steps leave when nothing
disturbs them is one of these.
-/

namespace Transcription.FileTree

variable {t u : FileTree}

theorem place?_eq_some_iff {r : Route} {place : List String} :
    t.place? r = some place ↔
      r.isWellFormed = true ∧ t.follow (t.origin r) r.names = some place := by
  rw [place?]
  split <;> simp_all

namespace Step

/-- The place for a file is the end of the route, where no directory is asked for or stands. -/
theorem filePlace?_eq_some_iff {r : Route} {place : List String} :
    filePlace? t r = some place ↔
      t.place? r = some place ∧ r.wantsDirectory = false ∧ t.isDirectory place = false := by
  cases hend : t.place? r with
  | none => simp [filePlace?, hend]
  | some q =>
      simp only [filePlace?, hend, Option.some.injEq]
      constructor
      · intro h
        split at h
        · simp at h
        · next hfree =>
          rw [Bool.not_eq_true, Bool.or_eq_false_iff] at hfree
          rw [← Option.some.inj h]
          exact ⟨rfl, hfree⟩
      · rintro ⟨rfl, hwants, hdir⟩
        simp [hwants, hdir]

theorem isDirectory_of_filePlace? {r : Route} {place : List String}
    (h : filePlace? t r = some place) : t.isDirectory place = false :=
  (filePlace?_eq_some_iff.mp h).2.2

/-- What stands at the end of a route that is a place for a file. -/
theorem at?_of_filePlace? {r : Route} {place : List String} (h : filePlace? t r = some place) :
    t.at? r = t.find? place := by
  obtain ⟨hplace, hwants, -⟩ := filePlace?_eq_some_iff.mp h
  rw [at?, hplace, Option.bind_some]
  split <;> simp_all

theorem run_write {r : Route} {place : List String} (h : filePlace? t r = some place)
    (content : ByteArray) : (Step.write r content).run t = ⟨t.put place (.file content), true⟩ := by
  simp only [run, h]

theorem run_rename {source target : Route} {a b : List String} {e : Entry}
    (ha : filePlace? t source = some a) (hb : filePlace? t target = some b)
    (hfind : t.find? a = some e) :
    (Step.rename source target).run t = ⟨(t.remove a).put b e, true⟩ := by
  simp only [run, ha, hb, hfind]

/-- Only a file is renamed. -/
theorem exists_of_rename_done {source target : Route}
    (h : ((Step.rename source target).run t).done = true) :
    ∃ a b content, filePlace? t source = some a ∧ filePlace? t target = some b ∧
      t.find? a = some (.file content) := by
  rw [run] at h
  split at h
  · next a b ha hb =>
    have hfree := isDirectory_of_filePlace? ha
    cases hfind : t.find? a with
    | none => simp [hfind] at h
    | some e =>
        cases e with
        | directory => simp [isDirectory, hfind] at hfree
        | file content => exact ⟨a, b, content, ha, hb, hfind⟩
  · simp at h

/-- A renaming that is refused leaves everything as it was. -/
theorem run_rename_of_refused {source target : Route}
    (h : ((Step.rename source target).run t).done ≠ true) :
    ((Step.rename source target).run t).tree = t := by
  rw [run] at h ⊢
  split
  · split
    · simp_all
    · rfl
  · rfl

theorem hasMoreDirectories_run_makeDirectories (t : FileTree) (r : Route) :
    t.HasMoreDirectories ((Step.makeDirectories r).run t).tree := by
  rw [run]
  split
  · exact hasMoreDirectories_makeAlong t _ _
  · exact .refl t

/-- Where the directories of a route have been made, making them again changes nothing. -/
theorem run_makeDirectories_of_done {r : Route} (h : ((Step.makeDirectories r).run t).done = true)
    (hdirs : ∀ q, ((Step.makeDirectories r).run t).tree.isDirectory q = true →
      u.isDirectory q = true)
    (hworking : u.workingDirectory = t.workingDirectory) :
    (Step.makeDirectories r).run u = ⟨u, true⟩ := by
  rw [run] at h hdirs ⊢
  by_cases hformed : r.isWellFormed = true
  · rw [if_pos hformed] at h hdirs ⊢
    have horigin : u.origin r = t.origin r := by
      rw [origin, origin, hworking]
    rw [horigin]
    exact makeAlong_of_done h hdirs
  · simp [hformed] at h

end Step

/-! ### Rooted trees stay rooted -/

theorem IsRooted.isDirectory_origin (h : t.IsRooted) (r : Route) :
    t.isDirectory (t.origin r) = true := by
  rw [origin]
  split
  · exact t.isDirectory_nil
  · exact h.workingDirectory

/-- In a rooted tree a place for a file is in a directory, under a name that is no double dot. -/
theorem IsRooted.exists_of_filePlace? (h : t.IsRooted) {r : Route} {place : List String}
    (hplace : Step.filePlace? t r = some place) :
    ∃ dir name d, r.names = dir ++ [name] ∧ name ≠ ".." ∧ t.follow (t.origin r) dir = some d ∧
      t.isDirectory d = true ∧ place = d ++ [name] := by
  obtain ⟨hend, -, hfree⟩ := Step.filePlace?_eq_some_iff.mp hplace
  obtain ⟨-, hfollow⟩ := place?_eq_some_iff.mp hend
  rcases List.eq_nil_or_concat' r.names with hnil | ⟨dir, name, hnames⟩
  · -- the place would be the directory where the route begins
    rw [hnil, follow, Option.some.injEq] at hfollow
    rw [← hfollow, h.isDirectory_origin] at hfree
    exact absurd hfree (by decide)
  · rw [hnames] at hfollow
    obtain ⟨d, hd, hdir, heq⟩ := exists_of_follow_concat hfollow
    by_cases hdots : name = ".."
    · rw [if_pos hdots] at heq
      rw [heq, h.isDirectory_dropLast hdir] at hfree
      exact absurd hfree (by decide)
    · rw [if_neg hdots] at heq
      exact ⟨dir, name, d, hnames, hdots, hd, hdir, heq⟩

theorem IsRooted.isDirectory_dropLast_of_filePlace? (h : t.IsRooted) {r : Route}
    {place : List String} (hplace : Step.filePlace? t r = some place) :
    t.isDirectory place.dropLast = true := by
  obtain ⟨dir, name, d, -, -, -, hdir, rfl⟩ := h.exists_of_filePlace? hplace
  rwa [List.dropLast_concat]

/-- A step leaves a rooted tree rooted. -/
theorem IsRooted.run (h : t.IsRooted) (step : Step) : (step.run t).tree.IsRooted := by
  cases step with
  | makeDirectories r =>
      rw [Step.run]
      split
      · exact h.makeAlong _ _
      · exact h
  | write r content =>
      cases ha : Step.filePlace? t r with
      | none => simpa only [Step.run, ha] using h
      | some a =>
          rw [Step.run_write ha]
          exact h.put_file (h.isDirectory_dropLast_of_filePlace? ha)
            (Step.isDirectory_of_filePlace? ha) content
  | rename source target =>
      by_cases hdone : ((Step.rename source target).run t).done = true
      · obtain ⟨a, b, content, ha, hb, hfind⟩ := Step.exists_of_rename_done hdone
        have hfree := isDirectory_eq_false_of_file hfind
        have hsame := hasSameDirectories_remove hfree
        rw [Step.run_rename ha hb hfind]
        refine (h.remove hfree).put_file ?_ ?_ content
        · rw [← hsame.isDirectory]
          exact h.isDirectory_dropLast_of_filePlace? hb
        · rw [← hsame.isDirectory]
          exact Step.isDirectory_of_filePlace? hb
      · rwa [Step.run_rename_of_refused hdone]

/-- Steps leave a rooted tree rooted. -/
theorem IsRooted.runSteps (h : t.IsRooted) (steps : List Step) :
    (t.runSteps steps).tree.IsRooted := by
  induction steps generalizing t with
  | nil => exact h
  | cons step steps ih =>
      rw [FileTree.runSteps]
      split
      · exact ih (h.run step)
      · exact h.run step

/-! ### Sequences of steps -/

theorem runSteps_singleton (t : FileTree) (step : Step) : t.runSteps [step] = step.run t := by
  rw [runSteps]
  split
  · next hdone => exact congrArg (Outcome.mk (step.run t).tree) hdone.symm
  · rfl

theorem runSteps_append (t : FileTree) (xs ys : List Step) :
    t.runSteps (xs ++ ys) =
      if (t.runSteps xs).done then (t.runSteps xs).tree.runSteps ys else t.runSteps xs := by
  induction xs generalizing t with
  | nil => rfl
  | cons x xs ih =>
      rw [List.cons_append, runSteps, runSteps]
      by_cases hdone : (x.run t).done = true
      · simp only [hdone, if_true, ih]
      · simp [hdone]

/-! ### Steps that are broken off -/

/-- The trees that a step may leave, when it fails or is broken off as well as when it is carried
out. -/
inductive Step.MayLeave (t : FileTree) : Step → FileTree → Prop
  | nothing (step : Step) : MayLeave t step t
  /-- Directories are made from the top down. -/
  | firstDirectories {r : Route} (n : Nat) (formed : r.isWellFormed = true) :
      MayLeave t (.makeDirectories r) (t.makeAlong (t.origin r) (r.names.take n)).tree
  /-- The file is emptied, and then filled. -/
  | firstBytes {r : Route} {place : List String} (content : ByteArray) (n : Nat)
      (free : filePlace? t r = some place) :
      MayLeave t (.write r content) (t.put place (.file (content.extract 0 n)))
  | carriedOut (step : Step) : MayLeave t step (step.run t).tree

/-- The trees that steps may leave: any number of them are carried out, and then one is broken
off. -/
inductive IsLeftBy : FileTree → List Step → FileTree → Prop
  | finished (t : FileTree) : IsLeftBy t [] t
  | within {t u : FileTree} {step : Step} {steps : List Step} (left : step.MayLeave t u) :
      IsLeftBy t (step :: steps) u
  | behind {t u : FileTree} {step : Step} {steps : List Step} (done : (step.run t).done = true)
      (left : IsLeftBy (step.run t).tree steps u) : IsLeftBy t (step :: steps) u

/-- What steps leave by themselves is one of the trees that they may leave. -/
theorem isLeftBy_runSteps (t : FileTree) (steps : List Step) :
    IsLeftBy t steps (t.runSteps steps).tree := by
  induction steps generalizing t with
  | nil => exact .finished t
  | cons step steps ih =>
      rw [runSteps]
      by_cases hdone : (step.run t).done = true
      · simp only [hdone, if_true]
        exact .behind hdone (ih _)
      · simp only [hdone]
        exact .within (.carriedOut step)

/-- Steps are broken off among the first ones or go on behind them. -/
theorem IsLeftBy.of_append {xs ys : List Step} (h : IsLeftBy t (xs ++ ys) u) :
    IsLeftBy t xs u ∨ IsLeftBy (t.runSteps xs).tree ys u := by
  induction xs generalizing t with
  | nil => exact .inr h
  | cons x xs ih =>
      cases h with
      | within left => exact .inl (.within left)
      | behind done left =>
          rw [runSteps]
          simp only [done, if_true]
          rcases ih left with hfirst | hrest
          · exact .inl (.behind done hfirst)
          · exact .inr hrest

/-! ### What stands at the end of a route -/

theorem at?_congr {r : Route} (h : (u.place? r).bind u.find? = (t.place? r).bind t.find?) :
    u.at? r = t.at? r := by
  rw [at?, at?, h]

/-- Putting a file elsewhere keeps what stands at the end of a route. -/
theorem at?_put_file {r : Route} {place : List String} (hfree : t.isDirectory place = false)
    (hne : t.place? r ≠ some place) (content : ByteArray) :
    (t.put place (.file content)).at? r = t.at? r := by
  refine at?_congr ?_
  rw [← (hasSameDirectories_put_file hfree content).place?_eq]
  cases hplace : t.place? r with
  | none => rfl
  | some q =>
      rw [Option.bind_some, Option.bind_some, find?_put_of_ne]
      rintro rfl
      exact hne hplace

/-- Making directories above the end of a route, where the route has no double dot, keeps what
stands at its end. -/
theorem at?_makeAlong_parent (hrooted : t.IsRooted) {r d : Route} (hparent : r.parent? = some d)
    (hdots : ".." ∉ r.names) (n : Nat) :
    (t.makeAlong (t.origin d) (d.names.take n)).tree.at? r = t.at? r := by
  obtain ⟨habsolute, name, hnames⟩ := Route.names_parent? hparent
  have hmade := hrooted.makeAlong (t.origin d) (d.names.take n)
  have hmore := hasMoreDirectories_makeAlong t (t.origin d) (d.names.take n)
  have horigin : t.origin d = t.origin r := by
    rw [origin, origin, habsolute]
  have hbeyond : (t.makeAlong (t.origin d) (d.names.take n)).tree.find? (t.origin r ++ r.names) =
      t.find? (t.origin r ++ r.names) := by
    refine find?_makeAlong_of_length_lt t ?_
    have htake := List.length_take_le' n d.names
    rw [horigin, hnames]
    simp only [List.length_append, List.length_singleton]
    omega
  refine at?_congr ?_
  rw [place?, place?, hmore.origin_eq]
  split
  · rw [hmade.bind_follow hdots, hrooted.bind_follow hdots, hbeyond]
  · rfl

end Transcription.FileTree
