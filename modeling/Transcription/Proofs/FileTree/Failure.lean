import Transcription.Proofs.FileTree.Steps

/-!
# Steps that fail

A step that fails is refused at once, or it has been carried out in part by then: directories have
been made from the top down, or a file has got a first part of its content. The steps before it have
been carried out, and the steps behind it are not begun. A step that the tree itself does not allow
is one of those that fail.
-/

namespace Transcription.FileTree

variable {t u : FileTree} {step failing : Step} {steps : List Step}

/-- The trees that a step may leave when it fails, for whatever reason. -/
inductive Step.MayFail (t : FileTree) : Step → FileTree → Prop
  | refused (step : Step) : MayFail t step t
  | firstDirectories {r : Route} (n : Nat) (formed : r.isWellFormed = true) :
      MayFail t (.makeDirectories r) (t.makeAlong (t.origin r) (r.names.take n)).tree
  | firstBytes {r : Route} {place : List String} (content : ByteArray) (n : Nat)
      (free : filePlace? t r = some place) :
      MayFail t (.write r content) (t.put place (.file (content.extract 0 n)))

/-- The trees that steps may leave when one of them fails. -/
inductive IsFailedBy : FileTree → List Step → Step → FileTree → Prop
  | within {t u : FileTree} {step : Step} {steps : List Step} (failed : step.MayFail t u) :
      IsFailedBy t (step :: steps) step u
  | behind {t u : FileTree} {step failing : Step} {steps : List Step}
      (done : (step.run t).done = true) (failed : IsFailedBy (step.run t).tree steps failing u) :
      IsFailedBy t (step :: steps) failing u

/-- A step that the tree does not allow fails. -/
theorem Step.mayFail_run (h : (step.run t).done ≠ true) : step.MayFail t (step.run t).tree := by
  cases step with
  | makeDirectories r =>
      rw [run]
      by_cases hformed : r.isWellFormed = true
      · rw [if_pos hformed]
        have hall := MayFail.firstDirectories (t := t) r.names.length hformed
        rwa [List.take_length] at hall
      · rw [if_neg hformed]
        exact .refused _
  | write r content =>
      cases ha : filePlace? t r with
      | none =>
          simp only [run, ha]
          exact .refused _
      | some a =>
          rw [run_write ha] at h
          exact absurd rfl h
  | rename source target =>
      rw [run_rename_of_refused h]
      exact .refused _

/-- Steps that end too early have been ended by one that fails. -/
theorem exists_isFailedBy_runSteps (h : (t.runSteps steps).done = false) :
    ∃ failing, IsFailedBy t steps failing (t.runSteps steps).tree := by
  induction steps generalizing t with
  | nil => exact absurd h (by simp)
  | cons step steps ih =>
      rw [runSteps] at h ⊢
      by_cases hdone : (step.run t).done = true
      · simp only [hdone, if_true] at h ⊢
        obtain ⟨failing, hfailed⟩ := ih h
        exact ⟨failing, .behind hdone hfailed⟩
      · simp only [hdone]
        exact ⟨step, .within (Step.mayFail_run hdone)⟩

/-- The step that fails is among the first ones, or these are carried out and it comes behind
them. -/
theorem IsFailedBy.of_append {xs ys : List Step} (h : IsFailedBy t (xs ++ ys) failing u) :
    IsFailedBy t xs failing u ∨ IsFailedBy (t.runSteps xs).tree ys failing u := by
  induction xs generalizing t with
  | nil => exact .inr h
  | cons x xs ih =>
      cases h with
      | within failed => exact .inl (.within failed)
      | behind done failed =>
          rw [runSteps]
          simp only [done, if_true]
          rcases ih failed with hfirst | hrest
          · exact .inl (.behind done hfirst)
          · exact .inr hrest

/-! ### The files behind a failure -/

theorem file?_put_self {place : List String} (h : place ≠ []) (content : ByteArray) :
    (t.put place (.file content)).file? place = some content := by
  rw [file?, t.find?_put_self h]

theorem file?_put_of_ne {place other : List String} (h : other ≠ place) (e : Entry) :
    (t.put place e).file? other = t.file? other := by
  rw [file?, file?, t.find?_put_of_ne h]

/-- Failing to make directories keeps the files. -/
theorem Step.MayFail.file?_of_makeDirectories {r : Route}
    (h : (Step.makeDirectories r).MayFail t u) (place : List String) :
    u.file? place = t.file? place := by
  cases h with
  | refused => rfl
  | firstDirectories n => exact (hasMoreDirectories_makeAlong t _ _).file?_eq place

end Transcription.FileTree
