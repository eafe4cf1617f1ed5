import Transcription.Proofs.CommandLine.Arguments

/-!
# The flag for a report

The arguments are read from left to right, and whether a report is asked for is noted on the way and
looked at only when it is asked for again. So where the flag for a report stands among arguments
that do not have it, at a place where an option is read, they ask for the same as without it, but
for a report.
-/

namespace Transcription.CommandLine

namespace Options

/-- The options with the report asked for or not. -/
def withDetailed (o : Options) (b : Bool) : Options := { o with detailed := b }

/-- The effect with the report asked for or not. -/
def Effect.withDetailed (b : Bool) : Effect → Effect
  | .options o => .options (o.withDetailed b)
  | e => e

end Options

/-- The request with the report asked for or not. -/
def Request.withDetailed (r : Request) (b : Bool) : Request :=
  match r with
  | .run o => .run (o.withDetailed b)
  | r => r

/-- The argument that asks for a report. -/
def detailedFlag : String := "--detailed"

namespace Options

variable {o : Options} {b : Bool}

theorem withCurrency?_withDetailed (symbol : List Char) :
    (o.withDetailed b).withCurrency? symbol =
      (o.withCurrency? symbol).map fun o => o.withDetailed b := by
  rw [withCurrency?, withCurrency?, withDetailed]
  split <;> rfl

theorem withFile?_withDetailed (name : List Char) :
    (o.withDetailed b).withFile? name = (o.withFile? name).map fun o => o.withDetailed b := by
  rw [withFile?, withFile?, withDetailed]
  split <;> rfl

theorem finish_withDetailed : (o.withDetailed b).finish = o.finish.withDetailed b := by
  rw [finish, finish, withDetailed]
  split <;> rfl

theorem ofOption_map_withDetailed (o? : Option Options) :
    Effect.ofOption (o?.map fun o => o.withDetailed b) = (Effect.ofOption o?).withDetailed b := by
  cases o? <;> rfl

theorem readFiles_withDetailed (args : List String) :
    (o.withDetailed b).readFiles args = (o.readFiles args).withDetailed b := by
  induction args generalizing o with
  | nil => exact finish_withDetailed
  | cons arg args ih =>
      rw [readFiles, readFiles, withFile?_withDetailed]
      cases o.withFile? arg.toList with
      | none => rfl
      | some taken => exact ih

/-- Whether a report was asked for matters to no item but to the one that asks for it. -/
theorem take?_withDetailed {i : Item} (h : i ≠ .detailed) :
    (o.withDetailed b).take? i = (o.take? i).map fun o => o.withDetailed b := by
  cases i with
  | currency symbol => exact withCurrency?_withDetailed symbol.toList
  | auto | naive =>
      rw [take?, take?, flag?, flag?, withDetailed]
      split <;> rfl
  | detailed => exact absurd rfl h
  | file name => exact withFile?_withDetailed name.toList

theorem effect_withDetailed {arg : String} (h : arg ≠ detailedFlag) :
    (o.withDetailed b).effect arg.toList = (o.effect arg.toList).withDetailed b := by
  obtain ⟨f, hform, heffect⟩ := exists_isArgument arg
  rw [heffect, heffect]
  cases hform with
  | @item i _ hwritten =>
      have hother : i ≠ .detailed := by
        rintro rfl
        cases hwritten
        exact h rfl
      dsimp only
      rw [take?_withDetailed hother, ofOption_map_withDetailed]
  | currency | endOfOptions | version | help | misused => rfl

/-- What an argument does when it is not the flag. -/
theorem effect_withDetailed_of_not_mem {arg : String} {args : List String}
    (h : detailedFlag ∉ arg :: args) {e : Effect} (heffect : o.effect arg.toList = e) :
    (o.withDetailed b).effect arg.toList = e.withDetailed b := by
  have hne : arg ≠ detailedFlag := fun heq => h (List.mem_cons.mpr (.inl heq.symm))
  rw [effect_withDetailed hne, heffect]

/-- Arguments without the flag are read in the same way whether a report has been asked for or
not. -/
theorem read_withDetailed (o : Options) {args : List String} (h : detailedFlag ∉ args) :
    (o.withDetailed b).read args = (o.read args).withDetailed b := by
  induction o, args using read.induct with
  | case1 o => exact finish_withDetailed
  | case2 o arg args next heffect ih =>
      have hrest : detailedFlag ∉ args := fun hmem => h (List.mem_cons_of_mem arg hmem)
      rw [read_cons_of_options heffect,
        read_cons_of_options (effect_withDetailed_of_not_mem h heffect)]
      exact ih hrest
  | case3 o arg args heffect =>
      unfold read
      simp only [effect_withDetailed_of_not_mem h heffect, heffect]
      exact readFiles_withDetailed args
  | case4 o arg args heffect | case5 o arg args heffect | case6 o arg args heffect
  | case7 o arg heffect =>
      unfold read
      simp only [effect_withDetailed_of_not_mem h heffect, heffect]
      rfl
  | case8 o arg heffect value args hlike =>
      rw [read, read, effect_withDetailed_of_not_mem h heffect, heffect]
      simp only [Effect.withDetailed, hlike, if_true]
      rfl
  | case9 o arg heffect value args hlike next hnext ih =>
      have hrest : detailedFlag ∉ args := fun hmem =>
        h (List.mem_cons_of_mem arg (List.mem_cons_of_mem value hmem))
      rw [read, read, effect_withDetailed_of_not_mem h heffect, heffect]
      simp only [Effect.withDetailed, hlike, withCurrency?_withDetailed, hnext]
      exact ih hrest
  | case10 o arg heffect value args hlike hnone =>
      rw [read, read, effect_withDetailed_of_not_mem h heffect, heffect]
      simp only [Effect.withDetailed, hlike, withCurrency?_withDetailed, hnone]
      rfl

/-- Arguments are read as options, one after another, and lead from options to options. -/
inductive Reads : Options → List String → Options → Prop
  | nil (o : Options) : Reads o [] o
  | option {o next last : Options} {arg : String} {args : List String}
      (effect : o.effect arg.toList = .options next) (rest : Reads next args last) :
      Reads o (arg :: args) last
  | currency {o next last : Options} {arg value : String} {args : List String}
      (effect : o.effect arg.toList = .awaitCurrency)
      (isValue : isOptionLike value.toList = false)
      (taken : o.withCurrency? value.toList = some next) (rest : Reads next args last) :
      Reads o (arg :: value :: args) last

namespace Reads

variable {last : Options} {before : List String}

/-- What comes behind is read with the options so far. -/
theorem read_append (h : o.Reads before last) (after : List String) :
    o.read (before ++ after) = last.read after := by
  induction h with
  | nil o => rfl
  | option heffect _ ih => rw [List.cons_append, read_cons_of_options heffect, ih]
  | currency heffect hvalue htaken _ ih =>
      rw [List.cons_append, List.cons_append, read, heffect, ← ih]
      simp only [hvalue, Bool.false_eq_true, if_false, htaken]

/-- Arguments without the flag do not ask for a report. -/
theorem detailed_eq (h : o.Reads before last) (hflag : detailedFlag ∉ before) :
    last.detailed = o.detailed := by
  induction h with
  | nil o => rfl
  | @option o next _ arg args heffect _ ih =>
      have hrest : detailedFlag ∉ args := fun hmem => hflag (List.mem_cons_of_mem arg hmem)
      have hself := effect_withDetailed_of_not_mem (b := o.detailed) hflag heffect
      have hnext : next = next.withDetailed o.detailed :=
        Effect.options.inj (heffect.symm.trans hself)
      rw [ih hrest, hnext]
      rfl
  | @currency o next _ arg value args heffect _ htaken _ ih =>
      have hrest : detailedFlag ∉ args := fun hmem =>
        hflag (List.mem_cons_of_mem arg (List.mem_cons_of_mem value hmem))
      obtain ⟨-, rfl⟩ := withCurrency?_eq_some_iff.mp htaken
      exact ih hrest

end Reads

/-- The flag asks for a report when none has been asked for. -/
theorem effect_detailedFlag (h : o.detailed = false) :
    o.effect detailedFlag.toList = .options (o.withDetailed true) := by
  have hwritten : Item.detailed.IsWritten detailedFlag := .detailed
  rw [effect_of_isWritten hwritten, take?, h]
  rfl

end Options

/-- The flag, put where an option is read, asks for a report and changes nothing else. -/
theorem request_insert_detailedFlag {before after : List String} {o : Options}
    (hbefore : Options.none.Reads before o) (hflag : detailedFlag ∉ before ++ after) :
    request (before ++ after) = (request (before ++ after)).withDetailed false ∧
      request (before ++ detailedFlag :: after) =
        (request (before ++ after)).withDetailed true := by
  obtain ⟨hfirst, hrest⟩ : detailedFlag ∉ before ∧ detailedFlag ∉ after := by
    rwa [List.mem_append, not_or] at hflag
  constructor
  · exact Options.none.read_withDetailed hflag
  · have heffect := Options.effect_detailedFlag (hbefore.detailed_eq hfirst)
    rw [request, request, hbefore.read_append, hbefore.read_append,
      Options.read_cons_of_options heffect, Options.read_withDetailed o hrest]

end Transcription.CommandLine
