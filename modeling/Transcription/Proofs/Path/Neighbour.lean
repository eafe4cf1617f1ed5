import Transcription.Path
import Mathlib.Data.List.DropRight

/-!
# The neighbour of a route and the directory around it

The names of a route are followed one by one, and idle pieces lead nowhere, so two routes are
compared by their names. A route that ends in a file name has a neighbour for every extension: the
names on the way are the same and the last one differs, whatever dots the name has, as long as the
new extension has a dot of its own. Where a route ends in no file name, neither does its neighbour.
-/

namespace Transcription.Route

/-- The extension of a name is not one that has a dot in it, so putting on such an extension changes
the name. -/
theorem stem_append_ne {name extension : String} (hdot : '.' ∈ extension.toList) :
    stem name ++ "." ++ extension ≠ name := by
  intro heq
  have hchars : (stem name).toList ++ '.' :: extension.toList = name.toList := by
    have := congrArg String.toList heq
    simpa using this
  by_cases hfront : ((name.toList.reverse.dropWhile (· != '.')).drop 1).isEmpty = true
  · -- the name has no extension, and the new one makes it longer
    rw [stem, if_pos hfront] at hchars
    have hlength := congrArg List.length hchars
    simp at hlength
  · -- the name is its stem, a dot, and characters that are no dot
    rw [stem, if_neg hfront, String.toList_ofList] at hchars
    cases hback : name.toList.reverse.dropWhile (· != '.') with
    | nil => simp [hback] at hfront
    | cons c front =>
        have hc : c = '.' := by
          have hhead := List.head?_dropWhile_not (· != '.') name.toList.reverse
          simpa [hback] using hhead
        have hname : name.toList = front.reverse ++
            '.' :: (name.toList.reverse.takeWhile (· != '.')).reverse := by
          have hsplit :=
            List.takeWhile_append_dropWhile (p := (· != '.')) (l := name.toList.reverse)
          rw [hback, hc] at hsplit
          simpa using (congrArg List.reverse hsplit).symm
        rw [hback, List.drop_one, List.tail_cons] at hchars
        have htail := List.append_cancel_left (hchars.trans hname)
        rw [(List.cons.inj htail).2, List.mem_reverse] at hdot
        simpa using List.mem_takeWhile_imp hdot

/-- Pieces have no name at all, or they are kept up to the last of their names. -/
theorem upToName_cases (pieces : List String) :
    (upToName pieces = [] ∧ pieces.filter (fun piece => !isIdle piece) = []) ∨
    ∃ trunk name, upToName pieces = trunk ++ [name] ∧ isIdle name = false ∧
      pieces.filter (fun piece => !isIdle piece) =
        trunk.filter (fun piece => !isIdle piece) ++ [name] := by
  induction pieces using List.reverseRecOn with
  | nil => exact .inl ⟨rfl, rfl⟩
  | append_singleton pieces piece ih =>
      have hkeep : upToName (pieces ++ [piece]) =
          if isIdle piece then upToName pieces else pieces ++ [piece] :=
        List.rdropWhile_concat isIdle pieces piece
      rw [hkeep, List.filter_append]
      by_cases hidle : isIdle piece = true
      · simpa [hidle] using ih
      · right
        exact ⟨pieces, piece, by simp [hidle], by simpa using hidle, by simp [hidle]⟩

theorem names_upToName (pieces : List String) :
    (upToName pieces).filter (fun piece => !isIdle piece) =
      pieces.filter fun piece => !isIdle piece := by
  rcases upToName_cases pieces with ⟨hkept, hnames⟩ | ⟨trunk, name, hkept, hname, hnames⟩
  · rw [hkept, hnames, List.filter_nil]
  · rw [hkept, hnames, List.filter_append]
    simp [hname]

/-- The directory around the end of a route is reached by the names before the last one. -/
theorem names_parent? {r d : Route} (h : r.parent? = some d) :
    d.absolute = r.absolute ∧ ∃ name, r.names = d.names ++ [name] := by
  rcases upToName_cases r.pieces with ⟨hkept, -⟩ | ⟨trunk, name, hkept, -, hnames⟩
  · simp [parent?, hkept] at h
  · have hnonempty : (trunk ++ [name]).isEmpty = false := by simp
    rw [parent?, hkept, List.dropLast_concat] at h
    simp only [hnonempty, Bool.false_eq_true, if_false, Option.some.injEq] at h
    subst h
    exact ⟨rfl, name, by rw [names, hnames, names, names_upToName]⟩

/-- A name with such an extension is no idle piece. -/
theorem isIdle_stem_append {name extension : String} (hlength : 2 ≤ extension.toList.length) :
    isIdle (stem name ++ "." ++ extension) = false := by
  have hne : ∀ s : String, s.toList.length ≤ 2 → stem name ++ "." ++ extension ≠ s := by
    rintro s hs rfl
    have hdot : ".".toList.length = 1 := rfl
    simp only [String.toList_append, List.length_append] at hs
    omega
  rw [isIdle, Bool.or_eq_false_iff, String.isEmpty_eq_false_iff, beq_eq_false_iff_ne]
  exact ⟨hne "" (by decide), hne "." (by decide)⟩

theorem absolute_withExtension (r : Route) (extension : String) :
    (r.withExtension extension).absolute = r.absolute := by
  rw [withExtension]
  split <;> rfl

/-- The neighbour of a route, where it ends in a file's name, differs from the route in that name
alone. -/
theorem exists_of_names_withExtension (r : Route) {extension : String}
    (hdot : '.' ∈ extension.toList) (hlength : 2 ≤ extension.toList.length) {dir : List String}
    {neighbour : String} (h : (r.withExtension extension).names = dir ++ [neighbour])
    (hneighbour : neighbour ≠ "..") :
    ∃ name, r.names = dir ++ [name] ∧ name ≠ ".." ∧ neighbour ≠ name := by
  rcases upToName_cases r.pieces with ⟨hkept, hnames⟩ | ⟨trunk, name, hkept, -, hnames⟩
  · have hsame : r.withExtension extension = r := by simp [withExtension, hkept]
    rw [hsame, names, hnames] at h
    simp at h
  · by_cases hdots : name = ".."
    · have hsame : r.withExtension extension = r := by simp [withExtension, hkept, hdots]
      rw [hsame, names, hnames, hdots] at h
      exact absurd (List.cons.inj (List.append_inj' h rfl).2).1.symm hneighbour
    · have hpieces : r.withExtension extension = { r with pieces := trunk ++
          [if stem name = "." ∧ !r.wantsDirectory then ".." else
            stem name ++ "." ++ extension] } := by
        simp [withExtension, hkept]
      rw [hpieces, names, List.filter_append] at h
      by_cases hcut : stem name = "." ∧ !r.wantsDirectory
      · rw [if_pos hcut] at h
        exact absurd (List.cons.inj (List.append_inj' h rfl).2).1.symm hneighbour
      · rw [if_neg hcut, List.filter_singleton, isIdle_stem_append hlength] at h
        obtain ⟨hdir, hlast⟩ := List.append_inj' h rfl
        obtain rfl := (List.cons.inj hlast).1
        exact ⟨name, by rw [names, hnames, hdir], hdots, stem_append_ne hdot⟩

end Transcription.Route
