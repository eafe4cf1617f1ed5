import Transcription.Proofs.Address.Parts

/-!
# Reading addresses back

Every address is read back from its text. Four octets are read back part by part. Of eight groups
the text may leave out one run of zeros: the double colon that stands for it is the first one of
the text, since groups are not empty, and the reader fills as many zero groups in as are missing.
The text of a mapped address ends in octets, which are read as the last two groups.
-/

namespace Transcription.Address

/-! ### Groups between colons -/

@[simp] theorem writeGroups_nil : writeGroups [] = [] := rfl

@[simp] theorem writeGroups_singleton (g : UInt16) :
    writeGroups [g] = Nat.toDigits 16 g.toNat := by
  simp [writeGroups]

theorem writeGroups_cons {gs : List UInt16} (h : gs ≠ []) (g : UInt16) :
    writeGroups (g :: gs) = Nat.toDigits 16 g.toNat ++ ':' :: writeGroups gs := by
  simp [writeGroups, List.intercalate_cons_of_ne_nil, h]

/-- A written group begins with a digit, so a text of groups does not begin with a colon. -/
theorem exists_writeGroups_eq_cons {gs : List UInt16} (h : gs ≠ []) :
    ∃ c cs, writeGroups gs = c :: cs ∧ c ≠ ':' := by
  obtain ⟨g, gs, rfl⟩ := List.exists_cons_of_ne_nil h
  obtain ⟨c, cs, hdigits⟩ :=
    List.exists_cons_of_ne_nil (Nat.toDigits_ne_nil (n := g.toNat) (b := 16))
  have hc : c ≠ ':' := by
    rintro rfl
    exact (not_mem_toDigits (b := 16) (n := g.toNat) (by decide) (by decide)).1 (by simp [hdigits])
  by_cases hgs : gs = []
  · subst hgs
    exact ⟨c, cs, by rw [writeGroups_singleton, hdigits], hc⟩
  · exact ⟨c, cs ++ ':' :: writeGroups gs, by rw [writeGroups_cons hgs, hdigits]; rfl, hc⟩

/-- The text of groups falls apart into the digits of each. -/
theorem splitOn_writeGroups {gs : List UInt16} (h : gs ≠ []) :
    (writeGroups gs).splitOn ':' = gs.map fun g => Nat.toDigits 16 g.toNat := by
  refine List.splitOn_intercalate ':' ?_ (by simpa using h)
  intro l hl
  obtain ⟨g, -, rfl⟩ := List.mem_map.mp hl
  exact (not_mem_toDigits (by decide) (by decide)).1

theorem isEmpty_writeGroups {gs : List UInt16} (h : gs ≠ []) :
    (writeGroups gs).isEmpty = false := by
  obtain ⟨c, cs, hcons, -⟩ := exists_writeGroups_eq_cons h
  rw [hcons]
  rfl

theorem groups?_writeGroups (gs : List UInt16) : groups? (writeGroups gs) = some gs := by
  by_cases h : gs = []
  · subst h
    rfl
  · rw [groups?, isEmpty_writeGroups h, splitOn_writeGroups h,
      Json.mapM_map_eq_some fun g _ => group?_toDigits g]
    rfl

/-- At the end of an address groups are read back too: the last one is not taken for octets. -/
theorem lastGroups?_writeGroups (gs : List UInt16) : lastGroups? (writeGroups gs) = some gs := by
  by_cases h : gs = []
  · subst h
    rfl
  · have hlast : ((gs.map fun g => Nat.toDigits 16 g.toNat).getLast?.bind octets?) = none := by
      rw [List.getLast?_map, Option.bind_map]
      refine Option.bind_eq_none_iff.mpr fun g _ => octets?_eq_none_of_no_point ?_
      exact (not_mem_toDigits (by decide) (by decide)).2
    rw [lastGroups?, isEmpty_writeGroups h, splitOn_writeGroups h]
    simp only [hlast, Json.mapM_map_eq_some fun g _ => group?_toDigits g]
    rfl

/-! ### The gap -/

theorem splitAtGap_cons {c : Char} (hc : c ≠ ':') (cs : List Char) :
    splitAtGap (c :: cs) = (splitAtGap cs).map fun p => (c :: p.1, p.2) := by
  rw [splitAtGap]
  rintro rest rfl
  exact absurd rfl hc

theorem splitAtGap_append {ds : List Char} (h : ':' ∉ ds) (cs : List Char) :
    splitAtGap (ds ++ cs) = (splitAtGap cs).map fun p => (ds ++ p.1, p.2) := by
  induction ds with
  | nil => simp
  | cons d ds ih =>
      simp only [List.mem_cons, not_or] at h
      rw [List.cons_append, splitAtGap_cons (Ne.symm h.1), ih h.2, Option.map_map]
      rfl

theorem splitAtGap_colon {c : Char} (hc : c ≠ ':') (cs : List Char) :
    splitAtGap (':' :: c :: cs) = (splitAtGap (c :: cs)).map fun p => (':' :: p.1, p.2) := by
  rw [splitAtGap]
  rintro rest - heq
  exact hc (List.cons.inj heq).1

/-- There is no gap among groups, nor where they end. -/
theorem splitAtGap_writeGroups_append (gs : List UInt16) (rest : List Char) :
    splitAtGap (writeGroups gs ++ rest) =
      (splitAtGap rest).map fun p => (writeGroups gs ++ p.1, p.2) := by
  have hcolon : ∀ g : UInt16, ':' ∉ Nat.toDigits 16 g.toNat := fun _ =>
    (not_mem_toDigits (by decide) (by decide)).1
  induction gs with
  | nil => simp
  | cons g gs ih =>
      by_cases hgs : gs = []
      · subst hgs
        rw [writeGroups_singleton, splitAtGap_append (hcolon g)]
      · obtain ⟨c, cs, hcons, hc⟩ := exists_writeGroups_eq_cons hgs
        rw [hcons, List.cons_append] at ih
        rw [writeGroups_cons hgs, hcons, List.append_assoc, splitAtGap_append (hcolon g),
          List.cons_append, List.cons_append, splitAtGap_colon hc, ih, Option.map_map,
          Option.map_map]
        simp [Function.comp_def]

/-! ### The longest run of zeros -/

/-- What is chosen as the longest run of zeros is a run of zeros. -/
theorem longestZeros_le (gs : List UInt16) :
    (longestZeros gs).2 ≤ zerosAt gs (longestZeros gs).1 := by
  -- the best run so far is one, whatever places have been looked at
  have hbest : ∀ (is : List Nat) (best : Nat × Nat), best.2 ≤ zerosAt gs best.1 →
      (is.foldl (fun best i => if best.2 < zerosAt gs i then (i, zerosAt gs i) else best)
        best).2 ≤ zerosAt gs (is.foldl
          (fun best i => if best.2 < zerosAt gs i then (i, zerosAt gs i) else best) best).1 := by
    intro is
    induction is with
    | nil => exact fun _ h => h
    | cons i is ih =>
        intro best h
        rw [List.foldl_cons]
        apply ih
        split
        · exact Nat.le_refl _
        · exact h
  exact hbest _ _ (Nat.zero_le _)

/-- A run of zeros is made of as many zeros. -/
theorem take_drop_of_le_zerosAt {gs : List UInt16} {start n : Nat} (h : n ≤ zerosAt gs start) :
    (gs.drop start).take n = List.replicate n 0 := by
  have hbegin : (gs.drop start).take n = ((gs.drop start).takeWhile (· == 0)).take n := by
    rw [← List.take_append_of_le_length h, List.takeWhile_append_dropWhile]
  rw [hbegin, List.eq_replicate_iff]
  constructor
  · rw [List.length_take]
    exact Nat.min_eq_left h
  · intro g hg
    simpa using List.mem_takeWhile_imp (List.mem_of_mem_take hg)

theorem add_le_length_of_le_zerosAt {gs : List UInt16} {start n : Nat} (hpos : 0 < n)
    (h : n ≤ zerosAt gs start) : start + n ≤ gs.length := by
  have hle : zerosAt gs start ≤ (gs.drop start).length := (List.takeWhile_sublist _).length_le
  rw [List.length_drop] at hle
  omega

/-- Eight groups are read back whether or not a run of zeros is left out of them. -/
theorem wide?_writeShortened {gs : List UInt16} (h : gs.length = 8) :
    wide? (writeShortened gs) = some gs := by
  have hzeros := longestZeros_le gs
  rw [writeShortened]
  generalize longestZeros gs = run at hzeros
  obtain ⟨start, n⟩ := run
  dsimp only at hzeros ⊢
  by_cases hlong : 2 ≤ n
  · have hfits := add_le_length_of_le_zerosAt (by omega) hzeros
    have hgap := splitAtGap_writeGroups_append (gs.take start)
      (':' :: ':' :: writeGroups (gs.drop (start + n)))
    -- as many groups are missing as the run has
    have hmissing : 8 - (gs.take start).length - (gs.drop (start + n)).length = n := by
      rw [List.length_take, List.length_drop]
      omega
    have hfewer : (gs.take start).length + (gs.drop (start + n)).length < 8 := by
      rw [List.length_take, List.length_drop]
      omega
    have hwhole : gs.take start ++ List.replicate n 0 ++ gs.drop (start + n) = gs := by
      rw [← take_drop_of_le_zerosAt hzeros, ← List.take_add, List.take_append_drop]
    rw [if_pos hlong, List.append_assoc, wide?]
    simp only [List.cons_append, List.nil_append, hgap]
    simp only [splitAtGap, Option.map_some, List.append_nil, groups?_writeGroups,
      lastGroups?_writeGroups, Option.bind_eq_bind, Option.bind_some, if_pos hfewer, hmissing,
      hwhole]
  · have hgap := splitAtGap_writeGroups_append gs []
    rw [List.append_nil] at hgap
    rw [if_neg hlong, wide?, hgap]
    exact lastGroups?_writeGroups gs

theorem colon_mem_writeShortened {gs : List UInt16} (h : gs.length = 8) :
    ':' ∈ writeShortened gs := by
  rw [writeShortened]
  dsimp only
  split
  · simp
  · match gs, h with
    | g :: g' :: gs, _ => simp [writeGroups_cons]

/-! ### Addresses -/

/-- Octets at the end of an address are read as its last two groups. -/
theorem lastGroups?_octets {os : List UInt8} (h : os.length = 4) :
    lastGroups? ('f' :: 'f' :: 'f' :: 'f' :: ':' :: writeOctets os) =
      some (0xFFFF :: groupsOfOctets os) := by
  have hoctets := octets?_writeOctets h
  have hcolon : ':' ∉ writeOctets os := by
    intro hmem
    rw [octets?_eq_none_of_colon hmem] at hoctets
    cases hoctets
  have htext : 'f' :: 'f' :: 'f' :: 'f' :: ':' :: writeOctets os =
      [':'].intercalate [['f', 'f', 'f', 'f'], writeOctets os] := by
    simp [List.intercalate_cons_cons]
  have hpieces : ('f' :: 'f' :: 'f' :: 'f' :: ':' :: writeOctets os).splitOn ':' =
      [['f', 'f', 'f', 'f'], writeOctets os] := by
    rw [htext]
    exact List.splitOn_intercalate ':' (by simpa using hcolon) (by simp)
  have hgroup : group? ['f', 'f', 'f', 'f'] = some 0xFFFF := by decide
  rw [lastGroups?, hpieces]
  simp [hoctets, hgroup]

/-- The groups of a mapped address are read back from its octets. -/
theorem wide?_mapped (high low : UInt16) :
    wide? ([':', ':', 'f', 'f', 'f', 'f', ':'] ++
        writeOctets (octetsOfGroup high ++ octetsOfGroup low)) =
      some [0, 0, 0, 0, 0, 0xFFFF, high, low] := by
  have hlength : (octetsOfGroup high ++ octetsOfGroup low).length = 4 := rfl
  have hback := lastGroups?_octets hlength
  have hgroups : groupsOfOctets (octetsOfGroup high ++ octetsOfGroup low) = [high, low] := by
    simp [octetsOfGroup, groupsOfOctets, groupOfOctets_octetsOfGroup]
  rw [hgroups] at hback
  have hfront : groups? [] = some [] := rfl
  simp only [wide?, List.cons_append, List.nil_append, splitAtGap, hfront, hback,
    Option.bind_eq_bind, Option.bind_some]
  rfl

/-- Every address is read back from its text. -/
theorem ofList?_toList (a : Address) : ofList? a.toList = some a := by
  cases a with
  | v4 octets =>
      have hlength : octets.toList.length = 4 := by simp
      rw [toList, ofList?, octets?_writeOctets hlength]
      exact ofOctets?_toList octets
  | v6 groups =>
      have hlength : groups.toList.length = 8 := by simp
      have hgroups := ofGroups?_toList groups
      rw [toList]
      split
      · next high low hmapped =>
        rw [hmapped] at hgroups
        rw [ofList?, octets?_eq_none_of_colon (by simp), wide?_mapped, Option.bind_some, hgroups]
      · rw [ofList?, octets?_eq_none_of_colon (colon_mem_writeShortened hlength),
          wide?_writeShortened hlength, Option.bind_some, hgroups]

theorem ofString?_toString (a : Address) : ofString? (toString a) = some a := by
  change ofList? (String.ofList a.toList).toList = some a
  rw [String.toList_ofList, ofList?_toList]

end Transcription.Address
