import Transcription.Address.Reader
import Transcription.Address.Writer
import Transcription.Json.Record
import Transcription.Proofs.Json.Numeral

/-!
# Reading the parts of an address back

An octet is read back from its decimal digits and a group from its hexadecimal ones. The marks
between parts are no digits, so a text of parts falls apart into what was written for each of them;
and a text that holds anything but decimal digits and points is not taken for four octets.
-/

namespace Transcription.Address

/-! ### Digits -/

/-- The digits of a number are those below the base. -/
theorem exists_of_mem_toDigits {b n : Nat} {c : Char} (hb : 1 < b) (h : c ∈ Nat.toDigits b n) :
    ∃ d, d < b ∧ c = Nat.digitChar d := by
  induction n using Nat.strongRecOn with
  | ind n ih =>
      by_cases hn : n < b
      · rw [Nat.toDigits_of_lt_base hn, List.mem_singleton] at h
        exact ⟨n, hn, h⟩
      · rw [Nat.toDigits_of_base_le hb (by omega), List.mem_append, List.mem_singleton] at h
        obtain h | h := h
        · exact ih (n / b) (Nat.div_lt_self (by omega) hb) h
        · exact ⟨n % b, Nat.mod_lt n (by omega), h⟩

/-- Neither mark is a hexadecimal digit. -/
theorem digitChar_ne_mark : ∀ d, d < 16 → Nat.digitChar d ≠ ':' ∧ Nat.digitChar d ≠ '.' := by
  decide

theorem not_mem_toDigits {b n : Nat} (hb : 1 < b) (hb16 : b ≤ 16) :
    ':' ∉ Nat.toDigits b n ∧ '.' ∉ Nat.toDigits b n := by
  constructor
  · intro h
    obtain ⟨d, hd, heq⟩ := exists_of_mem_toDigits hb h
    exact (digitChar_ne_mark d (by omega)).1 heq.symm
  · intro h
    obtain ⟨d, hd, heq⟩ := exists_of_mem_toDigits hb h
    exact (digitChar_ne_mark d (by omega)).2 heq.symm

/-! ### Octets -/

/-- An octet is read back from its decimal digits. -/
theorem octet?_toDigits (o : UInt8) : octet? (Nat.toDigits 10 o.toNat) = some o := by
  have hlt : o.toNat < 256 := o.toNat_lt
  have hdigits : (Nat.toDigits 10 o.toNat).all Char.isDigit = true :=
    List.all_eq_true.mpr fun _ => Json.Numeral.isDigit_of_mem_toDigits
  have hpos : 1 ≤ (Nat.toDigits 10 o.toNat).length := Nat.length_toDigits_pos
  have hshort : (Nat.toDigits 10 o.toNat).length ≤ 3 := by
    rw [Nat.length_toDigits_le_iff (by decide) (by decide)]
    omega
  -- only zero begins with a zero
  have hzero : ((Nat.toDigits 10 o.toNat).head? == some '0' &&
      (Nat.toDigits 10 o.toNat).length != 1) = false := by
    by_cases h : o.toNat = 0
    · rw [h]; rfl
    · have hhead := Json.Numeral.head?_toDigits_ne_zero (Nat.pos_of_ne_zero h)
      rw [beq_eq_false_iff_ne.mpr hhead, Bool.false_and]
  have hvalue : Nat.ofDigitChars 10 (Nat.toDigits 10 o.toNat) 0 = o.toNat :=
    Nat.ofDigitChars_toDigits (by decide) (by decide)
  have hle : o.toNat ≤ 255 := by omega
  simp only [octet?, hdigits, decide_eq_true hpos, decide_eq_true hshort, hzero, hvalue, hle,
    Bool.not_false, Bool.and_self, if_true, UInt8.ofNat_toNat]

/-- Four octets are read back. -/
theorem octets?_writeOctets {os : List UInt8} (h : os.length = 4) :
    octets? (writeOctets os) = some os := by
  have hne : os ≠ [] := List.ne_nil_of_length_eq_add_one h
  have hpieces : (writeOctets os).splitOn '.' = os.map fun o => Nat.toDigits 10 o.toNat := by
    refine List.splitOn_intercalate '.' ?_ (by simpa using hne)
    intro l hl
    obtain ⟨o, -, rfl⟩ := List.mem_map.mp hl
    exact (not_mem_toDigits (by decide) (by decide)).2
  rw [octets?, hpieces, Json.mapM_map_eq_some fun o _ => octet?_toDigits o]
  simp [h]

theorem all_isDigit_of_octet? {cs : List Char} {o : UInt8} (h : octet? cs = some o) :
    cs.all Char.isDigit = true := by
  rw [octet?] at h
  split at h
  · next hcond =>
    simp only [Bool.and_eq_true] at hcond
    exact hcond.1.1.1
  · cases h

/-- A text of parts holds nothing but their characters and the mark between them. -/
theorem mem_intercalate {c mark : Char} {ls : List (List Char)}
    (h : c ∈ [mark].intercalate ls) : c = mark ∨ ∃ l ∈ ls, c ∈ l := by
  induction ls with
  | nil => simp at h
  | cons l ls ih =>
      by_cases hls : ls = []
      · subst hls
        rw [List.intercalate_singleton] at h
        exact .inr ⟨l, by simp, h⟩
      · rw [List.intercalate_cons_of_ne_nil hls, List.mem_append, List.mem_append,
          List.mem_singleton] at h
        obtain (h | h) | h := h
        · exact .inr ⟨l, by simp, h⟩
        · exact .inl h
        · obtain h | ⟨k, hk, hc⟩ := ih h
          · exact .inl h
          · exact .inr ⟨k, List.mem_cons_of_mem l hk, hc⟩

/-- A text with a colon in it is not read as octets. -/
theorem octets?_eq_none_of_colon {cs : List Char} (h : ':' ∈ cs) : octets? cs = none := by
  refine Option.eq_none_iff_forall_ne_some.mpr fun os hos => ?_
  simp only [octets?, Option.bind_eq_bind, Option.bind_eq_some_iff] at hos
  obtain ⟨read, hread, -⟩ := hos
  have hwhole : ['.'].intercalate (cs.splitOn '.') = cs := List.intercalate_splitOn '.'
  rw [← hwhole] at h
  obtain hpoint | ⟨l, hl, hcolon⟩ := mem_intercalate h
  · exact absurd hpoint (by decide)
  · obtain ⟨o, -, ho⟩ := (Json.exists_of_mapM_eq_some hread).1 l hl
    exact absurd (List.all_eq_true.mp (all_isDigit_of_octet? ho) ':' hcolon) (by decide)

/-- A text without a point in it is not read as octets. -/
theorem octets?_eq_none_of_no_point {cs : List Char} (h : '.' ∉ cs) : octets? cs = none := by
  rw [octets?, List.splitOn_eq_singleton h]
  cases hread : octet? cs with
  | none => simp [List.mapM_cons, hread]
  | some o => simp [List.mapM_cons, hread]

/-! ### Groups -/

/-- Hexadecimal digits name the number that they were written for. -/
theorem map_foldl_mapM_hexValue?_toDigits (n : Nat) :
    ((Nat.toDigits 16 n).mapM Text.hexValue?).map (fun ds => ds.foldl (fun n d => n * 16 + d) 0) =
      some n := by
  induction n using Nat.strongRecOn with
  | ind n ih =>
      by_cases hn : n < 16
      · rw [Nat.toDigits_of_lt_base hn, List.mapM_cons, Text.hexValue?_digitChar n hn]
        simp
      · have hlast := Text.hexValue?_digitChar (n % 16) (Nat.mod_lt n (by decide))
        obtain ⟨ds, hds, hvalue⟩ := Option.map_eq_some_iff.mp (ih (n / 16) (by omega))
        rw [Nat.toDigits_of_base_le (by decide) (by omega), List.mapM_append, hds]
        simp only [List.mapM_cons, hlast, List.mapM_nil, Option.pure_def, Option.bind_eq_bind,
          Option.bind_some, Option.map_some, List.foldl_append, List.foldl_cons, List.foldl_nil,
          hvalue, Option.some.injEq]
        omega

/-- A group is read back from its hexadecimal digits. -/
theorem group?_toDigits (g : UInt16) : group? (Nat.toDigits 16 g.toNat) = some g := by
  have hlt : g.toNat < 65536 := g.toNat_lt
  have hlength : 1 ≤ (Nat.toDigits 16 g.toNat).length ∧ (Nat.toDigits 16 g.toNat).length ≤ 4 := by
    refine ⟨Nat.length_toDigits_pos, ?_⟩
    rw [Nat.length_toDigits_le_iff (by decide) (by decide)]
    omega
  obtain ⟨ds, hds, hvalue⟩ := Option.map_eq_some_iff.mp (map_foldl_mapM_hexValue?_toDigits g.toNat)
  rw [group?, if_pos hlength, hds, Option.map_some, hvalue, UInt16.ofNat_toNat]

/-- A group is read back from its two octets. -/
theorem groupOfOctets_octetsOfGroup (g : UInt16) :
    groupOfOctets (g >>> 8).toUInt8 g.toUInt8 = g := by
  have hlt : g.toNat < 65536 := g.toNat_lt
  have htoNat : (groupOfOctets (g >>> 8).toUInt8 g.toUInt8).toNat =
      (g.toNat / 256 % 256) <<< 8 % 65536 ||| g.toNat % 256 := by
    simp [groupOfOctets, Nat.shiftRight_eq_div_pow]
  have hhigh : (g.toNat / 256 % 256) <<< 8 % 65536 = (g.toNat / 256) <<< 8 := by
    rw [Nat.shiftLeft_eq, Nat.shiftLeft_eq]
    omega
  -- the octets do not overlap
  have hor : (g.toNat / 256) <<< 8 ||| g.toNat % 256 = (g.toNat / 256) <<< 8 + g.toNat % 256 :=
    (Nat.shiftLeft_add_eq_or_of_lt (Nat.mod_lt _ (by decide)) _).symm
  apply UInt16.toNat_inj.mp
  rw [htoNat, hhigh, hor, Nat.shiftLeft_eq]
  omega

end Transcription.Address
