import Transcription.Json.Document
import Transcription.Json.Record
import Transcription.Proofs.Json.Numeral
import Mathlib.Data.List.Nodup

/-!
# The keys of a document

In an object of a document every key is readable and stands there once. Such members are keyed.
Which of the members with one key counts, the first or the last, is then no question, and a record
can be read from the object whatever the values are.
-/

namespace Transcription.Json

/-- Every key of the members is readable and stands there once. -/
structure IsKeyed (ms : List (Text × Json)) : Prop where
  readable : ∀ m ∈ ms, m.1.isSome = true
  nodup : (ms.map Prod.fst).Nodup

theorem sublist_lastOfEachKey (ms : List (Text × Json)) : (lastOfEachKey ms).Sublist ms := by
  induction ms with
  | nil => exact .slnil
  | cons m ms ih =>
      rw [lastOfEachKey]
      split
      · exact .cons m ih
      · exact .cons_cons m ih

theorem nodup_lastOfEachKey (ms : List (Text × Json)) :
    ((lastOfEachKey ms).map Prod.fst).Nodup := by
  induction ms with
  | nil => exact .nil
  | cons m ms ih =>
      rw [lastOfEachKey]
      split
      · exact ih
      · next hlater =>
        rw [List.map_cons, List.nodup_cons]
        refine ⟨?_, ih⟩
        intro hmem
        obtain ⟨n, hn, hkey⟩ := List.mem_map.mp hmem
        refine hlater (List.any_eq_true.mpr ⟨n, (sublist_lastOfEachKey ms).subset hn, ?_⟩)
        simpa using hkey

/-- Where no key is repeated nothing is dropped. -/
theorem lastOfEachKey_of_nodup {ms : List (Text × Json)} (h : (ms.map Prod.fst).Nodup) :
    lastOfEachKey ms = ms := by
  induction ms with
  | nil => rfl
  | cons m ms ih =>
      rw [List.map_cons, List.nodup_cons] at h
      have hlater : ms.any (fun n => n.1 == m.1) = false := by
        refine List.any_eq_false.mpr fun n hn heq => h.1 ?_
        exact List.mem_map.mpr ⟨n, hn, by simpa using heq⟩
      rw [lastOfEachKey, hlater, ih h.2]
      rfl

theorem readable_of_documentMembers? {depth : Nat} {ms ds : List (Text × Json)}
    (h : documentMembers? depth ms = some ds) : ∀ m ∈ ds, m.1.isSome = true := by
  induction ms generalizing ds with
  | nil =>
      obtain rfl : [] = ds := by simpa [documentMembers?] using h
      simp
  | cons m ms ih =>
      obtain ⟨k, j⟩ := m
      simp only [documentMembers?, Option.bind_eq_bind, Option.bind_eq_some_iff,
        Option.some.injEq] at h
      obtain ⟨key, -, d, -, rest, hrest, rfl⟩ := h
      intro n hn
      rcases List.mem_cons.mp hn with rfl | hn
      · rfl
      · exact ih hrest n hn

/-- The objects of a document are keyed. -/
theorem isKeyed_of_document? {depth : Nat} {j : Json} {ms : List (Text × Json)}
    (h : document? depth j = some (.object ms)) : IsKeyed ms := by
  cases j with
  | object members =>
      cases depth with
      | zero => simp [document?] at h
      | succ depth =>
          simp only [document?, Option.map_eq_some_iff, Json.object.injEq] at h
          obtain ⟨ds, hds, rfl⟩ := h
          refine ⟨fun m hm => ?_, nodup_lastOfEachKey ds⟩
          exact readable_of_documentMembers? hds m ((sublist_lastOfEachKey ds).subset hm)
  | array items => cases depth <;> simp [document?] at h
  | number n => simp [document?] at h
  | text content => cases content <;> simp [document?, ofString] at h
  | null => simp [document?] at h
  | bool b => simp [document?] at h

namespace IsKeyed

variable {ms : List (Text × Json)}

/-- Among keyed members the first one with a key is the one that counts. -/
theorem member?_eq (h : IsKeyed ms) (key : String) :
    member? key (.object ms) = (ms.find? fun m => m.1 == some key).map Prod.snd := by
  rw [member?, List.findRev?_eq_find?_reverse]
  congr 1
  obtain ⟨-, hnodup⟩ := h
  induction ms with
  | nil => rfl
  | cons m ms ih =>
      rw [List.map_cons, List.nodup_cons] at hnodup
      rw [List.reverse_cons, List.find?_append, ih hnodup.2, List.find?_cons]
      by_cases hm : m.1 == some key
      · -- no other member has the key of the first one
        have hnone : ms.find? (fun m => m.1 == some key) = none := by
          refine List.find?_eq_none.mpr fun n hn heq => hnodup.1 ?_
          refine List.mem_map.mpr ⟨n, hn, ?_⟩
          rw [eq_of_beq heq, eq_of_beq hm]
        simp [hnone, hm]
      · simp [hm]

theorem countP_le_one (h : IsKeyed ms) (key : String) :
    (ms.countP fun m => m.1 == some key) ≤ 1 := by
  have hcount := List.nodup_iff_count_le_one.mp h.nodup (some key)
  rwa [List.count_eq_countP, List.countP_map] at hcount

/-- A record has a value, or none, for each of its names in keyed members. -/
theorem fields?_eq (h : IsKeyed ms) (names : List String) :
    fields? names (.object ms) = some (names.map fun n => member? n (.object ms)) := by
  have hkeys : ms.all (fun m => m.1.isSome) = true := List.all_eq_true.mpr h.readable
  have honce : names.all (fun n => decide ((ms.countP fun m => m.1 == some n) ≤ 1)) = true :=
    List.all_eq_true.mpr fun n _ => decide_eq_true (h.countP_le_one n)
  rw [fields?, hkeys, honce]
  simp only [Bool.and_self, if_true, h.member?_eq]

end IsKeyed

/-- Members with distinct names are keyed. -/
theorem isKeyed_map_some {ms : List (String × Json)} (h : (ms.map Prod.fst).Nodup) :
    IsKeyed (ms.map fun m => (some m.1, m.2)) := by
  constructor
  · intro m hm
    obtain ⟨n, -, rfl⟩ := List.mem_map.mp hm
    rfl
  · have hkeys : (ms.map fun m => (some m.1, m.2)).map Prod.fst = (ms.map Prod.fst).map some := by
      simp
    rw [hkeys]
    exact h.map fun _ _ heq => Option.some.inj heq

theorem documentMembers?_map_some {depth : Nat} {ms : List (String × Json)}
    (h : ∀ m ∈ ms, document? depth m.2 = some m.2) :
    documentMembers? depth (ms.map fun m => (some m.1, m.2)) =
      some (ms.map fun m => (some m.1, m.2)) := by
  induction ms with
  | nil => rfl
  | cons m ms ih =>
      have hrest := ih fun n hn => h n (List.mem_cons_of_mem m hn)
      rw [List.map_cons, documentMembers?, h m (by simp), hrest]
      rfl

/-- A number of 64 bits is a document. -/
theorem document?_ofNat {n : Nat} (h : n ≤ Numeral.maxNatural) (depth : Nat) :
    document? depth (ofNat n) = some (ofNat n) := by
  rw [ofNat, document?, if_pos (Numeral.isFinite_ofNat h)]

/-- An object with distinct names is a document when its values are. -/
theorem document?_ofMembers {depth : Nat} {ms : List (String × Json)}
    (hnodup : (ms.map Prod.fst).Nodup) (h : ∀ m ∈ ms, document? depth m.2 = some m.2) :
    document? (depth + 1) (ofMembers ms) = some (ofMembers ms) := by
  rw [ofMembers, document?, documentMembers?_map_some h, Option.map_some,
    lastOfEachKey_of_nodup (isKeyed_map_some hnodup).nodup]

end Transcription.Json
