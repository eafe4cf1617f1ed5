import Transcription.Proofs.Settings.RoundTrip

/-!
# Reading settings field by field

A settings file that holds a JSON document is always read. From an object every field is taken on
its own: what is wrong with one key has no bearing on the others, and reading the record as a whole,
where that succeeds, gives nothing else than recovering its fields. An array stands for the fields
in order and is taken as a whole or not at all; any other document stands for the defaults. What
cannot be read is a file that is there and holds no text, or a text that is no document.
-/

namespace Transcription

open Json

/-- Whether something stands at the end of a path. -/
def FileTree.hasEntry (t : FileTree) (p : Path) : Bool :=
  (p.route?.bind t.at?).isSome

theorem FileTree.hasEntry_eq_false_iff {t : FileTree} {p : Path} :
    t.hasEntry p = false ↔ t.read p = .missing := by
  rw [hasEntry, read]
  cases p.route?.bind t.at? with
  | none => simp
  | some e => cases e <;> simp

namespace Settings

/-- Whether an array can be the fields in order: it has not too many items, and each of them can be
read as the field at its place. -/
def HoldsFields (items : List Json) : Prop :=
  items.length ≤ fieldNames.length ∧
    ∀ (f : Field) j, items[f.index]? = some j → (f.read? j).isSome = true

/-- The settings that a document stands for. -/
def AreTakenFrom (s : Settings) : Json → Prop
  | .object ms => ∀ f : Field, f.get s = f.valueOr (member? f.name (.object ms))
  | .array items =>
    (HoldsFields items → ∀ f : Field, f.get s = f.valueOr items[f.index]?) ∧
      (¬ HoldsFields items → s = default)
  | _ => s = default

theorem recover_eq_ofValues (j : Json) :
    recover j = ofValues fun f => f.valueOr (j.member? f.name) := rfl

/-- What is no object has no members to recover. -/
theorem recover_eq_default {j : Json} (h : ∀ name, j.member? name = none) :
    recover j = default := by
  refine ext_get fun f => ?_
  rw [recover_eq_ofValues, get_ofValues, h, Field.valueOr_none]
  rfl

/-- From the members of an object the record as a whole is read to what its fields are recovered
to. -/
theorem eq_recover_of_ofJson? {ms : List (Text × Json)} (hkeyed : IsKeyed ms) {s : Settings}
    (h : (ofJson? (.object ms) : Option Settings) = some s) : s = recover (.object ms) := by
  have hfields := hkeyed.fields?_eq fieldNames
  rw [ofJson?_eq_some_iff hfields (by simp)] at h
  refine ext_get fun f => ?_
  obtain ⟨-, hvalue⟩ := given_eq_some_iff.mp (h f)
  rw [recover_eq_ofValues, get_ofValues, ← hvalue, List.getElem?_map, Field.getElem?_fieldNames]
  rfl

theorem ofDocument_object {ms : List (Text × Json)} (hkeyed : IsKeyed ms) :
    ofDocument (.object ms) = recover (.object ms) := by
  rw [ofDocument]
  cases h : (ofJson? (.object ms) : Option Settings) with
  | none => rfl
  | some s => exact eq_recover_of_ofJson? hkeyed h

theorem fields?_array {names : List String} {items : List Json}
    (h : items.length ≤ names.length) :
    fields? names (.array items) =
      some (items.map some ++ List.replicate (names.length - items.length) none) := by
  rw [fields?, if_pos h]

/-- What stands at a place of an array that is filled up with missing values. -/
theorem join_getElem?_filled (items : List Json) (n i : Nat) :
    ((items.map some ++ List.replicate n none)[i]?).join = items[i]? := by
  by_cases h : i < items.length
  · rw [List.getElem?_append_left (by simpa using h), List.getElem?_map,
      List.getElem?_eq_getElem h]
    rfl
  · have hle : items.length ≤ i := Nat.le_of_not_lt h
    rw [List.getElem?_append_right (by simpa using hle), List.getElem?_replicate,
      List.getElem?_eq_none hle]
    split <;> rfl

/-- An array is read as a record just when it holds the fields. -/
theorem ofJson?_array_eq_some_iff {items : List Json} {s : Settings} :
    (ofJson? (.array items) : Option Settings) = some s ↔
      HoldsFields items ∧ ∀ f : Field, f.get s = f.valueOr items[f.index]? := by
  by_cases hlength : items.length ≤ fieldNames.length
  · rw [ofJson?_eq_some_iff (fields?_array hlength) (by simp; omega)]
    simp only [join_getElem?_filled, given_eq_some_iff]
    constructor
    · intro h
      exact ⟨⟨hlength, fun f => (h f).1⟩, fun f => (h f).2.symm⟩
    · rintro ⟨⟨-, hread⟩, hvalue⟩ f
      exact ⟨hread f, (hvalue f).symm⟩
  · have hnone : (ofJson? (.array items) : Option Settings) = none := by
      simp [Persisted.ofJson?, fields?, hlength]
    rw [hnone]
    simp [HoldsFields, hlength]

/-- Every document stands for settings, and they are the ones that are read from it. -/
theorem areTakenFrom_ofDocument {j : Json} (hkeyed : ∀ ms, j = .object ms → IsKeyed ms) :
    AreTakenFrom (ofDocument j) j := by
  cases j with
  | object ms =>
      intro f
      rw [ofDocument_object (hkeyed ms rfl), recover_eq_ofValues, get_ofValues]
  | array items =>
      have hrecover : recover (.array items) = default := recover_eq_default fun _ => rfl
      rw [ofDocument, hrecover]
      constructor
      · intro hholds
        -- the record with the values at the fields' places is what is read
        have hread : (ofJson? (.array items) : Option Settings) =
            some (ofValues fun f => f.valueOr items[f.index]?) :=
          ofJson?_array_eq_some_iff.mpr ⟨hholds, fun f => get_ofValues _ f⟩
        intro f
        rw [hread, Option.getD_some, get_ofValues]
      · intro hnot
        have hnone : (ofJson? (.array items) : Option Settings) = none := by
          refine Option.eq_none_iff_forall_ne_some.mpr fun s hs => hnot ?_
          exact (ofJson?_array_eq_some_iff.mp hs).1
        rw [hnone]
        rfl
  | null => exact recover_eq_default fun _ => rfl
  | bool b => exact recover_eq_default fun _ => rfl
  | number n => exact recover_eq_default fun _ => rfl
  | text content => exact recover_eq_default fun _ => rfl

theorem load_eq_ofDocument {files : FileTree} {p : Path} {text : String} {j : Json}
    (htext : (files.read p).text? = some text) (hdoc : parseDocument? text = some j) :
    load files p = .ok (ofDocument j) := by
  rw [load]
  cases hread : files.read p with
  | content bytes =>
      rw [hread] at htext
      simp only [ofReading, htext, hdoc]
  | missing => simp [hread, FileTree.Reading.text?] at htext
  | refused => simp [hread, FileTree.Reading.text?] at htext

/-- Loading fails on a file that is there and holds no text, and on a text that is no document, and
on nothing else. -/
theorem load_eq_error_iff {files : FileTree} {p : Path} {e : LoadError} :
    load files p = .error e ↔
      (e = .unreadable p ∧ files.hasEntry p = true ∧ (files.read p).text? = none) ∨
      (e = .notJson p ∧ ∃ text, (files.read p).text? = some text ∧
        parseDocument? text = none) := by
  have hentry : files.hasEntry p = true ↔ files.read p ≠ .missing := by
    rw [Ne, ← FileTree.hasEntry_eq_false_iff, Bool.not_eq_false]
  rw [load, hentry]
  cases hread : files.read p with
  | missing => simp [ofReading, FileTree.Reading.text?]
  | refused => simp [ofReading, FileTree.Reading.text?, eq_comm]
  | content bytes =>
      cases htext : String.fromUTF8? bytes with
      | none => simp [ofReading, FileTree.Reading.text?, htext, eq_comm]
      | some text =>
          cases hdoc : parseDocument? text <;>
            simp [ofReading, FileTree.Reading.text?, htext, hdoc, eq_comm]

/-- Settings are loaded field by field. Of a file that holds a document the settings are what its
fields are, each by itself or else by default; reading an object as a whole agrees with recovering
its fields; and loading fails just on a file that is there and holds no text, and on a text that is
no document. -/
theorem load_field_by_field (files : FileTree) (p : Path) :
    (∀ text j, (files.read p).text? = some text → parseDocument? text = some j →
      (∃ s, load files p = .ok s ∧ AreTakenFrom s j) ∧
      ∀ ms s, j = .object ms → (ofJson? j : Option Settings) = some s → s = recover j) ∧
    ∀ e, load files p = .error e ↔
      (e = .unreadable p ∧ files.hasEntry p = true ∧ (files.read p).text? = none) ∨
      (e = .notJson p ∧ ∃ text, (files.read p).text? = some text ∧
        parseDocument? text = none) := by
  refine ⟨fun text j htext hdoc => ?_, fun e => load_eq_error_iff⟩
  have hkeyed : ∀ ms, j = .object ms → IsKeyed ms := by
    rintro ms rfl
    obtain ⟨parsed, -, hparsed⟩ := Option.bind_eq_some_iff.mp hdoc
    exact isKeyed_of_document? hparsed
  refine ⟨⟨ofDocument j, load_eq_ofDocument htext hdoc, areTakenFrom_ofDocument hkeyed⟩, ?_⟩
  rintro ms s rfl hs
  exact eq_recover_of_ofJson? (hkeyed ms rfl) hs

/-- A document with a policy that does not exist and a number of seconds. -/
def unknownPolicy : Json :=
  ofMembers [("quote_policy", ofString "smart"), ("request_timeout_secs", Json.ofNat 7)]

/-- A tree with a settings file that holds the document. -/
def unknownPolicyFile : FileTree :=
  ⟨[(["c.json"], .file (compact unknownPolicy).toUTF8)], []⟩

/-- The seconds are loaded though the policy cannot be. -/
theorem load_field_by_field_unknownPolicy :
    (unknownPolicyFile.read ⟨"c.json"⟩).text? = some (compact unknownPolicy) ∧
      parseDocument? (compact unknownPolicy) = some unknownPolicy ∧
      ∃ s, load unknownPolicyFile ⟨"c.json"⟩ = .ok s ∧ s.quotePolicy = .escapeAware ∧
        s.requestTimeoutSecs = 7 := by
  have htext : (unknownPolicyFile.read ⟨"c.json"⟩).text? = some (compact unknownPolicy) :=
    fromUTF8?_toUTF8 (compact unknownPolicy)
  have hlegible : IsLegible unknownPolicy := by
    refine .ofMembers ?_
    simp only [List.mem_cons, List.not_mem_nil, or_false, forall_eq_or_imp, forall_eq]
    exact ⟨.ofString _, .ofNat _⟩
  have hdoc : parseDocument? (compact unknownPolicy) = some unknownPolicy := by
    rw [parseDocument?, parse?_compact hlegible, Option.bind_some, unknownPolicy]
    refine document?_ofMembers (by decide) ?_
    simp only [List.mem_cons, List.not_mem_nil, or_false, forall_eq_or_imp, forall_eq]
    exact ⟨rfl, document?_ofNat (by decide) _⟩
  obtain ⟨s, hload, hfields⟩ :=
    ((load_field_by_field unknownPolicyFile ⟨"c.json"⟩).1 _ _ htext hdoc).1
  exact ⟨htext, hdoc, s, hload, hfields .quotePolicy, hfields .requestTimeoutSecs⟩

end Settings

end Transcription
