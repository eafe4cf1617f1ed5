import Transcription.Settings.File
import Transcription.Proofs.Json.RoundTrip
import Transcription.Proofs.Settings.Field

/-!
# Reading saved settings back

The text of a settings file is a document whose record holds the settings: whatever the strings and
paths are, and whatever 64-bit number of seconds is set, every field is read back from what is
written for it.
-/

namespace Transcription

open Json

theorem fromUTF8?_toUTF8 (s : String) : String.fromUTF8? s.toUTF8 = some s := by
  rw [String.fromUTF8?, String.toUTF8_eq_toByteArray, dif_pos s.isValidUTF8]
  rfl

namespace Settings

/-- The fields in order. -/
def Field.all : List Field :=
  [.quotePolicy, .ipServiceUrl, .geoEndpoint, .geoTable, .currencyTable, .defaultCurrency,
   .requestTimeoutSecs]

/-- The members that are written for settings. -/
def members (s : Settings) : List (String × Json) :=
  Field.all.map fun f => (f.name, f.write (f.get s))

theorem toJson_eq_ofMembers (s : Settings) : toJson s = ofMembers s.members := rfl

theorem nodup_names (s : Settings) : (s.members.map Prod.fst).Nodup := by
  have hnames : s.members.map Prod.fst = fieldNames := rfl
  rw [hnames]
  decide

/-- Of written settings a field's name has what is written for the field. -/
theorem member?_toJson (s : Settings) (f : Field) :
    member? f.name (toJson s) = some (f.write (f.get s)) := by
  cases f <;> rfl

/-- The record that is written for settings is read as these settings. -/
theorem ofJson?_toJson (s : Settings) : ofJson? (toJson s) = some s := by
  have hfields := (isKeyed_map_some s.nodup_names).fields?_eq fieldNames
  rw [toJson_eq_ofMembers, ofMembers, ofJson?_eq_some_iff hfields (by simp)]
  intro f
  have hplace : ((fieldNames.map fun n => member? n (toJson s))[f.index]?).join =
      some (f.write (f.get s)) := by
    rw [List.getElem?_map, Field.getElem?_fieldNames, Option.map_some, member?_toJson]
    rfl
  exact (congrArg (given f.read? f.fallback) hplace).trans (f.read?_write (f.get s))

/-- What is written for a field: `null`, a string, or a number of 64 bits. -/
theorem write_cases (f : Field) (a : f.Value) :
    f.write a = .null ∨ (∃ s, f.write a = ofString s) ∨
      ∃ n, n ≤ Numeral.maxNatural ∧ f.write a = Json.ofNat n := by
  cases f with
  | quotePolicy => exact .inr (.inl ⟨_, rfl⟩)
  | ipServiceUrl => exact .inr (.inl ⟨_, rfl⟩)
  | geoEndpoint => exact .inr (.inl ⟨_, rfl⟩)
  | geoTable =>
      match a with
      | none => exact .inl rfl
      | some p => exact .inr (.inl ⟨_, rfl⟩)
  | currencyTable =>
      match a with
      | none => exact .inl rfl
      | some p => exact .inr (.inl ⟨_, rfl⟩)
  | defaultCurrency =>
      match a with
      | none => exact .inl rfl
      | some s => exact .inr (.inl ⟨_, rfl⟩)
  | requestTimeoutSecs =>
      exact .inr (.inr ⟨UInt64.toNat a, Nat.le_of_lt_succ (UInt64.toNat_lt a), rfl⟩)

theorem isLegible_toJson (s : Settings) : IsLegible (toJson s) := by
  rw [toJson_eq_ofMembers]
  refine .ofMembers fun m hm => ?_
  obtain ⟨f, -, rfl⟩ := List.mem_map.mp hm
  rcases write_cases f (f.get s) with h | ⟨t, h⟩ | ⟨n, -, h⟩
  · simpa only [h] using IsLegible.null
  · simpa only [h] using IsLegible.ofString t
  · simpa only [h] using IsLegible.ofNat n

theorem document?_toJson (s : Settings) : document? maxDepth (toJson s) = some (toJson s) := by
  rw [toJson_eq_ofMembers]
  refine document?_ofMembers s.nodup_names fun m hm => ?_
  obtain ⟨f, -, rfl⟩ := List.mem_map.mp hm
  rcases write_cases f (f.get s) with h | ⟨t, h⟩ | ⟨n, hn, h⟩
  · simp only [h, document?]
  · simp only [h, document?, ofString, Option.map_some]
  · rw [h, document?_ofNat hn]

/-- The text of a settings file is the document that holds the settings. -/
theorem parseDocument?_fileText (s : Settings) :
    parseDocument? s.fileText = some (toJson s) := by
  rw [parseDocument?, fileText, parse?_pretty s.isLegible_toJson, Option.bind_some,
    document?_toJson]

/-- From a file with the text of some settings these settings are loaded. -/
theorem load_of_fileText {files : FileTree} {p : Path} {s : Settings}
    (h : files.read p = .content s.fileText.toUTF8) : load files p = .ok s := by
  rw [load, h]
  simp only [ofReading, FileTree.Reading.text?, fromUTF8?_toUTF8, parseDocument?_fileText,
    ofDocument, ofJson?_toJson, Option.getD_some]

end Settings

end Transcription
