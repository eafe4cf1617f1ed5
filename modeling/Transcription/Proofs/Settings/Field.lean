import Transcription.Settings
import Transcription.Proofs.Json.Document

/-!
# The fields of the settings

The seven fields are one family: each has a name, a place among the others, a type of values, a way
to read a value from JSON, and a default. A record is made of a value for every field, and two
records are equal when they agree in every field. `valueOr` is what a field takes from a value that
may be missing or unreadable.
-/

namespace Transcription.Settings

open Json

/-- Any unsigned 64-bit number is a number of seconds. -/
theorem seconds?_eq_some_iff {j : Json} {n : UInt64} :
    seconds? j = some n ↔ j.natural? = some n.toNat := by
  rw [seconds?, Option.map_eq_some_iff]
  constructor
  · rintro ⟨k, hk, rfl⟩
    rw [hk, UInt64.toNat_ofNat_of_lt' (Nat.lt_succ_of_le (natural?_le hk))]
  · intro hn
    exact ⟨n.toNat, hn, UInt64.ofNat_toNat⟩

/-- A field of the settings. -/
inductive Field where
  | quotePolicy
  | ipServiceUrl
  | geoEndpoint
  | geoTable
  | currencyTable
  | defaultCurrency
  | requestTimeoutSecs
  deriving Repr, DecidableEq

namespace Field

/-- What a field holds. -/
def Value : Field → Type
  | quotePolicy => QuotePolicy
  | ipServiceUrl | geoEndpoint => String
  | geoTable | currencyTable => Option Path
  | defaultCurrency => Option String
  | requestTimeoutSecs => UInt64

/-- The value of a field. -/
def get (s : Settings) : (f : Field) → f.Value
  | quotePolicy => s.quotePolicy
  | ipServiceUrl => s.ipServiceUrl
  | geoEndpoint => s.geoEndpoint
  | geoTable => s.geoTable
  | currencyTable => s.currencyTable
  | defaultCurrency => s.defaultCurrency
  | requestTimeoutSecs => s.requestTimeoutSecs

/-- Read the value of a field. -/
def read? : (f : Field) → Json → Option f.Value
  | quotePolicy => (ofJson? : Json → Option QuotePolicy)
  | ipServiceUrl | geoEndpoint => string?
  | geoTable | currencyTable => option? path?
  | defaultCurrency => option? string?
  | requestTimeoutSecs => seconds?

/-- Write the value of a field. -/
def write : (f : Field) → f.Value → Json
  | quotePolicy => (toJson : QuotePolicy → Json)
  | ipServiceUrl | geoEndpoint => ofString
  | geoTable | currencyTable => ofOption fun p : Path => ofString p.text
  | defaultCurrency => ofOption ofString
  | requestTimeoutSecs => fun n : UInt64 => Json.ofNat n.toNat

/-- The place of a field among the fields. -/
def index : Field → Nat
  | quotePolicy => 0
  | ipServiceUrl => 1
  | geoEndpoint => 2
  | geoTable => 3
  | currencyTable => 4
  | defaultCurrency => 5
  | requestTimeoutSecs => 6

/-- The name of a field. -/
def name (f : Field) : String :=
  fieldNames.get ⟨f.index, by cases f <;> decide⟩

/-- The value that a field has by default. -/
def fallback (f : Field) : f.Value :=
  f.get default

/-- The value of a field that is given by some JSON: the default when none is given or when what is
given cannot be read. -/
def valueOr (f : Field) (given : Option Json) : f.Value :=
  (given.bind f.read?).getD f.fallback

@[simp] theorem valueOr_none (f : Field) : f.valueOr none = f.fallback := rfl

/-- The JSON that holds a value of a field: a string for a text or a path, a number of 64 bits for
the seconds, and the name of a policy, which may also be given as a case with no content. Only what
may be absent can be `null`. -/
def Holds : (f : Field) → Json → f.Value → Prop
  | quotePolicy => fun j (p : QuotePolicy) =>
      j = ofString p.name ∨ j = .object [(some p.name, .null)]
  | ipServiceUrl | geoEndpoint => fun j url => j = ofString url
  | geoTable | currencyTable => fun j p => j = ofOption (fun p : Path => ofString p.text) p
  | defaultCurrency => fun j symbol => j = ofOption ofString symbol
  | requestTimeoutSecs => fun j (n : UInt64) => j.natural? = some n.toNat

/-- A field is read from the JSON that holds a value of it, and from nothing else. -/
theorem read?_eq_some_iff {f : Field} {j : Json} {a : f.Value} :
    f.read? j = some a ↔ f.Holds j a := by
  have hpath (o : Option Path) : option? path? j = some o ↔
      j = ofOption (fun p => ofString p.text) o :=
    option?_eq_some_iff (fun _ _ => path?_eq_some_iff) fun _ => Json.noConfusion
  have hstring (o : Option String) : option? string? j = some o ↔ j = ofOption ofString o :=
    option?_eq_some_iff (fun _ _ => string?_eq_some_iff) fun _ => Json.noConfusion
  cases f with
  | quotePolicy => exact QuotePolicy.ofJson?_eq_some_iff
  | ipServiceUrl | geoEndpoint => exact string?_eq_some_iff
  | geoTable | currencyTable => exact hpath a
  | defaultCurrency => exact hstring a
  | requestTimeoutSecs => exact seconds?_eq_some_iff

/-- A written value is read back. -/
theorem read?_write (f : Field) (a : f.Value) : f.read? (f.write a) = some a := by
  rw [read?_eq_some_iff]
  cases f with
  | quotePolicy => exact .inl rfl
  | requestTimeoutSecs => exact natural?_ofNat (Nat.le_of_lt_succ a.toNat_lt)
  | ipServiceUrl | geoEndpoint | geoTable | currencyTable | defaultCurrency => rfl

/-- A statement about all fields is one about each of the seven. -/
theorem forall_iff {P : Field → Prop} :
    (∀ f, P f) ↔ P quotePolicy ∧ P ipServiceUrl ∧ P geoEndpoint ∧ P geoTable ∧ P currencyTable ∧
      P defaultCurrency ∧ P requestTimeoutSecs := by
  constructor
  · intro h
    exact ⟨h _, h _, h _, h _, h _, h _, h _⟩
  · rintro ⟨h0, h1, h2, h3, h4, h5, h6⟩ f
    cases f <;> assumption

/-- The names are those that a record of settings is read by. -/
theorem getElem?_fieldNames (f : Field) : fieldNames[f.index]? = some f.name := by
  cases f <;> rfl

end Field

/-- The settings with a value for every field. -/
def ofValues (value : (f : Field) → f.Value) : Settings where
  quotePolicy := value .quotePolicy
  ipServiceUrl := value .ipServiceUrl
  geoEndpoint := value .geoEndpoint
  geoTable := value .geoTable
  currencyTable := value .currencyTable
  defaultCurrency := value .defaultCurrency
  requestTimeoutSecs := value .requestTimeoutSecs

@[simp] theorem get_ofValues (value : (f : Field) → f.Value) (f : Field) :
    f.get (ofValues value) = value f := by
  cases f <;> rfl

@[simp] theorem ofValues_get (s : Settings) : ofValues (fun f => f.get s) = s := rfl

/-- Settings are known by their fields. -/
theorem ext_get {s t : Settings} (h : ∀ f : Field, f.get s = f.get t) : s = t := by
  rw [← ofValues_get s, ← ofValues_get t]
  exact congrArg ofValues (funext h)

/-- What a field that may be left out is read to: nothing when what is given cannot be read. -/
theorem given_eq_some_iff {f : Field} {o : Option Json} {a : f.Value} :
    given f.read? f.fallback o = some a ↔
      (∀ j, o = some j → (f.read? j).isSome = true) ∧ f.valueOr o = a := by
  cases o with
  | none => simp
  | some j => cases h : f.read? j <;> simp [Field.valueOr, h]

/-- A record of settings is read field by field from what stands at the fields' places. -/
theorem ofJson?_eq_some_iff {j : Json} {vs : List (Option Json)} {s : Settings}
    (h : fields? fieldNames j = some vs) (hlength : vs.length = fieldNames.length) :
    (ofJson? j : Option Settings) = some s ↔
      ∀ f : Field, given f.read? f.fallback (vs[f.index]?.join) = some (f.get s) := by
  match vs, hlength with
  | [v0, v1, v2, v3, v4, v5, v6], _ =>
      rw [Field.forall_iff]
      simp only [Persisted.ofJson?, h, Option.bind_eq_bind, Option.bind_some,
        Option.bind_eq_some_iff, Option.some.injEq]
      constructor
      · rintro ⟨a0, h0, a1, h1, a2, h2, a3, h3, a4, h4, a5, h5, a6, h6, rfl⟩
        exact ⟨h0, h1, h2, h3, h4, h5, h6⟩
      · rintro ⟨h0, h1, h2, h3, h4, h5, h6⟩
        exact ⟨_, h0, _, h1, _, h2, _, h3, _, h4, _, h5, _, h6, rfl⟩

end Transcription.Settings
