import Transcription.Json.Writer
import Transcription.Proofs.Json.Numeral
import Transcription.Proofs.Json.StringToken
import Transcription.Proofs.Json.Tokens

/-!
# Reading written JSON back

Values whose strings spell texts and whose numbers are natural numbers are legible. A legible value
is read back from what any layout writes for it, as long as the layout puts nothing but blanks
between the tokens.

The scanner goes through a written value token by token and is between two tokens again behind it.
The one token that does not end by itself is a bare word: it ends where the text does or where a
character follows that belongs to no word, and in a written value one of these always does.
-/

namespace Transcription.Json

namespace Token.Scanner

/-- The tokens of a text that is read from where the scanner stands. -/
def scanFrom? (s : Scanner) (cs : List Char) : Option (List Token) :=
  (cs.foldlM step s).bind finish?

theorem scanFrom?_append {s s' : Scanner} {cs : List Char} (h : cs.foldlM step s = some s')
    (rest : List Char) : s.scanFrom? (cs ++ rest) = s'.scanFrom? rest := by
  rw [scanFrom?, List.foldlM_append, h]
  rfl

theorem scanFrom?_cons {s s' : Scanner} {c : Char} (h : s.step c = some s') (rest : List Char) :
    s.scanFrom? (c :: rest) = s'.scanFrom? rest := by
  rw [scanFrom?, List.foldlM_cons, h]
  rfl

/-- Blanks between tokens leave the scanner where it is. -/
theorem scanFrom?_gap {cs : List Char} (h : cs.all isGap = true) (ts : List Token)
    (rest : List Char) : scanFrom? ⟨ts, .gap⟩ (cs ++ rest) = scanFrom? ⟨ts, .gap⟩ rest := by
  induction cs with
  | nil => rfl
  | cons c cs ih =>
      rw [List.all_cons, Bool.and_eq_true] at h
      have hstep : step ⟨ts, .gap⟩ c = some ⟨ts, .gap⟩ := by simp [step, stepGap, h.1]
      rw [List.cons_append, scanFrom?_cons hstep, ih h.2]

/-- A punctuation mark is a token. -/
theorem scanFrom?_mark {c : Char} {t : Token} (h : ofMark? c = some t) (ts : List Token)
    (rest : List Char) : scanFrom? ⟨ts, .gap⟩ (c :: rest) = scanFrom? ⟨t :: ts, .gap⟩ rest := by
  have hne : ∀ d, ofMark? d = none → c ≠ d := by
    rintro d hd rfl
    simp [hd] at h
  have hgap : isGap c = false := by
    simp [isGap, hne ' ' rfl, hne '\t' rfl, hne '\n' rfl, hne '\r' rfl]
  have hstep : step ⟨ts, .gap⟩ c = some ⟨t :: ts, .gap⟩ := by
    simp [step, stepGap, emit, hgap, hne '"' rfl, h]
  exact scanFrom?_cons hstep rest

theorem scanFrom?_quote (s : String) (ts : List Token) (rest : List Char) :
    scanFrom? ⟨ts, .gap⟩ (quote s ++ rest) = scanFrom? ⟨.text (some s) :: ts, .gap⟩ rest :=
  scanFrom?_append (foldlM_step_quote s ts) rest

/-- A text in front of which a bare word ends. -/
def endsWordBefore (cs : List Char) : Bool :=
  cs.head?.all endsWord

theorem endsWordBefore_append {a b : List Char} (ha : endsWordBefore a = true)
    (hb : endsWordBefore b = true) : endsWordBefore (a ++ b) = true := by
  cases a with
  | nil => exact hb
  | cons c a => exact ha

theorem endsWordBefore_gap {cs : List Char} (h : cs.all isGap = true) :
    endsWordBefore cs = true := by
  cases cs with
  | nil => rfl
  | cons c cs =>
      rw [List.all_cons, Bool.and_eq_true] at h
      simp [endsWordBefore, endsWord, h.1]

/-- In a bare word the scanner gathers characters. -/
theorem foldlM_step_word {cs : List Char} (h : ∀ c ∈ cs, endsWord c = false) (ts : List Token)
    (read : List Char) :
    cs.foldlM step ⟨ts, .word read⟩ = some ⟨ts, .word (cs.reverse ++ read)⟩ := by
  induction cs generalizing read with
  | nil => rfl
  | cons c cs ih =>
      have hstep : step ⟨ts, .word read⟩ c = some ⟨ts, .word (c :: read)⟩ := by
        simp [step, h c (by simp)]
      rw [List.foldlM_cons, hstep, Option.bind_eq_bind, Option.bind_some,
        ih fun d hd => h d (List.mem_cons_of_mem c hd)]
      simp

/-- A bare word is the token that it spells. -/
theorem scanFrom?_word {w : List Char} {t : Token} (hne : w ≠ [])
    (hword : ∀ c ∈ w, endsWord c = false) (ht : ofWord? w = some t) (ts : List Token)
    {rest : List Char} (hrest : endsWordBefore rest = true) :
    scanFrom? ⟨ts, .gap⟩ (w ++ rest) = scanFrom? ⟨t :: ts, .gap⟩ rest := by
  obtain ⟨c, cs, rfl⟩ := List.exists_cons_of_ne_nil hne
  have hc : endsWord c = false := hword c (by simp)
  have hbegin : step ⟨ts, .gap⟩ c = some ⟨ts, .word [c]⟩ := by
    simp only [endsWord, Bool.or_eq_false_iff, Option.isSome_eq_false_iff,
      Option.isNone_iff_eq_none, beq_eq_false_iff_ne] at hc
    simp [step, stepGap, hc.1.1, hc.1.2, hc.2]
  have hread := foldlM_step_word (fun d hd => hword d (List.mem_cons_of_mem c hd)) ts [c]
  rw [List.cons_append, scanFrom?_cons hbegin, scanFrom?_append hread]
  have hback : (cs.reverse ++ [c]).reverse = c :: cs := by simp
  cases rest with
  | nil =>
      change (ofWord? (cs.reverse ++ [c]).reverse).map _ = _
      rw [hback, ht]
      rfl
  | cons d rest =>
      have hd : endsWord d = true := hrest
      have hend : step ⟨ts, .word (cs.reverse ++ [c])⟩ d = step ⟨t :: ts, .gap⟩ d := by
        simp [step, hd, hback, ht]
      rw [scanFrom?, scanFrom?, List.foldlM_cons, List.foldlM_cons, hend]

/-- A keyword is the token that it spells. -/
theorem scanFrom?_keyword {w : List Char} {t : Token} (hne : w ≠ [])
    (hword : w.all (fun c => !endsWord c) = true) (ht : ofWord? w = some t) (ts : List Token)
    {rest : List Char} (hrest : endsWordBefore rest = true) :
    scanFrom? ⟨ts, .gap⟩ (w ++ rest) = scanFrom? ⟨t :: ts, .gap⟩ rest := by
  refine scanFrom?_word hne (fun c hc => ?_) ht ts hrest
  simpa using List.all_eq_true.mp hword c hc

end Token.Scanner

open Token Token.Scanner

/-- A layout puts nothing but blanks between the tokens. -/
structure Layout.IsBlank (l : Layout) : Prop where
  line : ∀ depth, (l.line depth).all isGap = true
  afterColon : l.afterColon.all isGap = true

theorem Layout.isBlank_compact : Layout.compact.IsBlank :=
  ⟨fun _ => rfl, rfl⟩

theorem Layout.isBlank_pretty : Layout.pretty.IsBlank := by
  refine ⟨fun depth => ?_, rfl⟩
  simp [Layout.pretty, isGap]

/-- A value whose strings spell texts and whose numbers are natural numbers. -/
inductive IsLegible : Json → Prop where
  | null : IsLegible .null
  | bool (b : Bool) : IsLegible (.bool b)
  | ofNat (n : Nat) : IsLegible (ofNat n)
  | ofString (s : String) : IsLegible (ofString s)
  | array {items : List Json} (h : ∀ j ∈ items, IsLegible j) : IsLegible (.array items)
  | ofMembers {ms : List (String × Json)} (h : ∀ m ∈ ms, IsLegible m.2) : IsLegible (ofMembers ms)

/-- The scanner reads a written value as its tokens. -/
def ReadsBack (l : Layout) (j : Json) : Prop :=
  ∀ depth ts rest, endsWordBefore rest = true →
    scanFrom? ⟨ts, .gap⟩ (write l depth j ++ rest) =
      scanFrom? ⟨(tokens j).reverse ++ ts, .gap⟩ rest

theorem endsWord_of_isDigit {c : Char} (h : c.isDigit = true) : endsWord c = false := by
  have hdigits : ∀ n, n < 58 → 48 ≤ n → endsWord (Char.ofNat n) = false := by decide
  have hrange : 48 ≤ c.toNat ∧ c.toNat ≤ 57 := Char.isDigit_iff_toNat.mp h
  have hc := hdigits c.toNat (by omega) hrange.1
  rwa [Char.ofNat_toNat] at hc

/-- The digits of a natural number are no keyword, so they are its numeral. -/
theorem ofWord?_toDigits (n : Nat) :
    ofWord? (Nat.toDigits 10 n) = some (.number (.ofNat n)) := by
  have hne : ∀ {c : Char} {cs : List Char}, c.isDigit = false → Nat.toDigits 10 n ≠ c :: cs := by
    intro c cs hc heq
    have hdigit : c.isDigit = true := Numeral.isDigit_of_mem_toDigits (n := n) (by simp [heq])
    rw [hc] at hdigit
    exact Bool.false_ne_true hdigit
  rw [ofWord?, if_neg (hne (by decide)), if_neg (hne (by decide)), if_neg (hne (by decide)),
    Numeral.ofList?_toDigits]
  rfl

variable {l : Layout}

theorem readsBack_ofNat (l : Layout) (n : Nat) : ReadsBack l (ofNat n) := by
  intro depth ts rest hrest
  have hword : ∀ c ∈ Nat.toDigits 10 n, endsWord c = false := fun _ hc =>
    endsWord_of_isDigit (Numeral.isDigit_of_mem_toDigits hc)
  change scanFrom? ⟨ts, .gap⟩ ((Numeral.ofNat n).toList ++ rest) = _
  rw [Numeral.toList_ofNat,
    scanFrom?_word Nat.toDigits_ne_nil hword (ofWord?_toDigits n) ts hrest]
  rfl

theorem readsBack_ofString (l : Layout) (s : String) : ReadsBack l (ofString s) :=
  fun _ ts rest _ => scanFrom?_quote s ts rest

theorem readsBack_null (l : Layout) : ReadsBack l .null := by
  intro depth ts rest hrest
  rw [write]
  exact scanFrom?_keyword (by simp) rfl rfl ts hrest

theorem readsBack_bool (l : Layout) (b : Bool) : ReadsBack l (.bool b) := by
  intro depth ts rest hrest
  cases b with
  | true =>
      rw [write]
      exact scanFrom?_keyword (by simp) rfl rfl ts hrest
  | false =>
      rw [write]
      exact scanFrom?_keyword (by simp) rfl rfl ts hrest

/-! ### Items and members -/

theorem endsWordBefore_writeItems (l : Layout) (depth : Nat) (js : List Json) :
    endsWordBefore (writeItems l depth js) = true := by
  cases js <;> rfl

theorem endsWordBefore_writeMembers (l : Layout) (depth : Nat) (ms : List (Text × Json)) :
    endsWordBefore (writeMembers l depth ms) = true := by
  cases ms <;> rfl

/-- Written items are read as their tokens when each of them is. -/
theorem scanFrom?_writeItems (hl : l.IsBlank) {js : List Json} (h : ∀ j ∈ js, ReadsBack l j)
    (depth : Nat) (ts : List Token) {rest : List Char} (hrest : endsWordBefore rest = true) :
    scanFrom? ⟨ts, .gap⟩ (writeItems l depth js ++ rest) =
      scanFrom? ⟨(itemTokens js).reverse ++ ts, .gap⟩ rest := by
  induction js generalizing ts with
  | nil => rfl
  | cons j js ih =>
      have hafter : endsWordBefore (writeItems l depth js ++ rest) = true :=
        endsWordBefore_append (endsWordBefore_writeItems l depth js) hrest
      simp only [writeItems, List.cons_append, List.append_assoc]
      rw [scanFrom?_mark (t := .comma) rfl, scanFrom?_gap (hl.line depth),
        h j (by simp) depth _ _ hafter, ih fun k hk => h k (List.mem_cons_of_mem j hk)]
      simp [itemTokens]

/-- Written members are read as their tokens when the value of each is. -/
theorem scanFrom?_writeMembers (hl : l.IsBlank) {ms : List (String × Json)}
    (h : ∀ m ∈ ms, ReadsBack l m.2) (depth : Nat) (ts : List Token) {rest : List Char}
    (hrest : endsWordBefore rest = true) :
    scanFrom? ⟨ts, .gap⟩ (writeMembers l depth (ms.map fun m => (some m.1, m.2)) ++ rest) =
      scanFrom? ⟨(memberTokens (ms.map fun m => (some m.1, m.2))).reverse ++ ts, .gap⟩ rest := by
  induction ms generalizing ts with
  | nil => rfl
  | cons m ms ih =>
      have hafter : endsWordBefore
          (writeMembers l depth (ms.map fun m => (some m.1, m.2)) ++ rest) = true :=
        endsWordBefore_append (endsWordBefore_writeMembers l depth _) hrest
      simp only [List.map_cons, writeMembers, writeText, Option.getD_some, List.cons_append,
        List.append_assoc]
      rw [scanFrom?_mark (t := .comma) rfl, scanFrom?_gap (hl.line depth), scanFrom?_quote,
        scanFrom?_mark (t := .colon) rfl, scanFrom?_gap hl.afterColon,
        h m (by simp) depth _ _ hafter, ih fun k hk => h k (List.mem_cons_of_mem m hk)]
      simp [memberTokens]

theorem readsBack_array (hl : l.IsBlank) {items : List Json} (h : ∀ j ∈ items, ReadsBack l j) :
    ReadsBack l (.array items) := by
  intro depth ts rest hrest
  cases items with
  | nil =>
      rw [write, List.cons_append, List.cons_append, scanFrom?_mark (t := .openBracket) rfl,
        scanFrom?_mark (t := .closeBracket) rfl]
      rfl
  | cons j js =>
      have hclose : endsWordBefore (l.line depth ++ ']' :: rest) = true :=
        endsWordBefore_append (endsWordBefore_gap (hl.line depth)) rfl
      have hafter : endsWordBefore
          (writeItems l (depth + 1) js ++ (l.line depth ++ ']' :: rest)) = true :=
        endsWordBefore_append (endsWordBefore_writeItems l _ js) hclose
      simp only [write, List.cons_append, List.append_assoc, List.nil_append]
      rw [scanFrom?_mark (t := .openBracket) rfl, scanFrom?_gap (hl.line _),
        h j (by simp) _ _ _ hafter,
        scanFrom?_writeItems hl (fun k hk => h k (List.mem_cons_of_mem j hk)) _ _ hclose,
        scanFrom?_gap (hl.line depth), scanFrom?_mark (t := .closeBracket) rfl]
      simp [tokens]

theorem readsBack_ofMembers (hl : l.IsBlank) {ms : List (String × Json)}
    (h : ∀ m ∈ ms, ReadsBack l m.2) : ReadsBack l (ofMembers ms) := by
  intro depth ts rest hrest
  cases ms with
  | nil =>
      change scanFrom? ⟨ts, .gap⟩ (['\x7b', '\x7d'] ++ rest) = _
      rw [List.cons_append, List.cons_append, scanFrom?_mark (t := .openBrace) rfl,
        scanFrom?_mark (t := .closeBrace) rfl]
      rfl
  | cons m ms =>
      have hclose : endsWordBefore (l.line depth ++ '\x7d' :: rest) = true :=
        endsWordBefore_append (endsWordBefore_gap (hl.line depth)) rfl
      have hafter : endsWordBefore
          (writeMembers l (depth + 1) (ms.map fun m => (some m.1, m.2)) ++
            (l.line depth ++ '\x7d' :: rest)) = true :=
        endsWordBefore_append (endsWordBefore_writeMembers l _ _) hclose
      simp only [ofMembers, List.map_cons, write, writeText, Option.getD_some, List.cons_append,
        List.append_assoc, List.nil_append]
      rw [scanFrom?_mark (t := .openBrace) rfl, scanFrom?_gap (hl.line _), scanFrom?_quote,
        scanFrom?_mark (t := .colon) rfl, scanFrom?_gap hl.afterColon,
        h m (by simp) _ _ _ hafter,
        scanFrom?_writeMembers hl (fun k hk => h k (List.mem_cons_of_mem m hk)) _ _ hclose,
        scanFrom?_gap (hl.line depth), scanFrom?_mark (t := .closeBrace) rfl]
      simp [tokens]

/-- A legible value is read as its tokens in every layout of blanks. -/
theorem readsBack_of_isLegible (hl : l.IsBlank) {j : Json} (h : IsLegible j) : ReadsBack l j := by
  induction h with
  | null => exact readsBack_null l
  | bool b => exact readsBack_bool l b
  | ofNat n => exact readsBack_ofNat l n
  | ofString s => exact readsBack_ofString l s
  | array h ih => exact readsBack_array hl ih
  | ofMembers h ih => exact readsBack_ofMembers hl ih

/-- A legible value is read back from its text in every layout of blanks. -/
theorem parse?_write (hl : l.IsBlank) {j : Json} (h : IsLegible j) (depth : Nat) :
    parse? (String.ofList (write l depth j)) = some j := by
  have hscan := readsBack_of_isLegible hl h depth [] [] rfl
  rw [List.append_nil, List.append_nil] at hscan
  have htokens : Token.scan? (write l depth j) = some (tokens j) := by
    change Scanner.start.scanFrom? (write l depth j) = _
    rw [Scanner.start, hscan]
    simp [scanFrom?, Scanner.finish?]
  rw [parse?, String.toList_ofList, htokens, Option.bind_some, ofTokens?_tokens]

theorem parse?_compact {j : Json} (h : IsLegible j) : parse? (compact j) = some j :=
  parse?_write Layout.isBlank_compact h 0

theorem parse?_pretty {j : Json} (h : IsLegible j) : parse? (pretty j) = some j :=
  parse?_write Layout.isBlank_pretty h 0

end Transcription.Json
