import Transcription.Json.Reader

/-!
# The tokens of a value

A value has the tokens that any layout writes it with. The machine that builds values gives a value
back from its tokens, on top of whatever containers are open; the containers of the value itself are
opened and closed on the way.
-/

namespace Transcription.Json

mutual

/-- The tokens of a value. -/
def tokens : Json → List Token
  | .null => [.null]
  | .bool b => [.bool b]
  | .number n => [.number n]
  | .text content => [.text content]
  | .array [] => [.openBracket, .closeBracket]
  | .array (j :: js) => .openBracket :: (tokens j ++ itemTokens js ++ [.closeBracket])
  | .object [] => [.openBrace, .closeBrace]
  | .object ((k, j) :: ms) =>
    .openBrace :: .text k :: .colon :: (tokens j ++ memberTokens ms ++ [.closeBrace])

/-- The tokens of the items after the first one. -/
def itemTokens : List Json → List Token
  | [] => []
  | j :: js => .comma :: (tokens j ++ itemTokens js)

/-- The tokens of the members after the first one. -/
def memberTokens : List (Text × Json) → List Token
  | [] => []
  | (k, j) :: ms => .comma :: .text k :: .colon :: (tokens j ++ memberTokens ms)

end

theorem Progress.foldlM_step_cons {p q : Progress} {t : Token} (h : p.step t = some q)
    (ts : List Token) : (t :: ts).foldlM step p = ts.foldlM step q := by
  rw [List.foldlM_cons, h]
  rfl

/-- A value's first token may stand where an array may end, and it does not end it. -/
theorem foldlM_step_firstItem (j : Json) (rest : List Token) (stack : List Opened) :
    (tokens j ++ rest).foldlM Progress.step (.firstItem stack) =
      (tokens j ++ rest).foldlM Progress.step (.value (.array [] :: stack)) := by
  cases j with
  | array items => cases items <;> rfl
  | object ms => cases ms <;> rfl
  | null => rfl
  | bool b => rfl
  | number n => rfl
  | text content => rfl

mutual

/-- The machine builds a value from its tokens. -/
theorem foldlM_step_tokens (j : Json) (rest : List Token) (stack : List Opened) :
    (tokens j ++ rest).foldlM Progress.step (.value stack) =
      rest.foldlM Progress.step (.done j stack) := by
  match j with
  | .null => rfl
  | .bool b => rfl
  | .number n => rfl
  | .text content => rfl
  | .array [] => rfl
  | .array (j :: js) =>
      simp only [tokens, List.cons_append, List.append_assoc, List.nil_append]
      rw [Progress.foldlM_step_cons (q := .firstItem stack) rfl, foldlM_step_firstItem,
        foldlM_step_tokens j, foldlM_step_itemTokens js]
      rfl
  | .object [] => rfl
  | .object ((k, j) :: ms) =>
      simp only [tokens, List.cons_append, List.append_assoc, List.nil_append]
      rw [Progress.foldlM_step_cons (q := .firstKey stack) rfl,
        Progress.foldlM_step_cons (q := .colon [] k stack) rfl,
        Progress.foldlM_step_cons (q := .value (.member [] k :: stack)) rfl,
        foldlM_step_tokens j, foldlM_step_memberTokens ms]
      rfl

/-- Behind a finished item the machine gathers the items that follow. -/
theorem foldlM_step_itemTokens (js : List Json) (j : Json) (items : List Json)
    (rest : List Token) (stack : List Opened) :
    (itemTokens js ++ .closeBracket :: rest).foldlM Progress.step
        (.done j (.array items :: stack)) =
      rest.foldlM Progress.step (.done (.array (items.reverse ++ j :: js)) stack) := by
  match js with
  | [] =>
      rw [itemTokens, List.nil_append, Progress.foldlM_step_cons rfl, List.reverse_cons]
  | next :: js =>
      simp only [itemTokens, List.cons_append, List.append_assoc]
      rw [Progress.foldlM_step_cons (q := .value (.array (j :: items) :: stack)) rfl,
        foldlM_step_tokens next, foldlM_step_itemTokens js, List.reverse_cons]
      simp

/-- Behind a finished member the machine gathers the members that follow. -/
theorem foldlM_step_memberTokens (ms : List (Text × Json)) (k : Text) (j : Json)
    (members : List (Text × Json)) (rest : List Token) (stack : List Opened) :
    (memberTokens ms ++ .closeBrace :: rest).foldlM Progress.step
        (.done j (.member members k :: stack)) =
      rest.foldlM Progress.step (.done (.object (members.reverse ++ (k, j) :: ms)) stack) := by
  match ms with
  | [] =>
      rw [memberTokens, List.nil_append, Progress.foldlM_step_cons rfl, List.reverse_cons]
  | (key, next) :: ms =>
      simp only [memberTokens, List.cons_append, List.append_assoc]
      rw [Progress.foldlM_step_cons (q := .key ((k, j) :: members) stack) rfl,
        Progress.foldlM_step_cons (q := .colon ((k, j) :: members) key stack) rfl,
        Progress.foldlM_step_cons (q := .value (.member ((k, j) :: members) key :: stack)) rfl,
        foldlM_step_tokens next, foldlM_step_memberTokens ms, List.reverse_cons]
      simp

end

/-- The tokens of a value spell the value. -/
theorem ofTokens?_tokens (j : Json) : ofTokens? (tokens j) = some j := by
  have hbuilt := foldlM_step_tokens j [] []
  rw [List.append_nil] at hbuilt
  rw [ofTokens?, hbuilt]
  rfl

end Transcription.Json
