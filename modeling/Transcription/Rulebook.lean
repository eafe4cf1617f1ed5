/-!
# The rulebook

A rule turns one keyword into the syntax that it stands for. The rules are applied in the order
of the book. The order matters for one pair only: `revive` becomes `catch`, and `catch` becomes
`let`, so the rule for `catch` comes first.
-/

namespace Transcription

/-- A keyword and what is written in its place. -/
structure Rule where
  keyword : String
  replacement : String
  deriving Repr, DecidableEq

/-- The rules in the order in which they are applied. -/
def rulebook : List Rule :=
  [⟨"catch", "let"⟩, ⟨"evolve", "for"⟩, ⟨"attack", "+"⟩, ⟨"defend", "-"⟩, ⟨"combine", "*"⟩,
   ⟨"split", "/"⟩, ⟨"trainer", "function"⟩, ⟨"battle", "if"⟩, ⟨"faint", "else"⟩,
   ⟨"wildcard", "null"⟩, ⟨"legendary", "true"⟩, ⟨"common", "false"⟩,
   -- blocks
   ⟨"pokeball", "\x7b"⟩, ⟨"pokecapture", "\x7d"⟩,
   -- entries and parameters
   ⟨"pokedex_entry", ":"⟩, ⟨"move_set", ","⟩, ⟨"swap_move", "="⟩, ⟨"mega_evolve", "=>"⟩,
   ⟨"status_effects", "|"⟩, ⟨"type_advantage", "&&"⟩,
   -- failures and results
   ⟨"pokecenter", "try"⟩, ⟨"revive", "catch"⟩, ⟨"release_move", "return"⟩, ⟨"use", "println"⟩]

namespace Rulebook

/-- What is written in place of a keyword. -/
def lookup (keyword : String) : Option String :=
  (rulebook.find? fun r => r.keyword == keyword).map Rule.replacement

@[simp] theorem length_rulebook : rulebook.length = 24 := rfl

/-- No keyword has two rules. -/
theorem keywords_nodup : (rulebook.map Rule.keyword).Nodup := by
  decide

end Rulebook

end Transcription
