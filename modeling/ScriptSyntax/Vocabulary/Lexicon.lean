/-!
# Lexicons

A lexicon is a finite list of words, each with a name, one canonical spelling and any number of
aliases.  Looking a spelling up compares whole texts and respects case; a canonical spelling wins
over an alias.
-/

namespace ScriptSyntax

/-- The words of one part of the vocabulary, in the order in which they are listed. -/
class Lexicon (α : Type) where
  entries : List α
  name : α → String
  canonical : α → String
  aliases : α → List String

namespace Lexicon

variable {α : Type} [Lexicon α]

/-- The canonical spelling, then the aliases. -/
def spellings (word : α) : List String :=
  canonical word :: aliases word

def spelled (text : String) : Option α :=
  (entries.find? fun word => canonical word == text) <|>
    (entries.find? fun word => (aliases word).contains text)

/-- Every spelling of the lexicon with its word, in listing order. -/
def allSpellings (α : Type) [Lexicon α] : List (String × α) :=
  (entries : List α).flatMap fun word => (spellings word).map fun text => (text, word)

theorem mem_spellings_of_spelled {text : String} {word : α}
    (h : spelled text = some word) : text ∈ spellings word := by
  simp only [spelled, Option.orElse_eq_orElse, Option.orElse_eq_or, Option.or_eq_some_iff] at h
  rcases h with h | ⟨-, h⟩
  · have := List.find?_some h
    simp only [beq_iff_eq] at this
    exact this ▸ List.mem_cons_self
  · have := List.find?_some h
    simp only [List.contains_eq_mem, decide_eq_true_eq] at this
    exact List.mem_cons_of_mem _ this

end Lexicon

end ScriptSyntax
