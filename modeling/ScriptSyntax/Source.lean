/-!
# Sources

A source is its list of characters.  Positions in it are offsets in UTF-8 bytes, so an offset may
lie inside a character; such an offset starts no suffix and bounds no slice.
-/

namespace ScriptSyntax

abbrev Source := List Char

namespace Source

/-- Decided along the text, where an instance for all characters would go through all of them. -/
instance (priority := high) decidableForallMem {p : Char → Prop} [DecidablePred p]
    (text : List Char) : Decidable (∀ c ∈ text, p c) :=
  List.decidableBAll p text

/-- The length in bytes. -/
def size (source : Source) : Nat :=
  source.foldr (fun c total => c.utf8Size + total) 0

/-- The suffix that starts at a byte offset. -/
def suffix? : Source → Nat → Option Source
  | source, 0 => some source
  | [], _ + 1 => none
  | c :: rest, offset + 1 =>
      if c.utf8Size ≤ offset + 1 then suffix? rest (offset + 1 - c.utf8Size) else none

/-- The text before a byte offset. -/
def upTo? : Source → Nat → Option Source
  | _, 0 => some []
  | [], _ + 1 => none
  | c :: rest, offset + 1 =>
      if c.utf8Size ≤ offset + 1 then (upTo? rest (offset + 1 - c.utf8Size)).map (c :: ·) else none

/-- The text between two offsets, if they are in order and bound whole characters. -/
def slice? (source : Source) (start stop : Nat) : Option Source :=
  if start ≤ stop then (suffix? source start).bind (upTo? · (stop - start)) else none

@[simp] theorem size_nil : size [] = 0 := rfl

@[simp] theorem size_cons (c : Char) (rest : Source) :
    size (c :: rest) = c.utf8Size + size rest := rfl

@[simp] theorem size_append (first second : Source) :
    size (first ++ second) = size first + size second := by
  induction first with
  | nil => simp
  | cons c rest ih => rw [List.cons_append, size_cons, size_cons, ih, Nat.add_assoc]

theorem suffix?_append_size (first second : Source) :
    suffix? (first ++ second) (size first) = some second := by
  induction first with
  | nil => cases second <;> rfl
  | cons c rest ih =>
      have hpos : 0 < c.utf8Size := Char.utf8Size_pos c
      obtain ⟨n, hn⟩ : ∃ n, size (c :: rest) = n + 1 := by
        refine ⟨size (c :: rest) - 1, ?_⟩
        simp only [size_cons]
        omega
      have hle : c.utf8Size ≤ n + 1 := by
        rw [← hn, size_cons]
        omega
      have hsub : n + 1 - c.utf8Size = size rest := by
        rw [← hn, size_cons]
        omega
      rw [hn, List.cons_append, suffix?, if_pos hle, hsub, ih]

end Source

end ScriptSyntax
