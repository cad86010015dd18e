import Mathlib.Data.List.DropRight
import ScriptSyntax.Proofs.ReportPlaces

/-!
# Encoded text

A character that takes one byte is found in the encoded text exactly where it stands in the source,
since no other character has that byte in its encoding.  So a text of such characters is found in
the bytes where it is found in the source, and a run of one of them ends the bytes if it ends the
source.
-/

namespace ScriptSyntax

namespace Source

variable {source : Source} {mark : Char} {index : Nat}

@[simp] theorem bytes_append (first second : Source) :
    (first ++ second).bytes = first.bytes ++ second.bytes :=
  List.flatMap_append

theorem bytes_cons (hmark : mark.utf8Size = 1) (rest : Source) :
    bytes (mark :: rest) = mark.toUInt8 :: rest.bytes :=
  congrArg (· ++ rest.bytes) (String.utf8EncodeChar_eq_singleton hmark)

/-- A byte that encodes a character alone is found where the character stands, and nowhere else. -/
theorem getElem?_bytes_iff (hmark : mark.utf8Size = 1) :
    source.bytes[index]? = some mark.toUInt8 ↔
      ∃ before after, source = before ++ mark :: after ∧ size before = index := by
  constructor
  · intro h
    induction source generalizing index with
    | nil => simp [bytes] at h
    | cons c rest ih =>
        change (String.utf8EncodeChar c ++ bytes rest)[index]? = _ at h
        have hlength := String.length_utf8EncodeChar c
        by_cases hlt : index < c.utf8Size
        · rw [List.getElem?_append_left (by omega)] at h
          obtain rfl := (mem_utf8EncodeChar_iff hmark).mp (List.mem_of_getElem? h)
          refine ⟨[], rest, rfl, ?_⟩
          rw [size_nil]
          omega
        · rw [List.getElem?_append_right (by omega), hlength] at h
          obtain ⟨before, after, rfl, hsize⟩ := ih h
          refine ⟨c :: before, after, rfl, ?_⟩
          rw [size_cons]
          omega
  · rintro ⟨before, after, rfl, rfl⟩
    rw [bytes_append, bytes_cons hmark, List.getElem?_append_right (by simp)]
    simp

/-- The last byte of a character is that of a mark only if the character is the mark. -/
theorem length_rtakeWhile_bytes (hmark : mark.utf8Size = 1) (text : Source) :
    (text.bytes.rtakeWhile (· = mark.toUInt8)).length = (text.rtakeWhile (· = mark)).length := by
  induction text using List.reverseRecOn with
  | nil => rfl
  | append_singleton text c ih =>
      rw [bytes_append]
      by_cases hc : c = mark
      · subst hc
        rw [bytes_cons hmark, show bytes [] = [] from rfl,
          List.rtakeWhile_concat_pos _ _ _ (by simp),
          List.rtakeWhile_concat_pos _ _ _ (by simp), List.length_append, List.length_append, ih]
        rfl
      · obtain ⟨front, last, hbytes⟩ : ∃ front last, bytes [c] = front ++ [last] := by
          refine ⟨_, _, (List.dropLast_append_getLast ?_).symm⟩
          simp [bytes, String.utf8EncodeChar_ne_nil]
        have hlast : last ≠ mark.toUInt8 := by
          rintro rfl
          have hmem : mark.toUInt8 ∈ bytes [c] := by simp [hbytes]
          exact hc (List.mem_singleton.mp ((mem_bytes_iff hmark).mp hmem)).symm
        rw [hbytes, ← List.append_assoc, List.rtakeWhile_concat_neg _ _ _ (by simpa using hlast),
          List.rtakeWhile_concat_neg _ _ _ (by simpa using hc)]
        rfl

/-- Each character of the text takes one byte. -/
def OneByte (text : Source) : Prop :=
  ∀ c ∈ text, c.utf8Size = 1

theorem bytes_prefix_iff {text : Source} (htext : OneByte text) :
    text.bytes <+: source.bytes ↔ text <+: source := by
  constructor
  · intro h
    induction text generalizing source with
    | nil => exact List.nil_prefix
    | cons c rest ih =>
        have hc : c.utf8Size = 1 := htext c List.mem_cons_self
        rw [bytes_cons hc] at h
        have hfirst : source.bytes[0]? = some c.toUInt8 := by
          obtain ⟨more, hmore⟩ := h
          rw [← hmore]
          rfl
        obtain ⟨before, after, rfl, hsize⟩ := (getElem?_bytes_iff hc).mp hfirst
        obtain rfl : before = [] := by
          by_contra hne
          exact absurd hsize (Nat.ne_of_gt (size_pos hne))
        rw [List.nil_append, bytes_cons hc, List.cons_prefix_cons] at h
        rw [List.nil_append, List.cons_prefix_cons]
        exact ⟨rfl, ih (fun d hd => htext d (List.mem_cons_of_mem c hd)) h.2⟩
  · rintro ⟨after, rfl⟩
    exact ⟨bytes after, (bytes_append text after).symm⟩

theorem drop_bytes (before after : Source) :
    (before ++ after).bytes.drop (size before) = after.bytes := by
  rw [bytes_append, ← length_bytes, List.drop_left]

/-- Text of one byte characters is found in the bytes where it is found in the source. -/
theorem bytes_prefix_drop_iff {text : Source} (hne : text ≠ []) (htext : OneByte text) :
    text.bytes <+: source.bytes.drop index ↔
      ∃ before after, source = before ++ (text ++ after) ∧ size before = index := by
  constructor
  · intro h
    obtain ⟨c, rest, rfl⟩ := List.exists_cons_of_ne_nil hne
    have hc : c.utf8Size = 1 := htext c List.mem_cons_self
    have hfirst : source.bytes[index]? = some c.toUInt8 := by
      obtain ⟨more, hmore⟩ := h
      rw [bytes_cons hc] at hmore
      rw [← Nat.add_zero index, ← List.getElem?_drop, ← hmore]
      rfl
    obtain ⟨before, after, rfl, rfl⟩ := (getElem?_bytes_iff hc).mp hfirst
    rw [drop_bytes, bytes_prefix_iff htext] at h
    obtain ⟨more, hmore⟩ := h
    exact ⟨before, more, by rw [hmore], rfl⟩
  · rintro ⟨before, after, rfl, rfl⟩
    rw [drop_bytes, bytes_prefix_iff htext]
    exact List.prefix_append text after

end Source

end ScriptSyntax
