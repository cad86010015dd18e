import ScriptSyntax.Proofs.Tiling

/-!
# The slots of a list

The commas of an initialization list and its braces are marks, and between each two of them there is
a slot, with one child for it.  Nothing has to be written in a slot.  A list with nothing between its
braces has no slot: a single slot is not left empty.
-/

namespace ScriptSyntax

/-! ## Lists and the tokens in them -/

instance (node : Node) (span : Span) : Decidable (node.Covers span) :=
  decidable_of_iff (node.span.any fun wide => wide.start ≤ span.start ∧ span.stop ≤ wide.stop) <| by
    cases h : node.span <;> simp [Node.Covers, h]

/-- No token stands between the two. -/
def Adjacent (tokens : List Token) (before behind : Token) : Prop :=
  ∀ token ∈ tokens, ¬(before.span.stop ≤ token.span.start ∧ token.span.stop ≤ behind.span.start)

namespace Node

/-- An element that is not left out. -/
def IsWritten (child : Node) : Prop :=
  child.kind = .assignment ∨ child.kind = .initList

instance (child : Node) : Decidable child.IsWritten :=
  inferInstanceAs (Decidable (_ ∨ _))

/-- A comma in the span of a list, but in no element of it. -/
def IsSeparator (list : Node) (token : Token) : Prop :=
  token.kind = .comma ∧ list.Covers token.span ∧
    ∀ child ∈ list.children, child.IsWritten → ¬child.Covers token.span

instance (list : Node) : DecidablePred list.IsSeparator :=
  fun _ => inferInstanceAs (Decidable (_ ∧ _))

def separators (list : Node) (tokens : List Token) : List Token :=
  tokens.filter list.IsSeparator

/-- The child that stands for what is written between two marks.  It is undefined if that is
nothing, and lies on the second mark then. -/
structure FillsSlot (child : Node) (tokens : List Token) (before behind : Token) : Prop where
  kind : child.kind = .undefined ∨ child.IsWritten
  between : ∃ span, child.span = some span ∧ before.span.stop ≤ span.start ∧
    span.stop ≤ behind.span.stop
  undefined_iff : child.kind = .undefined ↔ Adjacent tokens before behind
  place : child.kind = .undefined → child.span = some behind.span ∧ behind.span.length = 1

/-- A list from brace to brace.  If there is anything between the two, it has one child more than
separators, and each child fills the slot between the marks that have its place. -/
structure FillsSlots (list : Node) (tokens : List Token) (opening closing : Token) : Prop where
  opens : opening ∈ tokens ∧ opening.kind = .openBrace
  closes : closing ∈ tokens ∧ closing.kind = .closeBrace
  span : list.span = some ⟨opening.span.start, closing.span.stop⟩
  empty_iff : list.children = [] ↔ Adjacent tokens opening closing
  length : list.children ≠ [] → list.children.length = (list.separators tokens).length + 1
  slots : ∀ (index : Nat) (child : Node) (before behind : Token),
    list.children[index]? = some child →
    (opening :: (list.separators tokens ++ [closing]))[index]? = some before →
    (list.separators tokens ++ [closing])[index]? = some behind →
    child.FillsSlot tokens before behind

def HasSlots (tokens : List Token) (list : Node) : Prop :=
  ∃ opening closing, list.FillsSlots tokens opening closing

end Node

/-! ## Rows of slots -/

/-- What is written in front of a mark, and the child that stands for it. -/
structure Slot where
  inside : List Token
  mark : Token
  child : Node

namespace Slot

def tokens (slot : Slot) : List Token :=
  slot.inside ++ [slot.mark]

/-- The child stands for what is written, and for nothing else. -/
inductive Fits (slot : Slot) : Prop
  | omitted (inside : slot.inside = []) (kind : slot.child.kind = .undefined)
      (span : slot.child.span = some slot.mark.span) (length : slot.mark.span.length = 1)
  | written {first : Token} {span : Span} (inside : slot.inside.head? = some first)
      (kind : slot.child.IsWritten) (span_eq : slot.child.span = some span)
      (low : first.span.start ≤ span.start) (high : span.stop ≤ slot.mark.span.start)
      (covered : ∀ token ∈ slot.inside, slot.child.Covers token.span)

end Slot

/-- Slots up to a closing brace, with a comma behind each of the others. -/
inductive Slots : List Slot → Token → Prop
  | last {slot : Slot} (fits : slot.Fits) (kind : slot.mark.kind = .closeBrace) :
      Slots [slot] slot.mark
  | more {slot : Slot} {slots : List Slot} {closing : Token} (fits : slot.Fits)
      (kind : slot.mark.kind = .comma) (rest : Slots slots closing) : Slots (slot :: slots) closing

namespace Slots

variable {slots : List Slot} {slot : Slot} {closing : Token}

theorem fits (h : Slots slots closing) : ∀ slot ∈ slots, slot.Fits := by
  induction h with
  | last hfits => exact fun _ hmem => List.mem_singleton.mp hmem ▸ hfits
  | more hfits _ _ ih => exact List.forall_mem_cons.mpr ⟨hfits, ih⟩

theorem marks (h : Slots slots closing) : closing.kind = .closeBrace ∧
    ∃ commas, slots.map (·.mark) = commas ++ [closing] ∧ ∀ comma ∈ commas, comma.kind = .comma := by
  induction h with
  | last _ hkind => exact ⟨hkind, [], rfl, fun _ hmem => nomatch hmem⟩
  | @more slot _ _ _ hkind _ ih =>
      obtain ⟨hclosing, commas, hmarks, hcommas⟩ := ih
      refine ⟨hclosing, slot.mark :: commas, ?_, List.forall_mem_cons.mpr ⟨hkind, hcommas⟩⟩
      rw [List.map_cons, hmarks, List.cons_append]

/-- The closing brace is the last of the tokens. -/
theorem tokens_eq (h : Slots slots closing) :
    ∃ inside, slots.flatMap Slot.tokens = inside ++ [closing] := by
  induction h with
  | @last slot => exact ⟨slot.inside, by rw [List.flatMap_singleton, Slot.tokens]⟩
  | @more slot _ _ _ _ _ ih =>
      obtain ⟨inside, hinside⟩ := ih
      exact ⟨slot.tokens ++ inside, by rw [List.flatMap_cons, hinside, List.append_assoc]⟩

theorem closing_mem (h : Slots slots closing) : closing ∈ slots.flatMap Slot.tokens := by
  obtain ⟨inside, hinside⟩ := h.tokens_eq
  rw [hinside]
  exact List.mem_append_right _ (List.mem_singleton_self _)

end Slots

theorem marks_sublist (slots : List Slot) :
    (slots.map (·.mark)).Sublist (slots.flatMap Slot.tokens) := by
  induction slots with
  | nil => exact .slnil
  | cons slot slots ih =>
      rw [List.map_cons, List.flatMap_cons, ← List.singleton_append]
      exact (List.sublist_append_right slot.inside [slot.mark]).append ih

theorem filter_slots {slots : List Slot} {test : Token → Bool}
    (h : ∀ slot ∈ slots, ∀ token ∈ slot.inside, ¬test token) :
    (slots.flatMap Slot.tokens).filter test = (slots.map (·.mark)).filter test := by
  induction slots with
  | nil => rfl
  | cons slot slots ih =>
      obtain ⟨hslot, hslots⟩ := List.forall_mem_cons.mp h
      rw [List.flatMap_cons, Slot.tokens, List.append_assoc, List.filter_append,
        List.filter_eq_nil_iff.mpr hslot, List.filter_append, ih hslots, List.map_cons,
        ← List.filter_append, List.nil_append, List.singleton_append]

/-- A slot among the tokens, between the mark in front of it and its own. -/
theorem slot_place {tokens front behind : List Token} {slots : List Slot} {slot : Slot}
    {opening before : Token} {index : Nat}
    (htokens : tokens = front ++ opening :: (slots.flatMap Slot.tokens ++ behind))
    (hslot : slots[index]? = some slot)
    (hbefore : (opening :: slots.map (·.mark))[index]? = some before) :
    ∃ front back, tokens = front ++ before :: (slot.inside ++ slot.mark :: back) := by
  induction slots generalizing front opening index with
  | nil => cases hslot
  | cons first slots ih =>
      rw [List.flatMap_cons, Slot.tokens] at htokens
      cases index with
      | zero =>
          cases hslot
          cases hbefore
          exact ⟨front, slots.flatMap Slot.tokens ++ behind, by simpa using htokens⟩
      | succ index =>
          refine @ih (front ++ opening :: first.inside) first.mark index ?_ hslot hbefore
          simpa using htokens

/-! ## Slots in a source -/

namespace Grammar.Setting

variable {setting : Setting} {tokens next rest : List Token} {token last : Token}

theorem Reads.pairwise (h : setting.Reads tokens) :
    tokens.Pairwise fun token other => token.span.Precedes other.span := by
  induction tokens with
  | nil => exact .nil
  | cons token rest ih => exact .cons (fun other hmem => h.stop_le_of_mem hmem) (ih h.tail)

/-- The last of the tokens that are passed ends where the last one ends that was in front of what is
left, also where it is read anew. -/
theorem Reads.last_passed {inside : List Token} (h : setting.Reads (inside ++ token :: rest))
    (hleads : setting.Leads (inside ++ token :: rest) (last :: token :: rest))
    (hkind : token.kind.isAngle = false) :
    ∃ final, inside.getLast? = some final ∧ final.span.stop = last.span.stop := by
  generalize htokens : inside ++ token :: rest = tokens at h hleads
  induction hleads using Relation.ReflTransGen.head_induction_on generalizing inside with
  | refl =>
      have hinside : inside = [last] := List.append_cancel_right (htokens : _ = [last] ++ _)
      exact ⟨last, by rw [hinside]; rfl, rfl⟩
  | @head tokens middle hstep hleads ih =>
      have hmiddle := h.step hstep
      have hbehind : token :: rest <:+ middle :=
        hmiddle.suffix_of_leads hleads (List.suffix_cons _ _) hkind
      rcases hstep with ⟨first, rfl⟩ | hgreater
      · obtain ⟨passed, hpassed⟩ := hbehind
        obtain ⟨final, hfinal, hstop⟩ := ih hpassed hmiddle
        have hinside : inside = first :: passed :=
          List.append_cancel_right (by rw [htokens, List.cons_append, hpassed])
        exact ⟨final, by rw [hinside, List.getLast?_cons, hfinal]; rfl, hstop⟩
      · obtain ⟨angle, behind, rfl, hangle, rfl⟩ := h.of_afterGreater? hgreater
        obtain ⟨offset, hoffset⟩ := h
        obtain ⟨freshAngles, staleAngles, common, hsynced⟩ :=
          Source.resynced_of_startsWithGreater hoffset.symm hangle
        rw [hsynced.fresh_eq] at hbehind
        obtain ⟨passed, hpassed⟩ := suffix_of_angles hbehind hsynced.freshAngle hkind
        obtain ⟨final, hfinal, hstop⟩ := @ih (freshAngles ++ passed)
          (by rw [hsynced.fresh_eq, List.append_assoc, hpassed]) hmiddle
        have hinside : inside = (angle :: staleAngles) ++ passed := by
          refine List.append_cancel_right (?_ : _ ++ token :: rest = _ ++ token :: rest)
          rw [htokens, hsynced.stale_eq, List.append_assoc, hpassed, List.cons_append]
        rw [hinside, List.getLast?_append]
        rw [List.getLast?_append] at hfinal
        cases hlast : passed.getLast? with
        | some other =>
            rw [hlast] at hfinal
            exact ⟨final, hfinal, hstop⟩
        | none =>
            rw [hlast] at hfinal
            have hother : (angle :: staleAngles).getLast? = some _ :=
              List.getLast?_eq_some_getLast (List.cons_ne_nil _ _)
            exact ⟨_, hother, (hsynced.stop_eq _ _ hfinal hother).symm.trans hstop⟩

/-- What stands between two tokens of a source is what is read between them. -/
theorem Reads.adjacent_iff {front inside back : List Token} {before behind : Token}
    (h : setting.Reads tokens) (htokens : tokens = front ++ before :: (inside ++ behind :: back)) :
    Adjacent tokens before behind ↔ inside = [] := by
  have hpairs := h.pairwise
  have hsolid : ∀ token ∈ tokens, token.span.start < token.span.stop := fun token => h.lt_of_mem
  subst htokens
  simp only [List.pairwise_append, List.pairwise_cons, List.mem_append, List.mem_cons] at hpairs
  obtain ⟨-, ⟨hbefore, -, ⟨hbehind, -⟩, hinside⟩, hfront⟩ := hpairs
  constructor
  · intro hadjacent
    by_contra hne
    obtain ⟨token, others, rfl⟩ := List.exists_cons_of_ne_nil hne
    exact hadjacent token (by simp) ⟨hbefore token (.inl List.mem_cons_self),
      hinside token List.mem_cons_self behind (.inl rfl)⟩
  · rintro rfl token hmem ⟨hlow, hhigh⟩
    have htoken := hsolid token hmem
    have hfirst := hsolid before (by simp)
    have hlast := hsolid behind (by simp)
    simp only [List.nil_append, List.mem_append, List.mem_cons] at hmem
    rcases hmem with hmem | rfl | rfl | hmem
    · have hle : token.span.stop ≤ before.span.start := hfront token hmem before (.inl rfl)
      omega
    · omega
    · omega
    · have hle : behind.span.stop ≤ token.span.start := hbehind token hmem
      omega

end Grammar.Setting

/-! ## Lists in a source -/

section Lists

variable {setting : Grammar.Setting} {tokens front behind : List Token}
  {opening closing before : Token}
  {slots : List Slot} {slot : Slot} {list : Node}

theorem Slot.Fits.fillsSlot {back : List Token} (h : slot.Fits) (hreads : setting.Reads tokens)
    (htokens : tokens = front ++ before :: (slot.inside ++ slot.mark :: back)) :
    slot.child.FillsSlot tokens before slot.mark := by
  have hadjacent := hreads.adjacent_iff htokens
  have hreads' : setting.Reads (before :: (slot.inside ++ slot.mark :: back)) :=
    hreads.suffix (htokens ▸ List.suffix_append _ _)
  have hmark : before.span.stop ≤ slot.mark.span.start := hreads'.stop_le_of_mem (by simp)
  cases h with
  | omitted hinside hkind hspan hlength =>
      exact ⟨.inl hkind, ⟨_, hspan, hmark, Nat.le_refl _⟩,
        ⟨fun _ => hadjacent.mpr hinside, fun _ => hkind⟩, fun _ => ⟨hspan, hlength⟩⟩
  | @written first span hinside hkind hspan hlow hhigh _ =>
      have hfirst : first ∈ slot.inside := List.mem_of_mem_head? hinside
      have hbefore : before.span.stop ≤ first.span.start :=
        hreads'.stop_le_of_mem (List.mem_append_left _ hfirst)
      have hsolid : slot.mark.span.start < slot.mark.span.stop :=
        hreads.lt_of_mem (by rw [htokens]; simp)
      have hwritten : slot.child.kind ≠ .undefined := by
        rcases hkind with hkind | hkind <;> simp [hkind]
      refine ⟨.inr hkind, ⟨span, hspan, by omega, by omega⟩, ⟨fun h => absurd h hwritten, ?_⟩,
        fun h => absurd h hwritten⟩
      intro hnone
      rw [hadjacent.mp hnone] at hfirst
      cases hfirst

/-- An element covers no token but those that are written in its slot. -/
theorem Slot.Fits.not_covers (h : slot.Fits) (hwritten : slot.child.IsWritten) {token : Token}
    (htoken : token.span.start < token.span.stop)
    (hapart : slot.mark.span.start ≤ token.span.start ∨
      ∀ first ∈ slot.inside, token.span.stop ≤ first.span.start) :
    ¬slot.child.Covers token.span := by
  rintro ⟨wide, hwide, hstart, hstop⟩
  cases h with
  | omitted _ hkind =>
      rcases hwritten with hwritten | hwritten <;> cases hkind.symm.trans hwritten
  | written hinside _ hspan hlow hhigh _ =>
      obtain rfl := Option.some.inj (hspan.symm.trans hwide)
      rcases hapart with hbehind | hbefore
      · omega
      · have hfirst := hbefore _ (List.mem_of_mem_head? hinside)
        omega

/-- An element does not reach over a mark. -/
theorem Slots.not_covers_mark (h : Slots slots closing)
    (hreads : setting.Reads (slots.flatMap Slot.tokens ++ behind)) :
    ∀ slot ∈ slots, ∀ other ∈ slots, other.child.IsWritten → ¬other.child.Covers slot.mark.span := by
  let apart (slot other : Slot) : Prop :=
    other.child.IsWritten → ¬other.child.Covers slot.mark.span
  have hmark (slot : Slot) : slot.mark ∈ slot.tokens := by simp [Slot.tokens]
  have hsolid : ∀ slot ∈ slots, slot.mark.span.start < slot.mark.span.stop := fun slot hslot =>
    hreads.lt_of_mem (List.mem_append_left _ (List.mem_flatMap_of_mem hslot (hmark slot)))
  have hself : ∀ slot ∈ slots, apart slot slot := fun slot hslot hwritten =>
    (h.fits slot hslot).not_covers hwritten (hsolid slot hslot) (.inl (Nat.le_refl _))
  have hpairs : slots.Pairwise fun slot other => apart slot other ∧ apart other slot := by
    have hordered := (List.pairwise_append.mp hreads.pairwise).1
    refine (List.pairwise_flatMap.mp hordered).2.imp_of_mem ?_
    intro slot other hslot hother hbefore
    refine ⟨fun hwritten => ?_, fun hwritten => ?_⟩
    · refine (h.fits other hother).not_covers hwritten (hsolid slot hslot) (.inr fun first hfirst => ?_)
      exact hbefore _ (hmark slot) first (List.mem_append_left _ hfirst)
    · refine (h.fits slot hslot).not_covers hwritten (hsolid other hother) (.inl ?_)
      have hle : slot.mark.span.stop ≤ other.mark.span.start := hbefore _ (hmark slot) _ (hmark other)
      exact Nat.le_trans (Nat.le_of_lt (hsolid slot hslot)) hle
  intro slot hslot other hother
  exact (hpairs.imp And.left).forall_of_forall_of_flip hself (hpairs.imp And.right) hslot hother

/-- The children lie between the braces. -/
theorem Slots.between (h : Slots slots closing)
    (hreads : setting.Reads (opening :: (slots.flatMap Slot.tokens ++ behind))) :
    ∀ slot ∈ slots, ∃ span, slot.child.span = some span ∧ opening.span.start ≤ span.start ∧
      span.stop ≤ closing.span.stop := by
  intro slot hslot
  obtain ⟨inside, hinside⟩ := h.tokens_eq
  have hslots : setting.Reads (slots.flatMap Slot.tokens ++ behind) := hreads.tail
  have hlow {token : Token} (hmem : token ∈ slot.tokens) : opening.span.start ≤ token.span.start := by
    have hle := hreads.stop_le_of_mem (List.mem_append_left _ (List.mem_flatMap_of_mem hslot hmem))
    exact Nat.le_trans (Nat.le_of_lt hreads.start_lt_stop) hle
  have hhigh {token : Token} (hmem : token ∈ slot.tokens) : token.span.stop ≤ closing.span.stop := by
    have hlast : (slots.flatMap Slot.tokens).getLast? = some closing := by
      rw [hinside, List.getLast?_concat]
    rcases hslots.before_last hlast (List.mem_flatMap_of_mem hslot hmem) with rfl | ⟨hle, -⟩
    · exact Nat.le_refl _
    · have hlt := hslots.lt_of_mem (List.mem_append_left _ h.closing_mem)
      exact Nat.le_trans hle (Nat.le_of_lt hlt)
  have hmark : slot.mark ∈ slot.tokens := List.mem_append_right _ (List.mem_singleton_self _)
  cases h.fits slot hslot with
  | omitted _ _ hspan => exact ⟨_, hspan, hlow hmark, hhigh hmark⟩
  | @written first span hinside _ hspan hstart hstop =>
      have hfirst : first ∈ slot.tokens := List.mem_append_left _ (List.mem_of_mem_head? hinside)
      have hlt := hslots.lt_of_mem (List.mem_append_left _ (List.mem_flatMap_of_mem hslot hmark))
      have hbehind := hhigh hmark
      exact ⟨span, hspan, Nat.le_trans (hlow hfirst) hstart, by omega⟩

section Separators

variable (h : Slots slots closing) (hchildren : list.children = slots.map (·.child))
  (hspan : list.span = some ⟨opening.span.start, closing.span.stop⟩)

include hspan

theorem covers_iff_of_span (token : Token) : list.Covers token.span ↔
    opening.span.start ≤ token.span.start ∧ token.span.stop ≤ closing.span.stop := by
  simp [Node.Covers, hspan]

include h hchildren

/-- A mark of a list, other than its closing brace, is a separator. -/
theorem Slots.isSeparator_mark
    (hreads : setting.Reads (opening :: (slots.flatMap Slot.tokens ++ behind))) {mark : Token}
    (hmark : mark ∈ slots.map (·.mark)) (hkind : mark.kind = .comma)
    (hbefore : mark.span.stop ≤ closing.span.start) : list.IsSeparator mark := by
  have hslots : setting.Reads (slots.flatMap Slot.tokens ++ behind) := hreads.tail
  have hmem {token : Token} (htoken : token ∈ slots.map (·.mark)) :
      token ∈ slots.flatMap Slot.tokens ++ behind :=
    List.mem_append_left _ ((marks_sublist slots).mem htoken)
  have hlow := hreads.stop_le_of_mem (hmem hmark)
  have hopening := hreads.start_lt_stop
  have hclosing := hslots.lt_of_mem (List.mem_append_left _ h.closing_mem)
  refine ⟨hkind, (covers_iff_of_span hspan mark).mpr ⟨by omega, by omega⟩, ?_⟩
  rw [hchildren]
  intro child hchild
  obtain ⟨slot, hslot, rfl⟩ := List.mem_map.mp hmark
  obtain ⟨other, hother, rfl⟩ := List.mem_map.mp hchild
  exact h.not_covers_mark hslots slot hslot other hother

omit hspan

/-- What is written in a slot is in an element. -/
theorem Slots.not_isSeparator_inside (hslot : slot ∈ slots) {token : Token}
    (hmem : token ∈ slot.inside) : ¬list.IsSeparator token := by
  rintro ⟨-, -, hfree⟩
  cases h.fits slot hslot with
  | omitted hnone =>
      rw [hnone] at hmem
      cases hmem
  | written _ hkind _ _ _ hcovered =>
      refine hfree slot.child ?_ hkind (hcovered token hmem)
      rw [hchildren]
      exact List.mem_map_of_mem hslot

include hspan

/-- The separators of a list are the marks of its slots, without the closing brace. -/
theorem Slots.marks_eq (hreads : setting.Reads tokens)
    (htokens : tokens = front ++ opening :: (slots.flatMap Slot.tokens ++ behind))
    (hopening : opening.kind = .openBrace) :
    slots.map (·.mark) = list.separators tokens ++ [closing] := by
  obtain ⟨hclosing, commas, hmarks, hcommas⟩ := h.marks
  have hmarked := marks_sublist slots
  rw [hmarks] at hmarked
  have hinner : setting.Reads (opening :: (slots.flatMap Slot.tokens ++ behind)) :=
    hreads.suffix (htokens ▸ List.suffix_append _ _)
  have hsolid : ∀ token ∈ tokens, token.span.start < token.span.stop := fun token => hreads.lt_of_mem
  have hpairs := hreads.pairwise
  subst htokens
  simp only [List.pairwise_append, List.pairwise_cons, List.mem_append, List.mem_cons] at hpairs
  obtain ⟨-, ⟨-, hordered, -, hbehind⟩, hfront⟩ := hpairs
  have hbefore : front.filter list.IsSeparator = [] := by
    refine List.filter_eq_nil_iff.mpr fun token hmem htest => ?_
    obtain ⟨hlow, -⟩ := (covers_iff_of_span hspan token).mp (of_decide_eq_true htest).2.1
    have hle : token.span.stop ≤ opening.span.start := hfront token hmem opening (.inl rfl)
    have hlt := hsolid token (by simp [hmem])
    omega
  have hafter : behind.filter list.IsSeparator = [] := by
    refine List.filter_eq_nil_iff.mpr fun token hmem htest => ?_
    obtain ⟨-, hhigh⟩ := (covers_iff_of_span hspan token).mp (of_decide_eq_true htest).2.1
    have hle : closing.span.stop ≤ token.span.start :=
      hbehind closing h.closing_mem token hmem
    have hlt := hsolid token (by simp [hmem])
    omega
  have hall : ∀ comma ∈ commas, decide (list.IsSeparator comma) := by
    intro comma hmem
    refine decide_eq_true (h.isSeparator_mark hchildren hspan hinner ?_ (hcommas comma hmem) ?_)
    · rw [hmarks]
      exact List.mem_append_left _ hmem
    · exact (List.pairwise_append.mp (hordered.sublist hmarked)).2.2 comma hmem closing (by simp)
  have hinside : ∀ slot ∈ slots, ∀ token ∈ slot.inside, ¬decide (list.IsSeparator token) :=
    fun slot hslot token hmem htest =>
      h.not_isSeparator_inside hchildren hslot hmem (of_decide_eq_true htest)
  rw [Node.separators, List.filter_append, hbefore,
    List.filter_cons_of_neg (by simp [Node.IsSeparator, hopening]), List.filter_append, hafter,
    filter_slots hinside, hmarks, List.filter_append,
    List.filter_cons_of_neg (by simp [Node.IsSeparator, hclosing]), List.filter_eq_self.mpr hall]
  simp

end Separators

/-- Slots from brace to brace are the slots of a list, unless they are a single empty one. -/
theorem Slots.fillsSlots (h : Slots slots closing) (hreads : setting.Reads tokens)
    (htokens : tokens = front ++ opening :: (slots.flatMap Slot.tokens ++ behind))
    (hopening : opening.kind = .openBrace) (hne : slots.flatMap Slot.tokens ≠ [closing])
    (hchildren : list.children = slots.map (·.child))
    (hspan : list.span = some ⟨opening.span.start, closing.span.stop⟩) :
    list.FillsSlots tokens opening closing := by
  have hmarks := h.marks_eq hchildren hspan hreads htokens hopening
  obtain ⟨inside, hinside⟩ := h.tokens_eq
  have hchild : list.children ≠ [] := by
    rw [hchildren]
    cases h <;> simp
  refine ⟨⟨by rw [htokens]; simp, hopening⟩, ⟨by rw [htokens]; simp [h.closing_mem], h.marks.1⟩, hspan, ?_,
    fun _ => ?_, ?_⟩
  · have htokens' : tokens = front ++ opening :: (inside ++ closing :: behind) := by
      rw [htokens, hinside, List.append_assoc, List.singleton_append]
    rw [hreads.adjacent_iff htokens']
    refine ⟨fun hnone => absurd hnone hchild, ?_⟩
    rintro rfl
    exact absurd hinside hne
  · have hlength := congrArg List.length hmarks
    rwa [List.length_map, ← List.length_map, ← hchildren, List.length_append] at hlength
  · rw [← hmarks, hchildren]
    intro index child before mark hchild hbefore hmark
    rw [List.getElem?_map, Option.map_eq_some_iff] at hchild hmark
    obtain ⟨slot, hslot, rfl⟩ := hchild
    obtain ⟨other, hother, rfl⟩ := hmark
    obtain rfl := Option.some.inj (hslot.symm.trans hother)
    obtain ⟨front, back, hplace⟩ := slot_place htokens hslot hbefore
    exact (h.fits slot (List.mem_of_getElem? hslot)).fillsSlot hreads hplace

/-- A list of two braces. -/
theorem fillsSlots_nil (hreads : setting.Reads tokens)
    (htokens : tokens = front ++ opening :: closing :: behind) (hopening : opening.kind = .openBrace)
    (hclosing : closing.kind = .closeBrace) (hchildren : list.children = [])
    (hspan : list.span = some ⟨opening.span.start, closing.span.stop⟩) :
    list.FillsSlots tokens opening closing := by
  refine ⟨⟨by rw [htokens]; simp, hopening⟩, ⟨by rw [htokens]; simp, hclosing⟩, hspan,
    ⟨fun _ => ?_, fun _ => hchildren⟩, fun hne => absurd hchildren hne, ?_⟩
  · exact (@Grammar.Setting.Reads.adjacent_iff _ _ _ [] _ _ _ hreads htokens).mpr rfl
  · rw [hchildren]
    intro index child before mark hchild
    cases hchild

end Lists

end ScriptSyntax
