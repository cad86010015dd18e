import ScriptSyntax.Proofs.AngleBrackets
import ScriptSyntax.Proofs.TemplateLists

/-!
# Reading from the source

Every step from tokens that are read from the source leads to tokens that are read from it further
on.  So there is less text ahead after each step, and no loop of a grammar rule runs out.
-/

namespace ScriptSyntax.Grammar.Setting

variable {setting : Setting} {tokens next : List Token} {token : Token} {rest : List Token}

/-- The tokens are those of the source from some offset on. -/
def Reads (setting : Setting) (tokens : List Token) : Prop :=
  ∃ offset, tokens = setting.source.tokensFrom offset

/-- The end stands behind all of the source. -/
def Whole (setting : Setting) : Prop :=
  setting.source.size ≤ setting.finish.span.start

theorem Reads.cons (h : setting.Reads (token :: rest)) :
    (∃ body after, setting.source.Holds token body after) ∧
      rest = setting.source.tokensFrom token.span.stop := by
  obtain ⟨offset, hoffset⟩ := h
  obtain ⟨body, after, hholds, -, hrest⟩ := Source.tokensFrom_eq_cons hoffset.symm
  exact ⟨⟨body, after, hholds⟩, hrest⟩

theorem Reads.tail (h : setting.Reads tokens) : setting.Reads tokens.tail := by
  cases tokens with
  | nil => exact h
  | cons token rest => exact ⟨token.span.stop, h.cons.2⟩

theorem Reads.suffix (h : setting.Reads tokens) (hsuffix : next <:+ tokens) :
    setting.Reads next := by
  obtain ⟨passed, rfl⟩ := hsuffix
  induction passed with
  | nil => exact h
  | cons token passed ih => exact ih h.tail

theorem Reads.afterGreater? (h : setting.Reads (token :: rest)) :
    setting.afterGreater? (token :: rest) =
      if token.kind.startsWithGreater then some (setting.source.tokensFrom (token.span.start + 1))
      else none := by
  obtain ⟨offset, hoffset⟩ := h
  exact afterGreater?_cons hoffset.symm

theorem Reads.of_afterGreater? (h : setting.Reads tokens)
    (hgreater : setting.afterGreater? tokens = some next) :
    ∃ token rest, tokens = token :: rest ∧ token.kind.startsWithGreater = true ∧
      next = setting.source.tokensFrom (token.span.start + 1) := by
  cases tokens with
  | nil => cases hgreater
  | cons token rest =>
      rw [h.afterGreater?] at hgreater
      split at hgreater
      · rename_i hkind
        exact ⟨token, rest, rfl, hkind, (Option.some.inj hgreater).symm⟩
      · cases hgreater

theorem Reads.step (h : setting.Reads tokens) (hstep : setting.Step tokens next) :
    setting.Reads next := by
  rcases hstep with ⟨token, rfl⟩ | hgreater
  · exact h.tail
  · obtain ⟨token, rest, -, -, hnext⟩ := h.of_afterGreater? hgreater
    exact ⟨_, hnext⟩

theorem Reads.leads (h : setting.Reads tokens) (hleads : setting.Leads tokens next) :
    setting.Reads next := by
  induction hleads with
  | refl => exact h
  | tail _ hstep ih => exact ih.step hstep

theorem Reads.start_lt_stop (h : setting.Reads (token :: rest)) :
    token.span.start < token.span.stop := by
  obtain ⟨⟨body, after, hholds⟩, -⟩ := h.cons
  exact hholds.start_lt_stop

theorem Reads.lt_of_mem (h : setting.Reads tokens) (hmem : token ∈ tokens) :
    token.span.start < token.span.stop := by
  obtain ⟨passed, behind, rfl⟩ := List.append_of_mem hmem
  exact (h.suffix (List.suffix_append passed _)).start_lt_stop

theorem Reads.stop_le_size (h : setting.Reads (token :: rest)) :
    token.span.stop ≤ setting.source.size := by
  obtain ⟨⟨body, after, hholds⟩, -⟩ := h.cons
  exact hholds.stop_le_size

theorem Reads.ne_end (h : setting.Reads (token :: rest)) : token.kind ≠ .endOfSource := by
  obtain ⟨⟨body, after, hholds⟩, -⟩ := h.cons
  exact hholds.ne_end

/-- A string that is not terminated is the last token. -/
theorem Reads.rest_eq_nil (h : setting.Reads (token :: rest))
    (hkind : token.kind = .unterminatedString) : rest = [] := by
  obtain ⟨⟨body, after, hholds⟩, hrest⟩ := h.cons
  have hafter := hholds.found_after
  rw [hholds.after_eq_nil hkind] at hafter
  rw [hrest, Source.tokensFrom_of_suffix? hafter, Source.tokensAt_nil]

/-- The next token from an offset on does not stand before it. -/
theorem le_start_of_tokensFrom (hwhole : setting.Whole) {offset : Nat}
    (hoffset : offset ≤ setting.source.size) :
    offset ≤ ((setting.source.tokensFrom offset).headD setting.finish).span.start := by
  cases htokens : setting.source.tokensFrom offset with
  | nil => exact Nat.le_trans hoffset hwhole
  | cons token rest =>
      obtain ⟨body, after, -, hstart, -⟩ := Source.tokensFrom_eq_cons htokens
      exact hstart

/-- Tokens that are read are those from where the first of them starts. -/
theorem Reads.eq_tokensFrom (hwhole : setting.Whole) (h : setting.Reads tokens) :
    setting.source.tokensFrom (tokens.headD setting.finish).span.start = tokens := by
  cases tokens with
  | nil => exact Source.tokensFrom_of_size_le hwhole
  | cons token rest =>
      obtain ⟨⟨body, after, hholds⟩, hrest⟩ := h.cons
      rw [List.headD_cons, hholds.tokensFrom_start, ← hrest]

/-- The next token does not start before the end of the last one. -/
theorem Reads.stop_le_next (hwhole : setting.Whole) (h : setting.Reads (token :: rest)) :
    token.span.stop ≤ (rest.headD setting.finish).span.start := by
  have hle := le_start_of_tokensFrom hwhole h.stop_le_size
  rwa [← h.cons.2] at hle

theorem Reads.start_lt (hwhole : setting.Whole) (h : setting.Reads tokens)
    (hstep : setting.Step tokens next) :
    ∃ token rest, tokens = token :: rest ∧ token.span.stop ≤ setting.source.size ∧
      token.span.start < (next.headD setting.finish).span.start := by
  rcases hstep with ⟨token, rfl⟩ | hgreater
  · refine ⟨token, next, rfl, h.stop_le_size, ?_⟩
    exact Nat.lt_of_lt_of_le h.start_lt_stop (h.stop_le_next hwhole)
  · obtain ⟨token, rest, rfl, -, hnext⟩ := h.of_afterGreater? hgreater
    refine ⟨token, rest, rfl, h.stop_le_size, ?_⟩
    have hlt := h.start_lt_stop
    have hle := le_start_of_tokensFrom hwhole
      (show token.span.start + 1 ≤ setting.source.size from Nat.le_trans hlt h.stop_le_size)
    rw [← hnext] at hle
    exact hle

theorem Reads.start_le (hwhole : setting.Whole) (h : setting.Reads tokens)
    (hleads : setting.Leads tokens next) :
    (tokens.headD setting.finish).span.start ≤ (next.headD setting.finish).span.start := by
  induction hleads with
  | refl => exact Nat.le_refl _
  | tail hbefore hstep ih =>
      obtain ⟨token, rest, rfl, -, hlt⟩ := (h.leads hbefore).start_lt hwhole hstep
      rw [List.headD_cons] at ih
      omega

/-- Nothing behind a token starts before its end. -/
theorem Reads.stop_le_behind (hwhole : setting.Whole) (h : setting.Reads (token :: rest))
    (hleads : setting.Leads rest next) :
    token.span.stop ≤ (next.headD setting.finish).span.start :=
  Nat.le_trans (h.stop_le_next hwhole) (h.tail.start_le hwhole hleads)

section

variable (hfinish : setting.finish.span.start ≤ setting.finish.span.stop)

include hfinish

theorem Reads.start_le_stop (h : setting.Reads tokens) :
    (tokens.headD setting.finish).span.start ≤ (tokens.headD setting.finish).span.stop := by
  cases tokens with
  | nil => exact hfinish
  | cons token rest => exact Nat.le_of_lt h.start_lt_stop

/-- Each next token reaches at least as far as the last one. -/
theorem Reads.stop_le_step (hwhole : setting.Whole) (h : setting.Reads tokens)
    (hstep : setting.Step tokens next) :
    (tokens.headD setting.finish).span.stop ≤ (next.headD setting.finish).span.stop := by
  rcases hstep with ⟨token, rfl⟩ | hgreater
  · exact Nat.le_trans (h.stop_le_next hwhole) (h.tail.start_le_stop hfinish)
  · obtain ⟨token, rest, rfl, hkind, rfl⟩ := h.of_afterGreater? hgreater
    obtain ⟨⟨body, after, hholds⟩, -⟩ := h.cons
    obtain ⟨others, rfl⟩ := hholds.greater_cons hkind
    cases others with
    | nil =>
        have hstop : token.span.stop = token.span.start + 1 := hholds.stop
        have hsize := h.stop_le_size
        rw [hstop] at hsize
        refine Nat.le_trans (Nat.le_of_eq hstop) (Nat.le_trans (le_start_of_tokensFrom hwhole hsize) ?_)
        exact Reads.start_le_stop hfinish ⟨_, rfl⟩
    | cons c others =>
        obtain ⟨next, behind, hnext, hle⟩ := hholds.stop_le_next
        rw [hnext]
        exact hle

theorem Reads.stop_le (hwhole : setting.Whole) (h : setting.Reads tokens)
    (hleads : setting.Leads tokens next) :
    (tokens.headD setting.finish).span.stop ≤ (next.headD setting.finish).span.stop := by
  induction hleads with
  | refl => exact Nat.le_refl _
  | tail hbefore hstep ih =>
      exact Nat.le_trans ih ((h.leads hbefore).stop_le_step hfinish hwhole hstep)

end

theorem Reads.orderly (h : setting.Reads tokens) :
    setting.Orderly tokens := by
  intro middle next hleads hstep
  have hreads := h.leads hleads
  rcases hstep with ⟨token, rfl⟩ | hgreater
  · have hlt := hreads.start_lt_stop
    rw [byteCount_cons, Span.length]
    omega
  · obtain ⟨token, rest, rfl, hkind, rfl⟩ := hreads.of_afterGreater? hgreater
    obtain ⟨offset, hoffset⟩ := hreads
    obtain ⟨freshAngles, staleAngles, common, hsynced⟩ :=
      Source.resynced_of_startsWithGreater hoffset.symm hkind
    have hbytes := hsynced.bytes
    rw [hsynced.fresh_eq, hsynced.stale_eq, byteCount_cons, byteCount_append, byteCount_append]
    omega

end ScriptSyntax.Grammar.Setting
