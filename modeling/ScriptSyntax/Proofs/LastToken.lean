import ScriptSyntax.Proofs.Braces
import ScriptSyntax.Proofs.Comparison.Entry
import ScriptSyntax.Proofs.Coverage

/-!
# The last token

A signature is read up to the end of the source, where nothing is left to be read.  Its node reaches
the end of the last token, because whatever reads that token covers it: a token that a rule skips is
never the last one.
-/

namespace ScriptSyntax

/-- The node reaches at least up to the offset. -/
def Node.ReachesTo (node : Node) (offset : Nat) : Prop :=
  ∃ wide, node.span = some wide ∧ offset ≤ wide.stop

namespace Node

variable {node grown child : Node} {span : Span} {offset : Nat}

theorem ReachesTo.grows (h : node.ReachesTo offset) (hgrows : node.Grows grown) :
    grown.ReachesTo offset := by
  obtain ⟨wide, hwide, hstop⟩ := h
  obtain ⟨wider, hwider, -, hstop'⟩ := hgrows.span wide hwide
  exact ⟨wider, hwider, Nat.le_trans hstop hstop'⟩

theorem reachesTo_widen (node : Node) (hspan : 0 < span.stop) :
    (node.widen span).ReachesTo span.stop := by
  have hsomewhere : span ≠ .nowhere := by
    rintro rfl
    exact absurd hspan (Nat.lt_irrefl 0)
  unfold widen
  rw [if_neg hsomewhere]
  refine ⟨_, rfl, ?_⟩
  cases node.span with
  | none => exact Nat.le_refl _
  | some old => exact Nat.le_max_right _ _

theorem ReachesTo.append (h : child.ReachesTo offset) (hoffset : 0 < offset) (node : Node) :
    (node.append child).ReachesTo offset := by
  obtain ⟨wide, hwide, hstop⟩ := h
  obtain ⟨wider, hwider, hstop'⟩ := reachesTo_widen node (Nat.lt_of_lt_of_le hoffset hstop)
  refine ⟨wider, ?_, Nat.le_trans hstop hstop'⟩
  rw [span_append, hwide]
  exact hwider

end Node

namespace Grammar

/-! ## Where the tokens end -/

namespace Setting

variable {setting : Setting} {tokens next : List Token}
  {first last other : Token}

theorem Reads.stop_le_last (h : setting.Reads tokens) (hlast : tokens.getLast? = some last)
    (hmem : other ∈ tokens) : other.span.stop ≤ last.span.stop := by
  have hblock : setting.Reads (tokens ++ []) := by
    rwa [List.append_nil]
  rcases hblock.before_last hlast hmem with rfl | ⟨hstop, -⟩
  · exact Nat.le_refl _
  · have hlt := h.lt_of_mem (List.mem_of_getLast? hlast)
    omega

theorem Reads.start_le_of_head (h : setting.Reads tokens) (hfirst : tokens.head? = some first)
    (hmem : other ∈ tokens) : first.span.start ≤ other.span.start := by
  obtain ⟨rest, rfl⟩ := List.head?_eq_some_iff.mp hfirst
  rcases List.mem_cons.mp hmem with rfl | hmem
  · exact Nat.le_refl _
  · have hlt := h.start_lt_stop
    have hle := h.stop_le_of_mem hmem
    omega

/-- The last token ends at the same place, also where it is read anew. -/
theorem Reads.last_step (h : setting.Reads tokens) (hstep : setting.Step tokens next)
    (hlast : tokens.getLast? = some last) (hother : next.getLast? = some other) :
    other.span.stop = last.span.stop := by
  rcases hstep with ⟨token, rfl⟩ | hgreater
  · rw [List.getLast?_cons, hother] at hlast
    cases hlast
    rfl
  · obtain ⟨token, rest, rfl, hkind, rfl⟩ := h.of_afterGreater? hgreater
    obtain ⟨offset, hoffset⟩ := h
    obtain ⟨freshAngles, staleAngles, common, hsynced⟩ :=
      Source.resynced_of_startsWithGreater hoffset.symm hkind
    rw [hsynced.fresh_eq, List.getLast?_append] at hother
    rw [hsynced.stale_eq, ← List.cons_append, List.getLast?_append] at hlast
    cases hcommon : common.getLast? with
    | some shared =>
        rw [hcommon] at hother hlast
        cases hother
        cases hlast
        rfl
    | none =>
        rw [hcommon] at hother hlast
        exact hsynced.stop_eq _ _ hother hlast

theorem Reads.last_leads (h : setting.Reads tokens) (hleads : setting.Leads tokens next)
    (hlast : tokens.getLast? = some last) (hother : next.getLast? = some other) :
    other.span.stop = last.span.stop := by
  induction hleads generalizing other with
  | refl =>
      rw [hlast] at hother
      cases hother
      rfl
  | @tail middle next hbefore hstep ih =>
      cases hmiddle : middle.getLast? with
      | none =>
          rw [List.getLast?_eq_none_iff] at hmiddle
          subst hmiddle
          cases eq_nil_of_leads (.single hstep)
          cases hother
      | some between =>
          exact ((h.leads hbefore).last_step hstep hmiddle hother).trans (ih hmiddle)

/-- Where nothing follows the first byte of a token, the token is the last one and ends there. -/
theorem Reads.eq_of_afterGreater?_nil (h : setting.Reads tokens)
    (hgreater : setting.afterGreater? tokens = some []) (hlast : tokens.getLast? = some last) :
    tokens = [last] ∧ last.span.stop = last.span.start + 1 := by
  obtain ⟨token, rest, rfl, hkind, hbehind⟩ := h.of_afterGreater? hgreater
  obtain ⟨⟨body, after, hholds⟩, hrest⟩ := h.cons
  obtain ⟨others, rfl⟩ := hholds.greater_cons hkind
  cases others with
  | nil =>
      have hstop : token.span.stop = token.span.start + 1 := hholds.stop
      rw [hrest, hstop, ← hbehind] at hlast ⊢
      obtain rfl : token = last := Option.some.inj hlast
      exact ⟨rfl, hstop⟩
  | cons c others =>
      obtain ⟨next, behind, hnext, -⟩ := hholds.stop_le_next
      rw [hnext] at hbehind
      cases hbehind

end Setting

namespace Parse

variable {α β : Type} {rule : Parse α} {next : α → Parse β}

/-- A rule that comes to its end with nothing left to be read has built a node that reaches to the
end of the last token. -/
class ReachesEnd (rule : Parse α) : Prop where
  reaches : ∀ setting session value after last, setting.Ended → setting.Reads session.ahead →
    rule setting session = (.ok value, after) → after.ahead = [] →
    session.ahead.getLast? = some last → after.building.ReachesTo last.span.stop

/-- A rule that passes nothing does not read the last token. -/
theorem reachesEnd_of_still
    (h : ∀ setting session value after, rule setting session = (.ok value, after) →
      after.ahead = session.ahead) : ReachesEnd rule := by
  constructor
  intro setting session value after last hended hreads hrun hnil hlast
  rw [← h setting session value after hrun, hnil] at hlast
  cases hlast

instance (priority := low) [hrule : Looks rule] : ReachesEnd rule := by
  refine reachesEnd_of_still fun setting session value after hrun => ?_
  obtain ⟨_, hvalue⟩ := hrule.looks setting session
  rw [hvalue] at hrun
  cases hrun
  rfl

theorem ReachesEnd.of_looks [Looks rule] (hnext : ∀ value, ReachesEnd (next value)) :
    ReachesEnd (rule >>= next) := by
  constructor
  intro setting session value after last hended hreads hrun hnil hlast
  obtain ⟨first, hrest⟩ := looks_bind hrun
  exact (hnext first).reaches setting session value after last hended hreads hrest hnil hlast

instance (priority := low) [Interrupts rule] : ReachesEnd rule :=
  ⟨fun _ _ _ _ _ _ _ hrun => absurd hrun not_ok_of_interrupts⟩

/-- If the first of two rules leaves something to be read, the last token is still there. -/
theorem ReachesEnd.bind (hrule : Forwards rule) (hnext : ∀ value, ReachesEnd (next value))
    (hend : ∀ setting session first middle value after last, setting.Ended →
      setting.Reads session.ahead → rule setting session = (.ok first, middle) →
      middle.ahead = [] → session.ahead.getLast? = some last →
      next first setting middle = (.ok value, after) →
      after.building.ReachesTo last.span.stop) : ReachesEnd (rule >>= next) := by
  constructor
  intro setting session value after last hended hreads hrun hnil hlast
  obtain ⟨first, middle, hfirst, hsecond⟩ := bind_ok hrun
  have hleads := hrule.leads setting session first middle hfirst
  cases hmiddle : middle.ahead.getLast? with
  | none =>
      exact hend setting session first middle value after last hended hreads hfirst
        (List.getLast?_eq_none_iff.mp hmiddle) hlast hsecond
  | some between =>
      rw [← hreads.last_leads hleads hlast hmiddle]
      exact (hnext first).reaches setting middle value after between hended (hreads.leads hleads)
        hsecond hnil hmiddle

/-- Something is left to be read before a rule that passes a token. -/
instance (priority := high) [hrule : Forwards rule] [hnext : ∀ value, ReachesEnd (next value)]
    [hpasses : ∀ value, Consumes (next value)] : ReachesEnd (rule >>= next) := by
  refine .bind hrule hnext ?_
  intro setting session first middle value after last hended hreads hfirst hmiddle hlast hsecond
  have hpassed := (hpasses first).passes setting middle value after hended hsecond
  rw [hmiddle] at hpassed
  exact absurd hpassed (setting.not_passes_nil _)

instance [hrule : ReachesEnd rule] [hforwards : Forwards rule]
    [hnext : ∀ value, ReachesEnd (next value)] [∀ value, Advances (next value)] :
    ReachesEnd (rule >>= next) := by
  refine .bind hforwards hnext ?_
  intro setting session first middle value after last hended hreads hfirst hmiddle hlast hsecond
  have hreached :=
    hrule.reaches setting session first middle last hended hreads hfirst hmiddle hlast
  exact hreached.grows (advance_of_run hsecond).building

instance (condition : Prop) [Decidable condition] (rule other : Parse α) [ReachesEnd rule]
    [ReachesEnd other] : ReachesEnd (if condition then rule else other) := by
  split <;> infer_instance

instance (rule : Unit → Parse α) [hrule : ReachesEnd (rule ())] : ReachesEnd (deferred rule) :=
  ⟨fun setting => hrule.reaches setting⟩

instance (kind : NodeKind) [hrule : ReachesEnd rule] : ReachesEnd (node kind rule) := by
  constructor
  intro setting session value after last hended hreads hrun hnil hlast
  obtain ⟨inner, hinner, rfl⟩ := node_ok hrun
  have hreached := hrule.reaches setting (session.opened kind) value inner last hended hreads
    hinner hnil hlast
  have hlt := hreads.lt_of_mem (List.mem_of_getLast? hlast)
  exact hreached.append (by omega) session.building

/-! ## Single tokens -/

/-- A rule that passes the next token and covers it. -/
theorem reachesEnd_of_widen
    (h : ∀ setting session value after, rule setting session = (.ok value, after) →
      after.ahead = session.ahead.tail ∧
        ∃ node : Node, after.building = node.widen (setting.head session).span) :
    ReachesEnd rule := by
  constructor
  intro setting session value after last hended hreads hrun hnil hlast
  obtain ⟨htail, node, hnode⟩ := h setting session value after hrun
  have hlt := hreads.lt_of_mem (List.mem_of_getLast? hlast)
  rw [hnode]
  cases hahead : session.ahead with
  | nil =>
      rw [hahead] at hlast
      cases hlast
  | cons token rest =>
      rw [hahead, List.tail_cons] at htail
      rw [hahead, ← htail, hnil] at hlast
      obtain rfl : token = last := Option.some.inj hlast
      rw [Setting.head_cons hahead]
      exact node.reachesTo_widen (by omega)

instance : ReachesEnd cover := by
  refine reachesEnd_of_widen fun setting session value after hrun => ?_
  cases hrun
  exact ⟨rfl, session.building, rfl⟩

instance (kind : TokenKind) : ReachesEnd (coverRequired kind) := by
  refine reachesEnd_of_widen fun setting session value after hrun => ?_
  obtain ⟨-, rfl⟩ := coverRequired_passed hrun
  exact ⟨rfl, session.building, rfl⟩

instance : ReachesEnd (do anchor (← Parse.next)) := by
  refine reachesEnd_of_widen fun setting session value after hrun => ?_
  cases hrun
  exact ⟨rfl, { session.building with token := some (setting.head session).kind }, rfl⟩

instance (kind : NodeKind) : ReachesEnd (leaf kind) := by
  unfold leaf
  infer_instance

instance : ReachesEnd mark := by
  unfold mark
  infer_instance

instance (kind : TokenKind) : ReachesEnd (markIf kind) := by
  unfold markIf
  infer_instance

instance : ReachesEnd identifier := by
  unfold identifier
  infer_instance

instance (kind : NodeKind) : ReachesEnd (tooDeep kind) := by
  unfold tooDeep
  infer_instance

/-! ## Loops -/

instance (count : Nat) (body : Parse Bool) [Advances body] [ReachesEnd body] :
    ReachesEnd (repeatUpTo count body) := by
  induction count with
  | zero => exact inferInstanceAs (ReachesEnd (pure ()))
  | succ count ih =>
      unfold repeatUpTo
      infer_instance

instance (body : Parse Bool) [Advances body] [ReachesEnd body] : ReachesEnd (repeatRule body) := by
  unfold repeatRule
  infer_instance

instance consumes_repeatRule (body : Parse Bool) [Forwards body] [Consumes body] :
    Consumes (repeatRule body) := by
  unfold repeatRule
  refine .of_right inferInstance fun tokens => ?_
  unfold repeatUpTo
  infer_instance

/-- Where each round passes a token, none follows the one that has read the last token. -/
theorem reachesEnd_of_rounds {body : Parse Bool} [Rounds body] [hconsumes : Consumes body]
    [hforwards : Forwards body] [hbody : ReachesEnd body] : ReachesEnd (repeatRule body) := by
  constructor
  intro setting session value after last hended hreads hrun hnil hlast
  have hrepeats : Repeats body setting session _ := repeatRule_repeats hended hreads
  rw [hrun] at hrepeats
  clear hrun
  generalize hresult : (Except.ok value, after) = result at hrepeats
  induction hrepeats generalizing last with
  | last hround =>
      cases hresult
      exact hbody.reaches setting _ false after last hended hreads hround hnil hlast
  | broken hround => cases hresult
  | @again session middle result hround hrest ih =>
      have hleads := hforwards.leads setting _ _ _ hround
      have hpasses : ∃ tokens, setting.Passes middle.ahead tokens := by
        cases hrest with
        | last hnext => exact ⟨_, hconsumes.passes setting _ _ _ hended hnext⟩
        | broken hnext => cases hresult
        | again hnext _ => exact ⟨_, hconsumes.passes setting _ _ _ hended hnext⟩
      cases hmiddle : middle.ahead.getLast? with
      | none =>
          obtain ⟨tokens, hpassed⟩ := hpasses
          rw [List.getLast?_eq_none_iff.mp hmiddle] at hpassed
          exact absurd hpassed (setting.not_passes_nil _)
      | some between =>
          rw [← hreads.last_leads hleads hlast hmiddle]
          exact ih between (hreads.leads hleads) hmiddle hresult

instance (test : Token → Bool) (rule : Parse Unit) [Advances rule] [ReachesEnd rule] :
    ReachesEnd (whileNext test rule) := by
  unfold whileNext
  infer_instance

/-! ## Types -/

instance : Looks (read : Parse Setting) :=
  ⟨fun _ _ => ⟨_, rfl⟩⟩

instance (forms : TypeForms) : ReachesEnd (typeName forms) := by
  unfold typeName
  infer_instance

section

set_option synthInstance.maxSize 2000

/-- What closes a list of template arguments covers the byte that it passes, and that is all of the
last token if nothing is left. -/
instance reachesEnd_listClosing : ReachesEnd (do
    match (← read).afterGreater? (← ahead) with
    | some rest =>
        widen (.ofLength (← peek).span.start 1)
        goTo rest
    | none => (failExpected (.expectedKind .greater) : Parse Unit)) := by
  constructor
  intro setting session value after last hended hreads hrun hnil hlast
  rw [read_bind, ahead_bind] at hrun
  cases hgreater : setting.afterGreater? session.ahead with
  | none =>
      rw [hgreater] at hrun
      cases hrun
  | some rest =>
      rw [hgreater] at hrun
      cases hrun
      obtain rfl : rest = [] := hnil
      obtain ⟨hahead, hstop⟩ := hreads.eq_of_afterGreater?_nil hgreater hlast
      have hhead : session.ahead.headD setting.finish = last := by
        rw [hahead]
        rfl
      change (session.building.widen
        (.ofLength (session.ahead.headD setting.finish).span.start 1)).ReachesTo last.span.stop
      rw [hhead, hstop]
      exact session.building.reachesTo_widen (Nat.succ_pos _)

instance consumes_listClosing : Consumes (do
    match (← read).afterGreater? (← ahead) with
    | some rest =>
        widen (.ofLength (← peek).span.start 1)
        goTo rest
    | none => (failExpected (.expectedKind .greater) : Parse Unit)) := by
  constructor
  intro setting session value after hended hrun
  rw [read_bind, ahead_bind] at hrun
  cases hgreater : setting.afterGreater? session.ahead with
  | none =>
      rw [hgreater] at hrun
      cases hrun
  | some rest =>
      rw [hgreater] at hrun
      cases hrun
      exact .single (.inr hgreater)

variable (room : Nat) (argument : Parse Unit) [Advances argument]

instance : ReachesEnd (templateArguments argument) := by
  unfold templateArguments
  infer_instance

instance : ReachesEnd typeSuffixes := by
  have hsuffix : ReachesEnd (do
      match (← peek).kind with
      | .openBracket =>
          mark
          coverRequired .closeBracket
          return true
      | .handle =>
          mark
          markIf .const
          return true
      | _ => return false) := by
    refine .of_looks fun token => ?_
    split <;> infer_instance
  unfold typeSuffixes
  infer_instance

instance (forms : TypeForms) : ReachesEnd (typeBody room argument forms) := by
  unfold typeBody
  infer_instance

instance (forms : TypeForms) : ReachesEnd (dataType room forms) := by
  cases room with
  | zero => exact inferInstanceAs (ReachesEnd (tooDeep _))
  | succ room => exact inferInstanceAs (ReachesEnd (deferred _))

instance (ofParameter : Bool) : ReachesEnd (typeModifier ofParameter) := by
  unfold typeModifier
  infer_instance

/-! ## Signatures -/

/-- A parenthesis that has to be there. -/
instance consumes_closeParen (message : Message) : Consumes (do
    if ← nextIs .closeParen then cover else failExpected message) := by
  refine consumes_of_next fun setting session value after hended hrun => ?_
  rw [nextIs_bind] at hrun
  split at hrun
  · rename_i hhead
    cases hrun
    exact ⟨by simp [of_decide_eq_true hhead], rfl⟩
  · cases hrun

/-- `void` is skipped only where a parenthesis follows it. -/
theorem reachesEnd_void {rest : Parse Unit} (hrest : ReachesEnd rest) : ReachesEnd (do
    if (← nextIs (.keyword .void)) && (← peekSecond).kind = .closeParen then
      skip
      cover
    else rest) := by
  constructor
  intro setting session value after last hended hreads hrun hnil hlast
  rw [nextIs_bind, peekSecond_bind] at hrun
  split at hrun
  · rename_i hvoid
    rw [Bool.and_eq_true] at hvoid
    have hclose : (setting.second session).kind = .closeParen := of_decide_eq_true hvoid.2
    rw [skip_bind] at hrun
    cases htail : session.ahead.tail.getLast? with
    | none =>
        unfold Setting.second at hclose
        rw [List.getLast?_eq_none_iff.mp htail] at hclose
        cases hended.symm.trans hclose
    | some other =>
        rw [← hreads.last_leads (setting.leads_tail _) hlast htail]
        exact ReachesEnd.reaches setting _ value after other hended hreads.tail hrun hnil htail
  · exact hrest.reaches setting session value after last hended hreads hrun hnil hlast

instance : ReachesEnd (parameterList room) := by
  unfold parameterList
  have hnamed : ReachesEnd (do
      commaSeparated (parameter room)
      if ← nextIs .closeParen then cover
      else failExpected (.expectedEitherKind .closeParen .comma)) :=
    inferInstance
  have hparameters := reachesEnd_void hnamed
  infer_instance

instance : ReachesEnd (signature room) := by
  unfold signature returnType methodAttributes
  infer_instance

/-! ## List patterns -/

/-- The kind of what stands behind an element of a pattern: a comma if there is another one. -/
def separatorKind (again : Bool) : TokenKind :=
  if again then .comma else .closeBrace

/-- What separates the elements of a pattern, or closes it, is covered and passed. -/
theorem patternSeparator_ok {start : List Token} {setting : Setting} {session after : Session}
    {again : Bool} (hrun : patternSeparator start setting session = (.ok again, after)) :
    (setting.head session).kind = separatorKind again ∧ after = setting.passed .span session := by
  unfold patternSeparator at hrun
  rw [peek_bind, widen_bind] at hrun
  generalize (setting.head session).kind = kind at hrun ⊢
  split at hrun
  · cases hrun
    exact ⟨rfl, rfl⟩
  · cases hrun
    exact ⟨rfl, rfl⟩
  · cases hrun
  · split at hrun <;> cases hrun

instance (start : List Token) : Consumes (patternSeparator start) := by
  refine consumes_of_next fun setting session again after _ hrun => ?_
  obtain ⟨hkind, rfl⟩ := patternSeparator_ok hrun
  refine ⟨?_, rfl⟩
  rw [hkind]
  cases again <;> simp [separatorKind]

instance (start : List Token) : ReachesEnd (patternSeparator start) := by
  refine reachesEnd_of_widen fun setting session again after hrun => ?_
  obtain ⟨-, rfl⟩ := patternSeparator_ok hrun
  exact ⟨rfl, session.building, rfl⟩

instance (nested : Parse Unit) [Advances nested] : ReachesEnd (listPatternBody room nested) := by
  have helements (start : List Token) : ReachesEnd (repeatRule do
      patternElement room nested start
      patternSeparator start) :=
    reachesEnd_of_rounds
  unfold listPatternBody
  infer_instance

instance : ReachesEnd (listPattern room) := by
  cases room with
  | zero => exact inferInstanceAs (ReachesEnd (tooDeep _))
  | succ room => exact inferInstanceAs (ReachesEnd (deferred _))

end

end Parse

end Grammar

end ScriptSyntax
