import ScriptSyntax.Proofs.Persistence.Lookahead

/-!
# What rules do with more room

A run that reports no error depends neither on the nesting limit nor on what was reported before, as
long as there is room: with more of it the same rule does the same.  Scans give in silently where
there is no room, and a rule may take another way then.  Where the two runs part, one of them is
stuck at a place that an error follows.
-/

namespace ScriptSyntax

/-- The reports with more of them behind. -/
def Diagnostics.followed (all : Diagnostics) (reports : List Diagnostic) : Diagnostics :=
  ⟨all.reported ++ reports⟩

@[simp] theorem Diagnostics.followed_nil (all : Diagnostics) : all.followed [] = all := by
  simp [followed]

@[simp] theorem Diagnostics.followed_followed (all : Diagnostics) (first second : List Diagnostic) :
    (all.followed first).followed second = all.followed (first ++ second) := by
  simp [followed]

namespace Grammar.Parse

variable {α β : Type}

/-- How a run without errors ends: either it is stuck, or it goes the same way under any limit,
whatever was reported before. -/
structure Lasts (stuck : α → Setting → List Token → Prop) (high : Parse α) (setting : Setting)
    (session : Session) (value : α) (after : Session) : Prop where
  reads : setting.Reads after.ahead
  same : stuck value setting after.ahead ∨
    ∃ reports, after.diagnostics = session.diagnostics.followed reports ∧
      ∀ depth diagnostics, high (setting.limited depth) { session with diagnostics } =
        (.ok value, { after with diagnostics := diagnostics.followed reports })

/-- From the session the second rule does what the first does, unless that is stuck or reports an
error. -/
structure PersistsAt (stuck : α → Setting → List Token → Prop) (low high : Parse α)
    (setting : Setting) (session : Session) : Prop where
  clean : (low setting session).2.Clean → session.Clean
  lasts : setting.Ended → setting.Reads session.ahead → (low setting session).2.Clean →
    ∃ value after, low setting session = (.ok value, after) ∧
      Lasts stuck high setting session value after

/-- The second rule does what the first does wherever that reports no error and is not stuck. -/
def PersistsUnless (stuck : α → Setting → List Token → Prop) (low high : Parse α) : Prop :=
  ∀ setting session, PersistsAt stuck low high setting session

/-- Never stuck. -/
def never (_ : α) (_ : Setting) (_ : List Token) : Prop :=
  False

/-- The second rule does what the first does wherever that reports no error. -/
class Persists (low high : Parse α) : Prop where
  always : PersistsUnless never low high

section

variable {stuck : α → Setting → List Token → Prop} {low high : Parse α} {setting : Setting}
  {session : Session}

theorem PersistsUnless.mono {other : α → Setting → List Token → Prop}
    (h : PersistsUnless stuck low high)
    (hle : ∀ value setting tokens, stuck value setting tokens → other value setting tokens) :
    PersistsUnless other low high := by
  intro setting session
  refine ⟨(h setting session).clean, ?_⟩
  intro hended hreads hclean
  obtain ⟨value, after, hrun, hafter, hsame⟩ := (h setting session).lasts hended hreads hclean
  exact ⟨value, after, hrun, hafter, hsame.imp_left (hle _ _ _)⟩

theorem Persists.unless [h : Persists low high] : PersistsUnless stuck low high :=
  h.always.mono fun _ _ _ => False.elim

/-- A run that is not stuck where it ends. -/
theorem PersistsAt.free {other : α → Setting → List Token → Prop}
    (h : PersistsAt stuck low high setting session)
    (hfree : setting.Ended → setting.Reads session.ahead → ∀ value after,
      low setting session = (.ok value, after) → ¬ stuck value setting after.ahead) :
    PersistsAt other low high setting session := by
  refine ⟨h.clean, ?_⟩
  intro hended hreads hclean
  obtain ⟨value, after, hrun, hafter, hsame⟩ := h.lasts hended hreads hclean
  exact ⟨value, after, hrun, hafter,
    .inr (hsame.resolve_left (hfree hended hreads value after hrun))⟩

/-- What never ends without an error. -/
theorem persistsAt_of_fault (h : ¬ (low setting session).2.Clean) :
    PersistsAt stuck low high setting session :=
  ⟨fun hclean => absurd hclean h, fun _ _ hclean => absurd hclean h⟩

theorem persists_of_fault (h : ∀ setting session, ¬ (low setting session).2.Clean) :
    Persists low high :=
  ⟨fun setting session => persistsAt_of_fault (h setting session)⟩

/-- A rule that reports nothing. -/
theorem persistsAt_of_ok {value : α} {after : Session} (hrun : low setting session = (.ok value, after))
    (hquiet : after.diagnostics = session.diagnostics)
    (hreads : setting.Reads session.ahead → setting.Reads after.ahead)
    (hsame : ∀ depth diagnostics, high (setting.limited depth) { session with diagnostics } =
      (.ok value, { after with diagnostics })) : PersistsAt stuck low high setting session := by
  refine ⟨?_, ?_⟩
  · intro hclean
    rw [hrun] at hclean
    unfold Session.Clean at hclean ⊢
    rwa [← hquiet]
  · intro hended hbefore hclean
    exact ⟨value, after, hrun, hreads hbefore, .inr ⟨[], by simpa using hquiet, by simpa using hsame⟩⟩

/-- A rule that only looks, moves among the tokens or grows the node that is being built. -/
theorem persists_of_step (step : Setting → List Token → α × List Token)
    (build : Setting → List Token → Node → Node)
    (hlow : ∀ setting session, low setting session =
      (.ok (step setting session.ahead).1,
        { session with
          ahead := (step setting session.ahead).2
          building := build setting session.ahead session.building }))
    (hhigh : ∀ setting depth session, high (setting.limited depth) session =
      (.ok (step setting session.ahead).1,
        { session with
          ahead := (step setting session.ahead).2
          building := build setting session.ahead session.building }))
    (hreads : ∀ (setting : Setting) tokens, setting.Reads tokens →
      setting.Reads (step setting tokens).2) :
    Persists low high := by
  constructor
  intro setting session
  refine persistsAt_of_ok (hlow setting session) rfl ?_ ?_
  · exact hreads setting session.ahead
  · intro depth diagnostics
    rw [hhigh]

end

/-! ## Building blocks -/

section Blocks

variable {stuck : α → Setting → List Token → Prop} {stuck' : β → Setting → List Token → Prop}
  {low high : Parse α} {next next' : α → Parse β} {setting : Setting} {session : Session}

/-- A run goes on from where it is stuck only if it stays stuck, or reports an error. -/
theorem PersistsAt.bind (hrule : PersistsAt stuck low high setting session)
    (hnext : ∀ value, PersistsUnless stuck' (next value) (next' value))
    (hstuck : ∀ value middle after value', setting.Ended → setting.Reads middle.ahead →
      stuck value setting middle.ahead → after.Clean →
      next value setting middle = (.ok value', after) → stuck' value' setting after.ahead) :
    PersistsAt stuck' (low >>= next) (high >>= next') setting session := by
  rcases hrun : low setting session with ⟨interruption | value, middle⟩
  · have hboth : (low >>= next) setting session = (.error interruption, middle) := by
      rw [bind_run, hrun]
    refine ⟨?_, ?_⟩
    · intro hclean
      rw [hboth] at hclean
      exact hrule.clean (by rwa [hrun])
    · -- What ends early has reported an error.
      intro hended hreads hclean
      rw [hboth] at hclean
      obtain ⟨_, _, hrun', -⟩ := hrule.lasts hended hreads (by rwa [hrun])
      cases hrun.symm.trans hrun'
  · have hboth : (low >>= next) setting session = next value setting middle := by
      rw [bind_run, hrun]
    refine ⟨?_, ?_⟩
    · intro hclean
      rw [hboth] at hclean
      have hmiddle := (hnext value setting middle).clean hclean
      exact hrule.clean (by rwa [hrun])
    · intro hended hreads hclean
      rw [hboth] at hclean ⊢
      have hmiddle := (hnext value setting middle).clean hclean
      obtain ⟨_, _, hrun', hfirst, hsame⟩ := hrule.lasts hended hreads (by rwa [hrun])
      cases hrun.symm.trans hrun'
      obtain ⟨value', after, hlast, hafter, hsame'⟩ :=
        (hnext value setting middle).lasts hended hfirst hclean
      refine ⟨value', after, hlast, hafter, ?_⟩
      rcases hsame with hmiddleStuck | ⟨reports, hreports, hsame⟩
      · rw [hlast] at hclean
        exact .inl (hstuck value middle after value' hended hfirst hmiddleStuck hclean hlast)
      rcases hsame' with hafterStuck | ⟨reports', hreports', hsame'⟩
      · exact .inl hafterStuck
      · refine .inr ⟨reports ++ reports', by rw [hreports', hreports, Diagnostics.followed_followed], ?_⟩
        intro depth diagnostics
        rw [bind_run, hsame depth diagnostics]
        dsimp only
        rw [hsame' depth (diagnostics.followed reports), Diagnostics.followed_followed]

theorem PersistsUnless.bind (hrule : PersistsUnless stuck low high)
    (hnext : ∀ value, PersistsUnless stuck' (next value) (next' value))
    (hstuck : ∀ value setting middle after value', setting.Ended → setting.Reads middle.ahead →
      stuck value setting middle.ahead → after.Clean →
      next value setting middle = (.ok value', after) → stuck' value' setting after.ahead) :
    PersistsUnless stuck' (low >>= next) (high >>= next') :=
  fun setting session => (hrule setting session).bind hnext
    fun value middle after value' => hstuck value setting middle after value'

/-- A rule that is never stuck itself. -/
theorem PersistsUnless.behind [hrule : Persists low high]
    (hnext : ∀ value, PersistsUnless stuck' (next value) (next' value)) :
    PersistsUnless stuck' (low >>= next) (high >>= next') :=
  hrule.always.bind hnext fun _ _ _ _ _ _ _ hnever => hnever.elim

theorem Persists.bind (hrule : Persists low high)
    (hnext : ∀ value, Persists (next value) (next' value)) :
    Persists (low >>= next) (high >>= next') :=
  ⟨.behind fun value => (hnext value).always⟩

instance [Persists low high] [∀ value, Persists (next value) (next' value)] :
    Persists (low >>= next) (high >>= next') :=
  .bind inferInstance inferInstance

/-- A rule that may be stuck persists if what follows it reports an error there. -/
theorem PersistsUnless.before (hrule : PersistsUnless stuck low high)
    (hnext : ∀ value, Persists (next value) (next' value))
    (hstuck : ∀ value (setting : Setting) middle after value', setting.Ended →
      setting.Reads middle.ahead → stuck value setting middle.ahead → after.Clean →
      next value setting middle ≠ (.ok value', after)) :
    Persists (low >>= next) (high >>= next') :=
  ⟨hrule.bind (fun value => (hnext value).always)
    fun value setting middle after value' hended hreads hmiddle hclean hrun =>
      hstuck value setting middle after value' hended hreads hmiddle hclean hrun⟩

/-- What a scan passes makes a difference only where an error follows, or where it is stuck. -/
theorem PersistsAt.tokensBehind {scan other : Scan Unit} [hscan : Scan.Persists scan other]
    [Scan.Persists other other] {next next' : Option (List Token) → Parse β}
    (hsame : PersistsAt stuck' (next (((scan setting).run session.ahead).map (·.2)))
      (next' (((scan setting).run session.ahead).map (·.2))) setting session)
    (hpart : ∀ value after, setting.Ended → setting.Reads session.ahead →
      (scan setting).run session.ahead = none → ((other setting).run session.ahead).isSome = true →
      after.Clean → next none setting session = (.ok value, after) →
      stuck' value setting after.ahead) :
    PersistsAt stuck' (tokensBehind scan >>= next) (tokensBehind other >>= next') setting session := by
  have hother (depth : Nat) (diagnostics : Diagnostics) :
      (Parse.tokensBehind other >>= next') (setting.limited depth) { session with diagnostics } =
        next' (((other setting).run session.ahead).map (·.2)) (setting.limited depth)
          { session with diagnostics } := by
    change next' (((other (setting.limited depth)).run session.ahead).map (·.2)) _ _ = _
    rw [Scan.run_limited]
  refine ⟨hsame.clean, ?_⟩
  intro hended hreads hclean
  obtain ⟨value, after, hafter, hlast, hlasts⟩ := hsame.lasts hended hreads hclean
  refine ⟨value, after, hafter, hlast, ?_⟩
  change (next (((scan setting).run session.ahead).map (·.2)) setting session).2.Clean at hclean
  rw [hafter] at hclean
  cases hlow : (scan setting).run session.ahead with
  | some seen =>
      rw [hlow] at hlasts
      have hextends : Scan.Extends setting scan other := Scan.Persists.extends_
      have hhigh := hextends _ _ hlow
      simpa only [hother, hhigh] using hlasts
  | none =>
      rw [hlow] at hlasts hafter
      cases hhigh : (other setting).run session.ahead with
      | none => simpa only [hother, hhigh] using hlasts
      | some seen => exact .inl (hpart value after hended hreads hlow (by rw [hhigh]; rfl) hclean hafter)

/-- Whether a scan passes makes a difference only where an error follows, or where it is stuck. -/
theorem PersistsAt.sees {scan other : Scan Unit} [Scan.Persists scan other]
    [Scan.Persists other other] {next next' : Bool → Parse β}
    (hyes : ((scan setting).run session.ahead).isSome = true →
      PersistsAt stuck' (next true) (next' true) setting session)
    (hno : ((scan setting).run session.ahead).isSome = false →
      PersistsAt stuck' (next false) (next' false) setting session)
    (hpart : ∀ value after, setting.Ended → setting.Reads session.ahead →
      ((scan setting).run session.ahead).isSome = false →
      ((other setting).run session.ahead).isSome = true → after.Clean →
      next false setting session = (.ok value, after) → stuck' value setting after.ahead) :
    PersistsAt stuck' (sees scan >>= next) (sees other >>= next') setting session := by
  have hbehind : PersistsAt stuck' (Parse.tokensBehind scan >>= fun behind => next behind.isSome)
      (Parse.tokensBehind other >>= fun behind => next' behind.isSome) setting session := by
    refine .tokensBehind ?_ fun value after hended hreads hlow =>
      hpart value after hended hreads (by rw [hlow]; rfl)
    cases hlow : (scan setting).run session.ahead with
    | some seen => exact hyes (by rw [hlow]; rfl)
    | none => exact hno (by rw [hlow]; rfl)
  have hsees (scan : Scan Unit) (next : Bool → Parse β) (setting : Setting) (session : Session) :
      (Parse.sees scan >>= next) setting session =
        (Parse.tokensBehind scan >>= fun behind => next behind.isSome) setting session := by
    change next _ setting session = next _ setting session
    rw [Option.isSome_map]
  refine ⟨by rw [hsees]; exact hbehind.clean, ?_⟩
  intro hended hreads hclean
  rw [hsees] at hclean ⊢
  obtain ⟨value, after, hafter, hlast, hlasts⟩ := hbehind.lasts hended hreads hclean
  exact ⟨value, after, hafter, hlast, by simpa only [hsees] using hlasts⟩

/-- Where a rule starts is the same in both runs. -/
theorem persists_ahead {next next' : List Token → Parse α}
    (h : ∀ setting session,
      PersistsAt stuck (next session.ahead) (next' session.ahead) setting session) :
    PersistsUnless stuck (ahead >>= next) (ahead >>= next') := by
  intro setting session
  refine ⟨(h setting session).clean, fun hended hreads hclean => ?_⟩
  obtain ⟨value, after, hrun, hafter, hsame⟩ := (h setting session).lasts hended hreads hclean
  exact ⟨value, after, hrun, hafter, hsame⟩

instance (condition : Prop) [Decidable condition] (rule other rule' other' : Parse α)
    [hrule : Persists rule rule'] [hother : Persists other other'] :
    Persists (if condition then rule else other) (if condition then rule' else other') := by
  split
  · exact hrule
  · exact hother

/-- The limit of nesting is not looked at where the options are read. -/
theorem persists_read {next next' : Setting → Parse α}
    (h : ∀ setting, Persists (next setting) (next' setting))
    (hlimited : ∀ (setting : Setting) depth, next' (setting.limited depth) = next' setting) :
    Persists (read >>= next) (read >>= next') := by
  constructor
  intro setting session
  have hat := (h setting).always setting session
  refine ⟨hat.clean, ?_⟩
  intro hended hreads hclean
  obtain ⟨value, after, hrun, hafter, hnever | ⟨reports, hreports, hsame⟩⟩ :=
    hat.lasts hended hreads hclean
  · exact hnever.elim
  · refine ⟨value, after, hrun, hafter, .inr ⟨reports, hreports, fun depth diagnostics => ?_⟩⟩
    rw [read_bind, hlimited]
    exact hsame depth diagnostics

end Blocks

/-! ## Looking, moving and growing -/

section Steps

variable {tokens : List Token}

instance (value : α) : Persists (pure value) (pure value) :=
  persists_of_step (fun _ tokens => (value, tokens)) (fun _ _ node => node) (fun _ _ => rfl)
    (fun _ _ _ => rfl) fun _ _ h => h

instance : Persists ahead ahead :=
  persists_of_step (fun _ tokens => (tokens, tokens)) (fun _ _ node => node) (fun _ _ => rfl)
    (fun _ _ _ => rfl) fun _ _ h => h

instance : Persists peek peek :=
  persists_of_step (fun setting tokens => (tokens.headD setting.finish, tokens))
    (fun _ _ node => node) (fun _ _ => rfl) (fun _ _ _ => rfl) fun _ _ h => h

instance : Persists peekSecond peekSecond :=
  persists_of_step (fun setting tokens => (tokens.tail.headD setting.finish, tokens))
    (fun _ _ node => node) (fun _ _ => rfl) (fun _ _ _ => rfl) fun _ _ h => h

instance (kind : TokenKind) : Persists (nextIs kind) (nextIs kind) :=
  persists_of_step
    (fun setting tokens => (decide ((tokens.headD setting.finish).kind = kind), tokens))
    (fun _ _ node => node) (fun _ _ => rfl) (fun _ _ _ => rfl) fun _ _ h => h

instance : Persists skip skip :=
  persists_of_step (fun _ tokens => ((), tokens.tail)) (fun _ _ node => node) (fun _ _ => rfl)
    (fun _ _ _ => rfl) fun _ _ h => h.tail

instance : Persists next next := by
  unfold next
  infer_instance

instance (span : Span) : Persists (widen span) (widen span) :=
  persists_of_step (fun _ tokens => ((), tokens)) (fun _ _ node => node.widen span)
    (fun _ _ => rfl) (fun _ _ _ => rfl) fun _ _ h => h

instance (token : Token) : Persists (anchor token) (anchor token) :=
  persists_of_step (fun _ tokens => ((), tokens)) (fun _ _ node => node.anchor token)
    (fun _ _ => rfl) (fun _ _ _ => rfl) fun _ _ h => h

/-- A scan that is the same with more room. -/
instance (scan : Scan Unit) [Scan.Persists scan scan] : Persists (sees scan) (sees scan) :=
  persists_of_step (fun setting tokens => (((scan setting).run tokens).isSome, tokens))
    (fun _ _ node => node) (fun _ _ => rfl)
    (fun setting depth session => by
      change (Except.ok ((scan (setting.limited depth)).run session.ahead).isSome, session) = _
      rw [Scan.run_limited])
    fun _ _ h => h

instance (inBraces : Bool) : Persists (recover inBraces) (recover inBraces) :=
  persists_of_step (fun _ tokens => ((), resume inBraces tokens)) (fun _ _ node => node)
    (fun _ _ => rfl) (fun _ _ _ => rfl) fun _ _ h => h.suffix (resume_suffix inBraces _)

instance : Persists (goTo []) (goTo []) :=
  persists_of_step (fun _ _ => ((), [])) (fun _ _ node => node) (fun _ _ => rfl)
    (fun _ _ _ => rfl) fun _ _ h => h.suffix List.nil_suffix

end Steps

/-! ## Reports -/

/-- A warning is pushed behind whatever was reported before. -/
instance (message : Message) (token : Token) :
    Persists (diagnose .warning message token) (diagnose .warning message token) := by
  constructor
  intro setting session
  refine ⟨fun hclean => (clean_reported.mp hclean).2, ?_⟩
  intro hended hreads hclean
  exact ⟨(), _, rfl, hreads, .inr ⟨[_], rfl, fun _ _ => rfl⟩⟩

instance (message : Message) : Persists (fail message : Parse α) (fail message) :=
  persists_of_fault fun setting session =>
    not_clean_reported setting message (setting.head session) session

instance (message : Message) : Persists (failExpected message : Parse α) (failExpected message) :=
  persists_of_fault fun setting session =>
    not_clean_reported setting (.insteadFound (setting.head session)) (setting.head session) _

instance (construct : Construct) (start : List Token) :
    Persists (failAtEnd construct start : Parse α) (failAtEnd construct start) :=
  persists_of_fault fun setting session hclean =>
    not_clean_reported setting .unexpectedEndOfFile (setting.head session) session
      (clean_failInside hclean)

/-! ## Nodes and loops -/

section Nodes

variable {stuck : α → Setting → List Token → Prop} {low high : Parse α}

theorem PersistsAt.node {kind : NodeKind} {setting : Setting} {session : Session}
    (hinner : PersistsAt stuck low high setting { session with building := .empty kind }) :
    PersistsAt stuck (node kind low) (node kind high) setting session := by
  refine ⟨hinner.clean, ?_⟩
  intro hended hreads hclean
  obtain ⟨value, after, hrun, hafter, hsame⟩ := hinner.lasts hended hreads hclean
  refine ⟨value, { after with building := session.building.append after.building }, ?_, hafter, ?_⟩
  · change (_, _) = _
    rw [hrun]
  · refine hsame.imp_right ?_
    rintro ⟨reports, hreports, hsame⟩
    refine ⟨reports, hreports, fun depth diagnostics => ?_⟩
    change (_, _) = _
    rw [hsame depth diagnostics]

theorem PersistsUnless.node (kind : NodeKind) (h : PersistsUnless stuck low high) :
    PersistsUnless stuck (node kind low) (node kind high) :=
  fun setting _ => (h setting _).node

instance (kind : NodeKind) [h : Persists low high] : Persists (node kind low) (node kind high) :=
  ⟨h.always.node kind⟩

instance (rule rule' : Unit → Parse α) [h : Persists (rule ()) (rule' ())] :
    Persists (deferred rule) (deferred rule') :=
  ⟨h.always⟩

/-- What is attempted with more room either does the same or has reported an error. -/
instance [h : Persists low high] : Persists (attempt low) (attempt high) := by
  constructor
  intro setting session
  have hat := h.always setting session
  have hafter : (attempt low setting session).2 = (low setting session).2 := by
    rw [attempt_run]
    split <;> rename_i heq <;> rw [heq]
  refine ⟨by rw [hafter]; exact hat.clean, ?_⟩
  intro hended hreads hclean
  rw [hafter] at hclean
  obtain ⟨value, after, hrun, hreads', hnever | ⟨reports, hreports, hsame⟩⟩ :=
    hat.lasts hended hreads hclean
  · exact hnever.elim
  · refine ⟨some value, after, by rw [attempt_run, hrun], hreads', .inr ⟨reports, hreports, ?_⟩⟩
    intro depth diagnostics
    rw [attempt_run, hsame]

end Nodes

section Loops

variable {stuck : Bool → Setting → List Token → Prop} {body body' : Parse Bool}

theorem clean_of_repeatUpTo (hbody : PersistsUnless stuck body body') (count : Nat)
    (setting : Setting) (session : Session)
    (hclean : (repeatUpTo count body setting session).2.Clean) : session.Clean := by
  induction count generalizing session with
  | zero => exact hclean
  | succ count ih =>
      refine (hbody setting session).clean ?_
      unfold repeatUpTo at hclean
      rw [bind_run] at hclean
      rcases hrun : body setting session with ⟨interruption | again, middle⟩
      · rwa [hrun] at hclean
      · rw [hrun] at hclean
        dsimp only at hclean
        split at hclean
        · exact ih middle hclean
        · exact hclean

/-- A loop from a place where it is stuck stays stuck. -/
theorem stuck_of_repeatUpTo (hbody : PersistsUnless stuck body body')
    (hstuck : ∀ (setting : Setting) middle after again, setting.Ended → setting.Reads middle.ahead →
      stuck true setting middle.ahead → after.Clean → body setting middle = (.ok again, after) →
      stuck again setting after.ahead) {setting : Setting} (hended : setting.Ended) {count : Nat}
    {session after : Session} (hreads : setting.Reads session.ahead)
    (hstart : stuck true setting session.ahead) (hclean : after.Clean)
    (hrun : repeatUpTo count body setting session = (.ok (), after)) :
    ∃ again, stuck again setting after.ahead := by
  induction count generalizing session with
  | zero =>
      cases hrun
      exact ⟨true, hstart⟩
  | succ count ih =>
      unfold repeatUpTo at hrun
      obtain ⟨again, middle, hfirst, hrest⟩ := bind_ok hrun
      have hmiddle : middle.Clean := by
        cases again with
        | false =>
            cases hrest
            exact hclean
        | true =>
            refine clean_of_repeatUpTo hbody count setting middle ?_
            rw [show Parse.repeatUpTo count body setting middle = _ from hrest]
            exact hclean
      obtain ⟨_, _, hfirst', hreads', -⟩ :=
        (hbody setting session).lasts hended hreads (by rw [hfirst]; exact hmiddle)
      cases hfirst.symm.trans hfirst'
      have hstays := hstuck setting session middle again hended hreads hstart hmiddle hfirst
      cases again with
      | false =>
          cases hrest
          exact ⟨false, hstays⟩
      | true => exact ih hreads' hstays hrest

/-- A loop that is stuck behind a round stays so if no further round sets it free. -/
theorem PersistsUnless.repeatUpTo (hbody : PersistsUnless stuck body body')
    (hstuck : ∀ (setting : Setting) middle after again, setting.Ended → setting.Reads middle.ahead →
      stuck true setting middle.ahead → after.Clean → body setting middle = (.ok again, after) →
      stuck again setting after.ahead) (count : Nat) :
    PersistsUnless (fun _ setting tokens => ∃ again, stuck again setting tokens)
      (repeatUpTo count body) (repeatUpTo count body') := by
  induction count with
  | zero =>
      have hnothing : Persists (Parse.repeatUpTo 0 body) (Parse.repeatUpTo 0 body') :=
        inferInstanceAs (Persists (pure ()) (pure ()))
      exact hnothing.unless
  | succ count ih =>
      unfold Parse.repeatUpTo
      refine hbody.bind (fun again => ?_) ?_
      · cases again with
        | false => exact (inferInstance : Persists (pure () : Parse Unit) (pure ())).unless
        | true => exact ih
      · rintro (_ | _) setting middle after ⟨⟩ hended hreads hmiddle hclean hrun
        · cases hrun
          exact ⟨false, hmiddle⟩
        · exact stuck_of_repeatUpTo hbody hstuck hended hreads hmiddle hclean hrun

theorem PersistsUnless.repeatRule (hbody : PersistsUnless stuck body body')
    (hstuck : ∀ (setting : Setting) middle after again, setting.Ended → setting.Reads middle.ahead →
      stuck true setting middle.ahead → after.Clean → body setting middle = (.ok again, after) →
      stuck again setting after.ahead) :
    PersistsUnless (fun _ setting tokens => ∃ again, stuck again setting tokens)
      (repeatRule body) (repeatRule body') := by
  refine .behind fun tokens => ?_
  exact hbody.repeatUpTo hstuck (byteCount tokens + 1)

/-- A loop that goes on as long as something comes next that is not there where it is stuck. -/
theorem PersistsUnless.whileNext {stuck : Setting → List Token → Prop} {test : Token → Bool}
    {rule rule' : Parse Unit} (hrule : PersistsUnless (fun _ => stuck) rule rule')
    (hstuck : ∀ (setting : Setting) tokens, stuck setting tokens →
      test (tokens.headD setting.finish) = false) :
    PersistsUnless (fun _ => stuck) (whileNext test rule) (whileNext test rule') := by
  have hround (again : Bool) (found : Bool) : PersistsUnless (fun _ => stuck)
      (if found = true then (do rule; return again) else return false)
      (if found = true then (do rule'; return again) else return false) := by
    split
    · refine hrule.bind (fun _ => Persists.unless) ?_
      rintro _ setting middle after _ _ _ hmiddle _ ⟨⟩
      exact hmiddle
    · exact Persists.unless
  refine (PersistsUnless.repeatRule (.behind fun token => hround true (test token)) ?_).mono
    fun _ _ _ ⟨_, hends⟩ => hends
  intro setting middle after again _ _ hmiddle _ hrun
  have hends : test (setting.head middle) = false := hstuck setting _ hmiddle
  rw [peek_bind, hends] at hrun
  cases hrun
  exact hmiddle

/-- A row of items that may be stuck where no comma follows. -/
theorem PersistsUnless.commaSeparated {stuck : Setting → List Token → Prop} {item item' : Parse Unit}
    (hitem : PersistsUnless (fun _ => stuck) item item')
    (hstuck : ∀ (setting : Setting) tokens, stuck setting tokens →
      (tokens.headD setting.finish).kind ≠ .comma) :
    PersistsUnless (fun _ => stuck) (commaSeparated item) (commaSeparated item') := by
  -- The loop ends where an item is stuck.
  have hround : PersistsUnless (fun again setting tokens => again = false ∧ stuck setting tokens)
      (do
        item
        if ← nextIs .comma then
          skip
          return true
        else return false)
      (do
        item'
        if ← nextIs .comma then
          skip
          return true
        else return false) := by
    refine hitem.bind (fun _ => Persists.unless) ?_
    intro _ setting middle after again _ _ hmiddle _ hrun
    rw [nextIs_bind, if_neg (by simpa [Setting.head] using hstuck setting _ hmiddle)] at hrun
    cases hrun
    exact ⟨rfl, hmiddle⟩
  refine (PersistsUnless.repeatRule hround ?_).mono ?_
  · exact fun _ _ _ _ _ _ hagain => absurd hagain.1 (by simp)
  · rintro _ _ _ ⟨_, _, hends⟩
    exact hends

instance [hbody : Persists body body'] : Persists (repeatRule body) (repeatRule body') := by
  have hloop : PersistsUnless (fun _ setting tokens => ∃ again, never again setting tokens)
      (repeatRule body) (repeatRule body') :=
    hbody.always.repeatRule fun _ _ _ _ _ _ hnever => hnever.elim
  exact ⟨hloop.mono fun _ _ _ ⟨_, hnever⟩ => hnever⟩

instance (item item' : Parse Unit) [Persists item item'] :
    Persists (commaSeparated item) (commaSeparated item') := by
  unfold commaSeparated
  infer_instance

instance (test : Token → Bool) (rule rule' : Parse Unit) [Persists rule rule'] :
    Persists (whileNext test rule) (whileNext test rule') := by
  unfold whileNext
  infer_instance

end Loops

instance (kind : TokenKind) : Persists (require kind) (require kind) := by
  unfold require
  infer_instance

instance : Persists cover cover := by
  unfold cover
  infer_instance

instance (kind : TokenKind) : Persists (coverRequired kind) (coverRequired kind) := by
  unfold coverRequired
  infer_instance

instance (kind : NodeKind) : Persists (leaf kind) (leaf kind) := by
  unfold leaf
  infer_instance

instance : Persists mark mark :=
  inferInstanceAs (Persists (leaf .undefined) (leaf .undefined))

instance (kind : TokenKind) : Persists (markIf kind) (markIf kind) := by
  unfold markIf
  infer_instance

instance : Persists identifier identifier := by
  unfold identifier
  infer_instance

/-- What is nested too deeply is reported, whatever the other rule makes of it. -/
instance (kind : NodeKind) (rule : Parse Unit) : Persists (tooDeep kind) rule :=
  persists_of_fault fun setting session =>
    not_clean_reported setting .maximumNestingDepth (setting.head session)
      { session with building := .empty kind }

instance (inBraces : Bool) (rule rule' : Parse Unit) [Persists rule rule'] :
    Persists (recovering inBraces rule) (recovering inBraces rule') := by
  unfold recovering
  infer_instance

/-! ## Captured text -/

theorem not_clean_capture (construct : Construct) (start : List Token) {text : Capture}
    (h : text.ending ≠ .complete) (setting : Setting) (session : Session) :
    ¬ (capture construct start text setting session).2.Clean := by
  rw [capture_run]
  cases hending : text.ending with
  | complete => exact absurd hending h
  | fault message =>
      exact not_clean_reported setting message (setting.head (captured text session)) _
  | endOfSource =>
      exact fun hclean => not_clean_reported setting .unexpectedEndOfFile _ _ (clean_failInside hclean)

/-- A capture that reports nothing is complete, and whatever it covers stays as it is. -/
theorem persistsAt_capture (construct : Construct) (start : List Token) (text : Capture)
    {setting : Setting} {session : Session} (hrest : text.rest <:+ session.ahead) :
    PersistsAt never (capture construct start text) (capture construct start text) setting
      session := by
  by_cases hending : text.ending = .complete
  · have hrun : capture construct start text setting session = (.ok (), captured text session) := by
      rw [capture_run, hending]
      rfl
    refine persistsAt_of_ok hrun rfl (fun h => h.suffix hrest) ?_
    · intro depth diagnostics
      rw [capture_run, hending]
      rfl
  · exact persistsAt_of_fault (not_clean_capture construct start hending setting session)

/-- What is captured from the tokens ahead. -/
theorem persists_captureAhead (construct : Construct) (text : List Token → Capture)
    (hrest : ∀ tokens, (text tokens).rest <:+ tokens) :
    Persists (do let start ← ahead; capture construct start (text start))
      (do let start ← ahead; capture construct start (text start)) :=
  ⟨persists_ahead fun _ session => persistsAt_capture construct _ _ (hrest session.ahead)⟩

instance : Persists defaultArgument defaultArgument := by
  have hargument := persists_captureAhead .expression (.argument [])
    fun tokens => suffix_of_append (Capture.argument_append [] tokens)
  unfold defaultArgument
  infer_instance

instance : Persists capturedInitializer capturedInitializer := by
  have hvalue := persists_captureAhead .expression (.initializer 0 0)
    fun tokens => suffix_of_append (Capture.initializer_append 0 0 tokens)
  have hgroup := persists_captureAhead .argumentList
    (fun tokens => .group .openParen .closeParen 0 tokens.tail)
    fun tokens => (suffix_of_append (Capture.group_append .openParen .closeParen 0 tokens.tail)).trans
      (List.tail_suffix _)
  have hkind (kind : TokenKind) :
      let rule : Parse Unit := match kind with
        | .assign => do
            skip
            if Capture.endsInitializer (← peek).kind then failExpected .expectedExpressionValue
            let start ← ahead
            capture .expression start (.initializer 0 0 start)
        | .openParen => do
            let start ← ahead
            capture .argumentList start (.group .openParen .closeParen 0 start.tail)
        | _ => failExpected (.expectedOneOfKinds [.assign, .openParen])
      Persists rule rule := by
    dsimp only
    split <;> infer_instance
  unfold capturedInitializer
  infer_instance

instance : Persists capturedBlock capturedBlock := by
  have hblock (start : List Token) : Persists
      (do
        let block := Capture.group .openBrace .closeBrace 0 (← ahead)
        unless block.ending = .complete do
          widen (block.rest.headD (← read).finish).span
        capture .statementBlock start block)
      (do
        let block := Capture.group .openBrace .closeBrace 0 (← ahead)
        unless block.ending = .complete do
          widen (block.rest.headD (← read).finish).span
        capture .statementBlock start block) := by
    refine ⟨persists_ahead fun setting session => ?_⟩
    have hrest := suffix_of_append (Capture.group_append .openBrace .closeBrace 0 session.ahead)
    dsimp only
    generalize Capture.group .openBrace .closeBrace 0 session.ahead = block at hrest
    by_cases hcomplete : block.ending = .complete
    · simp only [hcomplete, ↓reduceIte]
      exact persistsAt_capture .statementBlock start block hrest
    · simp only [hcomplete, ↓reduceIte]
      exact persistsAt_of_fault (not_clean_capture .statementBlock start hcomplete setting _)
  unfold capturedBlock
  infer_instance

end Grammar.Parse

end ScriptSyntax
