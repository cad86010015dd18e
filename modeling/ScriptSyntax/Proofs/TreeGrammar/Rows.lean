import ScriptSyntax.Proofs.Progress
import ScriptSyntax.Proofs.TreeGrammar

/-!
# Rows that rules add

A rule behind which no error is reported has come to its end, and it has added a row of nodes to
the node that is being built.  The row of a rule is read off its parts: a row behind a row, one of
two rows where the rule has a choice, and the repetition of a row where it has a loop.  What fails
adds nothing that could be seen without an error.
-/

namespace ScriptSyntax

open Computability

/-! ## Rows -/

attribute [simp] RegularExpression.matches'_zero RegularExpression.matches'_epsilon
  RegularExpression.matches'_add RegularExpression.matches'_mul RegularExpression.matches'_star
  RegularExpression.matches'_char

namespace Row

variable {first second : Row} {nodes others : List Node}

@[simp] theorem matches_maybe (row : Row) : row.maybe.matches' = row.matches' + 1 := rfl

@[simp] theorem matches_many (row : Row) : row.many.matches' = row.matches'∗ := rfl

@[simp] theorem matches_atLeastOne (row : Row) :
    row.atLeastOne.matches' = row.matches' * row.matches'∗ := rfl

theorem mem_oneOf {forms word : List Form} :
    word ∈ (oneOf forms).matches' ↔ ∃ form ∈ forms, word = [form] := by
  induction forms with
  | nil => simp [oneOf, Language.notMem_zero]
  | cons first rest ih =>
      have hfirst : word ∈ ({[first]} : Language Form) ↔ word = [first] := Set.mem_singleton_iff
      exact (or_congr hfirst ih).trans (by simp)

@[simp] theorem singleton_le_oneOf {form : Form} {forms : List Form} :
    {[form]} ≤ (oneOf forms).matches' ↔ form ∈ forms := by
  have hmem : {[form]} ≤ (oneOf forms).matches' ↔ [form] ∈ (oneOf forms).matches' :=
    Set.singleton_subset_iff
  exact (hmem.trans mem_oneOf).trans (by simp)

/-! What may be left out, in the order of the languages. -/

section Languages

variable {first second third : Language Form}

theorem sup_mul : (first ⊔ second) * third = first * third ⊔ second * third :=
  add_mul first second third

theorem le_mul_maybe : first ≤ first * (second ⊔ 1) := by
  simpa using mul_le_mul_right (le_sup_right : 1 ≤ second ⊔ 1) first

theorem le_maybe_mul : first ≤ (second ⊔ 1) * first := by
  simpa using mul_le_mul_left (le_sup_right : 1 ≤ second ⊔ 1) first

@[simp] theorem mul_kstar_sup_one : first * first∗ ⊔ 1 = first∗ := by
  rw [sup_comm]
  exact Language.one_add_self_mul_kstar_eq_kstar first

@[simp] theorem mul_kstar_mul_sup : first * first∗ * second ⊔ second = first∗ * second := by
  calc first * first∗ * second ⊔ second
      = (first * first∗ ⊔ 1) * second := by rw [sup_mul, one_mul]
    _ = first∗ * second := by rw [mul_kstar_sup_one]

@[simp] theorem kstar_mul_sup_one : first∗ * (first ⊔ 1) = first∗ := by
  refine le_antisymm ?_ le_mul_maybe
  rw [← add_eq_sup, mul_add, mul_one]
  exact add_le kstar_mul_le_kstar le_rfl

@[simp] theorem kstar_sup_one : (first ⊔ 1)∗ = first∗ := by
  refine le_antisymm ?_ (kstar_mono le_sup_left)
  rw [← kstar_idem first]
  exact kstar_mono (sup_le le_kstar one_le_kstar)

end Languages

theorem Fits.mono (h : first.Fits nodes) (hle : first.matches' ≤ second.matches') :
    second.Fits nodes := by
  obtain ⟨forms, hforms, hnodes⟩ := h
  exact ⟨forms, hle hforms, hnodes⟩

theorem fits_nil : Row.Fits 1 [] :=
  ⟨[], rfl, .nil⟩

theorem Fits.append (hfirst : first.Fits nodes) (hsecond : second.Fits others) :
    Row.Fits (first * second) (nodes ++ others) := by
  obtain ⟨forms, hforms, hnodes⟩ := hfirst
  obtain ⟨forms', hforms', hothers⟩ := hsecond
  exact ⟨forms ++ forms', Language.append_mem_mul hforms hforms', List.rel_append hnodes hothers⟩

theorem fits_singleton {node : Node} {form : Form} (h : node.Follows form) :
    Row.Fits form [node] :=
  ⟨[form], rfl, .cons h .nil⟩

theorem Fits.follows {node : Node} {form : Form} (h : form.row.Fits node.children)
    (hkind : node.kind = form.kind) : node.Follows form := by
  obtain ⟨forms, hforms, hnodes⟩ := h
  exact .intro hkind hforms hnodes

theorem Fits.oneOf {forms : List Form} (h : (Row.oneOf forms).Fits nodes) :
    ∃ node, nodes = [node] ∧ ∃ form ∈ forms, node.Follows form := by
  obtain ⟨word, hword, hnodes⟩ := h
  obtain ⟨form, hform, rfl⟩ := mem_oneOf.mp hword
  cases hnodes with
  | cons hnode hrest =>
      cases hrest
      exact ⟨_, rfl, form, hform, hnode⟩

end Row

namespace Grammar

/-- No error has been reported. -/
def Session.Clean (session : Session) : Prop :=
  session.diagnostics.errors = []

/-- A report that is not an error leaves no error behind exactly if there was none before. -/
theorem clean_reported {setting : Setting} {severity : Severity} {message : Message}
    {token : Token} {session : Session} :
    (Parse.reported setting severity message token session).Clean ↔
      severity ≠ .error ∧ session.Clean := by
  cases severity <;>
    simp [Session.Clean, Parse.reported, Diagnostics.errors, Diagnostics.ofSeverity,
      Diagnostics.push]

/-- What has reported nothing but warnings has reported no error. -/
theorem clean_of_faults {before after : Session} (hfaults : after.faults = before.faults)
    (hafter : after.Clean) : before.Clean := by
  have herrors (session : Session) :
      session.diagnostics.errors = session.faults.filter (·.severity = .error) :=
    session.ofSeverity_eq_faults (by decide)
  unfold Session.Clean
  rw [herrors, ← hfaults, ← herrors]
  exact hafter

namespace Parse

variable {α β : Type}

/-- The rule has come to its end without an error, it has reported nothing but warnings, and it has
added a row, which may depend on its value, to the node that is being built. -/
structure Extends (row : α → Row) (before : Session) (result : Except Interruption α × Session) :
    Prop where
  clean : before.Clean
  faults : result.2.faults = before.faults
  kind : result.2.building.kind = before.building.kind
  added : ∃ value nodes, result.1 = .ok value ∧ (row value).Fits nodes ∧
    result.2.building.children = before.building.children ++ nodes

/-- The row of a rule. -/
class Adds (rule : Parse α) (row : outParam Row) : Prop where
  extends_ : ∀ setting session, setting.Ended → (rule setting session).2.Clean →
    Extends (fun _ => row) session (rule setting session)

/-- The rows of the body of a loop: of a round behind which the loop goes on, and of the last
one. -/
class Turns (body : Parse Bool) (more last : outParam Row) : Prop where
  extends_ : ∀ setting session, setting.Ended → (body setting session).2.Clean →
    Extends (fun again => if again then more else last) session (body setting session)

section Extends

variable {row wide : α → Row} {before middle : Session} {result : Except Interruption α × Session}

theorem Extends.mono (h : Extends row before result)
    (hle : ∀ value, (row value).matches' ≤ (wide value).matches') :
    Extends wide before result := by
  obtain ⟨value, nodes, hvalue, hnodes, hchildren⟩ := h.added
  exact ⟨h.clean, h.faults, h.kind, value, nodes, hvalue, hnodes.mono (hle value), hchildren⟩

/-- A rule that adds no node. -/
theorem Extends.of_same {after : Session} {value : α} (hclean : before.Clean)
    (hfaults : after.faults = before.faults)
    (hkind : after.building.kind = before.building.kind)
    (hchildren : after.building.children = before.building.children) :
    Extends (fun _ => 1) before (.ok value, after) :=
  ⟨hclean, hfaults, hkind, value, [], rfl, Row.fits_nil, by simpa using hchildren⟩

theorem Extends.trans {value : β} {firstRow : Row}
    (hfirst : Extends (fun _ => firstRow) before ((.ok value, middle) : Except Interruption β × Session))
    (hsecond : Extends row middle result) :
    Extends (fun value => firstRow * row value) before result := by
  obtain ⟨-, nodes, -, hnodes, hchildren⟩ := hfirst.added
  obtain ⟨last, others, hlast, hothers, hchildren'⟩ := hsecond.added
  refine ⟨hfirst.clean, hsecond.faults.trans hfirst.faults, hsecond.kind.trans hfirst.kind, last,
    nodes ++ others, hlast, hnodes.append hothers, ?_⟩
  rw [hchildren', hchildren, List.append_assoc]

end Extends

/-- What follows a rule adds its row behind that of the rule. -/
theorem extends_bind {rule : Parse α} {next : α → Parse β} {first : Row} {row : β → Row}
    {setting : Setting} {session : Session} [hrule : Adds rule first] (hended : setting.Ended)
    (hnext : ∀ value after, (next value setting after).2.Clean →
      Extends row after (next value setting after))
    (hclean : ((rule >>= next) setting session).2.Clean) :
    Extends (fun value => first * row value) session ((rule >>= next) setting session) := by
  have hfirst := hrule.extends_ setting session hended
  rw [bind_run] at hclean ⊢
  rcases hrun : rule setting session with ⟨interruption | value, middle⟩
  · -- What has failed has reported an error.
    rw [hrun] at hfirst hclean
    obtain ⟨value, nodes, hvalue, -⟩ := (hfirst hclean).added
    cases hvalue
  · rw [hrun] at hfirst hclean
    have hsecond := hnext value middle hclean
    exact (hfirst hsecond.clean).trans hsecond

theorem Adds.mono {rule : Parse α} {row wide : Row} (h : Adds rule row)
    (hle : row.matches' ≤ wide.matches') : Adds rule wide :=
  ⟨fun setting session hended hclean =>
    (h.extends_ setting session hended hclean).mono fun _ => hle⟩

theorem Turns.mono {body : Parse Bool} {more last more' last' : Row} (h : Turns body more last)
    (hmore : more.matches' ≤ more'.matches') (hlast : last.matches' ≤ last'.matches') :
    Turns body more' last' := by
  refine ⟨fun setting session hended hclean =>
    (h.extends_ setting session hended hclean).mono ?_⟩
  rintro (_ | _)
  · exact hlast
  · exact hmore

/-- A rule that always reports an error. -/
theorem extends_of_error {row : α → Row} {before : Session}
    {result : Except Interruption α × Session} (h : ¬ result.2.Clean) :
    result.2.Clean → Extends row before result :=
  fun hclean => absurd hclean h

/-- A rule that neither reports nor adds anything. -/
theorem adds_of_ok {rule : Parse α} (step : Setting → Session → α × Session)
    (hrun : ∀ setting session,
      rule setting session = (.ok (step setting session).1, (step setting session).2))
    (hfaults : ∀ setting session, (step setting session).2.faults = session.faults)
    (hbuilding : ∀ setting session,
      (step setting session).2.building.kind = session.building.kind ∧
      (step setting session).2.building.children = session.building.children) :
    Adds rule 1 := by
  constructor
  intro setting session _ hafter
  rw [hrun] at hafter ⊢
  obtain ⟨hkind, hchildren⟩ := hbuilding setting session
  have hsame := hfaults setting session
  exact .of_same (clean_of_faults hsame hafter) hsame hkind hchildren

/-- A rule that only looks, or moves among the tokens. -/
theorem adds_of_move {rule : Parse α} (look : Setting → Session → α)
    (move : Setting → Session → List Token)
    (hrun : ∀ setting session, rule setting session =
      (.ok (look setting session), { session with ahead := move setting session })) :
    Adds rule 1 :=
  adds_of_ok (fun setting session => (look setting session,
    { session with ahead := move setting session })) hrun (fun _ _ => rfl) fun _ _ => ⟨rfl, rfl⟩

/-! ## Building blocks -/

instance (value : α) : Adds (pure value) 1 :=
  adds_of_move (fun _ _ => value) (fun _ session => session.ahead) fun _ _ => rfl

theorem Adds.bind {rule : Parse α} {next : α → Parse β} {first second : Row}
    (hrule : Adds rule first) (hnext : ∀ value, Adds (next value) second) :
    Adds (rule >>= next) (first * second) :=
  ⟨fun setting _ hended =>
    extends_bind hended fun value after => (hnext value).extends_ setting after hended⟩

instance (rule : Parse α) (next : α → Parse β) (first second : Row) [Adds rule first]
    [∀ value, Adds (next value) second] : Adds (rule >>= next) (first * second) :=
  .bind inferInstance inferInstance

instance (condition : Prop) [Decidable condition] (rule other : Parse α) (first second : Row)
    [hrule : Adds rule first] [hother : Adds other second] :
    Adds (if condition then rule else other) (first + second) := by
  split
  · exact hrule.mono (by simp)
  · exact hother.mono (by simp)

/-- A rule that stands before another one in one case only. -/
instance (condition : Prop) [Decidable condition] (rule : Parse Unit) (next : Unit → Parse α)
    (first second : Row) [Adds rule first] [hnext : Adds (next ()) second] :
    Adds (if condition then rule >>= next else next ()) (first.maybe * second) := by
  split
  · have hboth : Adds (rule >>= next) (first * second) := inferInstance
    exact hboth.mono (by simpa using mul_le_mul_left le_sup_left _)
  · exact hnext.mono (by simpa using Row.le_maybe_mul)

/-- A rule that stands before another one except in one case. -/
instance (condition : Prop) [Decidable condition] (rule : Parse Unit) (next : Parse α)
    (first second : Row) [Adds rule first] [hnext : Adds next second] :
    Adds (if condition then next else rule >>= fun _ => next) (first.maybe * second) := by
  have hswapped : Adds (if ¬ condition then rule >>= fun _ => next else (fun _ => next) ())
      (first.maybe * second) := inferInstance
  simpa only [ite_not] using hswapped

/-- One of two rules stands before another one. -/
instance (condition : Prop) [Decidable condition] (rule other : Parse Unit)
    (next : Unit → Parse α) (first second third : Row) [hrule : Adds rule first]
    [hother : Adds other second] [hnext : ∀ value, Adds (next value) third] :
    Adds (if condition then rule >>= next else other >>= next) ((first + second) * third) := by
  split
  · exact (hrule.bind hnext).mono (by simpa using mul_le_mul_left le_sup_left _)
  · exact (hother.bind hnext).mono (by simpa using mul_le_mul_left le_sup_right _)

/-- What an attempt finds broken has reported an error. -/
instance (rule : Parse α) (row : Row) [hrule : Adds rule row] : Adds (attempt rule) row := by
  constructor
  intro setting session hended hclean
  have hextends := hrule.extends_ setting session hended
  rw [attempt_run] at hclean ⊢
  rcases hrun : rule setting session with ⟨interruption | value, after⟩
  · rw [hrun] at hextends hclean
    obtain ⟨value, nodes, hvalue, -⟩ := (hextends hclean).added
    cases hvalue
  · rw [hrun] at hextends hclean
    obtain ⟨hbefore, hfaults, hkind, _, nodes, -, hnodes, hchildren⟩ := hextends hclean
    exact ⟨hbefore, hfaults, hkind, some value, nodes, rfl, hnodes, hchildren⟩

instance : Adds (read : Parse Setting) 1 :=
  adds_of_move (fun setting _ => setting) (fun _ session => session.ahead) fun _ _ => rfl

instance : Adds ahead 1 :=
  adds_of_move (fun _ session => session.ahead) (fun _ session => session.ahead) fun _ _ => rfl

instance : Adds peek 1 :=
  adds_of_move (fun setting session => setting.head session) (fun _ session => session.ahead)
    fun _ _ => rfl

instance : Adds peekSecond 1 :=
  adds_of_move (fun setting session => setting.second session) (fun _ session => session.ahead)
    fun _ _ => rfl

instance (kind : TokenKind) : Adds (nextIs kind) 1 :=
  adds_of_move (fun setting session => decide ((setting.head session).kind = kind))
    (fun _ session => session.ahead) fun _ _ => rfl

instance (scan : Scan Unit) : Adds (sees scan) 1 :=
  adds_of_move (fun setting session => ((scan setting).run session.ahead).isSome)
    (fun _ session => session.ahead) fun _ _ => rfl

instance (scan : Scan Unit) : Adds (tokensBehind scan) 1 :=
  adds_of_move (fun setting session => ((scan setting).run session.ahead).map (·.2))
    (fun _ session => session.ahead) fun _ _ => rfl

instance (tokens : List Token) : Adds (goTo tokens) 1 :=
  adds_of_move (fun _ _ => ()) (fun _ _ => tokens) fun _ _ => rfl

instance : Adds skip 1 :=
  adds_of_move (fun _ _ => ()) (fun _ session => session.ahead.tail) fun _ _ => rfl

instance : Adds next 1 :=
  adds_of_move (fun setting session => setting.head session) (fun _ session => session.ahead.tail)
    fun _ _ => rfl

instance (span : Span) : Adds (widen span) 1 :=
  adds_of_ok (fun _ session => ((), { session with building := session.building.widen span }))
    (fun _ _ => rfl) (fun _ _ => rfl)
    fun _ _ => ⟨(Node.grows_widen _ _).kind, Node.children_widen _ _⟩

instance (token : Token) : Adds (anchor token) 1 :=
  adds_of_ok
    (fun _ session => ((), { session with building := session.building.anchor token }))
    (fun _ _ => rfl) (fun _ _ => rfl)
    fun _ _ => ⟨(Node.grows_anchor _ _).kind, Node.children_widen _ _⟩

/-! ## Reports -/

instance (message : Message) (token : Token) : Adds (diagnose .warning message token) 1 :=
  adds_of_ok (fun setting session => ((), reported setting .warning message token session))
    (fun _ _ => rfl) (fun _ _ => by simp [Session.faults, reported, Diagnostics.push])
    fun _ _ => ⟨rfl, rfl⟩

theorem not_clean_reported (setting : Setting) (message : Message) (token : Token)
    (session : Session) : ¬ (reported setting .error message token session).Clean :=
  fun h => (clean_reported.mp h).1 rfl

instance (message : Message) (token : Token) : Adds (diagnose .error message token) 0 :=
  ⟨fun setting session _ => extends_of_error (not_clean_reported setting message token session)⟩

instance (message : Message) : Adds (fail message : Parse α) 0 :=
  ⟨fun setting session _ => extends_of_error
    (not_clean_reported setting message (setting.head session) session)⟩

instance (message : Message) : Adds (reportExpected message) 0 :=
  ⟨fun setting session _ => extends_of_error
    (not_clean_reported setting (.insteadFound (setting.head session)) (setting.head session) _)⟩

instance (message : Message) : Adds (failExpected message : Parse α) 0 :=
  ⟨fun setting session _ => extends_of_error
    (not_clean_reported setting (.insteadFound (setting.head session)) (setting.head session) _)⟩

/-- What takes no error back may follow a report. -/
theorem Adds.reporting {rule : Parse α} {next : α → Parse β} (hrule : Adds rule 0)
    (hnext : ∀ value setting session, setting.Ended → (next value setting session).2.Clean →
      session.Clean) : Adds (rule >>= next) 0 := by
  refine ⟨fun setting session hended => extends_of_error fun hclean => ?_⟩
  have hextends := hrule.extends_ setting session hended
  rw [bind_run] at hclean
  rcases hrun : rule setting session with ⟨interruption | value, middle⟩
  · rw [hrun] at hextends hclean
    obtain ⟨value, nodes, hvalue, -⟩ := (hextends hclean).added
    cases hvalue
  · rw [hrun] at hextends hclean
    obtain ⟨value, nodes, -, ⟨forms, hforms, -⟩, -⟩ :=
      (hextends (hnext value setting middle hended hclean)).added
    exact hforms

theorem clean_failInside {construct : Construct} {start : List Token} {setting : Setting}
    {session : Session}
    (h : ((failInside construct start : Parse α) setting session).2.Clean) : session.Clean := by
  have hinfo : (reported setting .info (.whileParsing construct) (start.headD setting.finish)
      { session with ahead := start }).Clean := h
  exact (clean_reported.mp hinfo).2

instance (construct : Construct) (start : List Token) :
    Adds (failAtEnd construct start : Parse α) 0 := by
  have hreport (token : Token) : Adds (do
      diagnose .error .unexpectedEndOfFile token
      (failInside construct start : Parse α)) 0 :=
    .reporting inferInstance fun _ _ _ _ => clean_failInside
  unfold failAtEnd
  exact Adds.mono inferInstance (by simp)

/-! ## Loops -/

instance : Turns (pure true) 1 0 :=
  ⟨fun _ _ _ hclean => ⟨hclean, rfl, rfl, true, [], rfl, Row.fits_nil, (List.append_nil _).symm⟩⟩

instance : Turns (pure false) 0 1 :=
  ⟨fun _ _ _ hclean => ⟨hclean, rfl, rfl, false, [], rfl, Row.fits_nil, (List.append_nil _).symm⟩⟩

instance (message : Message) : Turns (failExpected message) 0 0 := by
  have hfails : Adds (failExpected message : Parse Bool) 0 := inferInstance
  refine ⟨fun setting session hended hclean =>
    (hfails.extends_ setting session hended hclean).mono ?_⟩
  rintro (_ | _) <;> exact le_rfl

instance (rule : Parse α) (next : α → Parse Bool) (first more last : Row) [Adds rule first]
    [hnext : ∀ value, Turns (next value) more last] :
    Turns (rule >>= next) (first * more) (first * last) := by
  constructor
  intro setting session hended hclean
  refine (extends_bind hended (fun value after =>
    (hnext value).extends_ setting after hended) hclean).mono ?_
  rintro (_ | _) <;> exact le_rfl

instance (condition : Prop) [Decidable condition] (body other : Parse Bool)
    (more last more' last' : Row) [hbody : Turns body more last]
    [hother : Turns other more' last'] :
    Turns (if condition then body else other) (more + more') (last + last') := by
  split
  · exact hbody.mono (by simp) (by simp)
  · exact hother.mono (by simp) (by simp)

/-- A round behind which others follow, or the last one. -/
theorem adds_repeatUpTo_succ {body : Parse Bool} {more last rest : Row} {count : Nat}
    (hbody : Turns body more last) (hrest : Adds (repeatUpTo count body) rest) :
    Adds (repeatUpTo (count + 1) body) (more * rest + last) := by
  constructor
  intro setting session hended hclean
  have hround := hbody.extends_ setting session hended
  unfold repeatUpTo at hclean ⊢
  rw [bind_run] at hclean ⊢
  rcases hrun : body setting session with ⟨interruption | _ | _, middle⟩
  · rw [hrun] at hround hclean
    obtain ⟨value, nodes, hvalue, -⟩ := (hround hclean).added
    cases hvalue
  · rw [hrun] at hround hclean
    obtain ⟨hbefore, hfaults, hkind, value, nodes, hvalue, hnodes, hchildren⟩ := hround hclean
    cases hvalue
    exact ⟨hbefore, hfaults, hkind, (), nodes, rfl, hnodes.mono (by simp), hchildren⟩
  · rw [hrun] at hround hclean
    have hafter := hrest.extends_ setting middle hended hclean
    obtain ⟨hbefore, hfaults, hkind, value, nodes, hvalue, hnodes, hchildren⟩ :=
      hround hafter.clean
    cases hvalue
    have hfirst : Extends (fun _ => more) session
        ((.ok true, middle) : Except Interruption Bool × Session) :=
      ⟨hbefore, hfaults, hkind, true, nodes, rfl, hnodes, hchildren⟩
    exact (hfirst.trans hafter).mono fun _ => by simp

/-- Any number of rounds, and perhaps the last one. -/
theorem adds_repeatUpTo {body : Parse Bool} {more last : Row} (hbody : Turns body more last)
    (count : Nat) : Adds (repeatUpTo count body) (more.many * last.maybe) := by
  have hnone : 1 ≤ more.matches'∗ * (last.matches' ⊔ 1) := by
    simpa using mul_le_mul' (one_le_kstar (a := more.matches'))
      (le_sup_right : 1 ≤ last.matches' ⊔ 1)
  induction count with
  | zero =>
      have hnothing : Adds (repeatUpTo 0 body) 1 := inferInstanceAs (Adds (pure ()) 1)
      exact hnothing.mono (by simpa using hnone)
  | succ count ih =>
      refine (adds_repeatUpTo_succ hbody ih).mono ?_
      have hmore : more.matches' * (more.matches'∗ * (last.matches' ⊔ 1)) ≤
          more.matches'∗ * (last.matches' ⊔ 1) := by
        rw [← mul_assoc]
        exact mul_le_mul_left mul_kstar_le_kstar _
      have hlast : last.matches' ≤ more.matches'∗ * (last.matches' ⊔ 1) := by
        simpa using mul_le_mul' (one_le_kstar (a := more.matches'))
          (le_sup_left : last.matches' ≤ last.matches' ⊔ 1)
      simpa using ⟨hmore, hlast⟩

instance (body : Parse Bool) (more last : Row) [hbody : Turns body more last] :
    Adds (repeatRule body) (more.many * last.maybe) :=
  ⟨fun setting session =>
    (adds_repeatUpTo hbody (byteCount session.ahead + 1)).extends_ setting session⟩

/-- There is at least one item. -/
instance (item : Parse Unit) (row : Row) [Adds item row] :
    Adds (commaSeparated item) row.atLeastOne := by
  constructor
  intro setting session
  have hround : Turns (do
      item
      if ← nextIs .comma then
        skip
        return true
      else return false) _ _ := inferInstance
  have hrounds := adds_repeatUpTo_succ hround (adds_repeatUpTo hround (byteCount session.ahead))
  refine (hrounds.mono ?_).extends_ setting session
  have hone : row.matches' ≤ row.matches' * row.matches'∗ := by
    simpa using mul_le_mul_right (one_le_kstar (a := row.matches')) row.matches'
  simpa using hone

instance (test : Token → Bool) (rule : Parse Unit) (row : Row) [Adds rule row] :
    Adds (whileNext test rule) row.many := by
  unfold whileNext
  exact Adds.mono inferInstance (by simp)

/-! ## Nodes -/

/-- The node that a rule builds follows a form if the form allows the rule's row. -/
theorem extends_node {rule : Parse α} {row : Row} {kind : NodeKind} {setting : Setting}
    {session : Session} (form : Form) (hkind : form.kind = kind)
    (h : Extends (fun _ => row) { session with building := .empty kind }
      (rule setting { session with building := .empty kind }))
    (hrow : row.matches' ≤ form.row.matches') :
    Extends (fun _ => form) session (node kind rule setting session) := by
  obtain ⟨hbefore, hfaults, hinner, value, nodes, hvalue, hnodes, hchildren⟩ := h
  have hfollows : (rule setting { session with building := .empty kind }).2.building.Follows form := by
    refine Row.Fits.follows (Row.Fits.mono ?_ hrow) (hinner.trans hkind.symm)
    rw [hchildren]
    exact hnodes
  exact ⟨hbefore, hfaults, (Node.grows_append _ _).kind, value, [_], hvalue,
    Row.fits_singleton hfollows, Node.children_append _ _⟩

theorem Adds.node {rule : Parse α} {row : Row} {kind : NodeKind} (form : Form)
    (hkind : form.kind = kind) (h : Adds rule row) (hrow : row.matches' ≤ form.row.matches') :
    Adds (node kind rule) form :=
  ⟨fun setting _ hended hclean =>
    extends_node form hkind (h.extends_ setting _ hended hclean) hrow⟩

instance (rule : Unit → Parse α) (row : Row) [h : Adds (rule ()) row] : Adds (deferred rule) row :=
  ⟨fun setting session => h.extends_ setting session⟩

instance (kind : NodeKind) : Adds (tooDeep kind) 0 :=
  ⟨fun setting session _ => extends_of_error fun hclean =>
    not_clean_reported setting .maximumNestingDepth (setting.head session)
      { session with building := .empty kind } hclean⟩

theorem adds_leaf (form : Form) (hrow : form.row.matches' = 1) : Adds (leaf form.kind) form := by
  unfold leaf
  exact .node form rfl inferInstance (by simp [hrow])

instance : Adds mark Form.mark :=
  adds_leaf .mark rfl

instance : Adds (leaf .constant) Form.constantPart :=
  adds_leaf .constantPart rfl

instance : Adds (leaf .dataType) Form.typeName :=
  adds_leaf .typeName rfl

instance : Adds (leaf .exprPreOp) Form.preOperator :=
  adds_leaf .preOperator rfl

instance : Adds (leaf .exprOperator) Form.operator :=
  adds_leaf .operator rfl

instance (kind : TokenKind) : Adds (markIf kind) (Row.maybe Form.mark) := by
  unfold markIf
  exact Adds.mono inferInstance (by simp)

instance : Adds cover 1 := by
  unfold cover
  exact Adds.mono inferInstance (by simp)

instance (kind : TokenKind) : Adds (require kind) 1 := by
  unfold require
  exact Adds.mono inferInstance (by simp)

instance (kind : TokenKind) : Adds (coverRequired kind) 1 := by
  unfold coverRequired
  exact Adds.mono inferInstance (by simp)

instance : Adds identifier Form.identifier := by
  unfold identifier
  exact .node .identifier rfl inferInstance (by simp [Form.row])

instance (inBraces : Bool) (rule : Parse Unit) (row : Row) [Adds rule row] :
    Adds (recovering inBraces rule) row := by
  unfold recovering recover
  exact Adds.mono inferInstance (by simp)

/-! ## Captured text -/

/-- Whatever is captured is only covered. -/
instance (tokens : List Token) : Adds (tokens.forM fun token => widen token.span) 1 := by
  induction tokens with
  | nil => exact inferInstanceAs (Adds (pure ()) 1)
  | cons token rest ih =>
      change Adds (do widen token.span; rest.forM fun token => widen token.span) 1
      exact Adds.mono inferInstance (by simp)

instance (construct : Construct) (start : List Token) (captured : Capture) :
    Adds (capture construct start captured) 1 := by
  have hending : Adds (match captured.ending with
      | .complete => pure ()
      | .fault message => fail message
      | .endOfSource => failAtEnd construct start) 1 := by
    split
    · infer_instance
    · exact Adds.mono inferInstance (by simp)
    · exact Adds.mono inferInstance (by simp)
  unfold capture
  exact Adds.mono inferInstance (by simp)

instance : Adds defaultArgument Form.capturedExpression := by
  unfold defaultArgument
  exact .node .capturedExpression rfl inferInstance (by simp [Form.row])

instance : Adds capturedInitializer Form.capturedAssignment := by
  have hkind (kind : TokenKind) : Adds (match kind with
      | .assign => do
          skip
          if Capture.endsInitializer (← peek).kind then failExpected .expectedExpressionValue
          let start ← ahead
          capture .expression start (.initializer 0 0 start)
      | .openParen => do
          let start ← ahead
          capture .argumentList start (.group .openParen .closeParen 0 start.tail)
      | _ => failExpected (.expectedOneOfKinds [.assign, .openParen])) 1 := by
    split <;> exact Adds.mono inferInstance (by simp)
  unfold capturedInitializer
  exact .node .capturedAssignment rfl inferInstance (by simp [Form.row])

instance : Adds capturedBlock Form.capturedBlock := by
  unfold capturedBlock
  exact .node .capturedBlock rfl inferInstance (by simp [Form.row])

end Parse
end Grammar

/-- What an entry gives without an error follows one of the forms of its rule. -/
theorem Entry.root_follows {entry : Entry} {options : Options} {source : Source}
    {forms : List Form} (hrule : Grammar.Parse.Adds (entry.rule options.maxDepth) (.oneOf forms))
    (herrors : (entry.parse options source).diagnostics.errors = []) :
    ∃ form ∈ forms, (entry.parse options source).root.Follows form := by
  have hended : (entry.setting options source).Ended := rfl
  obtain ⟨-, -, -, value, nodes, -, hnodes, hchildren⟩ := hrule.extends_ _ _ hended herrors
  obtain ⟨node, rfl, form, hform, hnode⟩ := Row.Fits.oneOf hnodes
  have hroot : (entry.parse options source).root = node := by
    change (entry.session options source).building.children.headD _ = node
    rw [Entry.session, hchildren]
    rfl
  exact ⟨form, hform, hroot ▸ hnode⟩

end ScriptSyntax
