import ScriptSyntax.Proofs.Comparison.Lockstep
import ScriptSyntax.Proofs.Tiling

/-!
# One text under two options

Two runs over the same tokens, under options that differ, stay together as long as every rule does
the same on both sides.  Which template names there are may only differ where no list of arguments
can open.  The rules of the two sides may also be given different room, if the text ahead is too
short for any of it to run out.
-/

namespace ScriptSyntax

/-- Only warnings add to the warnings. -/
theorem Diagnostics.warnings_push {all : Diagnostics} {report : Diagnostic}
    (hseverity : report.severity ≠ .warning) : (all.push report).warnings = all.warnings := by
  unfold warnings ofSeverity push
  rw [List.filter_append, List.filter_cons_of_neg (by simpa using hseverity), List.filter_nil,
    List.append_nil]

namespace Grammar

/-- The setting with other options. -/
abbrev Setting.under (setting : Setting) (options : Options) : Setting :=
  { setting with options }

/-- A list of arguments may open here, or behind one scope mark. -/
def opensList (tokens : List Token) : Bool :=
  tokens.head?.any (·.kind = .less) ||
    tokens.head?.any (·.kind = .scope) && tokens.tail.head?.any (·.kind = .less)

/-- A second run over the text of a setting, and what the sessions of the two have in common beside
the tokens ahead. -/
structure Variation where
  left : Setting
  /-- The options of the second run. -/
  options : Options
  ended : left.Ended
  handles_eq : options.implicitHandles = left.options.implicitHandles
  /-- The two sides are also compared where their room may run out; then it is the same. -/
  level : Prop
  /-- Where sessions are: the node that is being built. -/
  Frame : Type
  same : Frame → Session → Session → Prop
  inside : Frame → Session → Frame
  moved : ∀ {n s t} (tokens others : List Token), same n s t → same n (s.at tokens) (t.at others)
  widened : ∀ {n s t} (span : Span), same n s t →
    same n { s with building := s.building.widen span } { t with building := t.building.widen span }
  anchored : ∀ {n s t} (token : Token), same n s t → same n
    { s with building := s.building.anchor token } { t with building := t.building.anchor token }
  reported : ∀ {n s t} (severity : Severity) (message : Message) (token : Token),
    severity ≠ .warning → same n s t →
    same n (Parse.reported left severity message token s)
      (Parse.reported left severity message token t)
  opened : ∀ {n s t} (kind : NodeKind), same n s t →
    same (inside n s) (s.opened kind) (t.opened kind)
  closed : ∀ {n s t kind after other}, kind ≠ .namedArgument → same n s t →
    Advance left (s.opened kind) after → same (inside n s) after other →
    same n (s.closed after) (t.closed other)

namespace Variation

variable (V : Variation)

/-- The setting of the second run. -/
abbrev right : Setting :=
  V.left.under V.options

/-- Tokens of the source in which both sides know the same template names wherever it matters. -/
structure Fine (tokens : List Token) : Prop where
  reads : V.left.Reads tokens
  names : ∀ name rest, name :: rest <:+ tokens → name.kind.isIdentifier = true →
    opensList rest = true → V.right.isTemplateName name = V.left.isTemplateName name

/-- The two runs have the same tokens ahead and agree in the frame. -/
structure Related (n : V.Frame) (s t : Session) : Prop where
  ahead : t.ahead = s.ahead
  fine : V.Fine s.ahead
  same : V.same n s t

/-- The two runs end in the same way. -/
structure Meets {α : Type} (n : V.Frame) (run run' : Except Interruption α × Session) : Prop where
  result : run'.1 = run.1
  related : V.Related n run.2 run'.2

/-- The two rules do the same where fewer bytes than the bound are ahead. -/
class Agrees {α : Type} (bound : Nat) (rule rule' : Parse α) : Prop where
  meets : ∀ {n s t}, V.Related n s t → byteCount s.ahead < bound →
    V.Meets n (rule V.left s) (rule' V.right t)

/-- The rooms of the two sides are the same, or there is enough of both for so little text; the cost
is what is spent before the first token is passed. -/
def Rooms (bound cost room room' : Nat) : Prop :=
  V.level ∧ room' = room ∨ 4 * bound + cost ≤ room + 4 ∧ 4 * bound + cost ≤ room' + 4

variable {V}

/-! ## Tokens -/

namespace Fine

variable {tokens next rest : List Token} {name : Token}

theorem leads (h : V.Fine tokens) (hleads : V.left.Leads tokens next) : V.Fine next := by
  refine ⟨h.reads.leads hleads, ?_⟩
  intro name rest hsuffix hname hopens
  have hkind : name.kind = .identifier := of_decide_eq_true hname
  exact h.names name rest (h.reads.suffix_of_leads hleads hsuffix (by rw [hkind]; rfl)) hname hopens

theorem suffix (h : V.Fine tokens) (hsuffix : next <:+ tokens) : V.Fine next :=
  h.leads (V.left.leads_of_suffix hsuffix)

theorem tail (h : V.Fine tokens) : V.Fine tokens.tail :=
  h.suffix (List.tail_suffix _)

theorem byteCount_le (h : V.Fine tokens) (hleads : V.left.Leads tokens next) :
    byteCount next ≤ byteCount tokens := by
  rcases Relation.reflTransGen_iff_eq_or_transGen.mp hleads with rfl | hpasses
  · exact Nat.le_refl _
  · exact Nat.le_of_lt (h.reads.orderly.byteCount_lt hpasses)

theorem byteCount_lt (h : V.Fine tokens) (hpasses : V.left.Passes tokens next) :
    byteCount next < byteCount tokens :=
  h.reads.orderly.byteCount_lt hpasses

/-- Both sides agree on whether a list of arguments follows the next token. -/
theorem lists_head (h : V.Fine tokens) :
    V.right.listsArguments (tokens.headD V.left.finish) tokens.tail =
      V.left.listsArguments (tokens.headD V.left.finish) tokens.tail := by
  unfold Setting.listsArguments
  cases tokens with
  | nil =>
      unfold Setting.isTemplateName
      rw [List.headD_nil, V.ended]
      rfl
  | cons name rest =>
      rw [List.headD_cons, List.tail_cons]
      cases hname : name.kind.isIdentifier with
      | false =>
          unfold Setting.isTemplateName
          rw [hname]
          rfl
      | true =>
          by_cases hless : (rest.headD V.left.finish).kind = .less
          · have hopens : opensList rest = true := by
              cases rest with
              | nil =>
                  rw [List.headD_nil, V.ended] at hless
                  cases hless
              | cons less rest => simpa [opensList] using .inl hless
            rw [h.names name rest List.suffix_rfl hname hopens]
          · simp only [hless, decide_false, Bool.and_false]

end Fine

/-! ## Rooms -/

namespace Rooms

variable {bound bound' cost cost' room room' : Nat}

theorem le (h : V.Rooms bound cost room room') (hle : 4 * bound' + cost' ≤ 4 * bound + cost) :
    V.Rooms bound' cost' room room' :=
  h.imp_right fun hample => by omega

/-- There is room on both sides where any text may be ahead, or on neither. -/
theorem levels (h : V.Rooms (bound + 1) (cost + 1) room room') :
    room = 0 ∧ room' = 0 ∨ ∃ less less', room = less + 1 ∧ room' = less' + 1 := by
  rcases h with ⟨-, rfl⟩ | ⟨hroom, hroom'⟩
  · cases room' with
    | zero => exact .inl ⟨rfl, rfl⟩
    | succ less => exact .inr ⟨less, less, rfl, rfl⟩
  · exact .inr ⟨room - 1, room' - 1, by omega, by omega⟩

theorem succ (h : V.Rooms bound cost (room + 1) (room' + 1))
    (hle : 4 * bound' + cost' + 1 ≤ 4 * bound + cost) : V.Rooms bound' cost' room room' :=
  h.imp (fun heq => ⟨heq.1, Nat.succ.inj heq.2⟩) fun hample => by omega

end Rooms

/-! ## Runs -/

section

open Parse

variable {α β : Type} {bound : Nat} {n : V.Frame} {s t : Session} {rule rule' : Parse α}
  {next next' : α → Parse β}

theorem Related.head (h : V.Related n s t) : V.right.head t = V.left.head s := by
  unfold Setting.head
  rw [h.ahead]

theorem Related.second (h : V.Related n s t) : V.right.second t = V.left.second s := by
  unfold Setting.second
  rw [h.ahead]

theorem Related.at (h : V.Related n s t) {tokens : List Token} (hfine : V.Fine tokens) :
    V.Related n (s.at tokens) (t.at tokens) :=
  ⟨rfl, hfine, V.moved tokens tokens h.same⟩

theorem Related.pass (h : V.Related n s t) :
    V.Related n (s.at s.ahead.tail) (t.at t.ahead.tail) := by
  rw [h.ahead]
  exact h.at h.fine.tail

theorem Related.widened (h : V.Related n s t) (span : Span) :
    V.Related n { s with building := s.building.widen span }
      { t with building := t.building.widen span } :=
  ⟨h.ahead, h.fine, V.widened span h.same⟩

theorem Related.widened_all (h : V.Related n s t) (tokens : List Token) : V.Related n
    { s with building := tokens.foldl (fun node token => node.widen token.span) s.building }
    { t with building := tokens.foldl (fun node token => node.widen token.span) t.building } := by
  induction tokens generalizing s t with
  | nil => exact h
  | cons token rest ih => exact ih (h.widened token.span)

theorem Related.reported (h : V.Related n s t) {severity : Severity}
    (hseverity : severity ≠ .warning) (message : Message) (token : Token) :
    V.Related n (Parse.reported V.left severity message token s)
      (Parse.reported V.right severity message token t) :=
  ⟨h.ahead, h.fine, V.reported severity message token hseverity h.same⟩

theorem Related.opened (h : V.Related n s t) (kind : NodeKind) :
    V.Related (V.inside n s) (s.opened kind) (t.opened kind) :=
  ⟨h.ahead, h.fine, V.opened kind h.same⟩

theorem Related.meets (h : V.Related n s t) (result : Except Interruption α) :
    V.Meets n (result, s) (result, t) :=
  ⟨rfl, h⟩

/-- Two rules, then what follows where they come to their end. -/
theorem Meets.bind (h : V.Meets n (rule V.left s) (rule' V.right t))
    (hnext : ∀ value after after', rule V.left s = (.ok value, after) →
      V.Related n after after' → V.Meets n (next value V.left after) (next' value V.right after')) :
    V.Meets n ((rule >>= next) V.left s) ((rule' >>= next') V.right t) := by
  obtain ⟨hresult, hrelated⟩ := h
  rw [bind_run, bind_run]
  generalize hrun : rule V.left s = run at hresult hrelated ⊢
  generalize rule' V.right t = run' at hresult hrelated ⊢
  obtain ⟨result, after⟩ := run
  obtain ⟨result', after'⟩ := run'
  obtain rfl : result' = result := hresult
  cases result' with
  | error interruption => exact ⟨rfl, hrelated⟩
  | ok value => exact hnext value after after' hrun hrelated

theorem Agrees.mono {less : Nat} (h : V.Agrees bound rule rule') (hle : less ≤ bound) :
    V.Agrees less rule rule' :=
  ⟨fun hrelated hbytes => h.meets hrelated (Nat.lt_of_lt_of_le hbytes hle)⟩

theorem Agrees.lower (h : V.Agrees (bound + 1) rule rule') : V.Agrees bound rule rule' :=
  h.mono (Nat.le_succ bound)

/-- Behind a rule that does not go back, no more text is ahead. -/
theorem Meets.bind_agrees [Forwards rule] (h : V.Meets n (rule V.left s) (rule' V.right t))
    (hfine : V.Fine s.ahead) (hbytes : byteCount s.ahead < bound)
    (hnext : ∀ value, V.Agrees bound (next value) (next' value)) :
    V.Meets n ((rule >>= next) V.left s) ((rule' >>= next') V.right t) := by
  refine h.bind ?_
  intro value after after' hrun hafter
  have hleads := Forwards.leads V.left s value after hrun
  exact (hnext value).meets hafter (Nat.lt_of_le_of_lt (hfine.byteCount_le hleads) hbytes)

theorem Agrees.bind [Forwards rule] (hrule : V.Agrees bound rule rule')
    (hnext : ∀ value, V.Agrees bound (next value) (next' value)) :
    V.Agrees bound (rule >>= next) (rule' >>= next') :=
  ⟨fun h hbytes => (hrule.meets h hbytes).bind_agrees h.fine hbytes hnext⟩

/-- What does the same whatever text is ahead may follow any rule. -/
theorem Agrees.bind_anywhere (hrule : V.Agrees bound rule rule')
    (hnext : ∀ value bound, V.Agrees bound (next value) (next' value)) :
    V.Agrees bound (rule >>= next) (rule' >>= next') := by
  constructor
  intro n s t h hbytes
  refine (hrule.meets h hbytes).bind ?_
  intro value after after' _ hafter
  exact (hnext value _).meets hafter (Nat.lt_succ_self (byteCount after.ahead))

/-- Behind a rule that passes a token, less text is ahead. -/
theorem Agrees.meets_passing (hrule : V.Agrees (bound + 1) rule rule')
    (hnext : ∀ value, V.Agrees bound (next value) (next' value)) (h : V.Related n s t)
    (hbytes : byteCount s.ahead < bound + 1)
    (hpasses : ∀ value after, rule V.left s = (.ok value, after) →
      V.left.Passes s.ahead after.ahead) :
    V.Meets n ((rule >>= next) V.left s) ((rule' >>= next') V.right t) := by
  refine (hrule.meets h hbytes).bind ?_
  intro value after after' hrun hafter
  have hless := h.fine.byteCount_lt (hpasses value after hrun)
  exact (hnext value).meets hafter (Nat.lt_of_lt_of_le hless (Nat.le_of_lt_succ hbytes))

theorem Agrees.bind_passing [Consumes rule] (hrule : V.Agrees (bound + 1) rule rule')
    (hnext : ∀ value, V.Agrees bound (next value) (next' value)) :
    V.Agrees (bound + 1) (rule >>= next) (rule' >>= next') :=
  ⟨fun h hbytes => hrule.meets_passing hnext h hbytes fun value after =>
    Consumes.passes V.left _ value after V.ended⟩

instance [Forwards rule] [V.Agrees bound rule rule']
    [∀ value, V.Agrees bound (next value) (next' value)] :
    V.Agrees bound (rule >>= next) (rule' >>= next') :=
  .bind inferInstance inferInstance

instance (priority := high) [Consumes rule] [V.Agrees (bound + 1) rule rule']
    [∀ value, V.Agrees bound (next value) (next' value)] :
    V.Agrees (bound + 1) (rule >>= next) (rule' >>= next') :=
  .bind_passing inferInstance inferInstance

theorem Agrees.ite (condition : Prop) [Decidable condition] {yes yes' no no' : Parse α}
    (hyes : V.Agrees bound yes yes') (hno : V.Agrees bound no no') :
    V.Agrees bound (if condition then yes else no) (if condition then yes' else no') := by
  split
  · exact hyes
  · exact hno

instance (condition : Prop) [Decidable condition] {yes yes' no no' : Parse α}
    [V.Agrees bound yes yes'] [V.Agrees bound no no'] :
    V.Agrees bound (if condition then yes else no) (if condition then yes' else no') :=
  .ite condition inferInstance inferInstance

instance (value : α) : V.Agrees bound (pure value) (pure value) :=
  ⟨fun h _ => h.meets (.ok value)⟩

/-- What is read of the setting may differ. -/
theorem Agrees.read {next next' : Setting → Parse α}
    (h : V.Agrees bound (next V.left) (next' V.right)) :
    V.Agrees bound (read >>= next) (read >>= next') :=
  ⟨fun hrelated hbytes => h.meets hrelated hbytes⟩

/-! ## Tokens -/

instance : V.Agrees bound ahead ahead :=
  ⟨fun {n s t} h _ => by
    change V.Meets n (.ok s.ahead, s) (.ok t.ahead, t)
    rw [h.ahead]
    exact h.meets _⟩

/-- A rule may go back to the tokens at which it starts. -/
theorem Agrees.from_start {next next' : List Token → Parse α}
    (hnext : ∀ start, V.Fine start → V.Agrees bound (next start) (next' start)) :
    V.Agrees bound (ahead >>= next) (ahead >>= next') := by
  constructor
  intro n s t h hbytes
  rw [ahead_bind, ahead_bind, h.ahead]
  exact (hnext s.ahead h.fine).meets h hbytes

instance : V.Agrees bound peek peek :=
  ⟨fun {n s t} h _ => by
    change V.Meets n (.ok (V.left.head s), s) (.ok (V.right.head t), t)
    rw [h.head]
    exact h.meets _⟩

instance : V.Agrees bound peekSecond peekSecond :=
  ⟨fun {n s t} h _ => by
    change V.Meets n (.ok (V.left.second s), s) (.ok (V.right.second t), t)
    rw [h.second]
    exact h.meets _⟩

instance (kind : TokenKind) : V.Agrees bound (nextIs kind) (nextIs kind) := by
  unfold nextIs
  infer_instance

instance : V.Agrees bound skip skip :=
  ⟨fun h _ => h.pass.meets (.ok ())⟩

instance : V.Agrees bound Parse.next Parse.next := by
  unfold Parse.next
  infer_instance

instance (span : Span) : V.Agrees bound (widen span) (widen span) :=
  ⟨fun h _ => (h.widened span).meets (.ok ())⟩

instance (token : Token) : V.Agrees bound (anchor token) (anchor token) :=
  ⟨fun h _ => ⟨rfl, h.ahead, h.fine, V.anchored token h.same⟩⟩

/-! ## Reports -/

theorem agrees_diagnose {severity : Severity} (hseverity : severity ≠ .warning) (message : Message)
    (token : Token) :
    V.Agrees bound (diagnose severity message token) (diagnose severity message token) :=
  ⟨fun h _ => (h.reported hseverity message token).meets (.ok ())⟩

instance (message : Message) (token : Token) :
    V.Agrees bound (diagnose .error message token) (diagnose .error message token) :=
  agrees_diagnose (by decide) message token

instance : V.Agrees bound (interrupt : Parse α) interrupt :=
  ⟨fun h _ => h.meets _⟩

instance (message : Message) : V.Agrees bound (fail message : Parse α) (fail message) := by
  unfold fail
  infer_instance

instance (message : Message) :
    V.Agrees bound (reportExpected message) (reportExpected message) := by
  unfold reportExpected
  infer_instance

instance (message : Message) :
    V.Agrees bound (failExpected message : Parse α) (failExpected message) := by
  unfold failExpected
  infer_instance

instance (construct : Construct) (start : List Token) [hfine : Fact (V.Fine start)] :
    V.Agrees bound (failInside construct start : Parse α) (failInside construct start) :=
  ⟨fun h _ => ((h.at hfine.out).reported (by decide) (.whileParsing construct)
    (start.headD V.left.finish)).meets _⟩

instance (construct : Construct) (start : List Token) [Fact (V.Fine start)] :
    V.Agrees bound (failAtEnd construct start : Parse α) (failAtEnd construct start) := by
  unfold failAtEnd
  infer_instance

instance (kind : TokenKind) : V.Agrees bound (require kind) (require kind) := by
  unfold require
  infer_instance

/-! ## Nodes and loops -/

theorem Meets.node {kind : NodeKind} (hkind : kind ≠ .namedArgument) (h : V.same n s t)
    (hadvance : Advance V.left (s.opened kind) (rule V.left (s.opened kind)).2)
    (hrule : V.Meets (V.inside n s) (rule V.left (s.opened kind)) (rule' V.right (t.opened kind))) :
    V.Meets n (node kind rule V.left s) (node kind rule' V.right t) :=
  ⟨hrule.result, hrule.related.ahead, hrule.related.fine,
    V.closed hkind h hadvance hrule.related.same⟩

theorem Agrees.node [Advances rule] {kind : NodeKind} (hkind : kind ≠ .namedArgument)
    (hrule : V.Agrees bound rule rule') : V.Agrees bound (node kind rule) (node kind rule') := by
  constructor
  intro n s t h hbytes
  exact .node hkind h.same (advance rule V.left _) (hrule.meets (h.opened kind) hbytes)

instance (kind : NodeKind) [hkind : Fact (kind ≠ .namedArgument)] [Advances rule]
    [V.Agrees bound rule rule'] : V.Agrees bound (node kind rule) (node kind rule') :=
  .node hkind.out inferInstance

theorem agrees_leaf {kind : NodeKind} (hkind : kind ≠ .namedArgument) :
    V.Agrees bound (leaf kind) (leaf kind) :=
  .node hkind inferInstance

instance : V.Agrees bound mark mark :=
  agrees_leaf (by decide)

instance (kind : TokenKind) : V.Agrees bound (markIf kind) (markIf kind) := by
  unfold markIf
  infer_instance

instance : V.Agrees bound cover cover := by
  unfold cover
  infer_instance

instance (kind : TokenKind) : V.Agrees bound (coverRequired kind) (coverRequired kind) := by
  unfold coverRequired
  infer_instance

instance : V.Agrees bound identifier identifier :=
  .node (by decide) inferInstance

instance (rule rule' : Unit → Parse α) [h : V.Agrees bound (rule ()) (rule' ())] :
    V.Agrees bound (deferred rule) (deferred rule') :=
  ⟨h.meets⟩

instance [h : V.Agrees bound rule rule'] : V.Agrees bound (attempt rule) (attempt rule') := by
  constructor
  intro n s t hrelated hbytes
  obtain ⟨hresult, hafter⟩ := h.meets hrelated hbytes
  rw [attempt_run, attempt_run]
  generalize rule V.left s = run at hresult hafter ⊢
  generalize rule' V.right t = run' at hresult hafter ⊢
  obtain ⟨result, after⟩ := run
  obtain ⟨result', after'⟩ := run'
  obtain rfl : result' = result := hresult
  cases result' with
  | error interruption => exact ⟨rfl, hafter⟩
  | ok value => exact ⟨rfl, hafter⟩

instance (count : Nat) {body body' : Parse Bool} [Forwards body] [V.Agrees bound body body'] :
    V.Agrees bound (repeatUpTo count body) (repeatUpTo count body') := by
  induction count with
  | zero => exact inferInstanceAs (V.Agrees bound (pure ()) (pure ()))
  | succ count ih =>
      unfold repeatUpTo
      infer_instance

instance {body body' : Parse Bool} [Forwards body] [V.Agrees bound body body'] :
    V.Agrees bound (repeatRule body) (repeatRule body') := by
  unfold repeatRule
  infer_instance

instance {item item' : Parse Unit} [Forwards item] [V.Agrees bound item item'] :
    V.Agrees bound (commaSeparated item) (commaSeparated item') := by
  unfold commaSeparated
  infer_instance

theorem agrees_tooDeep {kind : NodeKind} (hkind : kind ≠ .namedArgument) :
    V.Agrees bound (tooDeep kind) (tooDeep kind) :=
  .node hkind inferInstance

instance (test : Token → Bool) {rule rule' : Parse Unit} [Forwards rule]
    [V.Agrees bound rule rule'] :
    V.Agrees bound (whileNext test rule) (whileNext test rule') := by
  unfold whileNext
  infer_instance

/-! ## Recovery -/

instance (tokens : List Token) [hfine : Fact (V.Fine tokens)] :
    V.Agrees bound (goTo tokens) (goTo tokens) :=
  ⟨fun h _ => (h.at hfine.out).meets (.ok ())⟩

instance (inBraces : Bool) : V.Agrees bound (recover inBraces) (recover inBraces) := by
  refine .from_start fun start hstart => ?_
  have hfine : Fact (V.Fine (resume inBraces start)) := ⟨hstart.suffix (resume_suffix _ _)⟩
  infer_instance

instance (inBraces : Bool) {rule rule' : Parse Unit} [V.Agrees bound rule rule'] :
    V.Agrees bound (recovering inBraces rule) (recovering inBraces rule') :=
  .bind_anywhere inferInstance fun _ _ => inferInstance

end

end Variation

end Grammar

end ScriptSyntax
