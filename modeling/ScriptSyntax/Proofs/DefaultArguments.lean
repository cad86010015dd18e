import ScriptSyntax.Proofs.CapturedNesting
import ScriptSyntax.Proofs.SignatureSpans

/-!
# Default arguments

Each default argument in a signature that is parsed without an error is nested text behind `=`, up to
the comma or the parenthesis that ends the parameter.  Its node covers that text, and has no span
where there is none.
-/

namespace ScriptSyntax

open Grammar

/-- From the start of the first token to the end of the last one. -/
def Token.spanOf? (tokens : List Token) : Option Span :=
  tokens.head?.bind fun first => tokens.getLast?.map fun last => ⟨first.span.start, last.span.stop⟩

namespace Node

/-- The node covers what stands in the source between an equals sign and the first comma or closing
parenthesis outside all brackets. -/
def IsDefault (source : Source) (node : Node) : Prop :=
  ∃ offset assign taken rest, source.tokensFrom offset = assign :: (taken ++ rest) ∧
    assign.kind = .assign ∧ EndsOutside Nested Capture.endsArgument taken rest ∧
    (∀ token ∈ taken, Capture.allowsInArgument token.kind = true) ∧
    node.span = Token.spanOf? taken

/-- The default arguments that stand in the node, if it is a list of parameters, or that the node
is. -/
structure Gathered (source : Source) (node : Node) : Prop where
  expression : node.kind = .expression → node.IsDefault source
  list : node.kind = .parameterList →
    ∀ child ∈ node.children, child.kind = .expression → child.IsDefault source

theorem gathered_of_kind {source : Source} {node : Node} (hexpression : node.kind ≠ .expression)
    (hlist : node.kind ≠ .parameterList) : node.Gathered source :=
  ⟨fun hkind => absurd hkind hexpression, fun hkind => absurd hkind hlist⟩

end Node

namespace Grammar

/-! ## What is captured -/

/-- Tokens that are covered in their order. -/
theorem span_widen_tokens {setting : Setting} {taken rest : List Token} (kind : NodeKind)
    (hreads : setting.Reads (taken ++ rest)) :
    (taken.foldl (fun node token => node.widen token.span) (Node.empty kind)).span =
      Token.spanOf? taken := by
  cases taken with
  | nil => rfl
  | cons first taken =>
      have hspan : ((Node.empty kind).widen first.span).span = some first.span :=
        Node.span_widen hreads.start_lt_stop
      cases hlast : taken.getLast? with
      | none =>
          rw [List.getLast?_eq_none_iff.mp hlast]
          exact hspan
      | some last =>
          have hlater (token : Token) (hmem : token ∈ taken) :
              first.span.stop ≤ token.span.start ∧ token.span.start < token.span.stop :=
            ⟨hreads.stop_le_of_mem (List.mem_append_left _ hmem),
              hreads.lt_of_mem (List.mem_cons_of_mem _ (List.mem_append_left _ hmem))⟩
          have hfirst := hreads.start_lt_stop
          have hfinal := hlater last (List.mem_of_getLast? hlast)
          have hwide : ∃ stop, ((Node.empty kind).widen first.span).span =
              some ⟨first.span.start, stop⟩ ∧ stop ≤ last.span.stop :=
            ⟨first.span.stop, hspan, by omega⟩
          have htokens : ∀ token ∈ taken,
              token.span.Within first.span.start last.span.stop ∧
                token.span.start < token.span.stop := by
            intro token hmem
            obtain ⟨hstart, hlt⟩ := hlater token hmem
            refine ⟨⟨by omega, Nat.le_of_lt hlt, ?_⟩, hlt⟩
            rcases hreads.tail.before_last hlast hmem with rfl | ⟨hstop, -⟩
            · exact Nat.le_refl _
            · omega
          rw [List.foldl_cons, span_widen_all hwide hlast htokens]
          simp [Token.spanOf?, List.getLast?_cons, hlast]

namespace Parse

variable {α β : Type}

theorem capture_ok {construct : Construct} {start : List Token} {text : Capture}
    {setting : Setting} {session after : Session} {value : Unit}
    (hrun : capture construct start text setting session = (.ok value, after)) :
    text.ending = .complete ∧ after = captured text session := by
  rw [capture_run] at hrun
  cases hending : text.ending <;> rw [hending] at hrun <;> cases hrun
  exact ⟨rfl, rfl⟩

/-- A default argument is read up to the first comma or closing parenthesis outside all brackets. -/
theorem defaultArgument_ok {setting : Setting} {session after : Session} {value : Unit}
    (hreads : setting.Reads session.ahead)
    (hrun : defaultArgument setting session = (.ok value, after)) :
    ∃ taken, session.ahead = taken ++ after.ahead ∧
      EndsOutside Nested Capture.endsArgument taken after.ahead ∧
      (∀ token ∈ taken, Capture.allowsInArgument token.kind = true) ∧
      after.building = session.building.append ⟨.expression, none, Token.spanOf? taken, []⟩ := by
  obtain ⟨inner, hinner, rfl⟩ := node_ok hrun
  rw [ahead_bind] at hinner
  obtain ⟨hcomplete, rfl⟩ := capture_ok hinner
  obtain ⟨hends, hallows⟩ := Capture.argument_endsOutside hcomplete
  have hsplit := Capture.argument_append [] session.ahead
  refine ⟨_, hsplit.symm, hends, hallows, ?_⟩
  have hspan := span_widen_tokens .expression (hsplit.symm ▸ hreads)
  unfold captured
  dsimp only
  rw [Grammar.widen_all_eq, hspan]
  rfl

/-! ## What is gathered -/

/-- Whatever the rule adds to a node, each default argument in it is one. -/
class Gathers (rule : Parse α) : Prop where
  gathers : ∀ setting session value after, setting.Ended → setting.Reads session.ahead →
    rule setting session = (.ok value, after) →
    (∀ child ∈ session.building.children, child.Gathered setting.source) →
    ∀ child ∈ after.building.children, child.Gathered setting.source

variable {rule : Parse α} {next : α → Parse β}

theorem gathers_of_children
    (h : ∀ setting session value after, rule setting session = (.ok value, after) →
      after.building.children = session.building.children) : Gathers rule := by
  constructor
  intro setting session value after hended hreads hrun hbefore
  rwa [h setting session value after hrun]

instance (priority := low) [hrule : Looks rule] : Gathers rule := by
  refine gathers_of_children fun setting session value after hrun => ?_
  obtain ⟨_, hvalue⟩ := hrule.looks setting session
  rw [hvalue] at hrun
  cases hrun
  rfl

instance (priority := low) [Interrupts rule] : Gathers rule :=
  ⟨fun _ _ _ _ _ _ hrun => absurd hrun not_ok_of_interrupts⟩

instance [hrule : Gathers rule] [hforwards : Forwards rule] [hnext : ∀ value, Gathers (next value)] :
    Gathers (rule >>= next) := by
  constructor
  intro setting session value after hended hreads hrun hbefore
  obtain ⟨first, middle, hfirst, hsecond⟩ := bind_ok hrun
  have hmiddle :=
    hrule.gathers setting session first middle hended hreads hfirst hbefore
  exact (hnext first).gathers setting middle value after hended
    (hreads.leads (hforwards.leads setting session first middle hfirst)) hsecond hmiddle

instance (condition : Prop) [Decidable condition] (rule other : Parse α) [Gathers rule]
    [Gathers other] : Gathers (if condition then rule else other) := by
  split <;> infer_instance

instance (rule : Unit → Parse α) [hrule : Gathers (rule ())] : Gathers (deferred rule) :=
  ⟨fun setting => hrule.gathers setting⟩

theorem gathered_append {source : Source} {node child : Node}
    (hnode : ∀ other ∈ node.children, other.Gathered source) (hchild : child.Gathered source) :
    ∀ other ∈ (node.append child).children, other.Gathered source := by
  intro other hmem
  rw [Node.children_append] at hmem
  rcases List.mem_append.mp hmem with hmem | hmem
  · exact hnode other hmem
  · rw [List.mem_singleton.mp hmem]
    exact hchild

/-- A node of another kind, whatever is in it. -/
theorem gathers_node {kind : NodeKind} [Advances rule] (hexpression : kind ≠ .expression)
    (hlist : kind ≠ .parameterList) : Gathers (node kind rule) := by
  constructor
  intro setting session value after hended hreads hrun hbefore
  obtain ⟨inner, hinner, rfl⟩ := node_ok hrun
  have hkind : inner.building.kind = kind := (advance_of_run hinner).building.kind
  exact gathered_append hbefore
    (Node.gathered_of_kind (hkind ▸ hexpression) (hkind ▸ hlist))

instance : Gathers cover :=
  gathers_of_children fun setting session value after hrun => by
    cases hrun
    exact Node.children_widen _ _

instance (kind : TokenKind) : Gathers (coverRequired kind) :=
  gathers_of_children fun setting session value after hrun => by
    obtain ⟨-, rfl⟩ := coverRequired_passed hrun
    exact Node.children_widen _ _

instance : Gathers skip :=
  gathers_of_children fun setting session value after hrun => by
    cases hrun
    rfl

section

set_option synthInstance.maxSize 2000

instance : Gathers mark := by
  unfold mark leaf
  exact gathers_node (by simp) (by simp)

instance (kind : TokenKind) : Gathers (markIf kind) := by
  unfold markIf
  infer_instance

instance : Gathers identifier :=
  gathers_node (by simp) (by simp)

instance : Gathers (tooDeep .dataType) := by
  unfold tooDeep
  exact gathers_node (by simp) (by simp)

instance (room : Nat) (forms : TypeForms) : Gathers (dataType room forms) := by
  cases room with
  | zero => exact inferInstanceAs (Gathers (tooDeep _))
  | succ room =>
      have hbody : Gathers (typeBody room (dataType room {}) forms) :=
        gathers_node (by simp) (by simp)
      exact inferInstanceAs (Gathers (deferred _))

instance (ofParameter : Bool) : Gathers (typeModifier ofParameter) := by
  unfold typeModifier
  exact gathers_node (by simp) (by simp)

instance (room : Nat) : Gathers (scope room) := by
  have hnode (rule : Parse Unit) [Advances rule] : Gathers (node .scope rule) :=
    gathers_node (by simp) (by simp)
  unfold scope scopeOver
  infer_instance

instance (count : Nat) (body : Parse Bool) [Forwards body] [Gathers body] :
    Gathers (repeatUpTo count body) := by
  induction count with
  | zero => exact inferInstanceAs (Gathers (pure ()))
  | succ count ih =>
      unfold repeatUpTo
      infer_instance

instance (body : Parse Bool) [Forwards body] [Gathers body] : Gathers (repeatRule body) := by
  unfold repeatRule
  infer_instance

instance (item : Parse Unit) [Forwards item] [Gathers item] : Gathers (commaSeparated item) := by
  unfold commaSeparated
  infer_instance

instance (test : Token → Bool) (rule : Parse Unit) [Forwards rule] [Gathers rule] :
    Gathers (whileNext test rule) := by
  unfold whileNext
  infer_instance

/-! ## Parameters -/

instance gathers_default : Gathers (do
    if ← nextIs .assign then
      skip
      defaultArgument) := by
  constructor
  intro setting session value after hended hreads hrun hbefore
  rw [nextIs_bind] at hrun
  split at hrun
  · rename_i hassign
    rw [skip_bind] at hrun
    have hkind : (setting.head session).kind = .assign := of_decide_eq_true hassign
    have hcons : session.ahead = setting.head session :: session.ahead.tail :=
      hended.ahead_cons (by simp [hkind])
    obtain ⟨taken, hsplit, hends, hallows, hbuilding⟩ := defaultArgument_ok hreads.tail hrun
    rw [hbuilding]
    refine gathered_append hbefore ⟨fun _ => ?_, fun hlist => ?_⟩
    · obtain ⟨offset, hoffset⟩ := hreads
      refine ⟨offset, setting.head session, taken, after.ahead, ?_, hkind, hends, hallows, rfl⟩
      rw [← hoffset, hcons]
      exact congrArg _ hsplit
    · cases hlist
  · cases hrun
    exact hbefore

instance (room : Nat) : Gathers (parameter room) := by
  unfold parameter
  infer_instance

instance (rule : Parse Unit) [hrule : Gathers rule] [Advances rule] :
    Gathers (node .parameterList rule) := by
  constructor
  intro setting session value after hended hreads hrun hbefore
  obtain ⟨inner, hinner, rfl⟩ := node_ok hrun
  have hkind : inner.building.kind = .parameterList := (advance_of_run hinner).building.kind
  have hinside := hrule.gathers setting (session.opened .parameterList) value inner hended hreads
    hinner fun child hmem => absurd hmem List.not_mem_nil
  refine gathered_append hbefore ⟨fun hother => ?_, fun _ child hmem => ?_⟩
  · cases hkind.symm.trans hother
  · exact (hinside child hmem).expression

instance (room : Nat) : Gathers (parameterList room) := by
  unfold parameterList
  infer_instance

instance (room : Nat) : Gathers (signature room) := by
  unfold signature returnType methodAttributes
  infer_instance

end

end Parse

end Grammar

namespace Entry

open Grammar Grammar.Parse

/-- Each default argument in a signature that is parsed without an error is nested, holds no
semicolon, and ends before the first comma or closing parenthesis outside all brackets. -/
theorem functionSignature_defaults (options : Options) (source : Source)
    (hclean : (functionSignature.parse options source).diagnostics.errors = []) :
    ∀ list ∈ (functionSignature.parse options source).root.children, list.kind = .parameterList →
      ∀ child ∈ list.children, child.kind = .expression → child.IsDefault source := by
  let setting := functionSignature.setting options source
  let session : Session := ⟨source.tokensFrom 0, {}, .empty .undefined⟩
  have hreads : setting.Reads session.ahead := ⟨0, rfl⟩
  obtain ⟨_, closed, hnode, hexpect⟩ := bind_ok (functionSignature.run_of_clean options source hclean)
  obtain ⟨inner, hinner, rfl⟩ := node_ok hnode
  have hleads := Forwards.leads setting session _ _ hnode
  obtain ⟨hsession, -⟩ := expectEnd_ok (hreads.leads hleads) hexpect
  have hroot : (functionSignature.parse options source).root = inner.building :=
    root_eq (congrArg Session.building hsession)
  have hgathered := Gathers.gathers setting (session.opened .function) _ inner rfl hreads hinner
    fun child hmem => absurd hmem List.not_mem_nil
  rw [hroot]
  exact fun list hmem => (hgathered list hmem).list

/-- Nothing stands behind the equals sign. -/
example :
    let outcome := functionSignature.parse {} "void f(int a = )".toList
    outcome.diagnostics.errors = [] ∧
      (outcome.root.children.flatMap (·.children)).filter (·.kind = .expression) =
        [.empty .expression] := by
  decide +kernel

end Entry

end ScriptSyntax
