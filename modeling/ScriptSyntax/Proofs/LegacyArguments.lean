import ScriptSyntax.Proofs.LegacyArguments.Assignment
import ScriptSyntax.Proofs.ReadingOn
import ScriptSyntax.Proofs.TreeSpans
import ScriptSyntax.Proofs.Variation.Entry

/-!
# Old named arguments

Where arguments may be named with an equals sign, every argument that is named so is warned of.
Where they may not, it is read as an assignment, or as a list with its type.  Both take the same
text and report the same errors.
-/

namespace ScriptSyntax

open Grammar

/-- What is reported at the equals sign of a named argument. -/
def Source.oldNameWarning (source : Source) (sign : Token) : Diagnostic :=
  let lines := LineIndex.ofSource source
  ⟨.warning, Message.oldNamedArgument.text, sign.span, lines.row sign.span.start,
    lines.column sign.span.start⟩

/-! ## The warnings of a tree -/

namespace Node

/-- The equals sign of a named argument that is written with one. -/
def oldSign? (source : Source) (node : Node) : Option Token := do
  guard (node.kind = .namedArgument)
  let name ← node.children.head?
  let span ← name.span
  (source.tokensFrom span.stop).head?.filter (·.kind = .assign)

/-- One warning for each named argument that is written with an equals sign. -/
def oldNameWarnings (source : Source) (root : Node) : List Diagnostic :=
  (root.descendants.filterMap (oldSign? source)).map source.oldNameWarning

variable {source : Source} {node : Node}

theorem oldNameWarnings_eq : node.oldNameWarnings source =
    (node.oldSign? source).toList.map source.oldNameWarning ++
      node.children.flatMap (oldNameWarnings source) := by
  unfold oldNameWarnings
  rw [descendants_eq, List.filterMap_cons, List.filterMap_flatMap]
  cases node.oldSign? source <;> simp [List.map_flatMap]

theorem oldSign?_of_kind (h : node.kind ≠ .namedArgument) : node.oldSign? source = none := by
  unfold oldSign?
  simp [h]

/-- The sign comes behind the first child. -/
theorem oldSign?_of_child {child : Node} {rest : List Node} {span : Span} {tokens : List Token}
    (hkind : node.kind = .namedArgument) (hchildren : node.children = child :: rest)
    (hspan : child.span = some span) (htokens : source.tokensFrom span.stop = tokens) :
    node.oldSign? source = tokens.head?.filter (·.kind = .assign) := by
  unfold oldSign?
  rw [hkind, hchildren, List.head?_cons, ← htokens]
  simp [guard, hspan]

end Node

/-! ## The two runs -/

namespace Grammar

/-- The faults of the two sessions are the same.  The second has no warnings; the first has one for
each old name in the nodes that have been built, behind those before. -/
structure Session.Warned (source : Source) (before : List Diagnostic) (s t : Session) : Prop where
  faults : t.faults = s.faults
  silent : t.diagnostics.warnings = []
  warnings : s.diagnostics.warnings =
    before ++ s.building.children.flatMap (Node.oldNameWarnings source)

namespace Session.Warned

variable {source : Source} {before : List Diagnostic} {s t after other : Session}

/-- Of the second session only the reports count. -/
theorem congr {last : Session} (h : s.Warned source before t)
    (hdiagnostics : last.diagnostics = t.diagnostics) : s.Warned source before last := by
  refine ⟨?_, ?_, h.warnings⟩
  · rw [← h.faults, Session.faults, Session.faults, hdiagnostics]
  · rw [hdiagnostics, h.silent]

theorem reported (h : s.Warned source before t) {report : Diagnostic}
    (hseverity : report.severity ≠ .warning) :
    { s with diagnostics := s.diagnostics.push report }.Warned source before
      { t with diagnostics := t.diagnostics.push report } := by
  refine ⟨?_, (Diagnostics.warnings_push hseverity).trans h.silent,
    (Diagnostics.warnings_push hseverity).trans h.warnings⟩
  unfold Session.faults Diagnostics.push
  rw [List.filter_append, List.filter_append]
  exact congrArg (· ++ _) h.faults

theorem opened (h : s.Warned source before t) (kind : NodeKind) :
    (s.opened kind).Warned source s.diagnostics.warnings (t.opened kind) :=
  ⟨h.faults, h.silent, (List.append_nil _).symm⟩

/-- The warning of a node comes before those of its children. -/
theorem closed (h : s.Warned source before t)
    (hinner : after.Warned source (s.diagnostics.warnings ++
      (after.building.oldSign? source).toList.map source.oldNameWarning) other) :
    (s.closed after).Warned source before other := by
  refine ⟨hinner.faults, hinner.silent, ?_⟩
  change after.diagnostics.warnings = _
  rw [hinner.warnings, h.warnings, Session.closed, Node.children_append, List.flatMap_append,
    List.flatMap_singleton, Node.oldNameWarnings_eq]
  simp only [List.append_assoc]

end Session.Warned

end Grammar

/-! ## Named arguments -/

namespace Grammar.Parse

variable {setting : Setting} {session after : Session}

/-- The session behind the name and the sign of an argument. -/
def afterSign (setting : Setting) (session : Session) (diagnostics : Diagnostics) : Session :=
  ⟨session.ahead.tail.tail, diagnostics,
    (Node.empty .namedArgument).append (.ofToken .identifier (setting.head session))⟩

theorem namedArgument_run (value : Parse Unit)
    (h : (setting.head session).kind.isIdentifier = true) :
    namedArgument false value setting session =
      let inner := value setting (afterSign setting session session.diagnostics)
      (inner.1, session.closed inner.2) := by
  have hopened : (setting.head (session.opened .namedArgument)).kind.isIdentifier = true := h
  unfold namedArgument
  rw [Comparison.node_run, bind_run, identifier_eq hopened]
  rfl

theorem oldArgument_run (value : Parse Unit)
    (h : (setting.head session).kind.isIdentifier = true)
    (hlines : setting.lines = LineIndex.ofSource setting.source) :
    namedArgument true value setting session =
      let inner := value setting (afterSign setting session (session.diagnostics.push
        (setting.source.oldNameWarning (setting.second session))))
      (inner.1, session.closed inner.2) := by
  have hopened : (setting.head (session.opened .namedArgument)).kind.isIdentifier = true := h
  unfold namedArgument Source.oldNameWarning
  rw [Comparison.node_run, bind_run, identifier_eq hopened, ← hlines]
  rfl

/-- Whatever is read as its value, the sign of a named argument is the token behind its name. -/
theorem oldSign?_afterSign {diagnostics : Diagnostics} (hreads : setting.Reads session.ahead)
    (hname : session.ahead ≠ [])
    (hadvance : Advance setting (afterSign setting session diagnostics) after) :
    after.building.oldSign? setting.source =
      session.ahead.tail.head?.filter (·.kind = .assign) := by
  obtain ⟨offset, hoffset⟩ := hreads
  cases hahead : session.ahead with
  | nil => exact absurd hahead hname
  | cons name tail =>
      obtain ⟨_, _, hholds, -, htail⟩ := Source.tokensFrom_eq_cons (hoffset.symm.trans hahead)
      have hgrows :
          (Node.empty .namedArgument).Grows (afterSign setting session diagnostics).building :=
        Node.grows_append _ _
      have hkind : after.building.kind = .namedArgument := (hgrows.trans hadvance.building).kind
      obtain ⟨rest, hrest⟩ := hadvance.building.children
      unfold afterSign at hrest
      rw [Node.children_append, Setting.head_cons hahead] at hrest
      exact Node.oldSign?_of_child hkind hrest.symm (Node.span_ofToken _ hholds.start_lt_stop)
        htail.symm

end Grammar.Parse

namespace Entry

variable (entry : Entry) (options : Options) (source : Source) (level : Prop)

/-- Two runs, of which only the first allows old named arguments. -/
def legacy : Variation where
  left := entry.setting { options with legacyNamedArguments := true } source
  options := { options with legacyNamedArguments := false }
  ended := rfl
  handles_eq := rfl
  level := level
  Frame := List Diagnostic
  same before s t := s.Warned source before t
  inside _ s := s.diagnostics.warnings
  moved _ _ h := ⟨h.faults, h.silent, h.warnings⟩
  widened span h := ⟨h.faults, h.silent, by rw [Node.children_widen]; exact h.warnings⟩
  anchored token h := ⟨h.faults, h.silent, by
    rw [Node.anchor, Node.children_widen]
    exact h.warnings⟩
  reported severity message token hseverity h := h.reported hseverity
  opened kind h := h.opened kind
  closed := by
    intro before s t kind after other hkind h hadvance hinner
    have hclosed : (s.closed after).Warned source before other := by
      refine h.closed ?_
      rw [Node.oldSign?_of_kind (hadvance.building.kind ▸ hkind)]
      simpa using hinner
    exact hclosed.congr rfl

variable {entry options source level}

instance : (entry.legacy options source level).Blind :=
  ⟨Session.Warned.congr⟩

open Parse

section

variable {before : List Diagnostic} {s t : Session} {bound room room' : Nat}

/-- Behind the name and the sign, a warning is all that has been added. -/
theorem warned_afterSign {setting : Setting} {sign : Option Token} {diagnostics : Diagnostics}
    (h : s.Warned source before t)
    (hfaults : (afterSign setting s diagnostics).faults = s.faults)
    (hwarnings : diagnostics.warnings =
      s.diagnostics.warnings ++ sign.toList.map source.oldNameWarning) :
    (afterSign setting s diagnostics).Warned source
      (s.diagnostics.warnings ++ sign.toList.map source.oldNameWarning) t := by
  have hname : (Node.ofToken .identifier (setting.head s)).oldNameWarnings source = [] := by
    have hkind := Node.kind_ofToken .identifier (setting.head s)
    have hchildren : (Node.ofToken .identifier (setting.head s)).children = [] := by
      rw [Node.ofToken, Node.anchor, Node.children_widen]
      rfl
    rw [Node.oldNameWarnings_eq, hchildren, Node.oldSign?_of_kind (by rw [hkind]; decide)]
    rfl
  refine ⟨h.faults.trans hfaults.symm, h.silent, ?_⟩
  change diagnostics.warnings = _
  rw [hwarnings, afterSign, Node.children_append, List.flatMap_append, List.flatMap_singleton,
    hname]
  simp [Node.empty]

/-- A named argument ends as its value does. -/
theorem named_meets {value : Parse Unit} [Advances value] {diagnostics : Diagnostics}
    {sign : Option Token} {run : Except Interruption Unit × Session}
    (h : (entry.legacy options source level).Related before s t) (hahead : s.ahead ≠ [])
    (hsign : s.ahead.tail.head?.filter (·.kind = .assign) = sign)
    (hvalue : (entry.legacy options source level).Meets
      (s.diagnostics.warnings ++ sign.toList.map source.oldNameWarning)
      (value (entry.legacy options source level).left
        (afterSign (entry.legacy options source level).left s diagnostics)) run) :
    (entry.legacy options source level).Meets before
      (let inner := value (entry.legacy options source level).left
        (afterSign (entry.legacy options source level).left s diagnostics)
      (inner.1, s.closed inner.2)) run := by
  refine ⟨hvalue.result, hvalue.related.ahead, hvalue.related.fine, h.same.closed ?_⟩
  have hadvance := advance value (entry.legacy options source level).left
    (afterSign (entry.legacy options source level).left s diagnostics)
  have hfound := (oldSign?_afterSign h.fine.reads hahead hadvance).trans hsign
  change Node.oldSign? source _ = sign at hfound
  rw [hfound]
  exact hvalue.related.same

/-- Both sides read an argument that is named with a colon in the same way. -/
theorem colon_meets (h : (entry.legacy options source level).Related before s t)
    (hbytes : byteCount s.ahead < bound)
    (hname : ((entry.legacy options source level).left.head s).kind.isIdentifier = true)
    (hcolon : ((entry.legacy options source level).left.second s).kind = .colon)
    (hvalue : (entry.legacy options source level).Agrees bound (valueRules room).assignment
      (valueRules room').assignment) :
    (entry.legacy options source level).Meets before
      (namedArgument false (valueRules room).assignment (entry.legacy options source level).left s)
      (namedArgument false (valueRules room').assignment (entry.legacy options source level).right
        t) := by
  have hahead : s.ahead ≠ [] := by
    intro hnil
    rw [Setting.head, hnil] at hname
    cases hname
  have hsign : s.ahead.tail.head?.filter (·.kind = .assign) = none := by
    unfold Setting.second at hcolon
    cases htail : s.ahead.tail with
    | nil => rfl
    | cons colon rest =>
        rw [htail] at hcolon
        simp [show colon.kind = _ from hcolon]
  have hname' : ((entry.legacy options source level).right.head t).kind.isIdentifier = true := by
    rw [h.head, hname]
  rw [namedArgument_run _ hname, namedArgument_run _ hname']
  refine named_meets h hahead hsign ?_
  have hrelated : (entry.legacy options source level).Related
      (s.diagnostics.warnings ++ (none : Option Token).toList.map source.oldNameWarning)
      (afterSign (entry.legacy options source level).left s s.diagnostics)
      (afterSign (entry.legacy options source level).right t t.diagnostics) :=
    ⟨by rw [afterSign, afterSign, h.ahead], h.fine.tail.tail,
      (warned_afterSign h.same rfl (List.append_nil _).symm).congr rfl⟩
  have hless : byteCount s.ahead.tail.tail < bound :=
    Nat.lt_of_le_of_lt (Nat.le_trans (h.fine.tail.byteCount_le (Setting.leads_tail _ _))
      (h.fine.byteCount_le (Setting.leads_tail _ _))) hbytes
  have hmeets := hvalue.meets hrelated hless
  exact ⟨hmeets.result, hmeets.related.ahead, hmeets.related.fine,
    Variation.Blind.same hmeets.related.same rfl⟩

/-- The first side has passed the name and the sign, and warned of it. -/
theorem behindSign_old {sign : Token} (h : (entry.legacy options source level).Related before s t)
    (hassigns : (entry.legacy options source level).left.Assigns s.ahead) :
    (entry.legacy options source level).BehindSign (byteCount s.ahead.tail.tail + 1)
      (s.diagnostics.warnings ++ (some sign).toList.map source.oldNameWarning)
      (afterSign (entry.legacy options source level).left s
        (s.diagnostics.push (source.oldNameWarning sign))) t := by
  refine ⟨warned_afterSign h.same ?_ ?_, h.fine.tail.tail, Nat.lt_succ_self _, ?_, ?_⟩
  · simp [Session.faults, afterSign, Diagnostics.push, Source.oldNameWarning]
  · simp [Diagnostics.warnings, Diagnostics.ofSeverity, Diagnostics.push, Source.oldNameWarning]
  · rw [h.ahead]
    exact ⟨hassigns.name, hassigns.sign⟩
  · rw [h.ahead]
    rfl

/-- What the first side reads as an old named argument is an assignment on the second. -/
theorem old_meets (h : (entry.legacy options source False).Related before s t)
    (hbytes : byteCount s.ahead < bound)
    (hassigns : (entry.legacy options source False).left.Assigns s.ahead)
    (hrooms : (entry.legacy options source False).Rooms (bound + 1) 1 room room')
    (hlevels : ∀ less room room', less < bound →
      (entry.legacy options source False).Rooms (less + 1) 1 room room' →
      (entry.legacy options source False).LevelAgrees less (valueRules room) (valueRules room')) :
    (entry.legacy options source False).Meets before
      (namedArgument true (valueRules room).assignment (entry.legacy options source False).left s)
      ((valueRules room').assignment (entry.legacy options source False).right t) := by
  have hended : (entry.legacy options source False).left.Ended :=
    (entry.legacy options source False).ended
  have hname := hassigns.ne_nil hended
  have hfirst := h.fine.byteCount_lt (Setting.passes_tail hname)
  have hbehind := h.fine.tail.byteCount_lt (Setting.passes_tail (hassigns.tail_ne_nil hended))
  have hample := hrooms.resolve_left And.left
  obtain ⟨less, rfl⟩ : ∃ less, room = less + 1 := ⟨room - 1, by omega⟩
  obtain ⟨less', rfl⟩ : ∃ less', room' = less' + 2 := ⟨room' - 2, by omega⟩
  rw [oldArgument_run _ hassigns.isIdentifier rfl]
  refine named_meets h hname (hassigns.sign_found hended) ?_
  exact Variation.assignment_meets (behindSign_old h hassigns)
    (hlevels _ less (less' + 1) (by omega) (.inr (by omega)))
    (hlevels _ (less + 1) (less' + 1) (by omega) (.inr (by omega))).assignment

instance : (entry.legacy options source False).ArgumentsAgree := by
  constructor
  intro bound room room' hrooms hassignment hlevels
  constructor
  intro n s t h hbytes
  rw [argument_run, argument_run, h.head, h.second]
  have hon : (entry.legacy options source False).left.options.legacyNamedArguments = true := rfl
  have hoff : (entry.legacy options source False).right.options.legacyNamedArguments = false := rfl
  rw [hon, hoff]
  dsimp only
  cases hname : ((entry.legacy options source False).left.head s).kind.isIdentifier with
  | false => exact hassignment.meets h hbytes
  | true =>
      by_cases hsign : ((entry.legacy options source False).left.second s).kind = .assign
      · have hassigns : (entry.legacy options source False).left.Assigns s.ahead :=
          ⟨of_decide_eq_true hname, hsign⟩
        rw [hsign]
        exact old_meets h hbytes hassigns hrooms hlevels
      · by_cases hcolon : ((entry.legacy options source False).left.second s).kind = .colon
        · rw [hcolon]
          exact colon_meets h hbytes hname hcolon hassignment
        · simp only [hsign, hcolon, decide_false, Bool.and_false, Bool.or_false,
            Bool.false_eq_true, ↓reduceIte]
          exact hassignment.meets h hbytes

end

end Entry

/-! ## The node of an entry -/

namespace Grammar.Parse

variable {α β : Type} {rule : Parse α} {next : α → Parse β}

/-- The rule adds no more nodes than that, however it ends. -/
def AddsAtMost (count : Nat) (rule : Parse α) : Prop :=
  ∀ setting session, (rule setting session).2.building.children.length ≤
    session.building.children.length + count

theorem addsAtMost_of_same (h : ∀ setting session,
    (rule setting session).2.building.children = session.building.children) : AddsAtMost 0 rule :=
  fun setting session => by rw [h, Nat.add_zero]

theorem addsAtMost_node (kind : NodeKind) (rule : Parse α) : AddsAtMost 1 (node kind rule) := by
  intro setting session
  rw [Comparison.node_run, Session.closed, Node.children_append, List.length_append,
    List.length_singleton]

theorem AddsAtMost.bind {first second : Nat} (hrule : AddsAtMost first rule)
    (hnext : ∀ value, AddsAtMost second (next value)) :
    AddsAtMost (first + second) (rule >>= next) := by
  intro setting session
  have hfirst := hrule setting session
  rw [bind_run]
  generalize rule setting session = run at hfirst ⊢
  obtain ⟨_ | value, after⟩ := run
  · exact Nat.le_trans hfirst (by omega)
  · have hsecond := hnext value setting after
    dsimp only at hfirst ⊢
    omega

theorem addsAtMost_expectEnd : AddsAtMost 0 expectEnd := by
  refine addsAtMost_of_same fun setting session => ?_
  unfold expectEnd
  rw [peek_bind]
  split <;> rfl

theorem addsAtMost_initializer (room : Nat) : AddsAtMost 1 (initializer (valueRules room)) := by
  have hvalues : AddsAtMost 1 (valueRules room).assignment ∧
      AddsAtMost 1 (valueRules room).initList := by
    cases room with
    | zero => exact ⟨addsAtMost_node _ _, addsAtMost_node _ _⟩
    | succ room =>
        have hassignment : AddsAtMost 1 (assignmentBody (valueRules room)) := addsAtMost_node _ _
        have hlist : AddsAtMost 1 (initListBody (valueRules room)) := addsAtMost_node _ _
        exact ⟨hassignment, hlist⟩
  have hassigned : AddsAtMost 1 (assignedValue (valueRules room)) := by
    intro setting session
    unfold assignedValue
    rw [nextIs_bind]
    split
    · exact hvalues.2 setting session
    · exact hvalues.1 setting session
  have hbehind : AddsAtMost 0 (do
      let after := (← peek).kind
      unless after.isEnd || Capture.endsInitializer after do
        fail (.unexpectedKind after)) := by
    refine addsAtMost_of_same fun setting session => ?_
    rw [peek_bind]
    split <;> rfl
  intro setting session
  unfold initializer
  rw [peek_bind]
  generalize (setting.head session).kind = kind
  dsimp only
  split
  · exact (hassigned.bind fun _ => hbehind) setting { session with ahead := session.ahead.tail }
  · exact ((addsAtMost_node _ _).bind fun _ => hbehind) setting session
  · exact Nat.le_add_right _ 1

theorem addsAtMost_entry (entry : Entry) (room : Nat) : AddsAtMost 1 (entry.rule room) := by
  have hended {rule : Parse Unit} (hrule : AddsAtMost 1 rule) :
      AddsAtMost 1 (do rule; expectEnd) :=
    hrule.bind fun _ => addsAtMost_expectEnd
  cases entry with
  | script => exact addsAtMost_node _ _
  | expression => exact addsAtMost_node _ _
  | statementBlock => exact addsAtMost_node _ _
  | initializer => exact addsAtMost_initializer room
  | functionSignature => exact hended (addsAtMost_node _ _)
  | listFactorySignature => exact hended (addsAtMost_node _ _)
  | dataType => exact hended (addsAtMost_node _ _)
  | template => exact hended (addsAtMost_node _ _)
  | property => exact hended (addsAtMost_node _ _)

end Grammar.Parse

namespace Entry

open Grammar.Parse

variable (entry : Entry) (options : Options) (source : Source)

/-- The node that is built holds the warnings of all that is built. -/
theorem oldNameWarnings_root : (entry.parse options source).root.oldNameWarnings source =
    (entry.session options source).building.children.flatMap (Node.oldNameWarnings source) := by
  have hcount := addsAtMost_entry entry options.maxDepth (entry.setting options source)
    ⟨source.tokensFrom entry.start, {}, .empty .undefined⟩
  change (entry.session options source).building.children.length ≤ 0 + 1 at hcount
  change Node.oldNameWarnings source ((entry.session options source).building.children.headD _) = _
  match hchildren : (entry.session options source).building.children with
  | [] =>
      rw [List.headD_nil, Node.oldNameWarnings_eq, Node.oldSign?_of_kind (by simp [Node.empty])]
      rfl
  | [root] => rw [List.headD_cons, List.flatMap_singleton]
  | _ :: _ :: rest =>
      rw [hchildren] at hcount
      simp at hcount

theorem byteCount_ahead_le :
    byteCount (source.tokensFrom entry.start) ≤ (entry.setting options source).source.size := by
  by_cases hnil : (entry.setting options source).source.tokensFrom entry.start = []
  · rw [show source.tokensFrom entry.start = [] from hnil]
    exact Nat.zero_le _
  · exact Nat.le_of_add_right_le (Setting.Reads.byteCount_add_le hnil)

/-- Two runs that agree report as they should. -/
theorem legacy_reports {level : Prop}
    (hrule : (entry.legacy options source level).Agrees (source.size + 1)
      (entry.rule options.maxDepth) (entry.rule options.maxDepth)) :
    let old := entry.parse { options with legacyNamedArguments := true } source
    let new := entry.parse { options with legacyNamedArguments := false } source
    new.diagnostics.errors = old.diagnostics.errors ∧
      new.diagnostics.infos = old.diagnostics.infos ∧ new.diagnostics.warnings = [] ∧
      old.diagnostics.warnings = old.root.oldNameWarnings source := by
  intro old new
  have hfine : (entry.legacy options source level).Fine (source.tokensFrom entry.start) :=
    ⟨⟨entry.start, rfl⟩, fun _ _ _ _ _ => rfl⟩
  have hstart : (entry.legacy options source level).Related []
      ⟨source.tokensFrom entry.start, {}, .empty .undefined⟩
      ⟨source.tokensFrom entry.start, {}, .empty .undefined⟩ :=
    ⟨rfl, hfine, rfl, rfl, rfl⟩
  have hbytes := Nat.lt_succ_of_le (byteCount_ahead_le entry options source)
  have hend : (entry.session { options with legacyNamedArguments := true } source).Warned source []
      (entry.session { options with legacyNamedArguments := false } source) :=
    (hrule.meets hstart hbytes).related.same
  have hsame {severity : Severity} (hseverity : severity ≠ .warning) :
      new.diagnostics.ofSeverity severity = old.diagnostics.ofSeverity severity :=
    (Session.ofSeverity_eq_faults _ hseverity).trans
      ((congrArg _ hend.faults).trans (Session.ofSeverity_eq_faults _ hseverity).symm)
  refine ⟨hsame (by decide), hsame (by decide), hend.silent, ?_⟩
  rw [oldNameWarnings_root]
  exact hend.warnings

/-- With enough room, arguments may be named in the old way at the price of a warning each: whether
it is allowed makes no difference to the errors and the notes of any parse. -/
theorem parse_legacyArguments (hdepth : 4 * (source.size + 1) ≤ options.maxDepth) :
    let old := entry.parse { options with legacyNamedArguments := true } source
    let new := entry.parse { options with legacyNamedArguments := false } source
    new.diagnostics.errors = old.diagnostics.errors ∧
      new.diagnostics.infos = old.diagnostics.infos ∧ new.diagnostics.warnings = [] ∧
      old.diagnostics.warnings = old.root.oldNameWarnings source := by
  cases hentry : entry.readsValues with
  | false =>
      have hlevel : Fact (entry.legacy options source True).level := ⟨trivial⟩
      have hrule : (entry.legacy options source True).Agrees (source.size + 1)
          (entry.rule options.maxDepth) (entry.rule options.maxDepth) :=
        Variation.agrees_declaring entry hentry
      exact entry.legacy_reports options source hrule
  | true =>
      have hrooms : (entry.legacy options source False).Rooms (source.size + 1) 2 options.maxDepth
        options.maxDepth := .inr (by omega)
      exact entry.legacy_reports options source (Variation.agrees_valued hrooms entry hentry)

/-- Two arguments have names, one of them in a call that is an argument itself. -/
theorem parse_legacyArguments_call :
    let source : Source := "f(a = b, g(c = \x7b1\x7d))".toList
    let old := expression.parse { legacyNamedArguments := true } source
    let new := expression.parse { legacyNamedArguments := false } source
    new.diagnostics.errors = old.diagnostics.errors ∧
      new.diagnostics.infos = old.diagnostics.infos ∧ new.diagnostics.warnings = [] ∧
      old.diagnostics.warnings = old.root.oldNameWarnings source ∧
      old.diagnostics.warnings.map (·.column) = [5, 14] := by
  intro source old new
  have hdepth : 4 * (source.size + 1) ≤ ({} : Options).maxDepth := by decide +kernel
  have hcolumns : old.diagnostics.warnings.map (·.column) = [5, 14] := by decide +kernel
  obtain ⟨herrors, hinfos, hnone, hwarnings⟩ := parse_legacyArguments expression {} source hdepth
  exact ⟨herrors, hinfos, hnone, hwarnings, hcolumns⟩

end Entry

end ScriptSyntax
