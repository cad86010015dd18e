import ScriptSyntax.Proofs.Comparison.LockstepRules

/-!
# One run on its own

A run is in lockstep with itself.  So what holds of every session of a run, through errors and
recoveries, needs to be shown for the few things only that happen to a session.
-/

namespace ScriptSyntax.Grammar

/-- Tokens stand for themselves. -/
def Correspondence.self (setting : Setting) (hended : setting.Ended) : Correspondence where
  left := setting
  right := setting
  pairs tokens others := others = tokens ∧ setting.Reads tokens
  options_eq := rfl
  application_eq := rfl
  ended := hended
  finish := .refl _
  reads := by
    rintro tokens _ ⟨rfl, hreads⟩
    exact ⟨hreads, hreads⟩
  nil := ⟨rfl, setting.source.size, (Source.tokensFrom_of_size_le (Nat.le_refl _)).symm⟩
  nil_iff := by
    rintro tokens _ ⟨rfl, -⟩
    exact Iff.rfl
  heads := by
    rintro token other tokens others ⟨heq, -⟩
    obtain ⟨rfl, rfl⟩ := List.cons.inj heq
    exact .refl _
  tails := by
    rintro tokens _ ⟨rfl, hreads⟩
    exact ⟨rfl, hreads.tail⟩
  greater := by
    rintro tokens _ ⟨rfl, hreads⟩
    generalize hgreater : setting.afterGreater? _ = behind
    cases behind with
    | none => exact .none
    | some behind => exact .some ⟨rfl, hreads.step (.inr hgreater)⟩
  bytes := by
    rintro tokens _ ⟨rfl, -⟩
    rfl

/-- What holds of a session throughout a run. -/
structure Solo where
  setting : Setting
  ended : setting.Ended
  /-- Where a session is: the node that is being built. -/
  Frame : Type
  holds : Phase → Frame → Session → Prop
  /-- What holds where the run has just gone back to the start of a construct. -/
  rewound : Frame → Session → Prop
  /-- What holds once the node with the construct is closed. -/
  astray : Frame → Session → Prop
  inside : Frame → Session → Frame
  /-- Tokens to which a rule may go back in the frame. -/
  within : Frame → List Token → Prop
  /-- A node with the span begins where the tokens start, or before. -/
  begins : Span → List Token → Prop
  within_ahead : ∀ {p n s}, holds p n s → within n s.ahead
  within_suffix : ∀ {n tokens next}, setting.Reads tokens → within n tokens → next <:+ tokens →
    within n next
  begins_ahead : ∀ {p n s span}, holds p n s → s.building.span = some span → begins span s.ahead
  begins_suffix : ∀ {span tokens next}, setting.Reads tokens → begins span tokens →
    next <:+ tokens → begins span next
  begins_wider : ∀ {span wider tokens}, begins span tokens → wider.start ≤ span.start →
    begins wider tokens
  lost : Session → Prop
  lost_reported : ∀ {session after : Session},
    session.diagnostics.reported <+: after.diagnostics.reported → lost session → lost after
  loosen : ∀ {p n s}, holds .settled n s → holds p n s
  loosest : ∀ {p n s}, holds p n s → holds .covered n s
  note : ∀ {p n s} (imprint : Imprint), setting.Reads s.ahead → holds p n s →
    s.ahead ≠ [] ∨ s.building.span.isSome → holds p.noting n (setting.noted imprint s)
  label : ∀ {n s}, setting.Reads s.ahead → holds .settled n s →
    holds .settled n (setting.labelled s)
  slot : ∀ {n s}, setting.Reads s.ahead → holds .settled n s →
    (setting.head s).kind = .comma ∨ (setting.head s).kind = .closeBrace →
    holds .covered n (Comparison.slotted setting s)
  shorten : ∀ {n s tokens}, setting.Reads s.ahead → holds .settled n s →
    setting.afterGreater? s.ahead = some tokens → holds .settled n (setting.shortened tokens s)
  behind : ∀ {n s tokens}, setting.Reads s.ahead → holds .covered n s → s.ahead ≠ [] →
    tokens <:+ s.ahead.tail → holds .settled n (s.at tokens)
  onward : ∀ {n s tokens}, setting.Reads s.ahead → holds .covered n s → tokens <:+ s.ahead →
    holds .covered n (s.at tokens)
  opened : ∀ {p n s} (kind : NodeKind), setting.Reads s.ahead → holds p n s →
    holds .settled (inside n s) (s.opened kind)
  closed : ∀ {p q n s kind after}, p ≠ .covered → setting.Reads s.ahead → holds p n s →
    Advance setting (s.opened kind) after → holds q (inside n s) after →
    holds (p.closing q) n (s.closed after)
  rewound_closed : ∀ {p n s kind after}, p ≠ .covered → setting.Reads s.ahead → holds p n s →
    Advance setting (s.opened kind) after → rewound (inside n s) after → astray n (s.closed after)
  astray_closed : ∀ {p n s kind after}, p ≠ .covered → setting.Reads s.ahead → holds p n s →
    Advance setting (s.opened kind) after → astray (inside n s) after → astray n (s.closed after)
  report : ∀ {p n s} (severity : Severity) (message : Message), severity ≠ .info →
    setting.Reads s.ahead → holds p n s → holds p n (setting.reports severity message s)
  rewind : ∀ {n s tokens} (construct : Construct), within n tokens →
    (∀ span, s.building.span = some span → begins span tokens) → setting.Reads tokens →
    setting.Reads s.ahead → holds .covered n s → setting.Blamed s →
    lost (setting.reports .info (.whileParsing construct) (s.at tokens)) ∨
      holds .covered n (setting.reports .info (.whileParsing construct) (s.at tokens)) ∨
      rewound n (setting.reports .info (.whileParsing construct) (s.at tokens))
  reach : ∀ {p n s s₀ token tokens}, setting.Reads s₀.ahead → holds .settled n s₀ →
    token :: tokens <:+ s₀.ahead → setting.Reads s.ahead → holds p n s →
    setting.Leads tokens s.ahead ∨ p = .covered ∧ token :: tokens = s.ahead →
    holds p n { s with building := s.building.widen token.span }
  rewound_reach : ∀ {n s s₀ token tokens}, setting.Reads s₀.ahead → holds .settled n s₀ →
    token :: tokens <:+ s₀.ahead → token.kind = .openBrace → setting.Reads s.ahead → rewound n s →
    setting.Leads (token :: tokens) s.ahead →
    rewound n { s with building := s.building.widen token.span }
  astray_reach : ∀ {n s s₀ token tokens}, setting.Reads s₀.ahead → holds .settled n s₀ →
    token :: tokens <:+ s₀.ahead → token.kind = .openBrace → setting.Reads s.ahead → astray n s →
    setting.Leads (token :: tokens) s.ahead →
    astray n { s with building := s.building.widen token.span }

namespace Solo

/-- Behind an error the run goes on, and what holds of it is restored. -/
class Resumes (I : Solo) : Prop where
  astray_resume : ∀ {n s} (inBraces : Bool), I.setting.Reads s.ahead → I.astray n s →
    I.holds .settled n (s.at (resume inBraces s.ahead))

variable (I : Solo)

/-- The run beside itself. -/
def lockstep : Lockstep where
  toCorrespondence := .self I.setting I.ended
  Frame := I.Frame
  holds p n s t := t = s ∧ I.holds p n s
  rewound n s t := t = s ∧ I.rewound n s
  astray n s t := t = s ∧ I.astray n s
  inside := I.inside
  within := I.within
  begins := I.begins
  within_ahead h := I.within_ahead h.2
  within_suffix := I.within_suffix
  begins_ahead h := I.begins_ahead h.2
  begins_suffix := I.begins_suffix
  begins_wider := I.begins_wider
  lost := I.lost
  lost_reported := I.lost_reported
  loosen h := ⟨h.1, I.loosen h.2⟩
  loosest h := ⟨h.1, I.loosest h.2⟩
  note := by
    rintro p n s _ imprint ⟨-, hreads⟩ ⟨rfl, h⟩ hthere
    exact ⟨rfl, I.note imprint hreads h hthere⟩
  label := by
    rintro n s _ ⟨-, hreads⟩ ⟨rfl, h⟩
    exact ⟨rfl, I.label hreads h⟩
  slot := by
    rintro n s _ ⟨-, hreads⟩ ⟨rfl, h⟩ hkind
    exact ⟨rfl, I.slot hreads h hkind⟩
  shorten := by
    rintro n s _ tokens _ ⟨-, hreads⟩ ⟨rfl, h⟩ hgreater ⟨rfl, -⟩
    exact ⟨rfl, I.shorten hreads h hgreater⟩
  behind := by
    rintro n s _ tokens _ ⟨-, hreads⟩ ⟨rfl, h⟩ hne hsuffix ⟨rfl, -⟩
    exact ⟨rfl, I.behind hreads h hne hsuffix⟩
  onward := by
    rintro n s _ tokens _ ⟨-, hreads⟩ ⟨rfl, h⟩ hsuffix ⟨rfl, -⟩
    exact ⟨rfl, I.onward hreads h hsuffix⟩
  opened := by
    rintro p n s _ kind ⟨-, hreads⟩ ⟨rfl, h⟩
    exact ⟨rfl, I.opened kind hreads h⟩
  closed := by
    rintro p q n s _ kind after _ hphase ⟨-, hreads⟩ ⟨rfl, h⟩ hadvance ⟨rfl, hafter⟩
    exact ⟨rfl, I.closed hphase hreads h hadvance hafter⟩
  rewound_closed := by
    rintro p n s _ kind after _ hphase ⟨-, hreads⟩ ⟨rfl, h⟩ hadvance - ⟨rfl, hafter⟩
    exact ⟨rfl, I.rewound_closed hphase hreads h hadvance hafter⟩
  astray_closed := by
    rintro p n s _ kind after _ hphase ⟨-, hreads⟩ ⟨rfl, h⟩ hadvance - ⟨rfl, hafter⟩
    exact ⟨rfl, I.astray_closed hphase hreads h hadvance hafter⟩
  report := by
    rintro p n s _ severity message message' hseverity htext ⟨-, hreads⟩ ⟨rfl, h⟩
    refine ⟨?_, I.report severity message hseverity hreads h⟩
    unfold Setting.reports Parse.reported
    rw [htext]
    rfl
  rewind := by
    rintro n s _ tokens _ construct hwithin hbegins ⟨rfl, htokens⟩ ⟨-, hreads⟩ ⟨rfl, h⟩ hblamed
    exact (I.rewind construct hwithin hbegins htokens hreads h hblamed).imp_right fun hafter =>
      hafter.imp (⟨rfl, ·⟩) (⟨rfl, ·⟩)
  reach := by
    rintro p n s _ s₀ _ token tokens other others ⟨rfl, h₀⟩ ⟨-, hreads₀⟩ hsuffix ⟨heq, -⟩
      ⟨-, hreads⟩ ⟨rfl, h⟩ hleads
    obtain ⟨rfl, rfl⟩ := List.cons.inj heq
    exact ⟨rfl, I.reach hreads₀ h₀ hsuffix hreads h hleads⟩
  rewound_reach := by
    rintro n s _ s₀ _ token tokens other others ⟨rfl, h₀⟩ ⟨-, hreads₀⟩ hsuffix hkind ⟨heq, -⟩
      ⟨-, hreads⟩ ⟨rfl, h⟩ hleads
    obtain ⟨rfl, rfl⟩ := List.cons.inj heq
    exact ⟨rfl, I.rewound_reach hreads₀ h₀ hsuffix hkind hreads h hleads⟩
  astray_reach := by
    rintro n s _ s₀ _ token tokens other others ⟨rfl, h₀⟩ ⟨-, hreads₀⟩ hsuffix hkind ⟨heq, -⟩
      ⟨-, hreads⟩ ⟨rfl, h⟩ hleads
    obtain ⟨rfl, rfl⟩ := List.cons.inj heq
    exact ⟨rfl, I.astray_reach hreads₀ h₀ hsuffix hkind hreads h hleads⟩

instance [I.Resumes] : I.lockstep.Resumes where
  astray_resume := by
    rintro n s _ inBraces ⟨-, hreads⟩ ⟨rfl, h⟩
    exact ⟨rfl, Resumes.astray_resume inBraces hreads h⟩

/-- What holds at the start of an entry that ends with its first error holds at its end, unless the
run is lost. -/
theorem entry_halted {entry : Entry} (hentry : entry.recovers = false) (room : Nat) {n : I.Frame}
    {s : Session} (hreads : I.setting.Reads s.ahead) (h : I.holds .settled n s) :
    I.lost (entry.rule room I.setting s).2 ∨ I.holds .covered n (entry.rule room I.setting s).2 ∨
      I.astray n (entry.rule room I.setting s).2 := by
  have hrelated : I.lockstep.Related .settled n s s := ⟨⟨rfl, hreads⟩, rfl, h⟩
  refine (I.lockstep.entry_halted hentry room hrelated).imp_right fun hafter => ?_
  exact hafter.2.imp And.right And.right

/-- What holds at the start of an entry holds at its end, unless the run is lost. -/
theorem entry_holds [I.Resumes] (entry : Entry) (room : Nat) {n : I.Frame} {s : Session}
    (hreads : I.setting.Reads s.ahead) (h : I.holds .settled n s) :
    I.lost (entry.rule room I.setting s).2 ∨ I.holds .covered n (entry.rule room I.setting s).2 ∨
      I.astray n (entry.rule room I.setting s).2 := by
  have hrelated : I.lockstep.Related .settled n s s := ⟨⟨rfl, hreads⟩, rfl, h⟩
  refine (I.lockstep.entry_related entry room hrelated).imp_right fun hafter => ?_
  exact hafter.2.imp And.right And.right

/-- Where a signature comes to its end, its node does not reach beyond what was read. -/
theorem signature_holds {entry : Entry} (hentry : entry.isSignature = true) (room : Nat)
    {n : I.Frame} {s after : Session} {value : Unit} (hreads : I.setting.Reads s.ahead)
    (h : I.holds .settled n s) (hrun : entry.rule room I.setting s = (.ok value, after)) :
    I.lost after ∨ I.holds .settled n after := by
  have hrelated : I.lockstep.Related .settled n s s := ⟨⟨rfl, hreads⟩, rfl, h⟩
  have hends := (ScriptComparison.entry_keeps (S := I.lockstep.script) trivial hentry room).ends
    (show I.lockstep.comparison.agree (n, false) s s from ⟨rfl, hrelated⟩)
  change I.lockstep.comparison.Ends (n, false) (fun _ _ => I.lockstep.comparison.agree (n, false))
    (entry.rule room I.setting s) (entry.rule room I.setting s) at hends
  rw [hrun] at hends
  cases hends with
  | lost hlost => exact .inl hlost
  | ok hsettled => exact .inr hsettled.2.2.2

end Solo

end ScriptSyntax.Grammar
