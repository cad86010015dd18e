import ScriptSyntax.Proofs.Variation.Entry

/-!
# Parses that are the same

Where an option makes no difference, the two runs build the same nodes and report the same.
-/

namespace ScriptSyntax.Entry

open Grammar

variable (entry : Entry) (options other : Options) (source : Source)
  (hhandles : other.implicitHandles = options.implicitHandles) (holds : Diagnostics → Prop)
  (hpush : ∀ all report, report.severity ≠ .warning → holds all → holds (all.push report))

/-- Two runs with the same nodes and the same reports, of which something holds that warnings alone
could break. -/
def twins : Variation where
  left := entry.setting options source
  options := other
  ended := rfl
  handles_eq := hhandles
  level := True
  Frame := Unit
  same _ s t := t.building = s.building ∧ t.diagnostics = s.diagnostics ∧ holds s.diagnostics
  inside _ _ := ()
  moved _ _ h := h
  widened span h := ⟨congrArg (·.widen span) h.1, h.2⟩
  anchored token h := ⟨congrArg (·.anchor token) h.1, h.2⟩
  reported severity message token hseverity h := by
    refine ⟨h.1, ?_, hpush _ _ hseverity h.2.2⟩
    unfold Parse.reported
    rw [h.2.1]
  opened kind h := ⟨rfl, h.2⟩
  closed _ h _ hinner := ⟨congrArg₂ Node.append h.1 hinner.1, hinner.2⟩

instance : Fact (entry.twins options other source hhandles holds hpush).level :=
  ⟨trivial⟩

/-- Rules that do the same lead to the same outcome. -/
theorem parse_twins (hfirst : holds {}) (hdepth : other.maxDepth = options.maxDepth)
    (hnames : ∀ name rest, name :: rest <:+ source.tokensFrom entry.start →
      name.kind.isIdentifier = true → opensList rest = true →
      other.isTemplateType name.text = options.isTemplateType name.text)
    (hrule : ∀ bound, (entry.twins options other source hhandles holds hpush).Agrees bound
      (entry.rule options.maxDepth) (entry.rule options.maxDepth)) :
    entry.parse other source = entry.parse options source ∧
      holds (entry.parse options source).diagnostics := by
  let V := entry.twins options other source hhandles holds hpush
  have hfine : V.Fine (source.tokensFrom entry.start) := by
    refine ⟨⟨entry.start, rfl⟩, ?_⟩
    intro name rest hsuffix hname hopens
    exact congrArg (name.kind.isIdentifier && ·) (hnames name rest hsuffix hname hopens)
  have hstart : V.Related () ⟨source.tokensFrom entry.start, {}, .empty .undefined⟩
      ⟨source.tokensFrom entry.start, {}, .empty .undefined⟩ :=
    ⟨rfl, hfine, rfl, rfl, hfirst⟩
  have hend := ((hrule _).meets hstart (Nat.lt_succ_self _)).related.same
  unfold parse session
  rw [hdepth]
  exact ⟨congrArg₂ (fun building diagnostics =>
    (⟨building.children.headD (.empty .undefined), diagnostics⟩ : Outcome)) hend.1 hend.2.1,
    hend.2.2⟩

end ScriptSyntax.Entry
