import ScriptSyntax.Proofs.Comparison.Lockstep

/-!
# Rules in lockstep

Two runs in lockstep ask their scans alike and recover alike, so whatever a source is parsed as, what
the runs have in common is kept to the end.
-/

namespace ScriptSyntax.Grammar.Lockstep

open Correspondence

variable (L : Lockstep) {n : L.Frame} {p : Phase} {s t : Session}

theorem seesAlike {scan : Scan Unit} (hscan : L.Same scan) : L.comparison.SeesAlike scan := by
  intro n s t h
  exact isSome_congr hscan h.2.1

theorem ne_nil_of_kind {kind : TokenKind} (hhead : (L.left.head s).kind = kind)
    (hkind : kind ≠ .endOfSource) : s.ahead ≠ [] :=
  ahead_ne_nil (hhead ▸ hkind)

theorem typeAhead_congr (room : Nat) (h : L.pairs s.ahead t.ahead) :
    ((typeAhead room L.right).run t.ahead).map (fun seen => seen.2.head?.map (·.kind)) =
      ((typeAhead room L.left).run s.ahead).map (fun seen => seen.2.head?.map (·.kind)) := by
  have hseen := same_typeAhead room _ _ h
  generalize (typeAhead room L.left).run s.ahead = seen at hseen
  generalize (typeAhead room L.right).run t.ahead = seen' at hseen
  cases hseen with
  | none => rfl
  | @some seen seen' hpairs =>
      obtain ⟨value, behind⟩ := seen
      obtain ⟨value', behind'⟩ := seen'
      cases split hpairs.2 with
      | nil => rfl
      | cons halike => exact congrArg (fun kind => some (some kind)) halike.kind

instance readsTypes : L.comparison.ReadsTypes where
  passes := by
    rintro kind h rfl
    cases h
  sees_scope room := L.seesAlike (same_scopeAhead room)
  sees_templateScope room := L.seesAlike (same_templateScopeAhead room)
  scopeMark := by
    intro n s t named listed room h hsees hname hlist
    have horderly := (L.reads h.2.1).1.orderly
    have hmark := Parse.templateScope_mark L.ended horderly hsees hname hlist
    change (L.left.head listed).kind ≠ .endOfSource
    rw [hmark]
    rintro ⟨⟩

theorem namespaceOpening_kind {tokens rest : List Token} {brace : Token}
    (h : namespaceOpening tokens = brace :: rest) : brace.kind = .openBrace := by
  unfold namespaceOpening at h
  split at h
  · split at h
    · rename_i hbrace
      rw [Bool.and_eq_true, decide_eq_true_iff] at hbrace
      obtain ⟨rfl, -⟩ := List.cons.inj h
      exact hbrace.2
    · cases h
  · cases h

/-- A brace behind the path of a namespace may be covered once it is passed. -/
theorem reach_opening {s₀ t₀ : Session} {brace other : Token} {rest others : List Token}
    (h₀ : L.Related .settled n s₀ t₀) (hopening : namespaceOpening s₀.ahead = brace :: rest)
    (hopening' : namespaceOpening t₀.ahead = other :: others) (h : L.Related p n s t)
    (hleads : L.left.Passes (brace :: rest) s.ahead ∨ p = .covered ∧ brace :: rest = s.ahead) :
    L.Related p n { s with building := s.building.widen brace.span }
      { t with building := t.building.widen other.span } := by
  have hpairs := namespaceOpening_pairs h₀.1
  rw [hopening, hopening'] at hpairs
  have hsuffix := namespaceOpening_suffix s₀.ahead
  rw [hopening] at hsuffix
  have hkind := namespaceOpening_kind hopening
  refine ⟨h.1, L.reach h₀.2 h₀.1 hsuffix hpairs h.1 h.2 ?_⟩
  exact hleads.imp_left (Setting.leads_of_passes hkind)

/-- The comparison of two runs in lockstep, for declarations. -/
def script : ScriptComparison where
  toComparison := L.comparison
  done n s t := L.comparison.agree n s t
  types := L.readsTypes
  inner _ _ h := h
  done_of_agree := id
  agree_of_done h _ := h
  there h hne := head_ne_end h.2.1 hne
  empty_iff h := L.nil_iff h.2.1
  finish imprint h hhead := .inr ⟨h.1, h.2.pass imprint (ahead_ne_nil hhead)⟩
  done_closed := L.comparison.closed (by simp)
  rewind := by
    intro n s t tokens others construct _ hplaces hheads h hblamed
    have hrewound := L.rewind construct hplaces.1 hheads hplaces.2 h.2.1 h.2.2 hblamed
    exact hrewound.imp_right fun hholds =>
      .inr ⟨rfl, hplaces.2, hholds.imp_right .inr⟩
  sees_property room := L.seesAlike (same_propertyAhead room)
  sees_member room h := .inr ⟨isSome_congr (same_methodAhead room) h.2.1,
    isSome_congr (same_variableAhead room) h.2.1⟩
  sees_global room h := .inr (isSome_congr (same_variableAhead room) h.2.1)
  opening := by
    rintro n s t ⟨-, hpairs, hholds⟩
    have hreads := (L.reads hpairs).1
    have hopening := namespaceOpening_pairs hpairs
    have hsuffix := namespaceOpening_suffix s.ahead
    refine ⟨⟨L.within_suffix hreads (L.within_ahead hholds) hsuffix, hopening⟩, ?_, L.nil_iff hopening⟩
    exact fun span hspan => L.begins_suffix hreads (L.begins_ahead hholds hspan) hsuffix
  back h₀ hopening hopening' hpasses h :=
    ⟨h.1, L.reach_opening h₀.2 hopening hopening' h.2 (.inl hpasses)⟩
  backBroken := by
    rintro n s t s₀ t₀ brace rest brace' rest' ⟨-, h₀⟩ hopening hopening' hleads h
    have habandoned : L.Abandoned n.1 s t := h.elim Broken.abandon And.right
    have hpairs := namespaceOpening_pairs h₀.1
    have hsuffix := namespaceOpening_suffix s₀.ahead
    have hkind := namespaceOpening_kind hopening
    rw [hopening, hopening'] at hpairs
    rw [hopening] at hsuffix
    refine .inr ⟨rfl, habandoned.1, ?_⟩
    rcases habandoned.2 with hcovered | hastray | hrewound
    · have hrelated : L.Related .covered n.1 s t := ⟨habandoned.1, hcovered⟩
      left
      rcases Relation.ReflTransGen.cases_head hleads with hsame | ⟨next, hstep, hrest⟩
      · exact (L.reach_opening h₀ hopening hopening' hrelated (.inr ⟨rfl, hsame⟩)).2
      · exact (L.reach_opening h₀ hopening hopening' hrelated (.inl (.head' hstep hrest))).2
    · exact .inr (.inl
        (L.astray_reach h₀.2 h₀.1 hsuffix hkind hpairs habandoned.1 hastray hleads))
    · exact .inr (.inr
        (L.rewound_reach h₀.2 h₀.1 hsuffix hkind hpairs habandoned.1 hrewound hleads))

/-- An error in a node that is gone on with. -/
theorem broken_of_related {n : L.Frame × Bool} {s₀ t₀ : Session}
    (h₀ : L.comparison.relate p n s₀ t₀) (h : L.comparison.broken n s t) : L.Broken n.1 s t := by
  rcases h with hbroken | ⟨habandoned, -⟩
  · exact hbroken
  · rw [h₀.1] at habandoned
    cases habandoned

instance [L.Resumes] : L.script.Resumes where
  resumed := by
    intro p n s t s₀ t₀ inBraces _ h₀ h
    have hresumed := (L.broken_of_related h₀ h).resume inBraces
    exact hresumed.imp (⟨h₀.1, ·⟩) fun hcovered => ⟨⟨h₀.1, hcovered.1⟩, hcovered.2⟩

instance readsExpressions : L.comparison.ReadsExpressions where
  toReadsTypes := L.readsTypes
  plain := by
    rintro kind h rfl
    cases h
  enter := by
    intro n s t imprint h hhead
    exact .inr ⟨h.1, h.2.pass imprint (L.ne_nil_of_kind hhead (by rintro ⟨⟩))⟩
  leave := by
    intro p n s t imprint h hhead
    exact .inr ⟨h.1, h.2.pass imprint (L.ne_nil_of_kind hhead (by rintro ⟨⟩))⟩
  second h := L.head (L.tails h.2.1)
  weaken _ h := h
  slot h hhead := ⟨h.1, h.2.1, L.slot h.2.1 h.2.2 hhead⟩
  warn h := ⟨h.1, h.2.1, L.report .warning _ _ (by simp) rfl h.2.1 h.2.2⟩
  sees_typedList room := L.seesAlike (same_typedListAhead room)
  sees_lambda := L.seesAlike same_lambdaAhead
  sees_construction := L.seesAlike same_constructionAhead
  sees_call := L.seesAlike same_callAhead
  behindType room h := L.typeAhead_congr room h.2.1
  typedListMark := by
    intro n s t after room h hsees htype
    have horderly := (L.reads h.2.1).1.orderly
    have hmark := Parse.typedList_mark L.ended horderly hsees htype
    change (L.left.head after).kind ≠ .endOfSource
    rw [hmark]
    rintro ⟨⟩
  capturedBlock := ⟨fun h => ScriptComparison.capturedBlock_ends (S := L.script) h⟩

theorem broken_pairs {n : L.Frame × Bool} (h : L.comparison.broken n s t) :
    L.pairs s.ahead t.ahead :=
  h.elim And.left fun habandoned => habandoned.2.1

instance readsStatements [L.Resumes] : L.script.ReadsStatements where
  toReadsExpressions := L.readsExpressions
  semicolon := by rintro ⟨⟩
  sees_variable room := L.seesAlike (same_variableAhead room)
  stop _ h := L.nil_iff (nextStop_pairs true (L.broken_pairs h))
  resume := by
    intro p n s t s₀ t₀ _ h₀ hbroken hstop
    have h := L.broken_of_related h₀ hbroken
    have hpairs := resume_pairs true h.1
    rcases h.2 with hcovered | hastray
    case inr => exact .inl ⟨h₀.1, hpairs, Resumes.astray_resume true h.1 hastray⟩
    rcases resume_cases true s.ahead with ⟨hne, hsuffix⟩ | ⟨hsame, hnil | hclose⟩
    · exact .inl ⟨h₀.1, hpairs, L.behind h.1 hcovered hne hsuffix hpairs⟩
    · rw [hnil] at hstop
      exact absurd rfl hstop
    · obtain ⟨-, token, rest, hahead, hkind⟩ := hclose
      refine .inr ⟨⟨h₀.1, hpairs, L.onward h.1 hcovered (resume_suffix true _) hpairs⟩, ?_⟩
      change ((resume true s.ahead).headD L.left.finish).kind = .closeBrace
      rw [hsame, hahead]
      exact hkind
  exhausted := by
    intro p n s t s₀ t₀ tokens others _ hplaces hheads h₀ hbroken hnone
    have h := L.broken_of_related h₀ hbroken
    have hbehind : L.comparison.relate .covered n (s.at []) (t.at []) := by
      refine ⟨h₀.1, L.nil, ?_⟩
      rcases h.2 with hcovered | hastray
      · exact L.onward h.1 hcovered List.nil_suffix L.nil
      · have hnone' := (L.nil_iff (nextStop_pairs true h.1)).mpr hnone
        have hresumed := L.loosest (Resumes.astray_resume true h.1 hastray)
        rwa [resume_eq_nil hnone, resume_eq_nil hnone'] at hresumed
    exact ScriptComparison.failAtEnd_ends (S := L.script) .statementBlock hplaces hheads hbehind
      L.ended

/-- The two runs end in lockstep, unless the left one is lost. -/
theorem related_of_ends {rule : Parse Unit}
    (h : L.comparison.Ends (n, false) (fun _ _ => L.comparison.relate .covered (n, false))
      (rule L.left s) (rule L.right t)) :
    L.lost (rule L.left s).2 ∨ L.Broken n (rule L.left s).2 (rule L.right t).2 := by
  generalize rule L.left s = result at h
  generalize rule L.right t = other at h
  cases h with
  | lost hlost => exact .inl hlost
  | ok hrelated => exact .inr ⟨hrelated.2.1, .inl hrelated.2.2⟩
  | error hlenient hbroken => exact .inr (hbroken.resolve_right (by simp))

/-- Runs that end with their first error. -/
theorem entry_halted {entry : Entry} (hentry : entry.recovers = false) (room : Nat)
    (h : L.Related .settled n s t) :
    L.lost (entry.rule room L.left s).2 ∨
      L.Broken n (entry.rule room L.left s).2 (entry.rule room L.right t).2 := by
  have hreads : L.script.ReadsExpressions := L.readsExpressions
  exact L.related_of_ends
    (ScriptComparison.entry_halts (S := L.script) trivial hentry room ⟨rfl, h⟩)

/-- Whatever a source is parsed as. -/
theorem entry_related [L.Resumes] (entry : Entry) (room : Nat) (h : L.Related .settled n s t) :
    L.lost (entry.rule room L.left s).2 ∨
      L.Broken n (entry.rule room L.left s).2 (entry.rule room L.right t).2 :=
  L.related_of_ends (ScriptComparison.entry_ends (S := L.script) trivial entry room ⟨rfl, h⟩)

end ScriptSyntax.Grammar.Lockstep
