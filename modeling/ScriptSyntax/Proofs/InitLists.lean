import ScriptSyntax.Proofs.ListSlots
import ScriptSyntax.Proofs.ValueEnds

/-!
# Initialization lists

Each round of a list that is read without an error fills one slot of it: what is passed in the round
is the child of the slot and the mark behind it.  By induction on the rounds, the list has a child
for each slot, and its node reaches from brace to brace.
-/

namespace ScriptSyntax

namespace Node

theorem Covers.of_append_empty {child : Node} {kind : NodeKind} {span : Span}
    (h : ((empty kind).append child).Covers span) : child.Covers span := by
  obtain ⟨wide, hwide, hstart, hstop⟩ := h
  rw [span_append] at hwide
  cases hspan : child.span with
  | none =>
      rw [hspan] at hwide
      cases hwide
  | some old =>
      rw [hspan, Option.elim_some, widen] at hwide
      split at hwide
      · cases hwide
      · cases hwide
        exact ⟨old, hspan, hstart, hstop⟩

variable {node : Node} {children : List Node} {low high : Nat}

theorem children_append_all (node : Node) (children : List Node) :
    (children.foldl append node).children = node.children ++ children := by
  induction children generalizing node with
  | nil => rw [List.foldl_nil, List.append_nil]
  | cons child rest ih => rw [List.foldl_cons, ih, children_append, List.append_assoc]; rfl

/-- Children that do not start before the node leave its start as it is. -/
theorem span_append_all (hnode : ∃ stop, node.span = some ⟨low, stop⟩ ∧ stop ≤ high)
    (hchildren : ∀ child ∈ children, ∀ span, child.span = some span →
      low ≤ span.start ∧ span.stop ≤ high) :
    ∃ stop, (children.foldl append node).span = some ⟨low, stop⟩ ∧ stop ≤ high := by
  induction children generalizing node with
  | nil => exact hnode
  | cons child rest ih =>
      obtain ⟨hchild, hrest⟩ := List.forall_mem_cons.mp hchildren
      refine ih ?_ hrest
      rw [span_append]
      cases hspan : child.span with
      | none => exact hnode
      | some span =>
          obtain ⟨hlow, hhigh⟩ := hchild span hspan
          obtain ⟨stop, hsame, hstop⟩ := hnode
          rw [Option.elim_some, widen]
          split
          · exact ⟨stop, hsame, hstop⟩
          · refine ⟨max stop span.stop, ?_, by omega⟩
            rw [hsame, Option.elim_some, Span.hull, Nat.min_eq_left hlow]

theorem span_widen_to {span : Span}
    (hnode : ∃ stop, node.span = some ⟨low, stop⟩ ∧ stop ≤ span.stop) (hlow : low ≤ span.start)
    (hspan : span.start < span.stop) : (node.widen span).span = some ⟨low, span.stop⟩ := by
  obtain ⟨stop, hsame, hstop⟩ := hnode
  rw [span_widen hspan, hsame, Option.elim_some, Span.hull, Nat.min_eq_left hlow,
    Nat.max_eq_right hstop]

end Node

/-- The node of a list reaches from brace to brace. -/
theorem Slots.span_eq {setting : Grammar.Setting} {slots : List Slot} {opening closing : Token}
    {behind : List Token} {node : Node} (h : Slots slots closing)
    (hreads : setting.Reads (opening :: (slots.flatMap Slot.tokens ++ behind)))
    (hnode : node.span = some opening.span) :
    (((slots.map (·.child)).foldl Node.append node).widen closing.span).span =
      some ⟨opening.span.start, closing.span.stop⟩ := by
  have hmem : closing ∈ slots.flatMap Slot.tokens ++ behind := List.mem_append_left _ h.closing_mem
  have hle := hreads.stop_le_of_mem hmem
  have hopening := hreads.start_lt_stop
  have hclosing := hreads.tail.lt_of_mem hmem
  have hhigh : opening.span.stop ≤ closing.span.stop := by omega
  refine Node.span_widen_to (Node.span_append_all ⟨_, hnode, hhigh⟩ ?_) (by omega) hclosing
  intro child hchild span hspan
  obtain ⟨slot, hslot, rfl⟩ := List.mem_map.mp hchild
  obtain ⟨_, hsame, hbetween⟩ := h.between hreads slot hslot
  obtain rfl := Option.some.inj (hspan.symm.trans hsame)
  exact hbetween

namespace Grammar

namespace Parse

/-- The rule builds a node of the kind, and nothing else. -/
def BuildsNode (kind : NodeKind) (rule : Parse Unit) : Prop :=
  ∃ body, Advances body ∧ rule = node kind body

theorem assignment_buildsNode (room : Nat) : BuildsNode .assignment (valueRules room).assignment := by
  cases room with
  | zero => exact ⟨fail .maximumNestingDepth, inferInstance, rfl⟩
  | succ room =>
      refine ⟨_, ?_, show assignmentBody (valueRules room) = node .assignment _ from rfl⟩
      infer_instance

theorem initList_buildsNode (room : Nat) : BuildsNode .initList (valueRules room).initList := by
  cases room with
  | zero => exact ⟨fail .maximumNestingDepth, inferInstance, rfl⟩
  | succ room =>
      refine ⟨_, ?_, show initListBody (valueRules room) = node .initList _ from rfl⟩
      infer_instance

/-- What stands in the node of a list. -/
def braced (rules : ValueRules) : Parse Unit := do
  coverRequired .openBrace
  unless ← nextIs .closeBrace do
    commaSeparated (listElement rules)
  if ← nextIs .closeBrace then cover else failExpected (.expectedEitherKind .closeBrace .comma)

theorem initListBody_eq (rules : ValueRules) : initListBody rules = node .initList (braced rules) :=
  rfl

section Slots

variable {setting : Setting} {session after : Session} {room : Nat} {mark : Token}
  {rest : List Token} (hended : setting.Ended) (hwhole : setting.Whole)
  (hfinish : setting.finish.span.start = setting.finish.span.stop)
  (hreads : setting.Reads session.ahead)

include hended hwhole hfinish hreads

/-- An element that comes to its end lies between the first token that is passed and the next
one. -/
theorem element_between {kind : NodeKind} {body : Parse Unit}
    (hkeeps :
      (Solo.tidy setting hended hwhole hfinish False).lockstep.comparison.Keeps (node kind body))
    {inner : Session} (hinner : body setting (session.opened kind) = (.ok (), inner)) {span : Span}
    (hspan : inner.building.span = some span) :
    (setting.head session).span.start ≤ span.start ∧
      span.stop ≤ (setting.head inner).span.start := by
  let I := Solo.tidy setting hended hwhole hfinish False
  let fresh : Session := { session with building := .empty .undefined }
  have hrun : node kind body setting fresh = (.ok (), fresh.closed inner) := node_of_ok hinner
  have htidy : Tidy setting False .settled (setting.head fresh).span fresh :=
    ⟨⟨hreads.start_le_stop (Nat.le_of_eq hfinish), Nat.le_refl _, Nat.le_refl _,
      by rintro span ⟨⟩⟩, .empty _⟩
  have hrelated : I.lockstep.comparison.agree ((setting.head fresh).span, false) fresh fresh :=
    ⟨rfl, ⟨rfl, hreads⟩, rfl, htidy⟩
  have hends := hkeeps.ends hrelated
  change I.lockstep.comparison.Ends _ (fun _ _ => I.lockstep.comparison.agree _)
    (node kind body setting fresh) (node kind body setting fresh) at hends
  rw [hrun] at hends
  cases hends with
  | lost hlost => exact hlost.elim
  | ok hafter =>
      have htidy' : Tidy setting False .settled (setting.head fresh).span (fresh.closed inner) :=
        hafter.2.2.2
      have hmem : inner.building ∈ (fresh.closed inner).building.children := by
        change _ ∈ ((Node.empty .undefined).append inner.building).children
        rw [Node.children_append]
        exact List.mem_singleton_self _
      obtain ⟨hlow, hclear⟩ := htidy'.building.children _ hmem span hspan
      exact ⟨hlow, hclear.stop_le And.left⟩

omit hwhole hfinish in
/-- An element covers what is passed in front of a mark: the first token, the last one, and so those
between them. -/
theorem element_covers {kind : NodeKind} {body : Parse Unit} [hhead : CoversHead (node kind body)]
    [CoversLatest (node kind body)] {inner : Session}
    (hinner : body setting (session.opened kind) = (.ok (), inner))
    (hahead : inner.ahead = mark :: rest) (hmark : mark.kind.isAngle = false) {first : Token}
    {others : List Token} (htokens : session.ahead = (first :: others) ++ mark :: rest) :
    ∀ token ∈ first :: others, inner.building.Covers token.span := by
  let fresh : Session := { session with building := .empty .undefined }
  have hfresh : node kind body setting fresh = (.ok (), fresh.closed inner) := node_of_ok hinner
  have hinside : setting.Reads ((first :: others) ++ mark :: rest) := htokens ▸ hreads
  have hnext : setting.head fresh = first := Setting.head_cons htokens
  have hmoved : (fresh.closed inner).ahead ≠ fresh.ahead := by
    change inner.ahead ≠ session.ahead
    rw [hahead, htokens]
    exact fun hsame => List.cons_ne_nil first others (List.append_left_eq_self.mp hsame.symm)
  obtain ⟨span, hspan, hlow, -⟩ : inner.building.Covers first.span := by
    have hcovers := hhead.covers setting fresh () _ (hnext.symm ▸ hinside.start_lt_stop) hfresh
    exact .of_append_empty (hnext ▸ hcovers)
  obtain ⟨last, hleads, hcovers⟩ := (covers_of_run hended hfresh hreads).resolve_left hmoved
  obtain ⟨_, hsame, -, hhigh⟩ := hcovers.of_append_empty
  obtain rfl := Option.some.inj (hspan.symm.trans hsame)
  change setting.Leads session.ahead (last :: inner.ahead) at hleads
  rw [htokens, hahead] at hleads
  obtain ⟨final, hfinal, hstop⟩ := hinside.last_passed hleads hmark
  intro token hmem
  have hfirst := hinside.start_le_of_head rfl (List.mem_append_left _ hmem)
  have hlast : token.span.stop ≤ final.span.stop := by
    rcases hinside.before_last hfinal hmem with rfl | ⟨hle, -⟩
    · exact Nat.le_refl _
    · have hlt := hinside.lt_of_mem (List.mem_append_left _ (List.mem_of_getLast? hfinal))
      exact Nat.le_trans hle (Nat.le_of_lt hlt)
  exact ⟨span, hspan, Nat.le_trans hlow hfirst, Nat.le_trans hlast (hstop ▸ hhigh)⟩

/-- An element in front of a mark fills a slot. -/
theorem element_slot {kind : NodeKind} {rule : Parse Unit} [CoversHead rule] [CoversLatest rule]
    [hconsumes : Consumes rule] (hrule : BuildsNode kind rule)
    (hkind : kind = .assignment ∨ kind = .initList)
    (hkeeps : (Solo.tidy setting hended hwhole hfinish False).lockstep.comparison.Keeps rule)
    (hrun : rule setting session = (.ok (), after))
    (hahead : after.ahead = mark :: rest) (hmark : mark.kind.isAngle = false) :
    ∃ slot : Slot, slot.Fits ∧ slot.mark = mark ∧ session.ahead = slot.tokens ++ rest ∧
      after.building = session.building.append slot.child := by
  obtain ⟨body, hadvances, rfl⟩ := hrule
  have hleads : setting.Leads session.ahead (mark :: rest) := hahead ▸ (advance_of_run hrun).forward
  have hmoved : after.ahead ≠ session.ahead :=
    ne_ahead_of_passes hreads (hconsumes.passes setting session () _ hended hrun)
  obtain ⟨inside, hinside⟩ := hreads.suffix_of_leads hleads (List.suffix_refl _) hmark
  obtain ⟨first, others, rfl⟩ : ∃ first others, inside = first :: others := by
    refine List.exists_cons_of_ne_nil fun hnil => hmoved ?_
    rw [hahead, ← hinside, hnil, List.nil_append]
  obtain ⟨inner, hinner, rfl⟩ := node_ok hrun
  have hcovers := element_covers hended hreads hinner hahead hmark hinside.symm
  obtain ⟨span, hspan, -⟩ := hcovers first List.mem_cons_self
  have hfirst : setting.head session = first := Setting.head_cons hinside.symm
  have hnext : setting.head inner = mark := Setting.head_cons hahead
  obtain ⟨hlow, hhigh⟩ := element_between hended hwhole hfinish hreads hkeeps hinner hspan
  rw [hfirst] at hlow
  rw [hnext] at hhigh
  have hwritten : inner.building.IsWritten := by
    unfold Node.IsWritten
    rw [(advance_of_run hinner).building.kind]
    exact hkind
  refine ⟨⟨first :: others, mark, inner.building⟩, .written rfl hwritten hspan hlow hhigh hcovers,
    rfl, ?_, rfl⟩
  rw [← hinside, Slot.tokens, List.append_assoc, List.singleton_append]

omit hwhole hfinish in
theorem emptySlot_slot (hrun : emptySlot setting session = (.ok (), after))
    (hahead : after.ahead = mark :: rest) (hmark : mark.kind = .comma ∨ mark.kind = .closeBrace) :
    ∃ slot : Slot, slot.Fits ∧ slot.mark = mark ∧ session.ahead = slot.tokens ++ rest ∧
      after.building = session.building.append slot.child := by
  cases hrun
  change session.ahead = mark :: rest at hahead
  have hhead : setting.head session = mark := Setting.head_cons hahead
  have hspan := hreads.separator_span hended (hhead ▸ hmark)
  rw [hhead] at hspan
  have hsolid : mark.span.start < mark.span.stop := hreads.lt_of_mem (hahead ▸ List.mem_cons_self)
  refine ⟨⟨[], mark, _⟩, .omitted rfl ?_ ?_ ?_, rfl, hahead, rfl⟩
  · exact (Node.grows_widen _ _).kind
  · change ((Node.empty .undefined).widen (.ofLength (setting.head session).span.start 1)).span = _
    rw [hhead, hspan]
    exact Node.span_widen hsolid
  · rw [← hspan]
    exact Nat.add_sub_cancel_left _ _

/-- What is read in a slot of a list, in front of the mark behind it. -/
theorem listElement_slot (hrun : listElement (valueRules room) setting session = (.ok (), after))
    (hahead : after.ahead = mark :: rest) (hmark : mark.kind = .comma ∨ mark.kind = .closeBrace) :
    ∃ slot : Slot, slot.Fits ∧ slot.mark = mark ∧ session.ahead = slot.tokens ++ rest ∧
      after.building = session.building.append slot.child := by
  have hkeeps := Comparison.valueRules_keeps
    (S := (Solo.tidy setting hended hwhole hfinish False).lockstep.comparison) room
  have hplain : mark.kind.isAngle = false := by
    rcases hmark with hmark | hmark <;> rw [hmark] <;> rfl
  unfold listElement at hrun
  rw [peek_bind] at hrun
  generalize (setting.head session).kind = kind at hrun
  split at hrun
  · exact emptySlot_slot hended hreads hrun hahead hmark
  · exact emptySlot_slot hended hreads hrun hahead hmark
  · exact element_slot hended hwhole hfinish hreads (initList_buildsNode room) (.inr rfl)
      hkeeps.initList hrun hahead hplain
  · exact element_slot hended hwhole hfinish hreads (assignment_buildsNode room) (.inl rfl)
      hkeeps.assignment hrun hahead hplain

/-- The elements of a list, up to its closing brace. -/
theorem listElements_slots
    (hrun : commaSeparated (listElement (valueRules room)) setting session = (.ok (), after))
    (hclose : (setting.head after).kind = .closeBrace) :
    ∃ slots, Slots slots (setting.head after) ∧
      session.ahead = slots.flatMap Slot.tokens ++ after.ahead.tail ∧
      after.building = (slots.map (·.child)).foldl Node.append session.building := by
  have hrepeats : Repeats (do
      listElement (valueRules room)
      if ← nextIs .comma then
        skip
        return true
      else return false) setting session
      (commaSeparated (listElement (valueRules room)) setting session) :=
    repeatRule_repeats hended hreads
  rw [hrun] at hrepeats
  clear hrun
  generalize hresult : ((.ok (), after) : Except Interruption Unit × Session) = result at hrepeats
  induction hrepeats with
  | broken hbody => cases hresult
  | @last session after' hbody =>
      cases hresult
      obtain ⟨_, middle, hitem, hend⟩ := bind_ok hbody
      rw [nextIs_bind] at hend
      split at hend
      · cases hend
      · cases hend
        have hahead : after.ahead = setting.head after :: after.ahead.tail :=
          hended.ahead_cons (by simp [hclose])
        obtain ⟨slot, hfits, hmark, htokens, hbuilding⟩ := listElement_slot hended hwhole hfinish
          hreads hitem hahead (.inr hclose)
        refine ⟨[slot], ?_, ?_, hbuilding⟩
        · rw [← hmark]
          exact .last hfits (hmark ▸ hclose)
        · rw [List.flatMap_singleton]
          exact htokens
  | @again session middle' result hbody _ ih =>
      obtain ⟨_, middle, hitem, hend⟩ := bind_ok hbody
      rw [nextIs_bind] at hend
      split at hend
      · rename_i hcomma
        have hcomma : (setting.head middle).kind = .comma := of_decide_eq_true hcomma
        cases hend
        have hmiddle : setting.Reads middle.ahead := hreads.leads (advance_of_run hitem).forward
        obtain ⟨slots, hslots, htokens', hbuilding'⟩ := ih hmiddle.tail hresult
        have hahead : middle.ahead = setting.head middle :: middle.ahead.tail :=
          hended.ahead_cons (by simp [hcomma])
        obtain ⟨slot, hfits, hmark, htokens, hbuilding⟩ := listElement_slot hended hwhole hfinish
          hreads hitem hahead (.inl hcomma)
        refine ⟨slot :: slots, .more hfits (hmark ▸ hcomma) hslots, ?_, ?_⟩
        · change middle.ahead.tail = _ at htokens'
          rw [htokens, htokens', List.flatMap_cons, List.append_assoc]
        · rw [hbuilding', List.map_cons, List.foldl_cons, ← hbuilding]
      · cases hend

omit hwhole hfinish hreads in
theorem closeList_ok
    (hrun : (do
      if ← nextIs .closeBrace then cover
      else failExpected (.expectedEitherKind .closeBrace .comma)) setting session = (.ok (), after)) :
    session.ahead = setting.head session :: session.ahead.tail ∧
      (setting.head session).kind = .closeBrace ∧ after = setting.passed .span session := by
  rw [nextIs_bind] at hrun
  split at hrun
  · rename_i hclose
    have hclose : (setting.head session).kind = .closeBrace := of_decide_eq_true hclose
    cases hrun
    exact ⟨hended.ahead_cons (by simp [hclose]), hclose, rfl⟩
  · cases hrun

/-- A list that comes to its end fills its slots, wherever its tokens stand. -/
theorem braced_fillsSlots {tokens : List Token} (htokens : setting.Reads tokens)
    (hleads : setting.Leads tokens session.ahead)
    (hrun : braced (valueRules room) setting (session.opened .initList) = (.ok (), after)) :
    after.building.HasSlots tokens := by
  obtain ⟨_, opened, hopen, hlist⟩ := bind_ok hrun
  obtain ⟨hopening, rfl⟩ := coverRequired_passed hopen
  change (setting.head session).kind = .openBrace at hopening
  let opened : Session := setting.passed .span (session.opened .initList)
  let opening := setting.head session
  have hahead : session.ahead = opening :: opened.ahead := hended.ahead_cons (by simp [hopening])
  have hinner : setting.Reads (opening :: opened.ahead) := hahead ▸ hreads
  obtain ⟨front, hfront⟩ : opening :: opened.ahead <:+ tokens :=
    htokens.suffix_of_leads (hahead ▸ hleads) (List.suffix_refl _) (by rw [hopening]; rfl)
  have hopened : opened.building.span = some opening.span := Node.span_widen hinner.start_lt_stop
  have hnone : opened.building.children = [] := Node.children_widen _ _
  rw [nextIs_bind] at hlist
  split at hlist
  · obtain ⟨hbehind, hclosing, rfl⟩ := closeList_ok hended hlist
    change opened.ahead = setting.head opened :: opened.ahead.tail at hbehind
    rw [hbehind] at hfront hinner
    have hle := hinner.stop_le_of_mem List.mem_cons_self
    have hopen := hinner.start_lt_stop
    have hclose := hinner.tail.start_lt_stop
    have hlow : opening.span.start ≤ (setting.head opened).span.start := by omega
    have hhigh : opening.span.stop ≤ (setting.head opened).span.stop := by omega
    refine ⟨opening, _, fillsSlots_nil htokens hfront.symm hopening hclosing ?_ ?_⟩
    · exact (Node.children_widen _ _).trans hnone
    · exact Node.span_widen_to ⟨_, hopened, hhigh⟩ hlow hclose
  · rename_i hfirst
    obtain ⟨_, middle, helements, hclose⟩ := bind_ok hlist
    obtain ⟨hbehind, hclosing, rfl⟩ := closeList_ok hended hclose
    obtain ⟨slots, hslots, hinside, hbuilding⟩ :=
      listElements_slots hended hwhole hfinish hinner.tail helements hclosing
    change opened.ahead = _ at hinside
    have hne : slots.flatMap Slot.tokens ≠ [setting.head middle] := by
      intro hsingle
      rw [hsingle] at hinside
      refine hfirst (decide_eq_true ?_)
      rw [← hclosing]
      exact congrArg Token.kind (Setting.head_cons hinside)
    rw [hinside] at hfront hinner
    refine ⟨opening, _, hslots.fillsSlots htokens hfront.symm hopening hne ?_ ?_⟩
    · refine (Node.children_widen _ _).trans ?_
      rw [hbuilding, Node.children_append_all, hnone, List.nil_append]
    · refine Eq.trans ?_ (hslots.span_eq hinner hopened)
      rw [← hbuilding]
      rfl

end Slots

end Parse

end Grammar

end ScriptSyntax
