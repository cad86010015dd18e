import ScriptSyntax.Proofs.Persistence.TypeAhead
import ScriptSyntax.Proofs.ReadingOn
import ScriptSyntax.Proofs.Tiling
import ScriptSyntax.Proofs.TreeSpans

/-!
# Types that are seen ahead

A scan for a type passes a list of template arguments by rules of its own: it knows neither a handle
mark with `const` behind it nor a template instance in the scope of an argument.  Where no argument
has one of them, the scan passes what the rule for types reads.
-/

namespace ScriptSyntax

namespace Node

/-- A template argument that is seen ahead: its scope holds no template instance, and no `const`
stands behind its first child. -/
structure Seen (type : Node) : Prop where
  scope : ∀ scope ∈ type.children, scope.kind = .scope → ∀ part ∈ scope.children,
    part.kind ≠ .dataType
  const : ∀ mark ∈ type.children.tail, mark.token ≠ some .const

/-- All template arguments below the node are seen ahead. -/
def SeenBelow (node : Node) : Prop :=
  ∀ child ∈ node.children, ∀ argument ∈ child.descendants, argument.kind = .dataType → argument.Seen

instance (type : Node) : Decidable type.Seen :=
  decidable_of_iff ((∀ scope ∈ type.children, scope.kind = .scope → ∀ part ∈ scope.children,
      part.kind ≠ .dataType) ∧ ∀ mark ∈ type.children.tail, mark.token ≠ some .const)
    ⟨fun h => ⟨h.1, h.2⟩, fun h => ⟨h.1, h.2⟩⟩

instance (node : Node) : Decidable node.SeenBelow :=
  inferInstanceAs (Decidable (∀ child ∈ node.children, ∀ argument ∈ child.descendants,
    argument.kind = .dataType → argument.Seen))

variable {node grown inner : Node}

theorem mem_children_append (node child : Node) : child ∈ (node.append child).children := by
  rw [children_append]
  exact List.mem_append_right _ List.mem_cons_self

theorem SeenBelow.seen (h : node.SeenBelow) (hmem : inner ∈ node.children)
    (hkind : inner.kind = .dataType) : inner.Seen := by
  refine h inner hmem inner ?_ hkind
  rw [descendants_eq]
  exact List.mem_cons_self

theorem SeenBelow.child (h : node.SeenBelow) (hmem : inner ∈ node.children) : inner.SeenBelow := by
  intro part hpart argument hargument
  refine h inner hmem argument ?_
  rw [descendants_eq]
  exact List.mem_cons_of_mem _ (List.mem_flatMap.mpr ⟨part, hpart, hargument⟩)

theorem SeenBelow.of_grows (h : grown.SeenBelow) (hgrows : node.Grows grown) : node.SeenBelow :=
  fun child hmem => h child (hgrows.children.subset hmem)

end Node

namespace Grammar.Parse

variable {setting : Setting} {session after : Session} {value : Unit}

theorem Repeats.advance {body : Parse Bool} [Advances body]
    {result : Except Interruption Unit × Session} (h : Repeats body setting session result) :
    Advance setting session result.2 := by
  induction h with
  | last hbody => exact advance_of_run hbody
  | broken hbody => exact advance_of_run hbody
  | again hbody hrest ih => exact (advance_of_run hbody).trans ih

/-! ## Suffixes -/

theorem mark_built (h : mark setting session = (.ok value, after)) :
    after.building.children =
      session.building.children ++ [.ofToken .undefined (setting.head session)] := by
  cases h
  exact Node.children_append _ _

theorem markIf_built {kind : TokenKind} (hkind : (setting.head session).kind = kind)
    (h : markIf kind setting session = (.ok value, after)) :
    after.building.children =
      session.building.children ++ [.ofToken .undefined (setting.head session)] := by
  unfold markIf at h
  rw [nextIs_bind, decide_eq_true hkind] at h
  exact mark_built h

/-- A round over the suffixes of a type. -/
def typeSuffix : Parse Bool := do
  match (← peek).kind with
  | .openBracket =>
      mark
      coverRequired .closeBracket
      return true
  | .handle =>
      mark
      markIf .const
      return true
  | _ => return false

instance : Advances typeSuffix := by
  unfold typeSuffix
  infer_instance

instance : Rounds typeSuffix := by
  unfold typeSuffix
  infer_instance

/-- What a round over the suffixes passes: brackets, a handle mark, a handle mark with `const`
behind it, or nothing. -/
inductive SuffixRound (setting : Setting) (session after : Session) : Bool → Prop
  | brackets {opening closing : Token} : opening.kind = .openBracket →
      closing.kind = .closeBracket → session.ahead = opening :: closing :: after.ahead →
      SuffixRound setting session after true
  | handle {mark : Token} : mark.kind = .handle → (setting.head after).kind ≠ .const →
      session.ahead = mark :: after.ahead → SuffixRound setting session after true
  | constHandle {mark qualifier : Token} : mark.kind = .handle → qualifier.kind = .const →
      session.ahead = mark :: qualifier :: after.ahead →
      after.building.children = session.building.children ++
        [.ofToken .undefined mark, .ofToken .undefined qualifier] →
      SuffixRound setting session after true
  | ending : (setting.head after).kind ≠ .handle → (setting.head after).kind ≠ .openBracket →
      session = after → SuffixRound setting session after false

theorem typeSuffix_ok (hended : setting.Ended) {again : Bool}
    (h : typeSuffix setting session = (.ok again, after)) :
    SuffixRound setting session after again := by
  unfold typeSuffix at h
  rw [peek_bind] at h
  generalize hkind : (setting.head session).kind = kind at h
  split at h
  · obtain ⟨_, marked, hmarked, h⟩ := bind_ok h
    obtain ⟨_, closed, hclosed, hend⟩ := bind_ok h
    obtain ⟨hclose, hahead⟩ := coverRequired_ok hclosed
    cases hend
    refine .brackets hkind hclose ?_
    rw [hended.ahead_cons (by simp [hkind]), ← leaf_ok hmarked,
      hended.ahead_cons (by simp [hclose]), hahead]
  · obtain ⟨_, marked, hmarked, h⟩ := bind_ok h
    obtain ⟨_, held, hheld, hend⟩ := bind_ok h
    have hahead := markIf_ok hheld
    have hmark : session.ahead = setting.head session :: marked.ahead := by
      rw [hended.ahead_cons (by simp [hkind]), ← leaf_ok hmarked]
    cases hend
    by_cases hnext : (setting.head marked).kind = .const
    · rw [if_pos hnext] at hahead
      refine .constHandle hkind hnext ?_ ?_
      · rw [hmark, hended.ahead_cons (by simp [hnext]), hahead]
      · rw [markIf_built hnext hheld, mark_built hmarked, List.append_assoc]
        rfl
    · rw [if_neg hnext] at hahead
      refine .handle hkind ?_ (hahead ▸ hmark)
      unfold Setting.head at hnext ⊢
      rwa [hahead]
  · rename_i hbracket hhandle
    cases h
    exact .ending (hkind ▸ hhandle) (hkind ▸ hbracket) rfl

/-- The suffixes of a type are passed as they are read by what passes each of them. -/
theorem typeSuffixes_passed (hended : setting.Ended) (hreads : setting.Reads session.ahead)
    {skip? : List Token → Option (List Token)} {added : List Node}
    (hbracket : ∀ {opening closing : Token} {rest : List Token}, opening.kind = .openBracket →
      closing.kind = .closeBracket → skip? (opening :: closing :: rest) = skip? rest)
    (hhandle : ∀ {mark : Token} {rest : List Token}, mark.kind = .handle →
      (rest.headD setting.finish).kind ≠ .const → skip? (mark :: rest) = skip? rest)
    (hconst : (∃ mark ∈ added, mark.token = some .const) →
      ∀ {mark qualifier : Token} {rest : List Token}, mark.kind = .handle →
        qualifier.kind = .const → skip? (mark :: qualifier :: rest) = skip? rest)
    (hadded : after.building.children = session.building.children ++ added)
    (h : typeSuffixes setting session = (.ok value, after)) :
    skip? session.ahead = skip? after.ahead := by
  have hrepeats : Repeats typeSuffix setting session (typeSuffixes setting session) :=
    repeatRule_repeats hended hreads
  rw [h] at hrepeats
  clear h hreads
  generalize hresult : (Except.ok value, after) = result at hrepeats
  induction hrepeats generalizing added with
  | last hround =>
      cases hresult
      cases typeSuffix_ok hended hround with
      | ending _ _ hsame => rw [hsame]
  | broken => cases hresult
  | @again session middle result hround hrest ih =>
      obtain ⟨front, hfront⟩ := (advance_of_run hround).building.children
      obtain ⟨back, hback⟩ := (Repeats.advance hrest).building.children
      subst hresult
      obtain rfl : added = front ++ back := by
        rw [← hback, ← hfront, List.append_assoc] at hadded
        exact (List.append_cancel_left hadded).symm
      have hskipped : skip? middle.ahead = skip? after.ahead := by
        refine ih ?_ hback.symm rfl
        rintro ⟨mark, hmem, hmark⟩
        exact hconst ⟨mark, List.mem_append_right _ hmem, hmark⟩
      rw [← hskipped]
      cases typeSuffix_ok hended hround with
      | brackets hopening hclosing hahead => rw [hahead, hbracket hopening hclosing]
      | handle hmark hplain hahead => rw [hahead, hhandle hmark hplain]
      | @constHandle mark qualifier hmark hqualifier hahead hbuilt =>
          rw [hahead]
          refine hconst ⟨.ofToken .undefined qualifier, ?_, ?_⟩ hmark hqualifier
          · rw [hbuilt] at hfront
            rw [List.append_cancel_left hfront]
            simp
          · rw [Node.token_ofToken, hqualifier]

/-- No suffix comes next where the suffixes end. -/
theorem typeSuffixes_ends (hended : setting.Ended) (hreads : setting.Reads session.ahead)
    (h : typeSuffixes setting session = (.ok value, after)) :
    (setting.head after).kind ≠ .handle ∧ (setting.head after).kind ≠ .openBracket := by
  have hrepeats : Repeats typeSuffix setting session (typeSuffixes setting session) :=
    repeatRule_repeats hended hreads
  rw [h] at hrepeats
  clear h hreads
  generalize hresult : (Except.ok value, after) = result at hrepeats
  induction hrepeats with
  | last hround =>
      cases hresult
      cases typeSuffix_ok hended hround with
      | ending hhandle hbracket _ => exact ⟨hhandle, hbracket⟩
  | broken => cases hresult
  | again _ _ ih => exact ih hresult

/-- A scan passes the suffixes of a template argument if no `const` stands among them. -/
theorem typeSuffixes_argument (hended : setting.Ended) (hreads : setting.Reads session.ahead)
    {added : List Node} (hadded : after.building.children = session.building.children ++ added)
    (hplain : ∀ mark ∈ added, mark.token ≠ some .const)
    (h : typeSuffixes setting session = (.ok value, after)) :
    skipArgumentSuffixes? session.ahead = some after.ahead := by
  obtain ⟨hhandle, hbracket⟩ := typeSuffixes_ends hended hreads h
  rw [← skipArgumentSuffixes?_still rfl hhandle hbracket]
  refine typeSuffixes_passed hended hreads skipArgumentSuffixes?_openBracket ?_ ?_ hadded h
  · exact fun hkind _ => skipArgumentSuffixes?_handle hkind
  · rintro ⟨mark, hmem, hmark⟩
    exact absurd hmark (hplain mark hmem)

/-- A scan passes the suffixes of a type in front of what is no reference. -/
theorem typeSuffixes_type (hended : setting.Ended) (hreads : setting.Reads session.ahead)
    (h : typeSuffixes setting session = (.ok value, after))
    (hreference : (setting.head after).kind ≠ .ampersand) :
    skipSuffixes? session.ahead = some after.ahead := by
  obtain ⟨hhandle, hbracket⟩ := typeSuffixes_ends hended hreads h
  have hstill : skipSuffixes? after.ahead = some after.ahead := by
    unfold Setting.head at hhandle hbracket hreference
    cases hahead : after.ahead with
    | nil => rfl
    | cons token rest =>
        rw [hahead] at hhandle hbracket hreference
        exact skipSuffixes?_other hhandle hreference hbracket
  obtain ⟨added, hadded⟩ := (advance_of_run h).building.children
  rw [← hstill]
  refine typeSuffixes_passed hended hreads ?_ ?_ ?_ hadded.symm h
  · intro opening closing rest hopening hclosing
    rw [skipSuffixes?_openBracket hopening, List.head?_cons, Option.map_some, hclosing, if_pos rfl,
      List.tail_cons]
  · intro mark rest hmark hrest
    rw [skipSuffixes?_handle hmark]
    cases rest with
    | nil => rfl
    | cons qualifier rest =>
        rw [List.head?_cons, Option.any_some, if_neg (by simpa using hrest)]
  · intro _ mark qualifier rest hmark hqualifier
    rw [skipSuffixes?_handle hmark, List.head?_cons, Option.any_some,
      if_pos (decide_eq_true hqualifier), List.tail_cons]

/-! ## Scopes and lists -/

theorem dataType_added {room : Nat} {forms : TypeForms}
    (h : dataType room forms setting session = (.ok value, after)) :
    ∃ type ∈ after.building.children, type.kind = .dataType := by
  obtain ⟨room, rfl, hbody⟩ := dataType_succ_of_ok h
  obtain ⟨inner, hinner, rfl⟩ := node_ok hbody
  exact ⟨inner.building, Node.mem_children_append _ _, (advance_of_run hinner).building.kind⟩

/-- A list of template arguments has a node for the first of them. -/
theorem templateArguments_first {room : Nat}
    (h : templateArguments (dataType room {}) setting session = (.ok value, after)) :
    0 < room ∧ ∃ argument ∈ after.building.children, argument.kind = .dataType := by
  obtain ⟨_, opened, hopened, h⟩ := bind_ok h
  obtain ⟨_, listed, hlisted, hclosing⟩ := bind_ok h
  unfold commaSeparated repeatRule at hlisted
  rw [ahead_bind] at hlisted
  unfold repeatUpTo at hlisted
  obtain ⟨_, middle, hbody, hrest⟩ := bind_ok hlisted
  obtain ⟨_, first, hfirst, hcomma⟩ := bind_ok hbody
  obtain ⟨smaller, rfl, -⟩ := dataType_succ_of_ok hfirst
  obtain ⟨argument, hmem, hkind⟩ := dataType_added hfirst
  have hgrows := ((advance_of_run hcomma).building.trans (advance_of_run hrest).building).trans
    (advance_of_run hclosing).building
  exact ⟨Nat.succ_pos smaller, argument, hgrows.children.subset hmem, hkind⟩

/-- The scope of a template argument that is seen ahead holds no template instance. -/
theorem scopeOver_seen (hended : setting.Ended) (hreads : setting.Reads session.ahead) {room : Nat}
    (hplain : ∀ scope ∈ after.building.children, scope.kind = .scope → ∀ part ∈ scope.children,
      part.kind ≠ .dataType)
    (h : scopeOver room (dataType room {}) setting session = (.ok value, after)) :
    after.ahead = skipScopes (setting.dropKind .scope session.ahead) := by
  refine scopeOver_ok hended hreads.orderly ?_ h
  refine Bool.eq_false_iff.mpr fun hsees => ?_
  obtain ⟨named, listing, last, -, hlisting, hlast, hkind, rfl⟩ :=
    scopeOver_template hended hreads hsees h
  obtain ⟨-, argument, hmem, hargument⟩ := templateArguments_first hlisting
  refine hplain last.building (Node.mem_children_append _ _) hkind argument ?_ hargument
  exact (advance_of_run hlast).building.children.subset hmem

/-! ## Names of types -/

/-- No type is left to be inferred, and none stands for any type. -/
def NamesTypes (tokens : List Token) : Prop :=
  ∀ token ∈ tokens, token.kind ≠ .keyword .auto ∧ token.kind ≠ .question

instance (tokens : List Token) : Decidable (NamesTypes tokens) :=
  inferInstanceAs (Decidable (∀ token ∈ tokens, _))

theorem NamesTypes.head {tokens next : List Token} (h : NamesTypes tokens) (hended : setting.Ended)
    (hreads : setting.Reads tokens) (hleads : setting.Leads tokens next) :
    (next.headD setting.finish).kind ≠ .keyword .auto ∧
      (next.headD setting.finish).kind ≠ .question := by
  by_contra hboth
  have hkind : (next.headD setting.finish).kind = .keyword .auto ∨
      (next.headD setting.finish).kind = .question := by
    rwa [not_and_or, not_not, not_not] at hboth
  obtain ⟨token, rest, rfl⟩ : ∃ token rest, next = token :: rest := by
    refine List.exists_cons_of_ne_nil ?_
    rintro rfl
    rcases hkind with hkind | hkind <;> cases hkind.symm.trans hended
  have hsuffix : token :: rest <:+ tokens := by
    refine hreads.suffix_of_leads hleads (List.suffix_refl _) ?_
    rcases hkind with hkind | hkind <;>
    · rw [show token.kind = _ from hkind]
      rfl
  exact hboth (h _ (hsuffix.subset List.mem_cons_self))

theorem NamesTypes.allows_iff {forms : TypeForms} {tokens next : List Token}
    (h : NamesTypes tokens) (hended : setting.Ended) (hreads : setting.Reads tokens)
    (hleads : setting.Leads tokens next) :
    forms.allows (next.headD setting.finish) = true ↔
      (next.headD setting.finish).isTypeName = true := by
  obtain ⟨hauto, hquestion⟩ := h.head hended hreads hleads
  generalize next.headD setting.finish = token at hauto hquestion ⊢
  simp [TypeForms.allows, hauto, hquestion]

/-- The tokens that a type with a name may begin with. -/
def StartsType (token : Token) : Prop :=
  token.kind = .const ∨ token.kind = .scope ∨ token.isTypeName = true

/-! ## The parts of a type -/

/-- The sessions behind the parts of a type that is read: its qualifier, its scope, its name, its
arguments and its suffixes. -/
structure TypeRun (setting : Setting) (room : Nat) (argument : Parse Unit) (forms : TypeForms)
    (session qualified inside named listing last : Session) : Prop where
  qualifier : markIf .const setting (session.opened .dataType) = (.ok (), qualified)
  scope : scopeOver room argument setting qualified = (.ok (), inside)
  name : typeName forms setting inside = (.ok (), named)
  arguments : if setting.listsArguments (setting.head inside) named.ahead = true then
      templateArguments argument setting named = (.ok (), listing) else listing = named
  suffixes : typeSuffixes setting listing = (.ok (), last)

theorem exists_typeRun {room : Nat} {argument : Parse Unit} {forms : TypeForms}
    (hconst : forms.const = true)
    (h : typeBody room argument forms setting session = (.ok value, after)) :
    ∃ qualified inside named listing last,
      TypeRun setting room argument forms session qualified inside named listing last ∧
        after = session.closed last := by
  obtain ⟨last, hlast, hafter⟩ := node_ok h
  simp only [hconst, ↓reduceIte] at hlast
  obtain ⟨_, qualified, hqualified, hlast⟩ := bind_ok hlast
  obtain ⟨_, inside, hinside, hlast⟩ := bind_ok hlast
  rw [peek_bind] at hlast
  obtain ⟨_, named, hnamed, hlast⟩ := bind_ok hlast
  rw [read_bind, nextIs_bind] at hlast
  change (if setting.listsArguments (setting.head inside) named.ahead = true then do
      templateArguments argument
      typeSuffixes
    else typeSuffixes : Parse Unit) setting named = (.ok value, last) at hlast
  by_cases hlists : setting.listsArguments (setting.head inside) named.ahead = true
  · rw [if_pos hlists] at hlast
    obtain ⟨_, listing, hlisting, hlast⟩ := bind_ok hlast
    exact ⟨qualified, inside, named, listing, last,
      ⟨hqualified, hinside, hnamed, by rwa [if_pos hlists], hlast⟩, hafter⟩
  · rw [if_neg hlists] at hlast
    exact ⟨qualified, inside, named, named, last,
      ⟨hqualified, hinside, hnamed, by rw [if_neg hlists], hlast⟩, hafter⟩

namespace TypeRun

variable {room : Nat} {argument : Parse Unit} {forms : TypeForms}
  {qualified inside named listing last : Session}

/-- A type whose parts are read is read. -/
theorem run (hconst : forms.const = true)
    (h : TypeRun setting room argument forms session qualified inside named listing last) :
    typeBody room argument forms setting session = (.ok (), session.closed last) := by
  refine node_of_ok ?_
  have hqualifier := h.qualifier
  unfold Session.opened at hqualifier
  simp only [hconst, ↓reduceIte]
  rw [bind_run, hqualifier]
  dsimp only
  rw [bind_run, h.scope]
  dsimp only
  rw [peek_bind, bind_run, h.name]
  dsimp only
  rw [read_bind, nextIs_bind]
  change (if setting.listsArguments (setting.head inside) named.ahead = true then do
      templateArguments argument
      typeSuffixes
    else typeSuffixes : Parse Unit) setting named = _
  have harguments := h.arguments
  split at harguments
  · rename_i hlists
    rw [if_pos hlists, bind_run, harguments]
    exact h.suffixes
  · rename_i hlists
    rw [if_neg hlists, ← harguments]
    exact h.suffixes

theorem reads_qualified (h : TypeRun setting room argument forms session qualified inside named
      listing last) (hreads : setting.Reads session.ahead) :
    qualified.ahead = setting.dropKind .const session.ahead ∧ setting.Reads qualified.ahead := by
  have hahead := markIf_ok h.qualifier
  change qualified.ahead = setting.dropKind .const session.ahead at hahead
  exact ⟨hahead, hahead ▸ hreads.suffix (dropKind_suffix setting .const session.ahead)⟩

theorem reads_named (h : TypeRun setting room argument forms session qualified inside named
      listing last) (hreads : setting.Reads inside.ahead) :
    named.ahead = inside.ahead.tail ∧ setting.Reads named.ahead := by
  have hahead := (typeName_ok h.name).2
  exact ⟨hahead, hahead ▸ hreads.tail⟩

theorem head (h : TypeRun setting room argument forms session qualified inside named listing last)
    (hreads : setting.Reads session.ahead) (hname : (setting.head inside).isTypeName = true) :
    StartsType (setting.head session) := by
  by_cases hconst : (setting.head session).kind = .const
  · exact .inl hconst
  obtain ⟨hqualified, -⟩ := h.reads_qualified hreads
  rw [show setting.dropKind .const session.ahead = session.ahead from if_neg hconst] at hqualified
  have hscope := h.scope
  unfold scopeOver at hscope
  rw [sees_bind, hqualified, scopeAhead_isSome] at hscope
  split at hscope
  · rename_i hsees
    simp only [Bool.or_eq_true, Bool.and_eq_true, decide_eq_true_eq] at hsees
    have htype (hkind : (setting.head session).kind = .identifier) :
        (setting.head session).isTypeName = true := by
      simp [Token.isTypeName, TokenKind.isIdentifier, hkind]
    rcases hsees with (hmark | ⟨hkind, -⟩) | htemplate
    · exact .inr (.inl hmark)
    · exact .inr (.inr (htype hkind))
    · obtain ⟨-, hlists, -⟩ := templateScopeAhead_some htemplate
      exact .inr (.inr (htype (kinds_of_listsArguments hlists).1))
  · cases hscope
    unfold Setting.head at hname
    rw [hqualified] at hname
    exact .inr (.inr hname)

variable [Advances argument]

theorem isTypeName (h : TypeRun setting room argument forms session qualified inside named listing
      last) (hended : setting.Ended) (hreads : setting.Reads session.ahead)
    (hnamed : NamesTypes session.ahead) : (setting.head inside).isTypeName = true := by
  obtain ⟨hqualified, -⟩ := h.reads_qualified hreads
  have hleads : setting.Leads session.ahead qualified.ahead :=
    hqualified ▸ setting.leads_of_suffix (dropKind_suffix _ _ _)
  exact (hnamed.allows_iff hended hreads (hleads.trans (advance_of_run h.scope).forward)).mp
    (typeName_ok h.name).1

theorem listed (h : TypeRun setting room argument forms session qualified inside named listing
      last) : Advance setting named listing := by
  have harguments := h.arguments
  split at harguments
  · exact advance_of_run harguments
  · rw [harguments]
    exact .refl setting named

/-- The nodes of the suffixes stand behind the first child. -/
theorem suffix_nodes (h : TypeRun setting room argument forms session qualified inside named listing
      last) :
    ∃ added, last.building.children = listing.building.children ++ added ∧
      ∀ mark ∈ added, mark ∈ last.building.children.tail := by
  obtain ⟨added, hadded⟩ := (advance_of_run h.suffixes).building.children
  refine ⟨added, hadded.symm, fun mark hmem => ?_⟩
  have hne : listing.building.children ≠ [] := by
    obtain ⟨inner, -, hnamed⟩ := node_ok h.name
    intro hnil
    have hprefix := h.listed.building.children
    rw [hnil, hnamed, Node.children_append] at hprefix
    simp at hprefix
  obtain ⟨first, others, hcons⟩ := List.exists_cons_of_ne_nil hne
  rw [← hadded, hcons, List.cons_append, List.tail_cons]
  exact List.mem_append_right _ hmem

theorem behindScope (h : TypeRun setting room argument forms session qualified inside named listing
      last) : inside.building.Grows last.building :=
  ((advance_of_run h.name).building.trans h.listed.building).trans
    (advance_of_run h.suffixes).building

theorem kind (h : TypeRun setting room argument forms session qualified inside named listing
      last) : last.building.kind = .dataType :=
  (((advance_of_run h.qualifier).building.trans (advance_of_run h.scope).building).trans
    h.behindScope).kind

end TypeRun

/-! ## Template arguments -/

/-- A scan passes a template argument and the comma behind it, if there is one. -/
theorem typeBody_seen (hended : setting.Ended) {room : Nat}
    (hlist : ∀ {session after : Session} {name : Token}, setting.Reads session.ahead →
      setting.listsArguments name session.ahead = true →
      templateArguments (dataType room {}) setting session = (.ok (), after) →
      after.building.SeenBelow →
      (templateList room name setting).run session.ahead = some ((), after.ahead))
    (hreads : setting.Reads session.ahead) (hbelow : after.building.SeenBelow)
    (h : typeBody room (dataType room {}) {} setting session = (.ok value, after)) :
    (templateArgument (templateList room) setting).run session.ahead =
      some (if (setting.head after).kind = .comma then (true, after.ahead.tail)
        else (false, after.ahead)) := by
  obtain ⟨qualified, inside, named, listing, last, hrun, rfl⟩ := exists_typeRun rfl h
  have hmem : last.building ∈ (session.closed last).building.children :=
    Node.mem_children_append _ _
  have hseen := hbelow.seen hmem hrun.kind
  have hinner := hbelow.child hmem
  obtain ⟨hqualified, hqualifiedReads⟩ := hrun.reads_qualified hreads
  have hinside : inside.ahead = behindScopes setting session.ahead := by
    unfold behindScopes
    rw [← hqualified]
    refine scopeOver_seen hended hqualifiedReads ?_ hrun.scope
    exact fun scope hscope => hseen.scope scope (hrun.behindScope.children.subset hscope)
  have hinsideReads := hqualifiedReads.leads (advance_of_run hrun.scope).forward
  obtain ⟨hnamed, hnamedReads⟩ := hrun.reads_named hinsideReads
  have hlisted : (templateList room (setting.head inside) setting).run named.ahead =
      some ((), listing.ahead) := by
    have harguments := hrun.arguments
    split at harguments
    · rename_i hlists
      exact hlist hnamedReads hlists harguments
        (hinner.of_grows (advance_of_run hrun.suffixes).building)
    · rename_i hlists
      rw [harguments]
      exact templateList_plain (by simpa using hlists) room
  have hname : (setting.head inside).isTypeName = true := by
    simpa [TypeForms.allows] using (typeName_ok hrun.name).1
  have hsuffixes : skipArgumentSuffixes? listing.ahead = some last.ahead := by
    obtain ⟨added, hadded, htail⟩ := hrun.suffix_nodes
    refine typeSuffixes_argument hended (hnamedReads.leads hrun.listed.forward) hadded ?_
      hrun.suffixes
    exact fun mark hmark => hseen.const mark (htail mark hmark)
  rw [templateArgument_run, ← hinside]
  change (if (setting.head inside).isTypeName = true then _ else none) = _
  rw [if_pos hname, ← hnamed]
  change ((templateList room (setting.head inside) setting).run named.ahead).bind _ = _
  rw [hlisted, Option.bind_some, hsuffixes]
  rfl

/-- A scan passes template arguments as they are read. -/
theorem arguments_seen {item : Parse Unit} [Advances item] {scan : Scan Bool} {count : Nat}
    (hitem : ∀ {session after : Session}, setting.Reads session.ahead →
      after.building.SeenBelow → item setting session = (.ok (), after) →
      (scan setting).run session.ahead =
        some (if (setting.head after).kind = .comma then (true, after.ahead.tail)
          else (false, after.ahead)))
    (hreads : setting.Reads session.ahead) (hbelow : after.building.SeenBelow)
    (h : repeatUpTo count (do
      item
      if ← nextIs .comma then
        skip
        return true
      else return false) setting session = (.ok value, after)) :
    (Scan.repeatUpTo count scan setting).run session.ahead = some ((), after.ahead) := by
  induction count generalizing session with
  | zero =>
      cases h
      rfl
  | succ count ih =>
      unfold repeatUpTo at h
      obtain ⟨again, middle, hbody, hrest⟩ := bind_ok h
      have hgrows := (advance_of_run hrest).building
      obtain ⟨_, first, hfirst, hcomma⟩ := bind_ok hbody
      have hfirstReads := hreads.leads (advance_of_run hfirst).forward
      have hbelow' := (hbelow.of_grows hgrows).of_grows (advance_of_run hcomma).building
      rw [repeatUpTo_run, hitem hreads hbelow' hfirst, Option.bind_some]
      rw [nextIs_bind] at hcomma
      by_cases hkind : (setting.head first).kind = .comma
      · simp only [hkind, decide_true, ↓reduceIte] at hcomma ⊢
        cases hcomma
        exact ih hfirstReads.tail hrest
      · simp only [hkind, decide_false, Bool.false_eq_true, ↓reduceIte] at hcomma ⊢
        cases hcomma
        cases hrest
        rfl

/-- A scan passes a list of template arguments up to where the list is read. -/
theorem templateArguments_seen (hended : setting.Ended) {room : Nat} {name : Token}
    (hreads : setting.Reads session.ahead)
    (hlists : setting.listsArguments name session.ahead = true)
    (hbelow : after.building.SeenBelow)
    (h : templateArguments (dataType room {}) setting session = (.ok value, after)) :
    (templateList room name setting).run session.ahead = some ((), after.ahead) := by
  induction room generalizing name session after value with
  | zero => exact absurd (templateArguments_first h).1 (Nat.lt_irrefl 0)
  | succ room ih =>
      obtain ⟨_, opened, hopened, h⟩ := bind_ok h
      obtain ⟨_, listed, hlisted, hclosing⟩ := bind_ok h
      have hahead := (require_ok hopened).2
      have hgrows := (advance_of_run hclosing).building
      unfold commaSeparated repeatRule at hlisted
      rw [ahead_bind] at hlisted
      rw [templateList_succ hlists, ← hahead, arguments_seen ?_ (hahead ▸ hreads.tail)
        (hbelow.of_grows hgrows) hlisted, Option.bind_some]
      · rw [read_bind, ahead_bind] at hclosing
        cases hgreater : setting.afterGreater? listed.ahead with
        | none =>
            rw [hgreater] at hclosing
            cases hclosing
        | some rest =>
            rw [hgreater] at hclosing
            cases hclosing
            rfl
      · intro session after hreads hbelow hitem
        exact typeBody_seen hended (fun hreads hlists h hbelow => ih hreads hlists hbelow h) hreads
          hbelow hitem

/-! ## Types -/

theorem dataType_head {room : Nat} {forms : TypeForms} (hended : setting.Ended)
    (hconst : forms.const = true) (hreads : setting.Reads session.ahead)
    (hnamed : NamesTypes session.ahead)
    (h : dataType room forms setting session = (.ok value, after)) :
    StartsType (setting.head session) := by
  obtain ⟨room, rfl, hbody⟩ := dataType_succ_of_ok h
  obtain ⟨_, _, _, _, _, hparts, -⟩ := exists_typeRun hconst hbody
  exact hparts.head hreads (hparts.isTypeName hended hreads hnamed)

/-- A scan passes a type in front of what goes on with no type. -/
theorem dataType_seen (hended : setting.Ended) {room : Nat} {forms : TypeForms}
    (hconst : forms.const = true) (hreads : setting.Reads session.ahead)
    (hnamed : NamesTypes session.ahead)
    (hscope : (setting.head after).kind ≠ .scope)
    (hreference : (setting.head after).kind ≠ .ampersand)
    (hbelow : ∀ type, after.building = session.building.append type → type.SeenBelow)
    (h : dataType room forms setting session = (.ok value, after)) :
    (typeAhead room setting).run session.ahead = some ((), after.ahead) := by
  obtain ⟨room, rfl, hbody⟩ := dataType_succ_of_ok h
  obtain ⟨qualified, inside, named, listing, last, hrun, rfl⟩ := exists_typeRun hconst hbody
  have hinner := hbelow _ rfl
  obtain ⟨hqualified, hqualifiedReads⟩ := hrun.reads_qualified hreads
  have hinsideReads := hqualifiedReads.leads (advance_of_run hrun.scope).forward
  obtain ⟨htail, hnamedReads⟩ := hrun.reads_named hinsideReads
  have hauto : ((setting.dropKind .const session.ahead).headD setting.finish).kind ≠
      .keyword .auto :=
    (hnamed.head hended hreads (setting.leads_of_suffix (dropKind_suffix _ _ _))).1
  have hname := hrun.isTypeName hended hreads hnamed
  have hsuffixes : skipSuffixes? listing.ahead = some last.ahead :=
    typeSuffixes_type hended (hnamedReads.leads hrun.listed.forward) hrun.suffixes hreference
  have hmark : (setting.head listing).kind ≠ .scope := by
    intro hmark
    cases typeSuffixes_still hmark (by simp) (by simp) hrun.suffixes
    exact hscope hmark
  rw [typeAhead_scoped hauto, ← hqualified,
    scopeOver_scanned hended hqualifiedReads (Nat.le_succ room) hrun.scope]
  have harguments := hrun.arguments
  split at harguments
  · rename_i hlists
    have hlisted := templateArguments_seen hended hnamedReads hlists
      (hinner.of_grows (advance_of_run hrun.suffixes).building) harguments
    rw [htail] at hlists hlisted
    rw [scopedType_lists hended hinsideReads hlists]
    change ((templateList (room + 1) (setting.head inside) setting).run inside.ahead.tail).bind _ = _
    rw [templateList_le (Nat.le_succ room) _ _ _ hlisted, Option.bind_some]
    refine (if_neg hmark).trans ?_
    rw [hsuffixes]
    rfl
  · rename_i hlists
    subst harguments
    have hplain := Bool.eq_false_of_not_eq_true hlists
    rw [htail] at hplain
    have hlast : ¬((setting.head inside).kind = .identifier ∧
        (inside.ahead.tail.headD setting.finish).kind = .scope) := fun hboth =>
      hmark (by rw [Setting.head, htail]; exact hboth.2)
    rw [scopedType_name (leadingScope_plain hlast hplain), Look.behindTypeName_run]
    change (if ((setting.head inside).isTypeName || _) = true then
      ((templateList (room + 1) (setting.head inside) setting).run inside.ahead.tail).bind _
      else none) = _
    rw [hname, Bool.true_or, if_pos rfl, templateList_plain hplain, ← htail, Option.bind_some,
      hsuffixes]
    rfl

end Grammar.Parse

end ScriptSyntax
