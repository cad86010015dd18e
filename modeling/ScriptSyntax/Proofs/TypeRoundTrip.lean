import ScriptSyntax.Proofs.ReadingOn
import ScriptSyntax.Proofs.TypeText

/-!
# Printed types are read back

A printed type is read without a report, and the node over it spells the type.  Closing brackets that
stand side by side are one token for the lexer; each list takes the first byte of what is left of it.
-/

namespace ScriptSyntax

namespace Lexeme

theorem primitive_spellings : ∀ word ∈ Keyword.entries, word.isPrimitiveType = true →
    ∀ text ∈ Lexicon.spellings word, isWord text.toList = true ∧
      classify text.toList = (.keyword word, text.toList.length) := by
  decide

theorem classify_primitive {text : String} (h : isPrimitiveName text = true) :
    isWord text.toList = true ∧ ∃ word : Keyword, word.isPrimitiveType = true ∧
      ∀ rest, endsWord rest →
        classify (text.toList ++ rest) = (.keyword word, text.toList.length) := by
  unfold isPrimitiveName at h
  obtain ⟨word, hspelled, hprimitive⟩ := (Option.any_eq_true _ _).mp h
  obtain ⟨hword, hclassify⟩ := primitive_spellings word (Keyword.mem_entries word) hprimitive text
    (Lexicon.mem_spellings_of_spelled hspelled)
  exact ⟨hword, word, hprimitive, fun rest hrest => (classify_word hword hrest).trans hclassify⟩

end Lexeme

/-! ## Names in a source -/

theorem PlainName.isWord (name : PlainName) : Lexeme.isWord name.text.toList = true :=
  (Bool.and_eq_true_iff.mp name.plain).1

theorem PlainName.classify (name : PlainName) {rest : Source} (hrest : Lexeme.endsWord rest) :
    Lexeme.classify (name.text.toList ++ rest) = (.identifier, name.text.toList.length) := by
  refine Lexeme.classify_identifier name.isWord ?_ hrest
  have hplain := (Bool.and_eq_true_iff.mp name.plain).2
  rw [Bool.not_eq_true'] at hplain
  rw [String.ofList_toList]
  exact hplain

theorem ne_nil_of_isWord {text : List Char} (h : Lexeme.isWord text = true) : text ≠ [] := by
  rintro rfl
  cases h

/-- The kind of token that a name makes. -/
inductive TypeName.Makes : TypeName → TokenKind → Prop
  | plain {name : PlainName} : Makes (.plain name) .identifier
  | primitive {text : String} {h : isPrimitiveName text = true} {word : Keyword}
      (hword : word.isPrimitiveType = true) : Makes (.primitive text h) (.keyword word)

theorem TypeName.Makes.kind {name : TypeName} {kind : TokenKind} (h : name.Makes kind) :
    kind ≠ .scope ∧ kind ≠ .const ∧ (kind.isIdentifier || kind.isPrimitiveType) = true := by
  cases h with
  | plain => exact ⟨by simp, by simp, rfl⟩
  | primitive hword =>
      refine ⟨by simp, ?_, by simp [TokenKind.isPrimitiveType, hword]⟩
      rintro heq
      cases heq
      cases hword

theorem TypeName.isWord (name : TypeName) : Lexeme.isWord name.text.toList = true := by
  cases name with
  | plain name => exact name.isWord
  | primitive text h => exact (Lexeme.classify_primitive h).1

theorem TypeName.classify (name : TypeName) :
    ∃ kind, name.Makes kind ∧ ∀ rest, Lexeme.endsWord rest →
      Lexeme.classify (name.text.toList ++ rest) = (kind, name.text.toList.length) := by
  cases name with
  | plain name => exact ⟨_, .plain, fun rest hrest => name.classify hrest⟩
  | primitive text h =>
      obtain ⟨-, word, hword, hclassify⟩ := Lexeme.classify_primitive h
      exact ⟨_, .primitive hword, hclassify⟩
namespace Node

theorem readText_ofToken (kind : NodeKind) (tokenKind : TokenKind) {source after : Source}
    {text : String} {start : Nat} (h : source.suffix? start = some (text.toList ++ after))
    (hne : text.toList ≠ []) :
    (ofToken kind ⟨tokenKind, ⟨start, start + Source.size text.toList⟩, text⟩).readText source =
      text := by
  have hpos := Source.size_pos hne
  have hspan : (ofToken kind ⟨tokenKind, ⟨start, start + Source.size text.toList⟩, text⟩).span =
      some ⟨start, start + Source.size text.toList⟩ :=
    span_ofToken kind (Nat.lt_add_of_pos_right hpos)
  have hslice : source.slice? start (start + Source.size text.toList) = some text.toList := by
    rw [Source.slice?, if_pos (Nat.le_add_right _ _), h, Option.bind_some, Nat.add_sub_cancel_left,
      Source.upTo?_append_size]
  rw [readText, Node.text, hspan, Option.bind_some, hslice, Option.getD_some, String.ofList_toList]

theorem readPlainName_ofToken {source after : Source} {kind : NodeKind} {tokenKind : TokenKind}
    {start : Nat} (name : PlainName) (h : source.suffix? start = some (name.text.toList ++ after)) :
    (ofToken kind ⟨tokenKind, ⟨start, start + Source.size name.text.toList⟩, name.text⟩).readPlainName
      source = some name := by
  have htext := readText_ofToken kind tokenKind h (ne_nil_of_isWord name.isWord)
  unfold readPlainName
  simp only [htext, name.plain, ↓reduceDIte]

theorem spellsName_ofToken {source after : Source} {tokenKind : TokenKind} {start : Nat}
    {name : TypeName} (h : source.suffix? start = some (name.text.toList ++ after))
    (hmakes : name.Makes tokenKind) :
    SpellsName source name
      (ofToken .dataType ⟨tokenKind, ⟨start, start + Source.size name.text.toList⟩, name.text⟩) := by
  have htoken := token_ofToken .dataType
    ⟨tokenKind, ⟨start, start + Source.size name.text.toList⟩, name.text⟩
  refine ⟨kind_ofToken _ _, ?_, ?_⟩
  · rw [htoken]
    cases hmakes with
    | plain => simp
    | primitive hword =>
        rintro heq
        cases heq
        cases hword
  · unfold readTypeName
    rw [htoken]
    cases hmakes with
    | plain =>
        rename_i name
        simp only [TypeName.text] at h ⊢
        rw [readPlainName_ofToken name h]
        rfl
    | @primitive text hprimitive word hword =>
        have htext := readText_ofToken .dataType (.keyword word) h
          (ne_nil_of_isWord (TypeName.isWord (.primitive text hprimitive)))
        simp only [TypeName.text] at htext ⊢
        simp only [htext, hprimitive, ↓reduceDIte]

end Node

namespace Grammar

namespace Parse

variable {setting : Setting} {diagnostics : Diagnostics} {node : Node} {offset stop : Nat}
  {token : Token}

/-! ## Suffixes -/

/-- What may stand behind a type: nothing, or what closes a template argument. -/
inductive EndsType : Source → Prop
  | nil : EndsType []
  | greater (behind : Source) : EndsType ('>' :: behind)
  | comma (behind : Source) : EndsType (',' :: behind)

theorem EndsType.endsWord {rest : Source} (h : EndsType rest) : Lexeme.endsWord rest := by
  cases h <;> exact rfl

theorem EndsType.kind (hended : setting.Ended) {rest : Source} (h : EndsType rest)
    (hfound : setting.source.suffix? offset = some rest) :
    (setting.tokenFrom offset).kind = .endOfSource ∨
      endsArgument (setting.tokenFrom offset).kind = true := by
  cases h with
  | nil =>
      left
      rw [Setting.tokenFrom, Source.tokensFrom_of_suffix? hfound, Source.tokensAt_nil]
      exact hended
  | greater behind =>
      right
      have hclassify := Lexeme.classify_greater behind
      obtain ⟨token, rest, htokens, hkind, -⟩ :=
        Source.tokensFrom_head hfound (by simp) (by rw [hclassify]; rfl)
      rw [Setting.tokenFrom_of_cons htokens, hkind, hclassify, endsArgument,
        Lexeme.angle_startsWithGreater, Bool.or_true]
  | comma behind =>
      right
      have hclassify := Lexeme.classify_comma behind
      obtain ⟨token, rest, htokens, hkind, -⟩ :=
        Source.tokensFrom_head hfound (by simp) (by rw [hclassify]; rfl)
      rw [Setting.tokenFrom_of_cons htokens, hkind, hclassify]
      rfl

/-- A mark of one character. -/
theorem mark_token {c : Char} {after : Source} {kind : TokenKind}
    (h : setting.source.suffix? offset = some (c :: after))
    (hclassify : Lexeme.classify (c :: after) = (kind, 1)) (hkind : kind.isTrivia = false)
    (hsize : c.utf8Size = 1) :
    ∃ token, setting.source.tokensFrom offset = token :: setting.source.tokensFrom (offset + 1) ∧
      token.kind = kind ∧ token.span = ⟨offset, offset + 1⟩ ∧
      setting.source.suffix? (offset + 1) = some after := by
  have hsize' : Source.size [c] = 1 := by simp [hsize]
  obtain ⟨htokens, hafter⟩ := Source.tokensFrom_token [c] after kind h hclassify (by simp) hkind
  rw [hsize'] at htokens hafter
  exact ⟨_, htokens, rfl, rfl, hafter⟩

section Suffixes

variable {start : Nat} {after : Source}

theorem append_mark {kind : NodeKind} {children : List Node} {stop : Nat} (hstart : start < offset) (hspan : token.span = ⟨offset, stop⟩)
    (hstop : offset < stop) :
    (Node.grown kind start offset children).append (.ofToken .undefined token) =
      Node.grown kind start stop (children ++ [.ofToken .undefined token]) := by
  refine Reaches.append ⟨Nat.le_of_lt hstart, Nat.le_refl _, .inl hstart⟩ hstop ?_
  rw [← hspan]
  exact Node.span_ofToken _ (by rw [hspan]; exact hstop)

theorem typeSuffixes_brackets (diagnostics : Diagnostics) (kind : NodeKind)
    (children : List Node) (hended : setting.Ended) (hstart : start < offset)
    (h : setting.source.suffix? offset = some ('[' :: ']' :: after)) :
    ∃ mark : Node, mark.kind = .undefined ∧ mark.token = some .openBracket ∧
      setting.source.suffix? (offset + 2) = some after ∧
      typeSuffixes setting (setting.reading diagnostics offset (.grown kind start offset children)) =
        typeSuffixes setting (setting.reading diagnostics (offset + 2)
          (.grown kind start (offset + 2) (children ++ [mark]))) := by
  obtain ⟨token, htokens, hkind, hspan, hnext⟩ :=
    mark_token h (Lexeme.classify_openBracket _) rfl rfl
  obtain ⟨close, hclosing, hclose, hcloseSpan, hafter⟩ :=
    mark_token hnext (Lexeme.classify_closeBracket _) rfl rfl
  refine ⟨.ofToken .undefined token, Node.kind_ofToken _ _, ?_, hafter, ?_⟩
  · rw [Node.token_ofToken, hkind]
  · unfold typeSuffixes
    refine repeatRule_again hended (reads_reading _ _ _ _) ?_
    have hhead : (setting.head (setting.reading diagnostics offset
        (.grown kind start offset children))).kind = .openBracket := by
      change (setting.tokenFrom offset).kind = _
      rw [Setting.tokenFrom_of_cons htokens, hkind]
    rw [peek_bind, hhead]
    dsimp only
    rw [bind_run, mark, leaf_reading .undefined htokens]
    dsimp only
    have hwiden : (Node.grown kind start (offset + 1)
        (children ++ [.ofToken .undefined token])).widen close.span =
        Node.grown kind start (offset + 2) (children ++ [.ofToken .undefined token]) := by
      rw [hcloseSpan]
      exact Reaches.widen ⟨by omega, Nat.le_refl _, .inl (by omega)⟩ (by omega)
    rw [append_mark hstart hspan (by omega), bind_run, coverRequired_reading hclosing hclose hwiden]
    rfl

theorem typeSuffixes_handle (diagnostics : Diagnostics) (kind : NodeKind)
    (children : List Node) (hended : setting.Ended) (hstart : start < offset)
    (h : setting.source.suffix? offset = some ('@' :: after))
    (hafter : (setting.tokenFrom (offset + 1)).kind ≠ .const) :
    ∃ mark : Node, mark.kind = .undefined ∧ mark.token = some .handle ∧
      setting.source.suffix? (offset + 1) = some after ∧
      typeSuffixes setting (setting.reading diagnostics offset (.grown kind start offset children)) =
        typeSuffixes setting (setting.reading diagnostics (offset + 1)
          (.grown kind start (offset + 1) (children ++ [mark]))) := by
  obtain ⟨token, htokens, hkind, hspan, hnext⟩ := mark_token h (Lexeme.classify_handle _) rfl rfl
  refine ⟨.ofToken .undefined token, Node.kind_ofToken _ _, ?_, hnext, ?_⟩
  · rw [Node.token_ofToken, hkind]
  · unfold typeSuffixes
    refine repeatRule_again hended (reads_reading _ _ _ _) ?_
    have hhead : (setting.head (setting.reading diagnostics offset
        (.grown kind start offset children))).kind = .handle := by
      change (setting.tokenFrom offset).kind = _
      rw [Setting.tokenFrom_of_cons htokens, hkind]
    rw [peek_bind, hhead]
    dsimp only
    rw [bind_run, mark, leaf_reading .undefined htokens]
    dsimp only
    rw [append_mark hstart hspan (by omega), bind_run, markIf_absent hafter]
    rfl

theorem const_token {rest : Source}
    (h : setting.source.suffix? offset = some (['c', 'o', 'n', 's', 't'] ++ rest))
    (hrest : Lexeme.endsWord rest) :
    ∃ token, setting.source.tokensFrom offset = token :: setting.source.tokensFrom (offset + 5) ∧
      token.kind = .const ∧ token.span = ⟨offset, offset + 5⟩ ∧
      setting.source.suffix? (offset + 5) = some rest := by
  have hword : Lexeme.isWord ['c', 'o', 'n', 's', 't'] = true := by decide
  obtain ⟨htokens, hafter⟩ := Source.tokensFrom_token ['c', 'o', 'n', 's', 't'] rest .const h
    ((Lexeme.classify_word hword hrest).trans (by decide)) (by simp) rfl
  exact ⟨_, htokens, rfl, rfl, hafter⟩

theorem typeSuffixes_constHandle (diagnostics : Diagnostics) (kind : NodeKind)
    (children : List Node) (hended : setting.Ended) (hstart : start < offset)
    (h : setting.source.suffix? offset = some ('@' :: (['c', 'o', 'n', 's', 't'] ++ after)))
    (hafter : Lexeme.endsWord after) :
    ∃ mark second : Node, (mark.kind = .undefined ∧ mark.token = some .handle) ∧
      (second.kind = .undefined ∧ second.token = some .const) ∧
      setting.source.suffix? (offset + 6) = some after ∧
      typeSuffixes setting (setting.reading diagnostics offset (.grown kind start offset children)) =
        typeSuffixes setting (setting.reading diagnostics (offset + 6)
          (.grown kind start (offset + 6) (children ++ [mark, second]))) := by
  obtain ⟨token, htokens, hkind, hspan, hnext⟩ := mark_token h (Lexeme.classify_handle _) rfl rfl
  obtain ⟨word, hwords, hword, hwordSpan, hfound⟩ := const_token hnext hafter
  refine ⟨.ofToken .undefined token, .ofToken .undefined word, ⟨Node.kind_ofToken _ _, ?_⟩,
    ⟨Node.kind_ofToken _ _, ?_⟩, hfound, ?_⟩
  · rw [Node.token_ofToken, hkind]
  · rw [Node.token_ofToken, hword]
  · unfold typeSuffixes
    refine repeatRule_again hended (reads_reading _ _ _ _) ?_
    have hhead : (setting.head (setting.reading diagnostics offset
        (.grown kind start offset children))).kind = .handle := by
      change (setting.tokenFrom offset).kind = _
      rw [Setting.tokenFrom_of_cons htokens, hkind]
    rw [peek_bind, hhead]
    dsimp only
    rw [bind_run, mark, leaf_reading .undefined htokens]
    dsimp only
    rw [append_mark hstart hspan (by omega), bind_run, markIf_reading hwords hword]
    dsimp only
    rw [append_mark (by omega) hwordSpan (by omega), List.append_assoc]
    rfl

theorem typeSuffixes_end (hended : setting.Ended) {rest : Source} (hrest : EndsType rest)
    (h : setting.source.suffix? offset = some rest) (node : Node) :
    typeSuffixes setting (setting.reading diagnostics offset node) =
      (.ok (), setting.reading diagnostics offset node) := by
  unfold typeSuffixes
  refine repeatRule_last ?_
  rw [peek_bind]
  have hkind := hrest.kind hended h
  change ((setting.head (setting.reading diagnostics offset node)).kind = _ ∨
    endsArgument (setting.head (setting.reading diagnostics offset node)).kind = true) at hkind
  generalize (setting.head (setting.reading diagnostics offset node)).kind = found at hkind
  split
  · simp [endsArgument, TokenKind.startsWithGreater] at hkind
  · simp [endsArgument, TokenKind.startsWithGreater] at hkind
  · rfl

/-- No word comes first behind a type or one of its suffixes. -/
theorem endsWord_suffixes (suffixes : List TypeSuffix) {rest : Source} (hrest : EndsType rest) :
    Lexeme.endsWord (printSuffixes suffixes ++ rest) := by
  cases suffixes with
  | nil => exact hrest.endsWord
  | cons suffix suffixes => cases suffix <;> exact rfl

/-- What the token behind a name or a list of arguments is not. -/
theorem suffixes_kind (hended : setting.Ended) {suffixes : List TypeSuffix} {rest : Source}
    (hrest : EndsType rest)
    (h : setting.source.suffix? offset = some (printSuffixes suffixes ++ rest)) :
    (setting.tokenFrom offset).kind ≠ .const ∧ (setting.tokenFrom offset).kind ≠ .scope ∧
      (setting.tokenFrom offset).kind ≠ .less := by
  have hmark {c : Char} {behind : Source} {found : TokenKind}
      (hfound : setting.source.suffix? offset = some (c :: behind))
      (hclassify : Lexeme.classify (c :: behind) = (found, 1)) (hsize : c.utf8Size = 1)
      (hkind : found = .openBracket ∨ found = .handle) :
      (setting.tokenFrom offset).kind = .openBracket ∨ (setting.tokenFrom offset).kind = .handle := by
    obtain ⟨token, htokens, htoken, -⟩ :=
      mark_token hfound hclassify (by rcases hkind with rfl | rfl <;> rfl) hsize
    rw [Setting.tokenFrom_of_cons htokens, htoken]
    exact hkind
  have hkind : (setting.tokenFrom offset).kind = .openBracket ∨
      (setting.tokenFrom offset).kind = .handle ∨ (setting.tokenFrom offset).kind = .endOfSource ∨
      endsArgument (setting.tokenFrom offset).kind = true := by
    cases suffixes with
    | nil => exact .inr (.inr (hrest.kind hended h))
    | cons suffix suffixes =>
        cases suffix with
        | brackets =>
            rcases hmark h (Lexeme.classify_openBracket _) rfl (.inl rfl) with hopen | hhandle
            · exact .inl hopen
            · exact .inr (.inl hhandle)
        | handle =>
            rcases hmark h (Lexeme.classify_handle _) rfl (.inr rfl) with hopen | hhandle
            · exact .inl hopen
            · exact .inr (.inl hhandle)
        | constHandle =>
            rcases hmark h (Lexeme.classify_handle _) rfl (.inr rfl) with hopen | hhandle
            · exact .inl hopen
            · exact .inr (.inl hhandle)
  generalize (setting.tokenFrom offset).kind = found at hkind
  refine ⟨?_, ?_, ?_⟩
  all_goals
    rintro rfl
    simp [endsArgument, TokenKind.startsWithGreater] at hkind

/-- The suffixes of a type are read as they are printed. -/
theorem typeSuffixes_reading (diagnostics : Diagnostics) (kind : NodeKind) (children : List Node) (hended : setting.Ended)
    {suffixes : List TypeSuffix} {rest : Source} (hrest : EndsType rest) (hstart : start < offset)
    (h : setting.source.suffix? offset = some (printSuffixes suffixes ++ rest)) :
    ∃ marks, Node.SpellsSuffixes suffixes marks ∧
      typeSuffixes setting (setting.reading diagnostics offset (.grown kind start offset children)) =
        (.ok (), setting.reading diagnostics (offset + Source.size (printSuffixes suffixes))
          (.grown kind start (offset + Source.size (printSuffixes suffixes)) (children ++ marks))) := by
  induction suffixes generalizing offset children with
  | nil =>
      refine ⟨[], ⟨by simp, rfl⟩, ?_⟩
      rw [List.append_nil]
      exact typeSuffixes_end hended hrest h _
  | cons suffix suffixes ih =>
      cases suffix with
      | brackets =>
          obtain ⟨mark, hkind, htoken, hfound, hrun⟩ :=
            typeSuffixes_brackets diagnostics kind children hended hstart h
          obtain ⟨marks, hmarks, hmore⟩ := ih (children ++ [mark]) (by omega) hfound
          refine ⟨mark :: marks, ⟨by simpa [hkind] using hmarks.kind, ?_⟩, ?_⟩
          · rw [Node.readSuffixes_brackets htoken, hmarks.read]
            rfl
          · rw [hrun, hmore, List.append_assoc]
            have hsize : Source.size (printSuffixes (.brackets :: suffixes)) =
                2 + Source.size (printSuffixes suffixes) := Source.size_append ['[', ']'] _
            rw [hsize, Nat.add_assoc]
            rfl
      | handle =>
          have hnext : setting.source.suffix? (offset + 1) = some (printSuffixes suffixes ++ rest) := by
            obtain ⟨-, -, -, -, hnext⟩ := mark_token h (Lexeme.classify_handle _) rfl rfl
            exact hnext
          obtain ⟨mark, hkind, htoken, hfound, hrun⟩ :=
            typeSuffixes_handle diagnostics kind children hended hstart h
              (suffixes_kind hended hrest hnext).1
          obtain ⟨marks, hmarks, hmore⟩ := ih (children ++ [mark]) (by omega) hfound
          refine ⟨mark :: marks, ⟨by simpa [hkind] using hmarks.kind, ?_⟩, ?_⟩
          · exact Node.readSuffixes_handle htoken hmarks.read
          · rw [hrun, hmore, List.append_assoc]
            have hsize : Source.size (printSuffixes (.handle :: suffixes)) =
                1 + Source.size (printSuffixes suffixes) := Source.size_append ['@'] _
            rw [hsize, Nat.add_assoc]
            rfl
      | constHandle =>
          obtain ⟨mark, second, ⟨hkind, htoken⟩, ⟨hkind', htoken'⟩, hfound, hrun⟩ :=
            typeSuffixes_constHandle diagnostics kind children hended hstart h
              (endsWord_suffixes suffixes hrest)
          obtain ⟨marks, hmarks, hmore⟩ :=
            ih (children ++ [mark, second]) (by omega) hfound
          refine ⟨mark :: second :: marks, ⟨by simpa [hkind, hkind'] using hmarks.kind, ?_⟩, ?_⟩
          · rw [Node.readSuffixes_constHandle htoken htoken', hmarks.read]
            rfl
          · rw [hrun, hmore, List.append_assoc]
            have hsize : Source.size (printSuffixes (.constHandle :: suffixes)) =
                6 + Source.size (printSuffixes suffixes) :=
              Source.size_append ['@', 'c', 'o', 'n', 's', 't'] _
            rw [hsize, Nat.add_assoc]
            rfl

end Suffixes

/-! ## Scopes -/

theorem scope_token {after : Source} (h : setting.source.suffix? offset = some (':' :: ':' :: after)) :
    ∃ token, setting.source.tokensFrom offset = token :: setting.source.tokensFrom (offset + 2) ∧
      token.kind = .scope ∧ token.span = ⟨offset, offset + 2⟩ ∧
      setting.source.suffix? (offset + 2) = some after := by
  obtain ⟨htokens, hafter⟩ := Source.tokensFrom_token [':', ':'] after .scope h
    (Lexeme.classify_scope after) (by simp) rfl
  exact ⟨_, htokens, rfl, rfl, hafter⟩

theorem plainName_token (name : PlainName) {rest : Source}
    (h : setting.source.suffix? offset = some (name.text.toList ++ rest))
    (hrest : Lexeme.endsWord rest) :
    setting.source.tokensFrom offset =
        ⟨.identifier, ⟨offset, offset + Source.size name.text.toList⟩, name.text⟩ ::
          setting.source.tokensFrom (offset + Source.size name.text.toList) ∧
      setting.source.suffix? (offset + Source.size name.text.toList) = some rest ∧
      0 < Source.size name.text.toList := by
  have hne := ne_nil_of_isWord name.isWord
  have htoken := Source.tokensFrom_token _ _ _ h (name.classify hrest) hne rfl
  rw [String.ofList_toList] at htoken
  exact ⟨htoken.1, htoken.2, Source.size_pos hne⟩

theorem typeName_token (name : TypeName) {rest : Source}
    (h : setting.source.suffix? offset = some (name.text.toList ++ rest))
    (hrest : Lexeme.endsWord rest) :
    ∃ kind, name.Makes kind ∧ setting.source.tokensFrom offset =
        ⟨kind, ⟨offset, offset + Source.size name.text.toList⟩, name.text⟩ ::
          setting.source.tokensFrom (offset + Source.size name.text.toList) ∧
      setting.source.suffix? (offset + Source.size name.text.toList) = some rest ∧
      0 < Source.size name.text.toList := by
  have hne := ne_nil_of_isWord name.isWord
  obtain ⟨kind, hmakes, hclassify⟩ := name.classify
  have hkind : kind.isTrivia = false := by cases hmakes <;> rfl
  have htoken := Source.tokensFrom_token _ _ _ h (hclassify rest hrest) hne hkind
  rw [String.ofList_toList] at htoken
  exact ⟨kind, hmakes, htoken.1, htoken.2, Source.size_pos hne⟩

theorem scopeAhead_isSome_tokensFrom (room : Nat) :
    ((scopeAhead room setting).run (setting.source.tokensFrom offset)).isSome =
      ((setting.tokenFrom offset).kind = .scope || setting.namesScope offset ||
        ((templateScopeAhead room setting).run (setting.source.tokensFrom offset)).isSome) :=
  scopeAhead_isSome room setting (setting.source.tokensFrom offset)

/-- The names of a scope. -/
def scopeNames : Parse Unit :=
  repeatRule do
    if (← peek).kind.isIdentifier && (← peekSecond).kind = .scope then
      identifier
      mark
      return true
    else return false

theorem scopeOver_eq (room : Nat) (argument : Parse Unit) :
    scopeOver room argument = (do
      if ← sees (scopeAhead room) then
        Parse.node .scope do
          markIf .scope
          scopeNames
          if ← sees (templateScopeAhead room) then
            identifier
            templateArguments argument
            mark) :=
  rfl

theorem scopeNames_end (h : setting.namesScope offset = false) (node : Node) :
    scopeNames setting (setting.reading diagnostics offset node) =
      (.ok (), setting.reading diagnostics offset node) := by
  refine repeatRule_last ?_
  rw [peek_bind, peekSecond_bind]
  change (if setting.namesScope offset = true then _ else _ : Parse Bool) setting _ = _
  rw [h]
  rfl

theorem scopeNames_again (hended : setting.Ended) (name : PlainName) {start : Nat}
    {after : Source} (kind : NodeKind) (children : List Node)
    (h : setting.source.suffix? offset = some (name.text.toList ++ ':' :: ':' :: after))
    (hstart : start ≤ offset) :
    let stop := offset + Source.size (name.text.toList ++ [':', ':'])
    ∃ first second : Node, first.readPlainName setting.source = some name ∧
      first.token ≠ some .scope ∧ start < stop ∧
      setting.source.suffix? stop = some after ∧
      scopeNames setting (setting.reading diagnostics offset (.grown kind start offset children)) =
        scopeNames setting (setting.reading diagnostics stop
          (.grown kind start stop (children ++ [first, second]))) := by
  obtain ⟨htokens, hnext, hpos⟩ := plainName_token name h rfl
  obtain ⟨mark, hmarks, hmark, hspan, hafter⟩ := scope_token hnext
  have hsize : Source.size (name.text.toList ++ [':', ':']) =
      Source.size name.text.toList + 2 := Source.size_append _ _
  rw [hsize, ← Nat.add_assoc]
  set middle := offset + Source.size name.text.toList with hmiddle
  refine ⟨.ofToken .identifier ⟨.identifier, ⟨offset, middle⟩, name.text⟩, .ofToken .undefined mark,
    Node.readPlainName_ofToken name h, ?_, by omega, hafter, ?_⟩
  · rw [Node.token_ofToken]
    simp
  · unfold scopeNames
    refine repeatRule_again hended (reads_reading _ _ _ _) ?_
    have hnames : setting.namesScope offset = true := by
      rw [Setting.namesScope, Setting.tokenFrom_of_cons htokens, Setting.secondFrom, htokens,
        List.tail_cons, hmarks, List.headD_cons, hmark]
      rfl
    rw [peek_bind, peekSecond_bind]
    change (if setting.namesScope offset = true then _ else _ : Parse Bool) setting _ = _
    simp only [hnames, ↓reduceIte]
    have hfirst : (Node.grown kind start offset children).append
        (.ofToken .identifier ⟨.identifier, ⟨offset, middle⟩, name.text⟩) =
        .grown kind start middle
          (children ++ [.ofToken .identifier ⟨.identifier, ⟨offset, middle⟩, name.text⟩]) :=
      Reaches.append ⟨hstart, Nat.le_refl _, by omega⟩ (by omega)
        (Node.span_ofToken _ (show offset < middle by omega))
    rw [bind_run, identifier_reading htokens rfl]
    dsimp only
    rw [hfirst, bind_run, Parse.mark, leaf_reading .undefined hmarks]
    dsimp only
    rw [append_mark (by omega) hspan (by omega), List.append_assoc]
    rfl

theorem scopeNames_reading (hended : setting.Ended) {scopes : List PlainName} {start : Nat}
    {tail : Source} (diagnostics : Diagnostics) (kind : NodeKind) (children : List Node)
    (h : setting.source.suffix? offset = some (printNames scopes ++ tail))
    (hend : setting.namesScope (offset + Source.size (printNames scopes)) = false)
    (hstart : start ≤ offset) :
    ∃ nodes, Node.readNames setting.source nodes = some scopes ∧
      (∀ node ∈ nodes.head?, node.token ≠ some .scope) ∧
      scopeNames setting (setting.reading diagnostics offset (.grown kind start offset children)) =
        (.ok (), setting.reading diagnostics (offset + Source.size (printNames scopes))
          (.grown kind start (offset + Source.size (printNames scopes)) (children ++ nodes))) := by
  induction scopes generalizing offset children with
  | nil =>
      refine ⟨[], rfl, by simp, ?_⟩
      rw [List.append_nil]
      exact scopeNames_end hend _
  | cons name scopes ih =>
      have hprint : printNames (name :: scopes) ++ tail =
          name.text.toList ++ ':' :: ':' :: (printNames scopes ++ tail) := by
        simp [printNames]
      have hsize : Source.size (printNames (name :: scopes)) =
          Source.size (name.text.toList ++ [':', ':']) + Source.size (printNames scopes) :=
        Source.size_append _ _
      rw [hprint] at h
      rw [hsize, ← Nat.add_assoc] at hend ⊢
      obtain ⟨first, second, hread, htoken, hlt, hfound, hrun⟩ :=
        scopeNames_again hended name kind children h hstart
      obtain ⟨nodes, hnames, -, hmore⟩ :=
        ih (children ++ [first, second]) hfound hend (Nat.le_of_lt hlt)
      refine ⟨first :: second :: nodes, ?_, by simpa using htoken, ?_⟩
      · simp [Node.readNames, hread, hnames]
      · rw [hrun, hmore, List.append_assoc]
        rfl

theorem scopeOver_absent {room : Nat} {argument : Parse Unit}
    (hkind : (setting.tokenFrom offset).kind ≠ .scope) (hnames : setting.namesScope offset = false)
    (htemplate : ((templateScopeAhead room setting).run
      (setting.source.tokensFrom offset)).isSome = false) (node : Node) :
    scopeOver room argument setting (setting.reading diagnostics offset node) =
      (.ok (), setting.reading diagnostics offset node) := by
  have hahead : ((scopeAhead room setting).run
      (setting.reading diagnostics offset node).ahead).isSome = false := by
    change ((scopeAhead room setting).run (setting.source.tokensFrom offset)).isSome = false
    rw [scopeAhead_isSome_tokensFrom, hnames, htemplate]
    simp [hkind]
  rw [scopeOver, sees_bind, hahead]
  rfl

/-- The first token of a printed scope. -/
theorem scope_start {rooted : Bool} {scopes : List PlainName} {tail : Source}
    (h : setting.source.suffix? offset = some (printScope rooted scopes ++ tail))
    (hpresent : rooted = true ∨ scopes ≠ []) :
    rooted = true ∧ (setting.tokenFrom offset).kind = .scope ∨
      rooted = false ∧ (setting.tokenFrom offset).kind = .identifier ∧
        setting.namesScope offset = true := by
  cases rooted with
  | true =>
      obtain ⟨mark, hmarks, hmark, -⟩ := scope_token h
      exact .inl ⟨rfl, by rw [Setting.tokenFrom_of_cons hmarks, hmark]⟩
  | false =>
      cases scopes with
      | nil => simp at hpresent
      | cons name scopes =>
          have hprint : printScope false (name :: scopes) ++ tail =
              name.text.toList ++ ':' :: ':' :: (printNames scopes ++ tail) := by
            simp [printScope, printNames]
          rw [hprint] at h
          obtain ⟨htokens, hnext, -⟩ := plainName_token name h rfl
          obtain ⟨mark, hmarks, hmark, -⟩ := scope_token hnext
          refine .inr ⟨rfl, by rw [Setting.tokenFrom_of_cons htokens], ?_⟩
          rw [Setting.namesScope, Setting.tokenFrom_of_cons htokens, Setting.secondFrom, htokens,
            List.tail_cons, hmarks, List.headD_cons, hmark]
          rfl

/-- The children of the node over a printed scope. -/
theorem scopeChildren_reading (hended : setting.Ended) {rooted : Bool} {scopes : List PlainName}
    {tail : Source} (diagnostics : Diagnostics)
    (h : setting.source.suffix? offset = some (printScope rooted scopes ++ tail))
    (hpresent : rooted = true ∨ scopes ≠ [])
    (hstop : stop = offset + Source.size (printScope rooted scopes))
    (hnames : setting.namesScope stop = false) :
    ∃ (nodes : List Node) (marked : Session),
      Node.readScope setting.source nodes = some (rooted, scopes) ∧
      markIf .scope setting (setting.reading diagnostics offset (.empty .scope)) = (.ok (), marked) ∧
      scopeNames setting marked =
        (.ok (), setting.reading diagnostics stop (.grown .scope offset stop nodes)) := by
  rcases scope_start h hpresent with ⟨rfl, -⟩ | ⟨rfl, hkind, -⟩
  · obtain ⟨mark, hmarks, hmark, hspan, hfound⟩ := scope_token h
    have hsize : stop = offset + 2 + Source.size (printNames scopes) := by
      rw [hstop, Nat.add_assoc]
      exact congrArg (offset + ·) (Source.size_append [':', ':'] _)
    have hfirst : (Node.empty .scope).append (.ofToken .undefined mark) =
        .grown .scope offset (offset + 2) [.ofToken .undefined mark] := by
      rw [← Node.grown_empty .scope offset]
      refine (Reaches.refl offset).append (by omega) ?_
      rw [← hspan]
      exact Node.span_ofToken _ (by rw [hspan]; exact Nat.lt_add_of_pos_right (by decide))
    obtain ⟨nodes, hread, -, hrun⟩ := scopeNames_reading hended diagnostics .scope
      [.ofToken .undefined mark] hfound (hsize ▸ hnames) (Nat.le_add_right offset 2)
    rw [← hsize] at hrun
    refine ⟨.ofToken .undefined mark :: nodes, _, ?_,
      (markIf_reading hmarks hmark).trans (by rw [hfirst]), hrun⟩
    simp [Node.readScope, Node.token_ofToken, hmark, hread]
  · obtain ⟨nodes, hread, hhead, hrun⟩ := scopeNames_reading hended diagnostics .scope [] h
      (hstop ▸ hnames) (Nat.le_refl offset)
    rw [Node.grown_empty, List.nil_append] at hrun
    refine ⟨nodes, _, ?_, markIf_absent (by rw [hkind]; simp), hstop ▸ hrun⟩
    cases nodes with
    | nil =>
        cases hread
        rfl
    | cons first rest =>
        have hfirst : first.token ≠ some .scope := hhead first rfl
        simp [Node.readScope, hfirst, hread]

/-- A scope is read as it is printed, in front of a name with no scope mark behind it. -/
theorem scopeOver_reading (hended : setting.Ended) {room : Nat} {argument : Parse Unit}
    {rooted : Bool} {scopes : List PlainName} {start reached : Nat} {tail : Source}
    (diagnostics : Diagnostics) (kind : NodeKind) (children : List Node)
    (h : setting.source.suffix? offset = some (printScope rooted scopes ++ tail))
    (hstop : stop = offset + Source.size (printScope rooted scopes))
    (hkind : (setting.tokenFrom stop).kind ≠ .scope) (hnames : setting.namesScope stop = false)
    (htemplate : ((templateScopeAhead room setting).run
      (setting.source.tokensFrom stop)).isSome = false)
    (hreaches : Reaches start reached offset) :
    ∃ nodes reached', Node.SpellsScope setting.source rooted scopes nodes ∧
      Reaches start reached' stop ∧
      scopeOver room argument setting
          (setting.reading diagnostics offset (.grown kind start reached children)) =
        (.ok (), setting.reading diagnostics stop (.grown kind start reached' (children ++ nodes))) := by
  by_cases hpresent : rooted = true ∨ scopes ≠ []
  · obtain ⟨nodes, marked, hread, hmark, hnamed⟩ :=
      scopeChildren_reading hended diagnostics h hpresent hstop hnames
    have hlt : offset < stop := by
      have hne : printScope rooted scopes ≠ [] := by
        rcases hpresent with rfl | hne
        · simp [printScope]
        · obtain ⟨name, others, rfl⟩ := List.exists_cons_of_ne_nil hne
          simp [printScope, printNames]
      have hpos := Source.size_pos hne
      omega
    have hspan : (Node.grown .scope offset stop nodes).span = some ⟨offset, stop⟩ := by
      rw [Node.grown, if_pos hlt]
    have hahead : ((scopeAhead room setting).run (setting.source.tokensFrom offset)).isSome = true := by
      rw [scopeAhead_isSome_tokensFrom]
      rcases scope_start h hpresent with ⟨-, hscope⟩ | ⟨-, -, hname⟩
      · simp [hscope]
      · simp [hname]
    refine ⟨[.grown .scope offset stop nodes], stop, .present rfl rfl hread, hreaches.next hlt, ?_⟩
    rw [scopeOver_eq, sees_bind]
    change (if ((scopeAhead room setting).run (setting.source.tokensFrom offset)).isSome = true
      then _ else _ : Parse Unit) setting _ = _
    simp only [hahead, ↓reduceIte]
    rw [← hreaches.append hlt hspan]
    refine node_reading ?_ _
    rw [bind_run, hmark]
    dsimp only
    rw [bind_run, hnamed]
    dsimp only
    rw [sees_bind]
    change (if ((templateScopeAhead room setting).run (setting.source.tokensFrom stop)).isSome = true
      then _ else _ : Parse Unit) setting _ = _
    rw [htemplate]
    rfl
  · obtain ⟨rfl, rfl⟩ : rooted = false ∧ scopes = [] := by simpa using hpresent
    have hsame : stop = offset := hstop
    subst hsame
    refine ⟨[], reached, .absent, hreaches, ?_⟩
    rw [List.append_nil]
    exact scopeOver_absent hkind hnames htemplate _

/-! ## Qualifiers -/

theorem tokensFrom_blank {after : Source}
    (h : setting.source.suffix? offset = some (' ' :: after)) :
    setting.source.tokensFrom offset = setting.source.tokensFrom (offset + 1) ∧
      setting.source.suffix? (offset + 1) = some after := by
  have hafter : setting.source.suffix? (offset + 1) = some after := Source.suffix?_behind (show
    setting.source.suffix? offset = some ([' '] ++ after) from h)
  rw [Source.tokensFrom_of_suffix? h, Source.tokensFrom_of_suffix? hafter]
  exact ⟨Source.tokensAt_blank rfl after, hafter⟩

/-- A printed `const` is read together with the blank behind it. -/
theorem constMark_reading {isConst rooted : Bool} {tail : Source} (diagnostics : Diagnostics)
    (h : setting.source.suffix? offset = some (printConst isConst rooted ++ tail))
    (htail : rooted = true → Lexeme.endsWord tail)
    (hstop : stop = offset + Source.size (printConst isConst rooted))
    (hkind : (setting.tokenFrom stop).kind ≠ .const) :
    ∃ marks reached, Node.SpellsConst isConst marks ∧ Reaches offset reached stop ∧
      markIf .const setting (setting.reading diagnostics offset (.empty .dataType)) =
        (.ok (), setting.reading diagnostics stop (.grown .dataType offset reached marks)) := by
  cases isConst with
  | false =>
      have hsame : stop = offset := hstop
      subst hsame
      refine ⟨[], stop, .absent, .refl stop, ?_⟩
      rw [Node.grown_empty]
      exact markIf_absent hkind
  | true =>
      have hmark {token : Token} (hkind : token.kind = .const)
          (hspan : token.span = ⟨offset, offset + 5⟩) :
          Node.SpellsConst true [.ofToken .undefined token] ∧
            (Node.empty .dataType).append (.ofToken .undefined token) =
              .grown .dataType offset (offset + 5) [.ofToken .undefined token] := by
        refine ⟨.present (by rw [Node.token_ofToken, hkind]), ?_⟩
        rw [← Node.grown_empty .dataType offset]
        refine (Reaches.refl offset).append (by omega) ?_
        rw [← hspan]
        exact Node.span_ofToken _ (by rw [hspan]; exact Nat.lt_add_of_pos_right (by decide))
      cases rooted with
      | true =>
          obtain ⟨token, htokens, hconst, hspan, -⟩ := const_token h (htail rfl)
          obtain ⟨hspells, happend⟩ := hmark hconst hspan
          have hsame : stop = offset + 5 := hstop
          subst hsame
          refine ⟨_, offset + 5, hspells, (Reaches.refl offset).next (by omega), ?_⟩
          rw [markIf_reading htokens hconst, happend]
      | false =>
          obtain ⟨token, htokens, hconst, hspan, hblank⟩ := const_token h rfl
          obtain ⟨hspells, happend⟩ := hmark hconst hspan
          have hsame : stop = offset + 5 + 1 := hstop
          subst hsame
          rw [(tokensFrom_blank hblank).1] at htokens
          refine ⟨_, offset + 5, hspells, ⟨by omega, by omega, by omega⟩, ?_⟩
          rw [markIf_reading htokens hconst, happend]

/-! ## Lists of arguments -/

/-- The rule reads the printed type wherever it stands. -/
def ReadsTree (setting : Setting) (rule : Parse Unit) (tree : TypeTree) : Prop :=
  ∀ diagnostics offset rest, EndsType rest →
    setting.source.suffix? offset = some (tree.print ++ rest) →
      ∃ node : Node, node.kind = .dataType ∧
        node.span = some ⟨offset, offset + Source.size tree.print⟩ ∧
        node.readType setting.source = some tree ∧
        ∀ outer, rule setting (setting.reading diagnostics offset outer) =
          (.ok (), setting.reading diagnostics (offset + Source.size tree.print) (outer.append node))

theorem commaSeparated_again (hended : setting.Ended) {item : Parse Unit} [Advances item]
    {node after : Node} {next : Nat}
    (hitem : item setting (setting.reading diagnostics offset node) =
      (.ok (), setting.reading diagnostics stop after))
    (htokens : setting.source.tokensFrom stop = token :: setting.source.tokensFrom next)
    (hkind : token.kind = .comma) :
    commaSeparated item setting (setting.reading diagnostics offset node) =
      commaSeparated item setting (setting.reading diagnostics next after) := by
  unfold commaSeparated
  refine repeatRule_again hended (reads_reading _ _ _ _) ?_
  have hhead : (setting.head (setting.reading diagnostics stop after)).kind = .comma := by
    change (setting.tokenFrom stop).kind = _
    rw [Setting.tokenFrom_of_cons htokens, hkind]
  rw [bind_run, hitem]
  dsimp only
  rw [nextIs_bind]
  simp only [hhead, decide_true, ↓reduceIte]
  unfold Setting.reading
  rw [htokens]
  rfl

theorem commaSeparated_last {item : Parse Unit} {node after : Node}
    (hitem : item setting (setting.reading diagnostics offset node) =
      (.ok (), setting.reading diagnostics stop after))
    (hkind : (setting.tokenFrom stop).kind ≠ .comma) :
    commaSeparated item setting (setting.reading diagnostics offset node) =
      (.ok (), setting.reading diagnostics stop after) := by
  unfold commaSeparated
  refine repeatRule_last ?_
  have hhead : (setting.head (setting.reading diagnostics stop after)).kind ≠ .comma := hkind
  rw [bind_run, hitem]
  dsimp only
  rw [nextIs_bind]
  simp only [hhead, decide_false, Bool.false_eq_true, ↓reduceIte]
  rfl

/-- A token that starts with `>` comes next. -/
theorem greater_token {after : Source} (h : setting.source.suffix? offset = some ('>' :: after)) :
    ∃ token rest, setting.source.tokensFrom offset = token :: rest ∧
      token.kind.startsWithGreater = true ∧ token.span.start = offset := by
  have hclassify := Lexeme.classify_greater after
  obtain ⟨token, rest, htokens, hkind, hstart⟩ :=
    Source.tokensFrom_head h (by simp) (by rw [hclassify]; rfl)
  refine ⟨token, rest, htokens, ?_, hstart⟩
  rw [hkind, hclassify]
  exact Lexeme.angle_startsWithGreater after

/-- A printed type starts with a word or with a scope mark. -/
theorem print_start (tree : TypeTree) :
    ∃ c rest, tree.print = c :: rest ∧ (Lexeme.isWordStart c = true ∨ c = ':') := by
  have hname {text : String} (hword : Lexeme.isWord text.toList = true) :
      ∃ c rest, text.toList = c :: rest ∧ Lexeme.isWordStart c = true := by
    obtain ⟨c, rest, heq⟩ := List.exists_cons_of_ne_nil (ne_nil_of_isWord hword)
    rw [heq] at hword
    exact ⟨c, rest, heq, (Lexeme.isWord_cons hword).1⟩
  obtain ⟨isConst, rooted, scopes, name, arguments, suffixes⟩ := tree
  cases isConst with
  | true => exact ⟨'c', _, rfl, .inl rfl⟩
  | false =>
      cases rooted with
      | true => exact ⟨':', _, rfl, .inr rfl⟩
      | false =>
          cases scopes with
          | nil =>
              obtain ⟨c, rest, heq, hstart⟩ := hname name.isWord
              refine ⟨c, rest ++ (printList (TypeTree.printEach arguments) ++ printSuffixes suffixes), ?_,
                .inl hstart⟩
              simp [TypeTree.print, printConst, printScope, printNames, heq]
          | cons first scopes =>
              obtain ⟨c, rest, heq, hstart⟩ := hname first.isWord
              have hprint : (TypeTree.mk false false (first :: scopes) name arguments suffixes).print =
                  first.text.toList ++ ([':', ':'] ++ (printNames scopes ++ (name.text.toList ++
                    (printList (TypeTree.printEach arguments) ++ printSuffixes suffixes)))) := by
                simp [TypeTree.print, printConst, printScope, printNames]
              rw [hprint, heq]
              exact ⟨c, _, rfl, .inl hstart⟩

theorem size_print_pos (tree : TypeTree) : 0 < Source.size tree.print := by
  obtain ⟨c, rest, heq, -⟩ := print_start tree
  exact Source.size_pos (by rw [heq]; simp)

/-- A printed type is read into the node that is being built. -/
theorem ReadsTree.grown {rule : Parse Unit} {tree : TypeTree} {start reached : Nat} {rest : Source}
    (diagnostics : Diagnostics) (hreads : ReadsTree setting rule tree) (hrest : EndsType rest)
    (h : setting.source.suffix? offset = some (tree.print ++ rest))
    (hstop : stop = offset + Source.size tree.print) (hreaches : Reaches start reached offset) :
    ∃ node : Node, node.kind = .dataType ∧ node.readType setting.source = some tree ∧ start < stop ∧
      setting.source.suffix? stop = some rest ∧ ∀ kind children,
        rule setting (setting.reading diagnostics offset (.grown kind start reached children)) =
          (.ok (), setting.reading diagnostics stop (.grown kind start stop (children ++ [node]))) := by
  have hpos := size_print_pos tree
  obtain ⟨node, hnode, hspan, hread, hrun⟩ := hreads diagnostics offset rest hrest h
  subst hstop
  have hreached := hreaches.start_le
  have hhere := hreaches.le_here
  refine ⟨node, hnode, hread, by omega, Source.suffix?_behind h, ?_⟩
  intro kind children
  rw [hrun, hreaches.append (by omega) hspan]

/-- Printed types are read one after the other. -/
theorem arguments_reading (hended : setting.Ended) {argument : Parse Unit} [Advances argument]
    {first : TypeTree} {others : List TypeTree} {start reached : Nat} {tail : Source}
    (diagnostics : Diagnostics) (kind : NodeKind) (children : List Node)
    (hreads : ∀ tree ∈ first :: others, ReadsTree setting argument tree)
    (h : setting.source.suffix? offset =
      some (first.print ++ ((TypeTree.printEach others).flatMap (',' :: ·) ++ '>' :: tail)))
    (hstop : stop = offset + Source.size (first.print ++
      (TypeTree.printEach others).flatMap (',' :: ·)))
    (hreaches : Reaches start reached offset) :
    ∃ nodes, Node.SpellsList setting.source (first :: others) nodes ∧ start < stop ∧
      commaSeparated argument setting
          (setting.reading diagnostics offset (.grown kind start reached children)) =
        (.ok (), setting.reading diagnostics stop (.grown kind start stop (children ++ nodes))) := by
  induction others generalizing first offset reached children with
  | nil =>
      have hsame : stop = offset + Source.size first.print := by
        rw [hstop, TypeTree.printEach, List.flatMap_nil, List.append_nil]
      obtain ⟨node, hnode, hread, hstart, hfound, hrun⟩ :=
        (hreads first List.mem_cons_self).grown diagnostics (.greater tail) h hsame hreaches
      refine ⟨[node], ⟨by simpa using hnode, by simp [hread]⟩, hstart,
        commaSeparated_last (hrun kind children) ?_⟩
      obtain ⟨token, rest, htokens, hkind, -⟩ := greater_token hfound
      rw [Setting.tokenFrom_of_cons htokens]
      rintro hcomma
      rw [hcomma] at hkind
      cases hkind
  | cons second others ih =>
      have hprint : (TypeTree.printEach (second :: others)).flatMap (',' :: ·) =
          ',' :: (second.print ++ (TypeTree.printEach others).flatMap (',' :: ·)) := by
        rw [TypeTree.printEach, List.flatMap_cons]
        rfl
      rw [hprint] at h hstop
      rw [List.cons_append, List.append_assoc] at h
      obtain ⟨node, hnode, hread, hstart, hfound, hrun⟩ :=
        (hreads first List.mem_cons_self).grown diagnostics (.comma _) h rfl hreaches
      obtain ⟨comma, htokens, hcomma, -, hnext⟩ :=
        mark_token hfound (Lexeme.classify_comma _) rfl rfl
      have hrest : stop = offset + Source.size first.print + 1 + Source.size (second.print ++
          (TypeTree.printEach others).flatMap (',' :: ·)) := by
        rw [hstop, Source.size_append first.print, Source.size_cons, Nat.add_assoc, Nat.add_assoc]
        rfl
      obtain ⟨nodes, hspells, hlt, hmore⟩ := ih (children ++ [node])
        (fun tree hmem => hreads tree (List.mem_cons_of_mem _ hmem)) hnext
        hrest
        ⟨Nat.le_of_lt hstart, Nat.le_succ _, .inl hstart⟩
      refine ⟨node :: nodes, ⟨?_, ?_⟩, hlt, ?_⟩
      · simpa [hnode] using hspells.kind
      · rw [List.map_cons, List.map_cons, hread, hspells.read]
      · rw [commaSeparated_again hended (hrun kind children) htokens hcomma, hmore,
          List.append_assoc]
        rfl

/-- A printed list is read up to its own closing bracket, whatever stands behind it. -/
theorem templateArguments_reading (hended : setting.Ended) {argument : Parse Unit}
    [Advances argument] {arguments : List TypeTree} {start : Nat} {tail : Source}
    (diagnostics : Diagnostics) (kind : NodeKind) (children : List Node) (hne : arguments ≠ [])
    (hreads : ∀ tree ∈ arguments, ReadsTree setting argument tree)
    (h : setting.source.suffix? offset = some (printList (TypeTree.printEach arguments) ++ tail))
    (hstop : stop = offset + Source.size (printList (TypeTree.printEach arguments)))
    (hstart : start < offset) :
    (setting.tokenFrom offset).kind = .less ∧ ∃ nodes,
      Node.SpellsList setting.source arguments nodes ∧ start < stop ∧
      templateArguments argument setting
          (setting.reading diagnostics offset (.grown kind start offset children)) =
        (.ok (), setting.reading diagnostics stop (.grown kind start stop (children ++ nodes))) := by
  obtain ⟨first, others, rfl⟩ := List.exists_cons_of_ne_nil hne
  have hprint : printList (TypeTree.printEach (first :: others)) =
      '<' :: (first.print ++ ((TypeTree.printEach others).flatMap (',' :: ·) ++ ['>'])) := by
    rw [TypeTree.printEach, printList]
  have htext : printList (TypeTree.printEach (first :: others)) ++ tail =
      '<' :: (first.print ++ ((TypeTree.printEach others).flatMap (',' :: ·) ++ '>' :: tail)) := by
    rw [hprint]
    simp
  rw [htext] at h
  have hhead : (first.print ++ ((TypeTree.printEach others).flatMap (',' :: ·) ++
      '>' :: tail)).head?.any (fun c => c == '<' || c == '=') = false := by
    obtain ⟨c, rest, heq, hc⟩ := print_start first
    rw [heq, List.cons_append, List.head?_cons, Option.any_some]
    rcases hc with hc | rfl
    · simp [Lexeme.ne_of_isWordStart hc (show Lexeme.isWordStart '<' = false from rfl),
        Lexeme.ne_of_isWordStart hc (show Lexeme.isWordStart '=' = false from rfl)]
    · rfl
  obtain ⟨less, hlesses, hless, -, hnext⟩ := mark_token h (Lexeme.classify_less hhead) rfl rfl
  obtain ⟨closing, hclosing⟩ : ∃ closing, closing = offset + 1 + Source.size (first.print ++
      (TypeTree.printEach others).flatMap (',' :: ·)) := ⟨_, rfl⟩
  have hlast : stop = closing + 1 := by
    have hsize : Source.size ['>'] = 1 := rfl
    have hsize' : ('<' : Char).utf8Size = 1 := rfl
    rw [hstop, hclosing, hprint, ← List.append_assoc, Source.size_cons, Source.size_append]
    omega
  have hbracket : setting.source.suffix? closing = some ('>' :: tail) := by
    rw [hclosing]
    refine Source.suffix?_behind ?_
    rw [List.append_assoc]
    exact hnext
  obtain ⟨nodes, hspells, hlt, hrun⟩ := arguments_reading hended diagnostics kind children hreads
    hnext hclosing ⟨Nat.le_of_lt hstart, Nat.le_succ offset, .inl hstart⟩
  obtain ⟨greater, rest, hgreaters, hgreater, hfirst⟩ := greater_token hbracket
  -- Only the first byte of the closing token is passed.
  have hpassed : setting.afterGreater? (setting.source.tokensFrom closing) =
      some (setting.source.tokensFrom stop) := by
    have hreads : setting.Reads (greater :: rest) := ⟨closing, hgreaters.symm⟩
    rw [hgreaters, hreads.afterGreater?, if_pos hgreater, hfirst, hlast]
  refine ⟨by rw [Setting.tokenFrom_of_cons hlesses, hless], nodes, hspells, by omega, ?_⟩
  rw [templateArguments, bind_run, require_reading hlesses hless]
  dsimp only
  rw [bind_run, hrun]
  dsimp only
  rw [read_bind, ahead_bind]
  rw [show setting.afterGreater? (Session.ahead _) = _ from hpassed]
  dsimp only
  rw [peek_bind, widen_bind]
  have hwiden : (Node.grown kind start closing (children ++ nodes)).widen
      (.ofLength (setting.head (setting.reading diagnostics closing
        (.grown kind start closing (children ++ nodes)))).span.start 1) =
      .grown kind start stop (children ++ nodes) := by
    have hhead : setting.head (setting.reading diagnostics closing
        (.grown kind start closing (children ++ nodes))) = greater :=
      Setting.tokenFrom_of_cons hgreaters
    rw [hhead, hfirst, hlast]
    exact Reaches.widen ⟨Nat.le_of_lt hlt, Nat.le_refl _, .inl hlt⟩ (Nat.lt_succ_self closing)
  rw [← hwiden]
  rfl

/-! ## Types -/

/-- The text of a type behind its name. -/
def behindName (arguments : List TypeTree) (suffixes : List TypeSuffix) : Source :=
  printList (TypeTree.printEach arguments) ++ printSuffixes suffixes

theorem endsWord_behindName (arguments : List TypeTree) (suffixes : List TypeSuffix)
    {rest : Source} (hrest : EndsType rest) :
    Lexeme.endsWord (behindName arguments suffixes ++ rest) := by
  cases arguments with
  | nil => exact endsWord_suffixes suffixes hrest
  | cons first others =>
      rw [behindName, TypeTree.printEach, printList]
      exact rfl

/-- What is known where the name of a printed type stands. -/
structure NamePlace (setting : Setting) (room : Nat) (name : TypeName) (arguments : List TypeTree)
    (suffixes : List TypeSuffix) (rest : Source) (offset : Nat) : Prop where
  found : setting.source.suffix? offset =
    some (name.text.toList ++ (behindName arguments suffixes ++ rest))
  ends : EndsType rest
  takes : arguments ≠ [] → name.takesArguments setting.options = true
  reads : ∀ tree ∈ arguments, ReadsTree setting (dataType room {}) tree

namespace NamePlace

variable {room : Nat} {name : TypeName} {arguments : List TypeTree} {suffixes : List TypeSuffix}
  {rest : Source}

/-- The token of the name. -/
theorem named (h : NamePlace setting room name arguments suffixes rest offset) :
    ∃ kind, name.Makes kind ∧ setting.source.tokensFrom offset =
        ⟨kind, ⟨offset, offset + Source.size name.text.toList⟩, name.text⟩ ::
          setting.source.tokensFrom (offset + Source.size name.text.toList) ∧
      setting.source.suffix? (offset + Source.size name.text.toList) =
        some (behindName arguments suffixes ++ rest) ∧ 0 < Source.size name.text.toList :=
  typeName_token name h.found (endsWord_behindName arguments suffixes h.ends)

/-- The list behind the name, if there is one. -/
theorem list (hended : setting.Ended)
    (h : NamePlace setting room name arguments suffixes rest offset) (hne : arguments ≠ [])
    {start : Nat} (hstart : start < offset + Source.size name.text.toList)
    (diagnostics : Diagnostics) (kind : NodeKind) (children : List Node) :
    let middle := offset + Source.size name.text.toList
    let behind := middle + Source.size (printList (TypeTree.printEach arguments))
    (setting.tokenFrom middle).kind = .less ∧ ∃ nodes,
      Node.SpellsList setting.source arguments nodes ∧ start < behind ∧
      templateArguments (dataType room {}) setting
          (setting.reading diagnostics middle (.grown kind start middle children)) =
        (.ok (), setting.reading diagnostics behind (.grown kind start behind (children ++ nodes))) := by
  obtain ⟨-, -, -, hfound, -⟩ := h.named
  rw [behindName, List.append_assoc] at hfound
  exact templateArguments_reading hended diagnostics kind children hne h.reads hfound rfl hstart

theorem behind_found (h : NamePlace setting room name arguments suffixes rest offset) :
    setting.source.suffix? (offset + Source.size name.text.toList +
        Source.size (printList (TypeTree.printEach arguments))) =
      some (printSuffixes suffixes ++ rest) := by
  obtain ⟨-, -, -, hfound, -⟩ := h.named
  rw [behindName, List.append_assoc] at hfound
  exact Source.suffix?_behind hfound

/-- No scope mark stands behind the name. -/
theorem second_kind (hended : setting.Ended)
    (h : NamePlace setting room name arguments suffixes rest offset) :
    (setting.tokenFrom (offset + Source.size name.text.toList)).kind ≠ .scope ∧
      (arguments = [] → (setting.tokenFrom (offset + Source.size name.text.toList)).kind ≠ .less) := by
  by_cases hne : arguments = []
  · subst hne
    obtain ⟨-, -, -, hfound, -⟩ := h.named
    obtain ⟨-, hscope, hless⟩ := suffixes_kind hended h.ends hfound
    exact ⟨hscope, fun _ => hless⟩
  · obtain ⟨-, -, -, -, hpos⟩ := h.named
    obtain ⟨hless, -⟩ := h.list hended hne (Nat.lt_add_of_pos_right hpos) {} .dataType []
    refine ⟨?_, fun hnil => absurd hnil hne⟩
    rw [hless]
    simp

theorem namesScope (hended : setting.Ended)
    (h : NamePlace setting room name arguments suffixes rest offset) :
    setting.namesScope offset = false := by
  obtain ⟨kind, -, htokens, -⟩ := h.named
  have hsecond : (setting.secondFrom offset).kind ≠ .scope := by
    rw [Setting.secondFrom, htokens, List.tail_cons]
    exact (h.second_kind hended).1
  simp [Setting.namesScope, hsecond]

/-- The name with its list is no scope, since none of the marks behind the list is one. -/
theorem templateScope (hended : setting.Ended)
    (h : NamePlace setting room name arguments suffixes rest offset) :
    ((templateScopeAhead room setting).run (setting.source.tokensFrom offset)).isSome = false := by
  obtain ⟨kind, hmakes, htokens, -, hpos⟩ := h.named
  rw [Bool.eq_false_iff]
  intro hsees
  have hlists : setting.listsArguments (setting.tokenFrom offset)
      (setting.source.tokensFrom offset).tail = true := by
    obtain ⟨-, hlists, -⟩ := templateScopeAhead_some hsees
    exact hlists
  rw [Setting.tokenFrom_of_cons htokens, htokens, List.tail_cons, Setting.listsArguments,
    Bool.and_eq_true, decide_eq_true_iff] at hlists
  obtain ⟨htemplate, hless⟩ := hlists
  have hne : arguments ≠ [] := fun hnil => (h.second_kind hended).2 hnil hless
  have hidentifier : kind.isIdentifier = true := (Bool.and_eq_true_iff.mp htemplate).1
  have hfirst : (Node.grown .scope offset offset []).append (.ofToken .identifier
      ⟨kind, ⟨offset, offset + Source.size name.text.toList⟩, name.text⟩) = _ :=
    (Reaches.refl offset).append (Nat.lt_add_of_pos_right hpos)
      (Node.span_ofToken _ (Nat.lt_add_of_pos_right hpos))
  have hnamed : identifier setting
      (setting.reading {} offset (.grown .scope offset offset [])) = _ :=
    identifier_reading htokens hidentifier
  rw [hfirst] at hnamed
  obtain ⟨-, nodes, -, -, hlisted⟩ := h.list hended hne (Nat.lt_add_of_pos_right hpos) {} .scope _
  have hmark := templateScope_mark hended (reads_reading setting {} offset _).orderly hsees hnamed
    hlisted
  exact (suffixes_kind hended h.ends h.behind_found).2.1 hmark

end NamePlace

/-- What is read of a type from its name on. -/
theorem name_reading (hended : setting.Ended) {room : Nat} {name : TypeName}
    {arguments : List TypeTree} {suffixes : List TypeSuffix} {rest : Source} {start reached : Nat}
    (h : NamePlace setting room name arguments suffixes rest offset)
    (hreaches : Reaches start reached offset) (diagnostics : Diagnostics) (forms : TypeForms)
    (children : List Node)
    (hstop : stop = offset + Source.size name.text.toList +
      Source.size (printList (TypeTree.printEach arguments)) + Source.size (printSuffixes suffixes)) :
    ∃ nameNode nodes marks, Node.SpellsName setting.source name nameNode ∧
      Node.SpellsList setting.source arguments nodes ∧ Node.SpellsSuffixes suffixes marks ∧
      start < stop ∧
      (do
        let name ← peek
        typeName forms
        if (← read).isTemplateName name && (← nextIs .less) then
          templateArguments (dataType room {})
        typeSuffixes) setting
          (setting.reading diagnostics offset (.grown .dataType start reached children)) =
        (.ok (), setting.reading diagnostics stop
          (.grown .dataType start stop (children ++ nameNode :: (nodes ++ marks)))) := by
  obtain ⟨kind, hmakes, htokens, -, hpos⟩ := h.named
  have hbehind := h.behind_found
  have hspells := Node.spellsName_ofToken h.found hmakes
  have hless := h.second_kind hended
  have hlist (hne : arguments ≠ []) {start : Nat}
      (hstart : start < offset + Source.size name.text.toList) (children : List Node) :=
    h.list hended hne hstart diagnostics .dataType children
  obtain ⟨middle, hmiddle⟩ : ∃ middle, middle = offset + Source.size name.text.toList := ⟨_, rfl⟩
  rw [← hmiddle] at htokens hbehind hspells hless hlist hstop
  have hreached := hreaches.start_le
  have hhere := hreaches.le_here
  have hstart : start < middle := by omega
  have hnode : (Node.grown .dataType start reached children).append
      (.ofToken .dataType ⟨kind, ⟨offset, middle⟩, name.text⟩) = _ :=
    hreaches.append (show offset < middle by omega)
      (Node.span_ofToken _ (show offset < middle by omega))
  have hnamed : typeName forms setting
      (setting.reading diagnostics offset (.grown .dataType start reached children)) = _ :=
    typeName_reading htokens hmakes.kind.2.2
  rw [hnode] at hnamed
  have hhead : setting.head (setting.reading diagnostics offset
      (.grown .dataType start reached children)) = _ := Setting.tokenFrom_of_cons htokens
  rw [peek_bind, hhead, bind_run, hnamed]
  dsimp only
  rw [read_bind, nextIs_bind]
  generalize Node.ofToken .dataType ⟨kind, ⟨offset, middle⟩, name.text⟩ = nameNode at hspells ⊢
  by_cases hne : arguments = []
  · subst hne
    have hsame : middle + Source.size (printList (TypeTree.printEach [])) = middle := rfl
    rw [hsame] at hbehind hstop
    obtain ⟨marks, hmarks, hsuffixes⟩ := typeSuffixes_reading diagnostics .dataType
      (children ++ [nameNode]) hended h.ends hstart hbehind
    refine ⟨nameNode, [], marks, hspells, ⟨by simp, rfl⟩, hmarks, by omega, ?_⟩
    change (if (setting.isTemplateName _ && decide ((setting.tokenFrom middle).kind = .less)) = true
      then _ else _ : Parse Unit) setting _ = _
    simp only [hless.2 rfl, decide_false, Bool.and_false, Bool.false_eq_true, ↓reduceIte]
    rw [hsuffixes, List.append_assoc, hstop]
    rfl
  · obtain ⟨hbracket, nodes, hnodes, hlt, hrun⟩ := hlist hne hstart (children ++ [nameNode])
    obtain ⟨marks, hmarks, hsuffixes⟩ := typeSuffixes_reading diagnostics .dataType
      (children ++ [nameNode] ++ nodes) hended h.ends hlt hbehind
    refine ⟨nameNode, nodes, marks, hspells, hnodes, hmarks, by omega, ?_⟩
    have htemplate : setting.isTemplateName ⟨kind, ⟨offset, middle⟩, name.text⟩ = true := by
      have htakes := h.takes hne
      cases hmakes with
      | plain => exact htakes
      | primitive hword => cases htakes
    change (if (setting.isTemplateName _ && decide ((setting.tokenFrom middle).kind = .less)) = true
      then _ else _ : Parse Unit) setting _ = _
    simp only [htemplate, hbracket, decide_true, Bool.and_self, ↓reduceIte]
    rw [bind_run, hrun]
    dsimp only
    rw [hsuffixes, hstop]
    simp

theorem typeBody_reads (hended : setting.Ended) {room : Nat} {isConst rooted : Bool}
    {scopes : List PlainName} {name : TypeName} {arguments : List TypeTree}
    {suffixes : List TypeSuffix}
    (htakes : arguments ≠ [] → name.takesArguments setting.options = true)
    (hreads : ∀ tree ∈ arguments, ReadsTree setting (dataType room {}) tree) {forms : TypeForms}
    (hforms : forms.const = true) :
    ReadsTree setting (typeBody room (dataType room {}) forms)
      ⟨isConst, rooted, scopes, name, arguments, suffixes⟩ := by
  intro diagnostics offset rest hrest h
  have hprint : (TypeTree.mk isConst rooted scopes name arguments suffixes).print ++ rest =
      printConst isConst rooted ++ (printScope rooted scopes ++ (name.text.toList ++
        (behindName arguments suffixes ++ rest))) := by
    simp [TypeTree.print, behindName]
  rw [hprint] at h
  obtain ⟨scopeStart, hscopeStart⟩ :
      ∃ scopeStart, scopeStart = offset + Source.size (printConst isConst rooted) := ⟨_, rfl⟩
  obtain ⟨nameStart, hnameStart⟩ :
      ∃ nameStart, nameStart = scopeStart + Source.size (printScope rooted scopes) := ⟨_, rfl⟩
  obtain ⟨stop, hstop⟩ : ∃ stop, stop = nameStart + Source.size name.text.toList +
      Source.size (printList (TypeTree.printEach arguments)) +
        Source.size (printSuffixes suffixes) := ⟨_, rfl⟩
  have hscoped : setting.source.suffix? scopeStart = some (printScope rooted scopes ++
      (name.text.toList ++ (behindName arguments suffixes ++ rest))) :=
    hscopeStart ▸ Source.suffix?_behind h
  have hplace : NamePlace setting room name arguments suffixes rest nameStart :=
    ⟨hnameStart ▸ Source.suffix?_behind hscoped, hrest, htakes, hreads⟩
  obtain ⟨kind, hmakes, htokens, -⟩ := hplace.named
  have hname : (setting.tokenFrom nameStart).kind = kind := by
    rw [Setting.tokenFrom_of_cons htokens]
  have hrooted : rooted = true → Lexeme.endsWord (printScope rooted scopes ++
      (name.text.toList ++ (behindName arguments suffixes ++ rest))) := by
    rintro rfl
    exact rfl
  have hplain : (setting.tokenFrom scopeStart).kind ≠ .const := by
    by_cases hpresent : rooted = true ∨ scopes ≠ []
    · rcases scope_start hscoped hpresent with ⟨-, hkind⟩ | ⟨-, hkind, -⟩ <;> simp [hkind]
    · obtain ⟨rfl, rfl⟩ : rooted = false ∧ scopes = [] := by simpa using hpresent
      have hsame : nameStart = scopeStart := hnameStart
      rw [← hsame, hname]
      exact hmakes.kind.2.1
  obtain ⟨marks, reached, hconst, hreaches, hmark⟩ :=
    constMark_reading diagnostics h hrooted hscopeStart hplain
  obtain ⟨scopeNodes, reached', hscope, hreaches', hscopes⟩ := scopeOver_reading hended diagnostics
    .dataType marks hscoped hnameStart (by rw [hname]; exact hmakes.kind.1)
    (hplace.namesScope hended) (hplace.templateScope hended) hreaches
  obtain ⟨nameNode, nodes, suffixMarks, hspells, hlist, hsuffixes, hlt, hnamed⟩ :=
    name_reading hended hplace hreaches' diagnostics forms (marks ++ scopeNodes) hstop
  have hsize : offset +
      Source.size (TypeTree.mk isConst rooted scopes name arguments suffixes).print = stop := by
    rw [TypeTree.print, Source.size_append, Source.size_append, Source.size_append,
      Source.size_append]
    omega
  rw [hsize]
  refine ⟨.grown .dataType offset stop
    (marks ++ scopeNodes ++ nameNode :: (nodes ++ suffixMarks)), rfl, ?_, ?_, ?_⟩
  · rw [Node.grown, if_pos hlt]
  · rw [Node.grown, List.append_assoc]
    exact Node.readType_of_parts hconst hscope hspells hlist hsuffixes
  · intro outer
    refine node_reading ?_ outer
    simp only [hforms, ↓reduceIte]
    rw [bind_run, hmark]
    dsimp only
    rw [bind_run, hscopes]
    exact hnamed

/-- A printed type is read by the rule for types. -/
theorem dataType_reads (hended : setting.Ended) {room : Nat} {tree : TypeTree}
    (hfits : tree.fits setting.options = true) (hroom : tree.height < room) (forms : TypeForms)
    (hconst : forms.const = true) : ReadsTree setting (dataType room forms) tree := by
  induction room generalizing tree forms with
  | zero => exact absurd hroom (Nat.not_lt_zero _)
  | succ room ih =>
      obtain ⟨isConst, rooted, scopes, name, arguments, suffixes⟩ := tree
      rw [TypeTree.fits, Bool.and_eq_true] at hfits
      rw [TypeTree.height] at hroom
      refine typeBody_reads hended ?_ ?_ hconst
      · intro hne
        simpa [hne] using hfits.1
      · intro tree hmem
        exact ih (TypeTree.fits_of_mem hfits.2 hmem)
          (Nat.lt_of_lt_of_le (TypeTree.height_lt_of_mem hmem) (Nat.le_of_lt_succ hroom)) {} rfl

end Parse

end Grammar

namespace TypeTree

open Grammar Grammar.Parse

/-- A printed type is parsed without a report, and the one child of the root covers the whole text
and is read back as the type. -/
theorem parse_print (options : Options) (tree : TypeTree) (hfits : tree.fits options = true)
    (hheight : tree.height < options.maxDepth) :
    let outcome := (Entry.dataType false).parse options tree.print
    outcome.diagnostics = {} ∧ ∃ node : Node, outcome.root.children = [node] ∧
      node.span = some ⟨0, Source.size tree.print⟩ ∧ node.readType tree.print = some tree := by
  obtain ⟨setting, hsetting⟩ :
      ∃ setting, setting = (Entry.dataType false).setting options tree.print := ⟨_, rfl⟩
  have hended : setting.Ended := hsetting ▸ rfl
  have hsource : setting.source = tree.print := hsetting ▸ rfl
  have hstart : setting.source.suffix? 0 = some (tree.print ++ []) := by
    rw [hsource, List.append_nil]
    exact Source.suffix?_eq_some_iff.mpr ⟨[], rfl, rfl⟩
  have hreads := dataType_reads hended (show tree.fits setting.options = true by rwa [hsetting]) hheight
    { anyType := true, auto := true } rfl
  obtain ⟨node, -, hspan, hread, hrun⟩ := hreads {} 0 [] .nil hstart
  rw [Nat.zero_add] at hspan hrun
  have hbehind : setting.source.suffix? (Source.size tree.print) = some [] := by
    have hfound := Source.suffix?_behind hstart
    rwa [Nat.zero_add] at hfound
  have hroot : (Entry.dataType false).rule options.maxDepth setting
      (setting.reading {} 0 (.empty .undefined)) =
      (.ok (), setting.reading {} (Source.size tree.print)
        ((Node.empty .undefined).append ((Node.empty .dataType).append node))) := by
    have hinner : (do
        dataType options.maxDepth { anyType := true, auto := true }
        if false then typeModifier false) setting (setting.reading {} 0 (.empty .dataType)) =
        (.ok (), setting.reading {} (Source.size tree.print) ((Node.empty .dataType).append node)) := by
      rw [bind_run, hrun]
      rfl
    have hend (root : Node) :
        expectEnd setting (setting.reading {} (Source.size tree.print) root) =
          (.ok (), setting.reading {} (Source.size tree.print) root) := by
      have hkind : (setting.head (setting.reading {} (Source.size tree.print) root)).kind =
          .endOfSource := by
        change ((setting.source.tokensFrom _).headD setting.finish).kind = _
        rw [Source.tokensFrom_of_suffix? hbehind, Source.tokensAt_nil]
        exact hended
      rw [expectEnd, peek_bind, hkind]
      rfl
    change (Parse.node .dataType _ >>= fun _ => expectEnd) setting _ = _
    rw [bind_run, node_reading hinner]
    exact hend _
  have hsession : (Entry.dataType false).session options tree.print =
      setting.reading {} (Source.size tree.print)
        ((Node.empty .undefined).append ((Node.empty .dataType).append node)) := by
    have hopened : (⟨tree.print.tokensFrom 0, {}, .empty .undefined⟩ : Session) =
        setting.reading {} 0 (.empty .undefined) := by
      rw [Setting.reading, hsource]
    change ((Entry.dataType false).rule options.maxDepth
      ((Entry.dataType false).setting options tree.print)
      ⟨tree.print.tokensFrom 0, {}, .empty .undefined⟩).2 = _
    rw [← hsetting, hopened, hroot]
  have hchildren (outer child : Node) : (outer.append child).children = outer.children ++ [child] := by
    unfold Node.append
    cases child.span with
    | none => rfl
    | some span =>
        simp only [Option.elim_some, Node.widen]
        split <;> rfl
  intro outcome
  have houtcome : outcome = ⟨(Node.empty .dataType).append node, {}⟩ := by
    change Outcome.mk _ _ = _
    rw [hsession, Setting.reading]
    simp only [hchildren]
    rfl
  refine ⟨by rw [houtcome], node, ?_, hspan, hsource ▸ hread⟩
  rw [houtcome]
  exact hchildren (.empty .dataType) node

/-- The type `const ::ns::array<array<int>,array<array<Foo@const>>>[]`. -/
def nestedLists : TypeTree :=
  let named (text : String) (h : isPlainName text = true) (arguments : List TypeTree)
      (suffixes : List TypeSuffix) : TypeTree :=
    ⟨false, false, [], .plain ⟨text, h⟩, arguments, suffixes⟩
  let int : TypeTree := ⟨false, false, [], .primitive "int" (by decide), [], []⟩
  let handle := named "Foo" (by decide) [] [.constHandle]
  ⟨true, true, [⟨"ns", by decide⟩], .plain ⟨"array", by decide⟩,
    [named "array" (by decide) [int] [], named "array" (by decide)
      [named "array" (by decide) [handle] []] []], [.brackets]⟩

example :
    nestedLists.print = "const::ns::array<array<int>,array<array<Foo@const>>>[]".toList := by
  decide

theorem parse_print_nestedLists :
    let outcome := (Entry.dataType false).parse {} nestedLists.print
    nestedLists.fits {} = true ∧ nestedLists.height = 3 ∧ outcome.diagnostics = {} ∧
      ∃ node : Node, outcome.root.children = [node] ∧
        node.span = some ⟨0, Source.size nestedLists.print⟩ ∧
        node.readType nestedLists.print = some nestedLists :=
  ⟨by decide, by decide, parse_print {} nestedLists (by decide) (by decide)⟩

end TypeTree

end ScriptSyntax
