import ScriptSyntax.Proofs.Layout
import ScriptSyntax.Proofs.Variation.Twins

/-!
# Names of templates

A name is only asked for in the list of template types where a list of arguments could follow it, or
could follow the scope mark behind it.
-/

namespace ScriptSyntax.Entry

open Grammar Grammar.Parse

variable {entry : Entry} {options : Options} {names : List String} {source : Source} {bound : Nat}

variable (entry options names source) in
/-- Two parses that differ in the names of templates. -/
def renamed : Variation :=
  entry.twins options { options with templateTypes := names } source rfl (fun _ => True)
    fun _ _ _ _ => trivial

instance : Fact (entry.renamed options names source).level :=
  ⟨trivial⟩

instance (message : Message) (token : Token) : (entry.renamed options names source).Agrees bound
    (diagnose .warning message token) (diagnose .warning message token) := by
  constructor
  intro n s t h hbytes
  refine ⟨rfl, h.ahead, h.fine, h.same.1, ?_, trivial⟩
  exact congrArg (Diagnostics.push · _) h.same.2.1

theorem renamed_node (kind : NodeKind) {rule rule' : Parse Unit}
    (hrule : (entry.renamed options names source).Agrees bound rule rule') :
    (entry.renamed options names source).Agrees bound (node kind rule) (node kind rule') := by
  constructor
  intro n s t h hbytes
  have hmeets := hrule.meets (h.opened kind) hbytes
  have hsame := hmeets.related.same
  exact ⟨hmeets.result, hmeets.related.ahead, hmeets.related.fine,
    congrArg₂ Node.append h.same.1 hsame.1, hsame.2⟩

theorem renamed_namedArgument (old : Bool) {value value' : Parse Unit}
    (hvalue : (entry.renamed options names source).Agrees bound value value') :
    (entry.renamed options names source).Agrees bound (namedArgument old value)
      (namedArgument old value') :=
  renamed_node .namedArgument inferInstance

instance : (entry.renamed options names source).ArgumentsAgree := by
  constructor
  intro bound room room' hrooms hassignment hlevels
  constructor
  intro n s t h hbytes
  rw [argument_run, argument_run, h.head, h.second]
  exact (Variation.Agrees.ite _ (renamed_namedArgument _ hassignment) hassignment).meets h hbytes

theorem opensList_append {tokens : List Token} (h : opensList tokens = true) (more : List Token) :
    opensList (tokens ++ more) = true := by
  rcases tokens with _ | ⟨first, _ | ⟨second, rest⟩⟩
  · cases h
  · have hless : first.kind = .less := by simpa [opensList] using h
    simp [opensList, hless]
  · exact h

/-- The tokens from the start of a token on. -/
theorem tokensFrom_suffix {token : Token} (h : token ∈ source.tokens) :
    source.tokensFrom token.span.start <:+ source.tokensFrom 0 := by
  obtain ⟨index, hindex⟩ := List.mem_iff_getElem?.mp h
  rw [Source.tokensFrom_start_of_getElem? hindex]
  exact List.drop_suffix index _

variable (entry options names source) in
/-- Which names are those of templates makes no difference where no list of arguments opens. -/
theorem parse_templateTypes
    (hnames : ∀ name rest, name :: rest <:+ source.tokens → name.kind = .identifier →
      opensList rest = true → { options with templateTypes := names }.isTemplateType name.text =
        options.isTemplateType name.text)
    (hstart : entry.start = 0 ∨ ∃ token ∈ source.tokens, token.span.start = entry.start) :
    entry.parse { options with templateTypes := names } source = entry.parse options source := by
  have hsuffix : source.tokensFrom entry.start <:+ source.tokensFrom 0 := by
    rcases hstart with hfirst | ⟨token, hmem, htoken⟩
    · rw [hfirst]
    · rw [← htoken]
      exact tokensFrom_suffix hmem
  refine (entry.parse_twins options { options with templateTypes := names } source rfl
    (fun _ => True) (fun _ _ _ _ => trivial) trivial rfl ?_
    fun bound => Variation.agrees_entry (V := renamed entry options names source) entry).1
  intro name rest hname hkind hopens
  refine hnames name (rest ++ [.endAt source.size]) ?_ (of_decide_eq_true hkind)
    (opensList_append hopens _)
  obtain ⟨before, hbefore⟩ := hname.trans hsuffix
  exact ⟨before, by rw [Source.tokens, ← hbefore, List.append_assoc, List.cons_append]⟩

/-- Neither the variable nor what is assigned to it takes arguments. -/
theorem parse_templateTypes_variable :
    let source : Source := "f()\x7barray<int> a; a = b;\x7d".toList
    (statementBlock 3).parse { templateTypes := ["array", "a", "b"] } source =
      (statementBlock 3).parse {} source := by
  intro source
  have hall : ∀ tokens ∈ source.tokens.tails, ∀ name ∈ tokens.head?, name.kind = .identifier →
      opensList tokens.tail = true →
      { templateTypes := ["array", "a", "b"] : Options }.isTemplateType name.text =
        ({} : Options).isTemplateType name.text := by decide +kernel
  have hnames (name : Token) (rest : List Token) (hsuffix : name :: rest <:+ source.tokens) :=
    hall (name :: rest) ((List.mem_tails _ _).mpr hsuffix) name rfl
  exact parse_templateTypes (statementBlock 3) {} ["array", "a", "b"] source hnames
    (.inr ⟨source.tokens[3], List.getElem_mem _, by decide +kernel⟩)

end ScriptSyntax.Entry
