import ScriptSyntax.Proofs.Correspondence
import ScriptSyntax.Token.Cursor

/-!
# Looking ahead with a cursor

A scan reads from a list of tokens and leaves no trace.  A parser that owns a cursor moves the cursor
while it looks ahead, goes back to tokens that it has read, jumps into the middle of a token and counts
the lists it is inside.  Here are its predicates, step by step, and each of them leaves the parser as
if it had not been asked, with the answer of the scan.
-/

namespace ScriptSyntax

namespace Grammar

/-- What a parser on a cursor holds. -/
structure Reader where
  cursor : RememberingCursor
  /-- How deeply the construct is nested that is being read. -/
  depth : Nat
  diagnostics : Diagnostics
  /-- The rule that is running must stop. -/
  isSyntaxError : Bool
  /-- Some rule has reported an error. -/
  errorWhileParsing : Bool

abbrev Look := ReaderT Setting (StateM Reader)

namespace Look

/-! ## Moving the cursor -/

def next : Look Token := fun setting reader =>
  let (token, cursor) := rememberingCursor.next setting.source reader.cursor
  (token, { reader with cursor })

def rewind (token : Token) : Look Unit :=
  modify fun reader => { reader with cursor := rememberingCursor.rewind token reader.cursor }

def jump (offset : Nat) : Look Unit :=
  modify fun reader => { reader with cursor := rememberingCursor.jump offset reader.cursor }

def peek : Look Token := do
  let token ← next
  rewind token
  return token

/-- The token behind this one if it is of the kind. -/
def past (kind : TokenKind) (token : Token) : Look Token := do
  if token.kind = kind then next else return token

/-- Pass the next token if it is of the kind. -/
def skipIf (test : Token → Bool) : Look Unit := do
  let token ← next
  if !test token then rewind token

/-! ## Flat runs of tokens

A run has at most as many tokens as the source has bytes; `bound` is larger than that. -/

/-- Past the parenthesis that closes `level` groups. -/
def skipParenthesized : Nat → Nat → Look Bool
  | 0, _ => return false
  | bound + 1, level => do
      match (← next).kind with
      | .openParen => skipParenthesized bound (level + 1)
      | .closeParen => if level = 1 then return true else skipParenthesized bound (level - 1)
      | .endOfSource => return false
      | _ => skipParenthesized bound level

/-- Past names with a scope mark behind each, given the two tokens read last. -/
def skipNames : Nat → Token → Token → Look (Token × Token)
  | 0, first, second => return (first, second)
  | bound + 1, first, second => do
      if first.kind.isIdentifier && second.kind = .scope then
        let first ← next
        let second ← next
        skipNames bound first second
      else return (first, second)

/-- The token behind the suffixes of a template argument. -/
def argumentSuffixes : Nat → Token → Look (Option Token)
  | 0, token => return some token
  | bound + 1, token => do
      if token.kind = .handle then argumentSuffixes bound (← next)
      else if token.kind = .openBracket then
        if (← next).kind = .closeBracket then argumentSuffixes bound (← next) else return none
      else return some token

/-- The token behind the suffixes of a type. -/
def typeSuffixes : Nat → Token → Look (Option Token)
  | 0, token => return some token
  | bound + 1, token => do
      if token.kind = .handle then
        skipIf (·.kind = .const)
        typeSuffixes bound (← next)
      else if token.kind = .openBracket then
        if (← next).kind = .closeBracket then typeSuffixes bound (← next) else return none
      else if token.kind = .ampersand then typeSuffixes bound (← next)
      else return some token

def skipAttributes : Nat → Look Unit
  | 0 => return
  | bound + 1 => do
      let token ← next
      if token.hasRole .methodAttribute then skipAttributes bound else rewind token

/-! ## Template lists -/

/-- Whether the text of the token starts with `>`. -/
def opensGreater (token : Token) : Look Bool := do
  return ((← read).source.suffix? token.span.start).bind List.head? = some '>'

/-- Past the first byte of a token that closes a list. -/
def closeList (token : Token) : Look Bool := do
  if ← opensGreater token then
    if token.span.length ≠ 1 then jump (token.span.start + 1)
    return true
  else return false

/-- The token behind a template argument with its suffixes. -/
def checkArgument (bound : Nat) (checkType : Token → Look Bool) : Look (Option Token) := do
  let first ← past .scope (← past .const (← next))
  let (name, second) ← skipNames bound first (← next)
  rewind second
  if name.isTypeName then
    if ← checkType name then argumentSuffixes bound (← next) else return none
  else return none

/-- Template arguments up to and with the first byte of the closing token. -/
def checkArguments (bound : Nat) (checkType : Token → Look Bool) : Nat → Look Bool
  | 0 => return false
  | count + 1 => do
      match ← checkArgument bound checkType with
      | none => return false
      | some token =>
          if token.kind = .comma then checkArguments bound checkType count else closeList token

/-- One level further in. -/
def nested (look : Look Bool) : Look Bool := do
  modify fun reader => { reader with depth := reader.depth + 1 }
  let result ← look
  modify fun reader => { reader with depth := reader.depth - 1 }
  return result

/-- The template arguments behind a name, if it takes any. -/
def checkList (arguments : Look Bool) (name : Token) : Look Bool := do
  if (← read).isTemplateName name then
    let opening ← next
    if opening.kind = .less then
      if (← read).options.maxDepth ≤ (← get).depth then return false else nested arguments
    else
      rewind opening
      return true
  else return true

/-- Lists nest no deeper than there are `levels`. -/
def checkTemplateType (bound : Nat) : Nat → Token → Look Bool
  | 0 => checkList (return false)
  | levels + 1 => checkList (checkArguments bound (checkTemplateType bound levels) bound)

/-! ## Types -/

/-- Past scopes, which may be template instances, given the two tokens read last. -/
def typePath (checkType : Token → Look Bool) : Nat → Token → Token → Look (Token × Token)
  | 0, first, second => return (first, second)
  | bound + 1, first, second => do
      if first.kind.isIdentifier then
        if second.kind = .scope then
          let first ← next
          let second ← next
          typePath checkType bound first second
        else if second.kind = .less then
          rewind second
          if ← checkType first then
            if (← next).kind = .scope then
              let first ← next
              let second ← next
              typePath checkType bound first second
            else return (first, second)
          else return (first, second)
        else return (first, second)
      else return (first, second)

/-- The name of a type whose first token is given. -/
def typeName (bound : Nat) (checkType : Token → Look Bool) (first : Token) : Look Token := do
  if first.kind = .keyword .auto then return first
  else
    let first ← past .scope first
    let (name, second) ← typePath checkType bound first (← next)
    rewind second
    return name

/-- The token behind the type that starts here; the cursor comes back. -/
def isType (bound levels : Nat) : Look (Option Token) := do
  let start ← next
  let name ← typeName bound (checkTemplateType bound levels) (← past .const start)
  if name.isTypeName || name.kind = .keyword .auto then
    if ← checkTemplateType bound levels name then
      let after ← typeSuffixes bound (← next)
      rewind start
      return after
    else
      rewind start
      return none
  else
    rewind start
    return none

/-! ## Predicates -/

/-- Whether the test succeeds from here; the cursor comes back. -/
def asking (test : Look Bool) : Look Bool := do
  let start ← peek
  let result ← test
  rewind start
  return result

/-- What is read behind the type that starts here. -/
def behindType (bound levels : Nat) (test : Look Bool) : Look Bool := do
  match ← isType bound levels with
  | none => return false
  | some after =>
      rewind after
      test

def variableName (bound : Nat) : Look Bool := do
  if (← next).kind.isIdentifier then
    match (← next).kind with
    | .assign | .semicolon | .comma => return true
    | .openParen =>
        if ← skipParenthesized bound 1 then
          let behind := (← next).kind
          return !(behind = .openBrace || behind.isIdentifier || behind.isEnd)
        else return false
    | _ => return false
  else return false

def isVariable (bound levels : Nat) : Look Bool :=
  asking do
    skipIf Token.isAccessModifier
    behindType bound levels (variableName bound)

def propertyName : Look Bool := do
  let name ← next
  let opening ← next
  if name.kind.isIdentifier && opening.kind = .openBrace then
    let token ← next
    return token.kind = .closeBrace || token.isWord .get || token.isWord .set
  else return false

def isVirtualProperty (bound levels : Nat) : Look Bool :=
  asking do
    skipIf Token.isAccessModifier
    behindType bound levels propertyName

/-- A name, a group and a brace, with attributes in front of the brace. -/
def functionName (bound : Nat) (ofClass : Bool) : Look Bool := do
  let name ← next
  if name.kind = .ampersand then return true
  else if name.kind.isIdentifier then
    if (← next).kind = .openParen then
      if ← skipParenthesized bound 1 then
        if ofClass then skipIf (·.kind = .const)
        skipAttributes bound
        return (← next).kind = .openBrace
      else return false
    else return false
  else return false

/-- A function with a body. -/
def isFunction (bound levels : Nat) : Look Bool :=
  asking (behindType bound levels (functionName bound false))

/-- A method with a body, a constructor or a destructor. -/
def isMethod (bound levels : Nat) : Look Bool :=
  asking do
    skipIf Token.isAccessModifier
    let first ← next
    let second ← next
    if first.kind.isIdentifier && second.kind = .openParen || first.kind = .tilde then return true
    else
      rewind first
      behindType bound levels (functionName bound true)

def lambdaFrom (bound : Nat) (start : Token) : Look Bool := do
  if start.isWord .function then
    if (← next).kind = .openParen then
      if ← skipParenthesized bound 1 then return (← next).kind = .openBrace else return false
    else return false
  else return false

def isLambda (bound : Nat) : Look Bool := do
  let start ← next
  let result ← lambdaFrom bound start
  rewind start
  return result

def isFunctionCall (bound : Nat) : Look Bool := do
  let start ← next
  let first ← past .scope start
  let (name, second) ← skipNames bound first (← next)
  rewind start
  return name.kind.isIdentifier && second.kind = .openParen

/-- A name's list of arguments, then a scope mark. -/
def scopeFrom (bound levels : Nat) (name : Token) : Look Bool := do
  if ← checkTemplateType bound levels name then return (← next).kind = .scope else return false

/-- Whether the name with the list behind it is a scope; the cursor goes to the name. -/
def isTemplateScope (bound levels : Nat) (name : Token) : Look Bool := do
  rewind name
  let _ ← next
  let result ← scopeFrom bound levels name
  rewind name
  return result

end Look

end Grammar

/-! ## What a cursor delivers -/

namespace Source

/-- The token that is read where it starts. -/
def Stands (source : Source) (token : Token) : Prop :=
  source.tokenAt token.span.start = (token, token.span.stop)

theorem tokenAt_none {source : Source} {offset : Nat} (h : source.suffix? offset = none) :
    source.tokenAt offset = (.endAt (max offset source.size), offset) := by
  unfold tokenAt
  rw [h]

theorem tokenAt_nil {source rest : Source} {offset : Nat} (h : source.suffix? offset = some rest)
    (hnil : source.tokensFrom offset = []) :
    source.tokenAt offset = (.endAt source.size, source.size) := by
  rw [tokensFrom_of_suffix? h] at hnil
  change Piece.place offset rest.pieces = [] at hnil
  unfold tokenAt
  rw [h]
  dsimp only
  rw [hnil]

theorem tokenAt_cons {source : Source} {offset : Nat} {token : Token} {tokens : List Token}
    (h : source.tokensFrom offset = token :: tokens) :
    source.tokenAt offset = (token, token.span.stop) := by
  unfold tokenAt
  cases hsuffix : source.suffix? offset with
  | none => simp [tokensFrom, hsuffix] at h
  | some rest =>
      rw [tokensFrom_of_suffix? hsuffix] at h
      change Piece.place offset rest.pieces = token :: tokens at h
      dsimp only
      rw [h]

/-- Where nothing is left to read, the end is read, and nothing is left behind it. -/
theorem tokenAt_end {source : Source} {offset : Nat} (hnil : source.tokensFrom offset = []) :
    ∃ position, source.tokenAt offset = (.endAt (max offset source.size), position) ∧
      source.tokensFrom position = [] ∧ max position source.size = max offset source.size := by
  cases hsuffix : source.suffix? offset with
  | none => exact ⟨offset, tokenAt_none hsuffix, hnil, rfl⟩
  | some rest =>
      have hle := suffix?_le_size hsuffix
      refine ⟨source.size, ?_, tokensFrom_of_size_le (Nat.le_refl _), ?_⟩
      · rw [Nat.max_eq_right hle, tokenAt_nil hsuffix hnil]
      · rw [Nat.max_eq_right hle, Nat.max_self]

/-- A token that is read somewhere is read where it starts too. -/
theorem stands_of_tokensFrom {source : Source} {offset : Nat} {token : Token} {rest : List Token}
    (h : source.tokensFrom offset = token :: rest) :
    source.Stands token ∧ source.tokensFrom token.span.start = token :: rest ∧
      source.tokensFrom token.span.stop = rest := by
  obtain ⟨body, after, hholds, -, hrest⟩ := tokensFrom_eq_cons h
  have hstart := hholds.tokensFrom_start
  exact ⟨tokenAt_cons hstart, hrest ▸ hstart, hrest.symm⟩

theorem stands_endAt (source : Source) {offset : Nat} (h : source.size ≤ offset) :
    source.Stands (.endAt offset) := by
  change source.tokenAt offset = (.endAt offset, offset)
  cases hsuffix : source.suffix? offset with
  | none => rw [tokenAt_none hsuffix, Nat.max_eq_left h]
  | some rest =>
      have hsize := Nat.le_antisymm (suffix?_le_size hsuffix) h
      rw [tokenAt_nil hsuffix (tokensFrom_of_size_le h), ← hsize]

end Source

namespace RememberingCursor

variable {source : Source} {cursor : RememberingCursor} {seen : List Token}

/-- What the cursor remembers is read where it starts. -/
def Sound (source : Source) (cursor : RememberingCursor) : Prop :=
  ∀ token, cursor.cached = some token → source.Stands token

/-- Remembering makes no difference to what is read. -/
theorem Sound.next_eq (h : cursor.Sound source) :
    cursor.next source =
      ((source.tokenAt cursor.position).1,
        { cursor with position := (source.tokenAt cursor.position).2 }) := by
  unfold RememberingCursor.next
  cases hcached : cursor.cached.filter (·.span.start = cursor.position) with
  | none => rfl
  | some token =>
      obtain ⟨hremembered, hstart⟩ := Option.filter_eq_some_iff.mp hcached
      have hstands := h token hremembered
      rw [decide_eq_true_iff] at hstart
      unfold Source.Stands at hstands
      rw [hstart] at hstands
      rw [hstands]

/-- The tokens that the cursor delivers one after the other. -/
def deliver (source : Source) : Nat → RememberingCursor → Token
  | 0, cursor => (cursor.next source).1
  | count + 1, cursor => deliver source count (cursor.next source).2

/-- What a cursor delivers are the tokens from its position on, then the end again and again. -/
theorem Sound.deliver_eq (h : cursor.Sound source) (count : Nat) :
    deliver source count cursor = ((source.tokensFrom cursor.position)[count]?).getD
      (.endAt (max cursor.position source.size)) := by
  induction count generalizing cursor with
  | zero =>
      rw [deliver, h.next_eq]
      cases htokens : source.tokensFrom cursor.position with
      | nil =>
          obtain ⟨position, hread, -⟩ := Source.tokenAt_end htokens
          rw [hread]
          rfl
      | cons token rest =>
          rw [Source.tokenAt_cons htokens]
          rfl
  | succ count ih =>
      have hnext : Sound source (cursor.next source).2 := by
        rw [h.next_eq]
        exact h
      rw [deliver, ih hnext, h.next_eq]
      dsimp only
      cases htokens : source.tokensFrom cursor.position with
      | nil =>
          obtain ⟨position, hread, hnil, hmax⟩ := Source.tokenAt_end htokens
          rw [hread]
          dsimp only
          rw [hnil, hmax]
          rfl
      | cons token rest =>
          obtain ⟨body, after, hholds, -, hrest⟩ := Source.tokensFrom_eq_cons htokens
          have hstop := hholds.stop_le_size
          have hposition : cursor.position ≤ source.size := by
            by_cases hle : cursor.position ≤ source.size
            · exact hle
            · rw [Source.tokensFrom_of_size_le (by omega)] at htokens
              cases htokens
          rw [Source.tokenAt_cons htokens]
          dsimp only
          rw [← hrest, Nat.max_eq_right hstop, Nat.max_eq_right hposition]
          rfl

/-- The cursor that has gone back to a token. -/
def rewound (token : Token) : RememberingCursor :=
  ⟨token.span.start, some token⟩

theorem sound_rewound {token : Token} (h : source.Stands token) : Sound source (.rewound token) := by
  intro other hother
  cases hother
  exact h

/-- A token that a cursor delivers next, and the cursor that has gone back to it. -/
structure Delivers (source : Source) (cursor : RememberingCursor) (token : Token) : Prop where
  stands : source.Stands token
  tokens : source.tokensFrom token.span.start = source.tokensFrom cursor.position
  last : max token.span.start source.size = max cursor.position source.size

theorem Sound.delivers (h : cursor.Sound source) : Delivers source cursor (cursor.next source).1 := by
  rw [h.next_eq]
  cases htokens : source.tokensFrom cursor.position with
  | nil =>
      obtain ⟨position, hread, -⟩ := Source.tokenAt_end htokens
      rw [hread]
      refine ⟨Source.stands_endAt source (Nat.le_max_right _ _), ?_, ?_⟩
      · rw [htokens]
        exact Source.tokensFrom_of_size_le (Nat.le_max_right _ _)
      · exact Nat.max_eq_left (Nat.le_max_right _ _)
  | cons token rest =>
      obtain ⟨hstands, hstart, hstop⟩ := Source.stands_of_tokensFrom htokens
      rw [Source.tokenAt_cons htokens]
      refine ⟨hstands, by rw [hstart, htokens], ?_⟩
      have hlt : token.span.start < source.size := by
        by_cases hle : source.size ≤ token.span.start
        · rw [Source.tokensFrom_of_size_le hle] at hstart
          cases hstart
        · omega
      have hposition : cursor.position < source.size := by
        by_cases hle : source.size ≤ cursor.position
        · rw [Source.tokensFrom_of_size_le hle] at htokens
          cases htokens
        · omega
      rw [Nat.max_eq_right (Nat.le_of_lt hlt), Nat.max_eq_right (Nat.le_of_lt hposition)]

/-- Going back to the token that comes next changes nothing of what is delivered. -/
theorem Delivers.deliver_rewound {token : Token} (h : cursor.Delivers source token)
    (hsound : cursor.Sound source) (count : Nat) :
    deliver source count (.rewound token) = deliver source count cursor := by
  rw [(sound_rewound h.stands).deliver_eq, hsound.deliver_eq]
  change ((source.tokensFrom token.span.start)[count]?).getD
    (.endAt (max token.span.start source.size)) = _
  rw [h.tokens, h.last]

/-- A cursor as a parser moves it: it reads, goes back to what it has read, and jumps. -/
inductive Reached (source : Source) : RememberingCursor → List Token → Prop
  | start (offset : Nat) : Reached source ⟨offset, none⟩ []
  | next {cursor : RememberingCursor} {seen : List Token} (h : Reached source cursor seen) :
      Reached source (cursor.next source).2 ((cursor.next source).1 :: seen)
  | rewind {cursor : RememberingCursor} {seen : List Token} {token : Token}
      (h : Reached source cursor seen) (htoken : token ∈ seen) : Reached source (.rewound token) seen
  | jump {cursor : RememberingCursor} {seen : List Token} (offset : Nat)
      (h : Reached source cursor seen) : Reached source ⟨offset, none⟩ seen

theorem Reached.sound (h : Reached source cursor seen) :
    cursor.Sound source ∧ ∀ token ∈ seen, source.Stands token := by
  induction h with
  | start offset =>
      refine ⟨?_, by simp⟩
      intro token htoken
      cases htoken
  | next h ih =>
      obtain ⟨hsound, hseen⟩ := ih
      refine ⟨?_, ?_⟩
      · rw [hsound.next_eq]
        exact hsound
      · intro token htoken
        rcases List.mem_cons.mp htoken with rfl | hmem
        · exact hsound.delivers.stands
        · exact hseen token hmem
  | rewind h htoken ih => exact ⟨sound_rewound (ih.2 _ htoken), ih.2⟩
  | jump offset h ih =>
      refine ⟨?_, ih.2⟩
      intro token htoken
      cases htoken

end RememberingCursor

end ScriptSyntax
