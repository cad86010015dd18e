import ScriptSyntax.Options

/-!
# Arguments

The first argument names a command.  Those after it are read from left to right: options begin with
two hyphens, a value is attached with an equals sign or given as the next argument, and everything
behind `--` is a plain argument.  The value of an option is looked at when the next option or file
comes, so a fault in it is reported later than an unknown option that stands right behind it.
-/

namespace ScriptSyntax.CommandLine

inductive Command
  | lex (file : String)
  | parse (file : String) (tree : Bool) (options : Options)
  deriving DecidableEq

/-- Why the arguments lead to no command. -/
inductive Refusal
  | nothingGiven
  | unknownCommand
  | unknownArgument
  | missingValue
  | malformedValue
  | valueForFlag
  | repeatedArgument
  | missingFile
  | helpAsked
  | versionAsked
  deriving DecidableEq

/-- Only a question about the program is answered with success. -/
def Refusal.exitCode : Refusal → Nat
  | helpAsked | versionAsked => 0
  | _ => 2

/-! ## Single arguments -/

inductive Argument
  /-- `--`, the end of the options. -/
  | separator
  | long (name : List Char) (value : Option (List Char))
  /-- A hyphen and letters, of which only the first one counts. -/
  | short (letter : Char)
  | plain

def Argument.ofText : List Char → Argument
  | ['-', '-'] => separator
  | '-' :: '-' :: rest =>
      long (rest.takeWhile (· ≠ '=')) (rest.dropWhile (· ≠ '=')).tail?
  | '-' :: letter :: _ => short letter
  | _ => plain

/-- A decimal number below `2 ^ 64`, perhaps behind a plus sign. -/
def number? (text : List Char) : Option Nat :=
  let digits := if text.head? = some '+' then text.tail else text
  if digits.isEmpty || !digits.all Char.isDigit then none
  else
    let value := digits.foldl (fun value digit => 10 * value + (digit.toNat - '0'.toNat)) 0
    if value < UInt64.size then some value else none

/-! ## The arguments of a command -/

inductive Flag
  | tree | noImplicitHandles | noLegacyNamedArguments
  deriving DecidableEq

/-- What takes a value. -/
inductive Slot
  | file | templateType | maxDepth
  deriving DecidableEq

inductive Switch
  | help
  | flag (flag : Flag)
  | slot (slot : Slot)

def parseSwitch? (name : List Char) : Option Switch :=
  match String.ofList name with
  | "help" => some .help
  | "tree" => some (.flag .tree)
  | "no-implicit-handles" => some (.flag .noImplicitHandles)
  | "no-legacy-named-args" => some (.flag .noLegacyNamedArguments)
  | "template-type" => some (.slot .templateType)
  | "max-depth" => some (.slot .maxDepth)
  | _ => none

def lexSwitch? (name : List Char) : Option Switch :=
  if String.ofList name = "help" then some .help else none

/-- What was given so far. -/
structure Given where
  file : Option String := none
  flags : List Flag := []
  templateTypes : List String := []
  maxDepth : Option Nat := none
  /-- The last slot with its value, as long as the value was not looked at. -/
  pending : Option (Slot × Option (List Char)) := none

namespace Given

/-- Look at a value and keep it. -/
def fill (given : Given) (slot : Slot) (value : List Char) : Except Refusal Given :=
  match slot with
  | .file =>
      if value.isEmpty then throw .missingValue
      else return { given with file := some (String.ofList value) }
  | .templateType =>
      return { given with templateTypes := given.templateTypes ++ [String.ofList value] }
  | .maxDepth =>
      if given.maxDepth.isSome then throw .repeatedArgument
      else
        match number? value with
        | some depth => return { given with maxDepth := some depth }
        | none => throw .malformedValue

/-- Look at the value that is pending. -/
def settle (given : Given) : Except Refusal Given :=
  match given.pending with
  | none => return given
  | some (slot, some value) => { given with pending := none }.fill slot value
  | some (_, none) => throw .missingValue

def hasFile (given : Given) : Bool :=
  given.file.isSome || given.pending.any (·.1 = .file)

/-- The only plain argument is the file. -/
def plain (given : Given) (text : List Char) : Except Refusal Given := do
  if given.hasFile then throw .unknownArgument
  return { ← given.settle with pending := some (.file, some text) }

def switchOn (given : Given) (switch : Switch) (value : Option (List Char)) :
    Except Refusal Given := do
  match switch, value with
  | .slot slot, some value => (← given.settle).fill slot value
  | .slot slot, none => return { ← given.settle with pending := some (slot, none) }
  | _, some _ => throw .valueForFlag
  | .help, none =>
      let _ ← given.settle
      throw .helpAsked
  | .flag flag, none =>
      let given ← given.settle
      if flag ∈ given.flags then throw .repeatedArgument
      return { given with flags := given.flags ++ [flag] }

def read (switch? : List Char → Option Switch) (given : Given) :
    List (List Char) → Except Refusal Given
  | [] => given.settle
  | text :: rest => do
      match Argument.ofText text with
      | .separator => (← rest.foldlM plain given).settle
      | .long name value =>
          match switch? name with
          | some switch => read switch? (← given.switchOn switch value) rest
          | none => throw .unknownArgument
      | .short letter =>
          if letter = 'h' then
            let _ ← given.settle
            throw .helpAsked
          else throw .unknownArgument
      | .plain =>
          match given.pending with
          | some (slot, none) =>
              read switch? { given with pending := some (slot, some text) } rest
          | _ => read switch? (← given.plain text) rest

def options (given : Given) : Options :=
  let base : Options := {}
  ⟨if given.templateTypes.isEmpty then base.templateTypes else given.templateTypes,
    .noImplicitHandles ∉ given.flags, .noLegacyNamedArguments ∉ given.flags,
    given.maxDepth.getD base.maxDepth⟩

end Given

/-! ## Commands -/

inductive CommandName
  | lex | parse | help
  deriving DecidableEq

def CommandName.ofText? (text : List Char) : Option CommandName :=
  match String.ofList text with
  | "lex" => some .lex
  | "parse" => some .parse
  | "help" => some .help
  | _ => none

def Command.read (name : CommandName) (rest : List (List Char)) : Except Refusal Command := do
  match name with
  | .lex =>
      let given ← Given.read lexSwitch? {} rest
      match given.file with
      | some file => return .lex file
      | none => throw .missingFile
  | .parse =>
      let given ← Given.read parseSwitch? {} rest
      match given.file with
      | some file => return .parse file (.tree ∈ given.flags) given.options
      | none => throw .missingFile
  | .help =>
      match rest with
      | [] => throw .helpAsked
      | [command] =>
          throw (if (CommandName.ofText? command).isSome then .helpAsked else .unknownCommand)
      | _ => throw .unknownCommand

/-- The command that the arguments ask for. -/
def Command.ofArguments (arguments : List String) : Except Refusal Command :=
  match arguments.map String.toList with
  | [] => throw .nothingGiven
  | first :: rest =>
      match Argument.ofText first with
      | .separator =>
          match rest with
          | [] => throw .nothingGiven
          | text :: _ =>
              throw (if (CommandName.ofText? text).isSome then .unknownArgument else .unknownCommand)
      | .long name value =>
          let asked := String.ofList name
          if asked = "help" || asked = "version" then
            throw (if value.isSome then .valueForFlag
              else if asked = "help" then .helpAsked else .versionAsked)
          else throw .unknownArgument
      | .short letter =>
          throw (if letter = 'h' then .helpAsked else if letter = 'V' then .versionAsked
            else .unknownArgument)
      | .plain =>
          match CommandName.ofText? first with
          | some name => Command.read name rest
          | none => throw .unknownCommand

end ScriptSyntax.CommandLine
