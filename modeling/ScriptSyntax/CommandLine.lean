import ScriptSyntax.CommandLine.Arguments
import ScriptSyntax.Entry
import ScriptSyntax.Node.Dump
import ScriptSyntax.Token.Listing

/-!
# The command line

`lex` lists the tokens of a file.  `parse` parses a file as a script, prints its tree if asked to,
and fails if an error is reported.  A run is a function of what reading the file gave.
-/

namespace ScriptSyntax.CommandLine

/-- What reading a file gave. -/
inductive Reading
  | text (source : Source)
  | missing
  | directory
  | notText
  | refused (reason : String)

/-- The source, or why there is none. -/
def Reading.source : Reading → Except String Source
  | text source => return source
  | missing => throw "No such file or directory (os error 2)"
  | directory => throw "Is a directory (os error 21)"
  | notText => throw "stream did not contain valid UTF-8"
  | refused reason => throw reason

/-- What a run leaves behind: its output, the diagnostics in the order of their places, the closing
message of a run that failed, and the exit code. -/
structure Run where
  output : List Char := []
  reports : List Diagnostic := []
  failure : Option String := none
  exitCode : Nat := 0

def Run.isQuiet (run : Run) : Bool :=
  run.reports.isEmpty && run.failure.isNone

def Command.file : Command → String
  | lex file => file
  | parse file _ _ => file

/-- Parse a script and dump its tree if asked to. -/
def parseScript (options : Options) (tree : Bool) (source : Source) : List Char × Outcome :=
  let outcome := Entry.script.parse options source
  (if tree then outcome.root.dump source else [], outcome)

/-- Run a command on a source that could be read. -/
def Command.runOn (source : Source) : Command → Run
  | lex _ => { output := source.listing }
  | parse file tree options =>
      let (output, outcome) := parseScript options tree source
      let all := outcome.diagnostics
      let failed := all.hasErrors
      { output := output
        reports := all.sorted
        failure := if failed then some s!"error: {file}: {all.failureText}" else none
        exitCode := if failed then 1 else 0 }

def Command.run (command : Command) (reading : Reading) : Run :=
  match reading.source with
  | .ok source => command.runOn source
  | .error reason =>
      { failure := some s!"error: cannot read {command.file}: {reason}", exitCode := 2 }

end ScriptSyntax.CommandLine
