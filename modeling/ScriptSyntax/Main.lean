import ScriptSyntax.CommandLine

/-!
# The program

Reads the file, runs the command and prints what the run left behind.
-/

namespace ScriptSyntax.CommandLine

def Refusal.text : Refusal → String
  | nothingGiven => "a command is required"
  | unknownCommand => "there is no such command"
  | unknownArgument => "unexpected argument"
  | missingValue => "a value is required"
  | malformedValue => "the value is not a number in range"
  | valueForFlag => "the option takes no value"
  | repeatedArgument => "the option was given before"
  | missingFile => "a file is required"
  | helpAsked => "lex FILE, or parse FILE with options"
  | versionAsked => "0.1.0"

def readFile (file : String) : IO Reading := do
  try
    match String.fromUTF8? (← IO.FS.readBinFile file) with
    | some text => return .text text.toList
    | none => return .notText
  catch
    | .noFileOrDirectory .. => return .missing
    | .inappropriateType .. => return .directory
    | other => return .refused (toString other)

def finish (run : Run) : IO UInt32 := do
  IO.print (String.ofList run.output)
  for report in run.reports do
    IO.eprintln report.render
  if let some message := run.failure then IO.eprintln message
  return run.exitCode.toUInt32

def refuse (refusal : Refusal) : IO UInt32 := do
  if refusal.exitCode = 0 then IO.println refusal.text else IO.eprintln s!"error: {refusal.text}"
  return refusal.exitCode.toUInt32

end ScriptSyntax.CommandLine

open ScriptSyntax.CommandLine in
def main (arguments : List String) : IO UInt32 := do
  match Command.ofArguments arguments with
  | .ok command => finish (command.run (← readFile command.file))
  | .error refusal => refuse refusal
