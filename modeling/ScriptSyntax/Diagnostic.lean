import ScriptSyntax.Span

/-!
# Diagnostics

A diagnostic is a message at a place.  A collection keeps the order of reporting; sorted, its
members follow their places, and at one place errors come before warnings and warnings before
infos.
-/

namespace ScriptSyntax

inductive Severity
  | error | warning | info
  deriving DecidableEq

namespace Severity

def name : Severity → String
  | error => "error"
  | warning => "warning"
  | info => "info"

/-- How a report ranks the severity; an info is advice there. -/
def rank : Severity → String
  | error => "Error"
  | warning => "Warning"
  | info => "Advice"

end Severity

/-- Row and column count from one, the column in bytes. -/
structure Diagnostic where
  severity : Severity
  text : String
  span : Span
  row : Nat
  column : Nat
  deriving DecidableEq

namespace Diagnostic

def render (diagnostic : Diagnostic) : String :=
  s!"{diagnostic.row}:{diagnostic.column}: {diagnostic.severity.name}: {diagnostic.text}"

/-- A labelled stretch of source under a message. -/
structure Report where
  message : String
  rank : String
  label : String
  start : Nat
  length : Nat
  deriving DecidableEq

def report (diagnostic : Diagnostic) : Report :=
  ⟨diagnostic.text, diagnostic.severity.rank, diagnostic.severity.name, diagnostic.span.start,
    diagnostic.span.length⟩

end Diagnostic

structure Diagnostics where
  /-- In the order of reporting. -/
  reported : List Diagnostic := []
  deriving DecidableEq

namespace Diagnostics

def push (all : Diagnostics) (diagnostic : Diagnostic) : Diagnostics :=
  ⟨all.reported ++ [diagnostic]⟩

def ofSeverity (all : Diagnostics) (severity : Severity) : List Diagnostic :=
  all.reported.filter (·.severity = severity)

def errors (all : Diagnostics) : List Diagnostic :=
  all.ofSeverity .error

def warnings (all : Diagnostics) : List Diagnostic :=
  all.ofSeverity .warning

def infos (all : Diagnostics) : List Diagnostic :=
  all.ofSeverity .info

/-- Errors, then warnings, then infos. -/
def toList (all : Diagnostics) : List Diagnostic :=
  all.errors ++ all.warnings ++ all.infos

def length (all : Diagnostics) : Nat :=
  all.toList.length

def isEmpty (all : Diagnostics) : Bool :=
  all.reported.isEmpty

def hasErrors (all : Diagnostics) : Bool :=
  !all.errors.isEmpty

def sorted (all : Diagnostics) : List Diagnostic :=
  all.toList.mergeSort fun first second => first.span.start ≤ second.span.start

/-- How a failed parse is summed up. -/
def failureText (all : Diagnostics) : String :=
  s!"parsing failed with {all.errors.length} error(s)"

theorem sorted_perm (all : Diagnostics) : all.sorted.Perm all.toList :=
  List.mergeSort_perm _ _

end Diagnostics

end ScriptSyntax
