import ScriptSyntax.CommandLine
import ScriptSyntax.Proofs.Variation.Twins

/-!
# The script pass

Bodies and initializers are only captured while a script is parsed.  So no argument of a call is
read, and whether it may be named in the old way makes no difference.
-/

namespace ScriptSyntax.Entry

open Grammar

/-- A script has the same tree and the same reports whether or not old named arguments are allowed,
none of them a warning; so has what the command line makes of it. -/
theorem parse_script_legacy (options : Options) (legacy : Bool) (source : Source) :
    let other := { options with legacyNamedArguments := legacy }
    script.parse other source = script.parse options source ∧
      (script.parse options source).diagnostics.warnings = [] ∧
      ∀ tree, CommandLine.parseScript other tree source =
        CommandLine.parseScript options tree source := by
  have hparse := script.parse_twins options { options with legacyNamedArguments := legacy } source
    rfl (·.warnings = []) (fun _ _ hseverity hnone =>
      (Diagnostics.warnings_push hseverity).trans hnone) rfl rfl (fun _ _ _ _ _ => rfl)
    fun bound => Variation.agrees_declaring script rfl
  refine ⟨hparse.1, hparse.2, fun tree => ?_⟩
  unfold CommandLine.parseScript
  rw [hparse.1]

end ScriptSyntax.Entry
