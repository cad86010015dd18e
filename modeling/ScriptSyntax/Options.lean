/-!
# Parser options
-/

namespace ScriptSyntax

structure Options where
  /-- The names that take template arguments when used as types. -/
  templateTypes : List String := ["array"]
  /-- A class may be declared with a handle mark before its name. -/
  implicitHandles : Bool := true
  /-- Named arguments may be written with an equals sign, at the price of a warning. -/
  legacyNamedArguments : Bool := true
  /-- How deeply types, expressions, statements and lists may nest. -/
  maxDepth : Nat := 256
  deriving DecidableEq

namespace Options

def isTemplateType (options : Options) (name : String) : Bool :=
  options.templateTypes.contains name

/-- Adds a template type that is not there yet. -/
def addTemplateType (options : Options) (name : String) : Options :=
  if options.isTemplateType name then options
  else { options with templateTypes := options.templateTypes ++ [name] }

end Options

end ScriptSyntax
