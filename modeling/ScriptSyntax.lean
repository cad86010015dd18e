import ScriptSyntax.CommandLine
import ScriptSyntax.CommandLine.Arguments
import ScriptSyntax.Deferred
import ScriptSyntax.Diagnostic
import ScriptSyntax.Diagnostic.LineIndex
import ScriptSyntax.Diagnostic.Message
import ScriptSyntax.Entry
import ScriptSyntax.Grammar.Capture
import ScriptSyntax.Grammar.Declaration
import ScriptSyntax.Grammar.Expression
import ScriptSyntax.Grammar.Lookahead
import ScriptSyntax.Grammar.Recovery
import ScriptSyntax.Grammar.Script
import ScriptSyntax.Grammar.Signature
import ScriptSyntax.Grammar.Statement
import ScriptSyntax.Grammar.Type
import ScriptSyntax.Grammar.Variable
import ScriptSyntax.Main
import ScriptSyntax.Node.Dump
import ScriptSyntax.Options
import ScriptSyntax.Token.Cursor
import ScriptSyntax.Token.Listing
import ScriptSyntax.Proofs.AngleBrackets
import ScriptSyntax.Proofs.Advance
import ScriptSyntax.Proofs.Progress
import ScriptSyntax.Proofs.Comparison
import ScriptSyntax.Proofs.Comparison.Type
import ScriptSyntax.Proofs.Comparison.Expression
import ScriptSyntax.Proofs.Comparison.Statement
import ScriptSyntax.Proofs.TemplateLists
import ScriptSyntax.Proofs.Reading
import ScriptSyntax.Proofs.Comparison.Invariant
import ScriptSyntax.Proofs.Braces
import ScriptSyntax.Proofs.StatementBlock
import ScriptSyntax.Proofs.InitializerEnd
import ScriptSyntax.Proofs.CapturedInitializer
import ScriptSyntax.Proofs.Comparison.Declaration
import ScriptSyntax.Proofs.Comparison.Entry
import ScriptSyntax.Proofs.Comparison.Lockstep
import ScriptSyntax.Proofs.CursorLookahead
import ScriptSyntax.Proofs.LookaheadFrames
import ScriptSyntax.Proofs.PureLookahead
import ScriptSyntax.Proofs.QuietRuns
import ScriptSyntax.Proofs.AcceptedLists
import ScriptSyntax.Proofs.ReadingOn
import ScriptSyntax.Proofs.TypeRoundTrip
import ScriptSyntax.Proofs.Comparison.LockstepRules
import ScriptSyntax.Proofs.Comparison.Solo
import ScriptSyntax.Proofs.Layout
import ScriptSyntax.Proofs.TreeSpans
import ScriptSyntax.Proofs.ReportPlaces
import ScriptSyntax.Proofs.RecoveryStart
import ScriptSyntax.Proofs.TreeOrder
import ScriptSyntax.Proofs.TreeGrammar
import ScriptSyntax.Proofs.TreeGrammar.Rows
import ScriptSyntax.Proofs.TreeGrammar.Signature
import ScriptSyntax.Proofs.TreeGrammar.Expression
import ScriptSyntax.Proofs.TreeGrammar.Statement
import ScriptSyntax.Proofs.TreeGrammar.Declaration
import ScriptSyntax.Proofs.Composition
import ScriptSyntax.Proofs.Continuation
import ScriptSyntax.Proofs.Parentheses
import ScriptSyntax.Proofs.Continuation.Script
import ScriptSyntax.Proofs.Relocation
import ScriptSyntax.Proofs.CursorRefinement
import ScriptSyntax.Proofs.Tokenization
import ScriptSyntax.Proofs.Respacing
import ScriptSyntax.Proofs.Coverage
import ScriptSyntax.Proofs.LastToken
import ScriptSyntax.Proofs.SignatureSpans
import ScriptSyntax.Proofs.CapturedNesting
import ScriptSyntax.Proofs.DefaultArguments
import ScriptSyntax.Proofs.Tiling
import ScriptSyntax.Proofs.ClassBraces
import ScriptSyntax.Proofs.TreeHeight
import ScriptSyntax.Proofs.ScriptHeight
import ScriptSyntax.Proofs.Persistence
import ScriptSyntax.Proofs.Persistence.Lookahead
import ScriptSyntax.Proofs.Persistence.Type
import ScriptSyntax.Proofs.Persistence.TypeAhead
import ScriptSyntax.Proofs.Persistence.Expression
import ScriptSyntax.Proofs.Persistence.Statement
import ScriptSyntax.Proofs.Persistence.Declaration
import ScriptSyntax.Proofs.Persistence.Script
import ScriptSyntax.Proofs.NestedBlocks
import ScriptSyntax.Proofs.NestingCounter
import ScriptSyntax.Proofs.NestingCounter.Lookahead
import ScriptSyntax.Proofs.NestingCounter.Type
import ScriptSyntax.Proofs.NestingCounter.Expression
import ScriptSyntax.Proofs.NestingCounter.Statement
import ScriptSyntax.Proofs.NestingDepth
import ScriptSyntax.Proofs.Variation
import ScriptSyntax.Proofs.Variation.Lookahead
import ScriptSyntax.Proofs.Variation.Type
import ScriptSyntax.Proofs.Variation.Expression
import ScriptSyntax.Proofs.Variation.Statement
import ScriptSyntax.Proofs.Variation.Declaration
import ScriptSyntax.Proofs.Variation.Entry
import ScriptSyntax.Proofs.Variation.Twins
import ScriptSyntax.Proofs.ScriptPass
import ScriptSyntax.Proofs.TemplateNames
import ScriptSyntax.Proofs.LegacyArguments
import ScriptSyntax.Proofs.LegacyArguments.Name
import ScriptSyntax.Proofs.LegacyArguments.Assignment
import ScriptSyntax.Proofs.WholeWords
import ScriptSyntax.Proofs.TemplateDeclarations
import ScriptSyntax.Proofs.ListPatterns
import ScriptSyntax.Proofs.ValueEnds
import ScriptSyntax.Proofs.ScriptCoverage
import ScriptSyntax.Proofs.ListSlots
import ScriptSyntax.Proofs.InitLists
import ScriptSyntax.Proofs.NestedLists
import ScriptSyntax.Proofs.EncodedText
import ScriptSyntax.Proofs.QuotationEnds
import ScriptSyntax.Proofs.NumeralLanguage
import ScriptSyntax.Proofs.SpanHulls
import ScriptSyntax.Proofs.TreeDump
import ScriptSyntax.Proofs.TypesAhead
import ScriptSyntax.Proofs.TypesInFront
import ScriptSyntax.Proofs.VariableTypes
