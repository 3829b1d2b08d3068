import TwinModule.Blocking
import TwinModule.Blocks.Map
import TwinModule.Blocks.Tidy
import TwinModule.Blocks.Walk
import TwinModule.CommandLine.Arguments
import TwinModule.CommandLine.Run
import TwinModule.Comments.Extent
import TwinModule.Comments.Placement
import TwinModule.Comments.Scan
import TwinModule.Conversion
import TwinModule.Directive.Attach
import TwinModule.Directive.Basic
import TwinModule.Directive.Constant
import TwinModule.Failure
import TwinModule.Files.Path
import TwinModule.Files.Store
import TwinModule.Grammar.Expression
import TwinModule.Grammar.Format
import TwinModule.Grammar.Literal
import TwinModule.Grammar.Pattern
import TwinModule.Grammar.Reader
import TwinModule.Grammar.Statement
import TwinModule.Layout
import TwinModule.Library
import TwinModule.Main
import TwinModule.Number.Binary64
import TwinModule.Number.Notation
import TwinModule.Options
import TwinModule.Paired.Block
import TwinModule.Paired.Builtins
import TwinModule.Paired.Copies
import TwinModule.Paired.Decorator
import TwinModule.Paired.Scope
import TwinModule.Paired.Session
import TwinModule.Paired.Value
import TwinModule.Print.Error
import TwinModule.Print.Expression
import TwinModule.Print.Piece
import TwinModule.Print.Statement
import TwinModule.Print.Strength
import TwinModule.Print.StringForm
import TwinModule.Project
import TwinModule.Proofs.Directive.Derivation
import TwinModule.Source
import TwinModule.Syntax.Expr
import TwinModule.Syntax.Literal
import TwinModule.Syntax.Operator
import TwinModule.Syntax.Outline
import TwinModule.Syntax.Outline.Read
import TwinModule.Syntax.Stmt
import TwinModule.Syntax.Tag
import TwinModule.Text.Blank
import TwinModule.Text.Identifier
import TwinModule.Text.IdentifierChars
import TwinModule.Text.Lines
import TwinModule.Text.Quoted
import TwinModule.Text.Split
import TwinModule.Text.Unprintable
import TwinModule.Token.Basic
import TwinModule.Token.Lexeme
import TwinModule.Token.Lexer
import TwinModule.Trace
import TwinModule.Variant
import TwinModule.Proofs.Directive.Acceptance
import TwinModule.Proofs.Grammar.Bare
import TwinModule.Proofs.Comments.Placement
import TwinModule.Proofs.Directive.Attached
import TwinModule.Proofs.Conversion.Tailor
import TwinModule.Proofs.Tree.Tidy
import TwinModule.Proofs.Conversion.Converted
import TwinModule.Proofs.Layout
import TwinModule.Proofs.Project
import TwinModule.Proofs.Conversion.Projection
import TwinModule.Proofs.Conversion.Validity
import TwinModule.Proofs.Tree.Alike
import TwinModule.Proofs.Conversion.Influence
import TwinModule.Proofs.Conversion.Stable
import TwinModule.Proofs.Conversion.Inlined
import TwinModule.Proofs.Conversion.Noted
import TwinModule.Proofs.Files.Grow
import TwinModule.Proofs.Files.Write
import TwinModule.Proofs.Files.Written
import TwinModule.Proofs.Files.Located
import TwinModule.Proofs.Generation.Run
import TwinModule.Proofs.Generation.Failed
import TwinModule.Proofs.Generation.Again
import TwinModule.Proofs.Generation.Synchronous
import TwinModule.Proofs.Tree.Modules
import TwinModule.Proofs.Layout.Complete
import TwinModule.Proofs.Generation.Apart
import TwinModule.Proofs.Conversion.Failing
import TwinModule.Proofs.Generation.Pointed
import TwinModule.Proofs.Grammar.Quoted
import TwinModule.Proofs.Agreement
import TwinModule.Proofs.Directive.Rendered
import TwinModule.Proofs.Tree.Gist
import TwinModule.Proofs.Directive.Gist
import TwinModule.Proofs.Print.WrittenOut
import TwinModule.Proofs.Directive.WrittenOut
import TwinModule.Proofs.Print.Faithful
import TwinModule.Proofs.Files.Real
import TwinModule.Proofs.Conversion.Visitor
import TwinModule.Proofs.Conversion.Ending
import TwinModule.Proofs.Conversion.Sharing
import TwinModule.Proofs.Generation.Independent
import TwinModule.Proofs.Files.Made
import TwinModule.Proofs.Layout.Change
import TwinModule.Proofs.CommandLine.Arguments
import TwinModule.Proofs.CommandLine.DryRun
import TwinModule.Proofs.Conversion.Documented
import TwinModule.Proofs.Generation.Documented
import TwinModule.Proofs.Directive.Kept
import TwinModule.Proofs.Conversion.Untagged
import TwinModule.Proofs.Conversion.SelfImport
import TwinModule.Proofs.Conversion.Watched
import TwinModule.Proofs.Directive.Classified
import TwinModule.Proofs.Tree.Outlined
import TwinModule.Proofs.Conversion.Restored
import TwinModule.Proofs.Conversion.Declared
import TwinModule.Proofs.Conversion.Nesting
import TwinModule.Proofs.Conversion.BlockingFirst
import TwinModule.Proofs.Layout.Candidates
import TwinModule.Proofs.Tree.Compilable
import TwinModule.Proofs.Conversion.Accompanied
import TwinModule.Proofs.Tree.Mentioned
import TwinModule.Proofs.Layout.Opening
import TwinModule.Proofs.Paired.Trimmed
import TwinModule.Proofs.Paired.OwnText
import TwinModule.Proofs.Tree.Stops
import TwinModule.Proofs.Tree.Walked
import TwinModule.Proofs.Tree.Replaced
import TwinModule.Proofs.Tree.Finalized
import TwinModule.Proofs.Directive.Reread
