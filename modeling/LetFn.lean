import LetFn.Main
import LetFn.Parser.Request
import LetFn.Proofs.Parser.Fuel
import LetFn.Proofs.Parser.Respan
import LetFn.Proofs.Grammar.Levels
import LetFn.Proofs.Lexing.Stream
import LetFn.Proofs.Parser.Clean
import LetFn.Proofs.Parser.CleanLoops
import LetFn.Proofs.Grammar.Standard
import LetFn.Proofs.Grammar.Sound
import LetFn.Proofs.Parser.Settles
import LetFn.Proofs.Grammar.Complete
import LetFn.Proofs.Grammar.Rendering
import LetFn.Proofs.Lexing.Spelling
import LetFn.Proofs.Tree.Printable
import LetFn.Proofs.Printing.Restored
import LetFn.Proofs.Prediction.Goals
import LetFn.Proofs.Prediction.Foretells
import LetFn.Proofs.Grammar.Plain
import LetFn.Proofs.Prediction.Plain
import LetFn.Proofs.Prediction.Parse
import LetFn.Proofs.Prediction.Completion
import LetFn.Proofs.Prediction.Prefix
import LetFn.Proofs.Walk.Routines
import LetFn.Proofs.Walk.Termination
import LetFn.Proofs.Parser.Tally
import LetFn.Proofs.Walk.Complaints
import LetFn.Proofs.Lexing.Concatenation
import LetFn.Proofs.Grammar.Concatenation
import LetFn.Proofs.Lexing.Literal
import LetFn.Proofs.Printing.Reprint
import LetFn.Proofs.Printing.Kinds
import LetFn.Proofs.Printing.Reread
import LetFn.Proofs.Lexing.Pulled
import LetFn.Proofs.Walk.History
import LetFn.Proofs.Tree.Content
import LetFn.Proofs.Tree.Genuine
import LetFn.Proofs.Tree.Parts
import LetFn.Proofs.Tree.Tokens
import LetFn.Proofs.Parser.Invariant
import LetFn.Proofs.Parser.Keeps
import LetFn.Proofs.Grammar.Tokens
import LetFn.Proofs.Printing.Reading
import LetFn.Proofs.Printing.Shown
import LetFn.Proofs.Lexing.Forms
import LetFn.Proofs.Lexing.Laid
import LetFn.Proofs.Lexing.Lossless
import LetFn.Proofs.Lexing.Seams
import LetFn.Proofs.Lexing.Scanning
import LetFn.Proofs.Lexing.Resumed
import LetFn.Proofs.Text.Lists
import LetFn.Proofs.Text.Utf8
import LetFn.Proofs.Text.Lines
import LetFn.Proofs.Text.SourceLine
import LetFn.Proofs.Command.Lines
import LetFn.Proofs.Command.Listing
import LetFn.Proofs.Command.Tokens
import LetFn.Proofs.Operators.Ordered
import LetFn.Proofs.Operators.Held
import LetFn.Proofs.Operators.Climb
import LetFn.Proofs.Parser.Gathers
import LetFn.Proofs.Parser.Layout
import LetFn.Proofs.Parser.Numbers
import LetFn.Proofs.Rules.Tables
import LetFn.Proofs.Rules.Meaning
import LetFn.Proofs.Rules.Language
import LetFn.Proofs.Rules.Bound
import LetFn.Proofs.Rules.Resumed
import LetFn.Proofs.Diagnostic.Excerpt
