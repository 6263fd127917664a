import VSyntax.Position
import VSyntax.Html
import VSyntax.Dump
import VSyntax.Listing
import VSyntax.Workspace
import VSyntax.Program
import VSyntax.FileTree
import VSyntax.Main
import VSyntax.Operation
import VSyntax.Proofs.CommandLine
import VSyntax.Proofs.Session
import VSyntax.Proofs.Watch
import VSyntax.Proofs.Agree
import VSyntax.Proofs.Regex.Agree
import VSyntax.Proofs.Delimiters.Agree
import VSyntax.Proofs.Delimiters.Bounded
import VSyntax.Proofs.Delimiters.Appended
import VSyntax.Proofs.Delimiters.Framed
import VSyntax.Proofs.Classify.Segmentation
import VSyntax.Proofs.Classify.DelimitedParts
import VSyntax.Proofs.Classify.Resumption
import VSyntax.Proofs.Classify.Agree
import VSyntax.Proofs.Classify.InStep
import VSyntax.Proofs.Classify.Tidying
import VSyntax.Proofs.Classify.WordRules
import VSyntax.Proofs.Regex.Front
import VSyntax.Proofs.Delimiters.Front
import VSyntax.Proofs.Classify.Front
import VSyntax.Proofs.Html.Lossless
import VSyntax.Proofs.Standard.Aligned
import VSyntax.Proofs.Standard.WordSpans
import VSyntax.Proofs.Standard.Agree
import VSyntax.Proofs.Standard.Comments
import VSyntax.Proofs.Standard.Quotes
import VSyntax.Proofs.Standard.Replacement
import VSyntax.Proofs.Standard.Tidying
import VSyntax.Proofs.Standard.NumeralSpans
import VSyntax.Proofs.Positions
import VSyntax.Proofs.SemanticTokens.Ranges
import VSyntax.Proofs.SemanticTokens.Pieces
import VSyntax.Proofs.SemanticTokens.Placed
import VSyntax.Proofs.Program.Stages
import VSyntax.Proofs.Program
import VSyntax.Proofs.Regex.Lines
import VSyntax.Proofs.Regex.Scan
import VSyntax.Proofs.Regex.Extent
import VSyntax.Proofs.Regex.Bound
import VSyntax.Proofs.Refusal
import VSyntax.Proofs.Placement
import VSyntax.Proofs.Outline.Table
import VSyntax.Proofs.Outline.Shapes
import VSyntax.Proofs.Outline.Order
import VSyntax.Proofs.Outline.Entries
import VSyntax.Proofs.Outline.Symbols
import VSyntax.Proofs.Outline.Merge
import VSyntax.Proofs.Outline.LineEndings
import VSyntax.Proofs.Offsets
import VSyntax.Proofs.Keywords
import VSyntax.Proofs.Listing
import VSyntax.Proofs.Dump
