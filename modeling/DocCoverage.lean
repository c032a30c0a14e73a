import DocCoverage.Coverage.Leftmost
import DocCoverage.Grammar.Entry
import DocCoverage.Main
import DocCoverage.Parser.Delimiter
import DocCoverage.Parser.Forward
import DocCoverage.Parser.Region
import DocCoverage.Parser.Repeat.Outcome
import DocCoverage.Token.Segmentation
import DocCoverage.Token.Written
import DocCoverage.Proofs.Parser.Balanced
import DocCoverage.Proofs.Parser.Reading
import DocCoverage.Proofs.Parser.Delimiter
import DocCoverage.Proofs.Token.Reading
import DocCoverage.Proofs.Token.Segmentation
import DocCoverage.Proofs.Token.Lossless
import DocCoverage.Proofs.Coverage.Names
import DocCoverage.Proofs.Coverage.Attribution
import DocCoverage.Proofs.Token.Extension
import DocCoverage.Coverage.Listing
import DocCoverage.Proofs.Coverage.Listing
import DocCoverage.Proofs.Token.Insertion
import DocCoverage.Proofs.Coverage.Documenting
import DocCoverage.Proofs.Parser.Region
import DocCoverage.Proofs.Token.Rendering
import DocCoverage.Parser.Built
import DocCoverage.Proofs.Parser.Confinement
import DocCoverage.Proofs.Grammar.Confinement
import DocCoverage.Proofs.Parser.Shift
import DocCoverage.Proofs.Grammar.Shift
import DocCoverage.Proofs.Parser.Ending
import DocCoverage.Proofs.Parser.Scan
import DocCoverage.Proofs.Grammar.Ending
import DocCoverage.Proofs.Token.LineEnd
import DocCoverage.Proofs.Coverage.LineEnd
import DocCoverage.Command.Obtained
import DocCoverage.Proofs.Command.Options
import DocCoverage.Proofs.Text.Utf8
import DocCoverage.Proofs.Command.Run
import DocCoverage.Proofs.Parser.Repetition
import DocCoverage.Proofs.Parser.Nesting
import DocCoverage.Proofs.Parser.Turns
import DocCoverage.Proofs.Token.Extent
import DocCoverage.Proofs.Coverage.Position
import DocCoverage.Proofs.Source.Address
import DocCoverage.Proofs.Source.Excerpt
import DocCoverage.Proofs.Coverage.Steady
import DocCoverage.Proofs.Coverage.LastLine
import DocCoverage.Proofs.Parser.Literal
import DocCoverage.Parser.Recursive
import DocCoverage.Proofs.Parser.Tiling
import DocCoverage.Proofs.Grammar.Brackets
import DocCoverage.Proofs.Grammar.Unrolling
