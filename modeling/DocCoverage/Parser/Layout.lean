import DocCoverage.Parser.Element
import DocCoverage.Parser.Repeat
import DocCoverage.Text.Blank

/-!
# Layout

Parsers of the characters that separate words and lines.
-/

namespace DocCoverage.Parser

/-- One space, tab, line feed or carriage return. -/
def space : Parser Char Char := satisfy Text.isSpace

/-- Any number of spaces. -/
def skipSpaces : Parser Char Unit := space.skipMany

/-- One end of a line: a line feed, a carriage return and a line feed, or a carriage return
alone. The value is a line feed in each case. -/
def endOfLine : Parser Char Char :=
  ((element '\n').orElse ((literal ['\r', '\n']).map fun _ => '\n')).orElse
    ((element '\r').map fun _ => '\n')

end DocCoverage.Parser
