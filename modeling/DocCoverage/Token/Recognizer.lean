import DocCoverage.Parser.Balanced
import DocCoverage.Parser.Layout
import DocCoverage.Token.Basic

/-!
# Recognizers of tokens

One parser for each kind of token. A comment or a string literal that is not finished is none,
and text is only recognized up to a comment or string literal that is.
-/

namespace DocCoverage

namespace Token

/-- Two slashes and the rest of the line. The line break is read but not kept. -/
def lineComment : Parser Char Token :=
  ((Parser.literal ['/', '/']).both (Parser.any.manyTill Parser.endOfLine)).map
    fun (marker, body) => comment (String.ofList (marker ++ body))

/-- A block comment, with any number of block comments nested inside. -/
def blockComment : Parser Char Token :=
  (Parser.any.balanced (Parser.literal ['/', '*']) (Parser.literal ['*', '/'])).map
    fun nodes => comment (String.ofList (nodes.flatMap Node.elements))

/-- A comment of either kind. -/
def anyComment : Parser Char Token := lineComment.orElse blockComment

/-- One piece of a string literal: an escaped backslash, an escaped quote, or any character. The
value is always what stands in the input; the span of a character has a slice. -/
def stringPiece : Parser Char (List Char) :=
  ((Parser.literal ['\\', '\\']).orElse (Parser.literal ['\\', '"'])).orElse
    (Parser.any.withSpan.map fun (_, span) => span.slice?.getD [])

/-- A double quote, pieces up to the next double quote that is a piece of its own, and that
quote. -/
def quoted : Parser Char Token :=
  ((Parser.element '"').andThen (stringPiece.manyTill (Parser.element '"'))).map
    fun pieces => stringLiteral (String.ofList pieces.flatten)

/-- A comment or a string literal. -/
def delimited : Parser Char Token := anyComment.orElse quoted

/-- Everything up to the next comment or string literal, which is not read. -/
def plainText : Parser Char Token :=
  (Parser.any.manyTill delimited.lookAhead).map fun chars => text (String.ofList chars)

/-- A token of any kind, behind any number of spaces. -/
def anyToken : Parser Char Token := Parser.skipSpaces.andThen (delimited.orElse plainText)

end Token

end DocCoverage
