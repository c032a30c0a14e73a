/-!
# Tokens

Source text is split into comments, string literals, and the text in between. The checks only
ever look at text, and ask of the token before it whether it is a documentation comment.
-/

namespace DocCoverage

/-- A classified piece of source text. -/
inductive Token where
  /-- A line or block comment with its markers. The line break that ends a line comment is not
  part of it. -/
  | comment (content : String)
  /-- What stands between two double quotes, with escapes as they are written. -/
  | stringLiteral (content : String)
  /-- Anything else. -/
  | text (content : String)
deriving DecidableEq, Repr

namespace Token

/-- The text of the token, whatever its kind. -/
def content : Token → String
  | .comment content | .stringLiteral content | .text content => content

/-- Whether the token is a documentation comment: one that begins with three slashes, or with a
slash and two stars. -/
def isDoc : Token → Bool
  | .comment content =>
    "///".toList.isPrefixOf content.toList || "/**".toList.isPrefixOf content.toList
  | .stringLiteral _ | .text _ => false

/-- Whether the token is text. -/
def isText : Token → Bool
  | .text _ => true
  | .comment _ | .stringLiteral _ => false

end Token

end DocCoverage
