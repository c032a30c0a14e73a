import DocCoverage.Text.CharSet

/-!
# Anchors

An anchor is a condition on a place between two characters of a text. It sees the character before
the place and the one behind it; at an end of the text there is none. These are the assertions of
the regex library, the word edges among them for ASCII only.
-/

namespace DocCoverage

open Text (CharSet)

/-- How a place lies to the words around it. Words are made of ASCII letters, digits and
underscores. -/
inductive WordEdge where
  /-- A word begins or ends. -/
  | boundary
  /-- No word begins or ends. -/
  | noBoundary
  | start
  | stop
  /-- No word character stands before the place. -/
  | startHalf
  /-- No word character stands behind the place. -/
  | stopHalf
deriving DecidableEq, Repr

/-- Whether a place lies so, with or without a word character before and behind it. -/
def WordEdge.holds (edge : WordEdge) (before behind : Bool) : Bool :=
  match edge with
  | .boundary => before != behind
  | .noBoundary => before == behind
  | .start => !before && behind
  | .stop => before && !behind
  | .startHalf => !before
  | .stopHalf => !behind

/-- A condition on a place. -/
inductive Anchor where
  | textStart
  | textStop
  /-- The beginning of a line; lines end in a line feed and, if `crlf`, in a carriage return or
  in both together. -/
  | lineStart (crlf : Bool)
  /-- The end of a line, without the characters that end it. -/
  | lineStop (crlf : Bool)
  | word (edge : WordEdge)
deriving DecidableEq, Repr

/-- Whether a place between the given characters meets the condition. -/
def Anchor.holds (anchor : Anchor) (before behind : Option Char) : Bool :=
  match anchor with
  | .textStart => before.isNone
  | .textStop => behind.isNone
  | .lineStart crlf =>
    before.isNone || before == some '\n' ||
      (crlf && before == some '\r' && behind != some '\n')
  | .lineStop crlf =>
    behind.isNone || (behind == some '\n' && !(crlf && before == some '\r')) ||
      (crlf && behind == some '\r')
  | .word edge => edge.holds (before.any CharSet.word.contains) (behind.any CharSet.word.contains)

end DocCoverage
