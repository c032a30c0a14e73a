import DocCoverage.Source.Location

/-!
# Faults of patterns

Why a text is not a pattern, and which characters of it are at fault. `Fault.render` shows the
pattern, marks the characters and says what is wrong with them. The texts and the layout are those
of the regex library's error report.
-/

namespace DocCoverage.Pattern

/-- What is wrong with a pattern. -/
inductive Cause where
  /-- An escape that stands for no character, among the members of a set. -/
  | classEscape
  | classRangeOrder
  | classRangeBound
  | classUnclosed
  | countMissing
  | countTooLarge
  | countOrder
  | countUnclosed
  | repetitionAlone
  | escapeCut
  | escapeUnknown
  | hexEmpty
  | hexDigit
  | hexNotCharacter
  | backreference
  | propertyInvalid
  | edgeUnclosed
  | edgeUnknown
  | edgeCut
  | flagUnknown
  | flagTwice
  | flagsCut
  | negationTwice
  | negationDangling
  | nameCut
  | nameEmpty
  | nameInvalid
  | nameTwice
  | groupUnclosed
  | groupUnopened
  | lookAround
  | nestedTooDeep
  /-- What goes beyond ASCII, where only ASCII is meant. -/
  | unicodeOff
  /-- Bytes that are no text, where only ASCII is meant. -/
  | notText
  | propertyUnknown
  | valueUnknown
  /-- A set that is named by a letter and goes beyond ASCII. -/
  | setUnavailable
  /-- Letters without regard to case that are not of ASCII alone. -/
  | caseUnavailable
deriving DecidableEq, Repr

/-- How many parts of a pattern may lie in one another. -/
def depthLimit : Nat := 250

/-- The cause in words. -/
def Cause.message : Cause → String
  | .classEscape => "invalid escape sequence found in character class"
  | .classRangeOrder => "invalid character class range, the start must be <= the end"
  | .classRangeBound => "invalid range boundary, must be a literal"
  | .classUnclosed => "unclosed character class"
  | .countMissing => "repetition quantifier expects a valid decimal"
  | .countTooLarge => "decimal literal invalid"
  | .countOrder => "invalid repetition count range, the start must be <= the end"
  | .countUnclosed => "unclosed counted repetition"
  | .repetitionAlone => "repetition operator missing expression"
  | .escapeCut => "incomplete escape sequence, reached end of pattern prematurely"
  | .escapeUnknown => "unrecognized escape sequence"
  | .hexEmpty => "hexadecimal literal empty"
  | .hexDigit => "invalid hexadecimal digit"
  | .hexNotCharacter => "hexadecimal literal is not a Unicode scalar value"
  | .backreference => "backreferences are not supported"
  | .propertyInvalid => "invalid Unicode character class"
  | .edgeUnclosed =>
    "special word boundary assertion is either unclosed or contains an invalid character"
  | .edgeUnknown =>
    "unrecognized special word boundary assertion, valid choices are: start, end, start-half " ++
      "or end-half"
  | .edgeCut =>
    "found either the beginning of a special word boundary or a bounded repetition on a \\b " ++
      "with an opening brace, but no closing brace"
  | .flagUnknown => "unrecognized flag"
  | .flagTwice => "duplicate flag"
  | .flagsCut => "expected flag but got end of regex"
  | .negationTwice => "flag negation operator repeated"
  | .negationDangling => "dangling flag negation operator"
  | .nameCut => "unclosed capture group name"
  | .nameEmpty => "empty capture group name"
  | .nameInvalid => "invalid capture group character"
  | .nameTwice => "duplicate capture group name"
  | .groupUnclosed => "unclosed group"
  | .groupUnopened => "unopened group"
  | .lookAround => "look-around, including look-ahead and look-behind, is not supported"
  | .nestedTooDeep =>
    s!"exceed the maximum number of nested parentheses/brackets ({depthLimit})"
  | .unicodeOff => "Unicode not allowed here"
  | .notText => "pattern can match invalid UTF-8"
  | .propertyUnknown => "Unicode property not found"
  | .valueUnknown => "Unicode property value not found"
  | .setUnavailable =>
    "Unicode-aware Perl class not found (make sure the unicode-perl feature is enabled)"
  | .caseUnavailable =>
    "Unicode-aware case insensitivity matching is not available (make sure the unicode-case " ++
      "feature is enabled)"

/-- The characters of a pattern from one place up to another. -/
structure Extent where
  start : Nat
  stop : Nat
deriving DecidableEq, Repr

/-- What is wrong with a pattern, and where. -/
structure Fault where
  cause : Cause
  extent : Extent
  /-- An earlier place that the fault refers to. -/
  earlier : Option Extent
deriving DecidableEq, Repr

namespace Fault

/-- The places to be marked, in order. -/
def extents (fault : Fault) : List Extent := fault.earlier.toList ++ [fault.extent]

/-- Carets below the given columns of a line, of which there is at least one for each pair of
columns; `written` columns have been filled before. -/
def carets (written : Nat) : List (Nat × Nat) → List Char
  | [] => []
  | (first, last) :: rest =>
    let blanks := first - written
    let marks := max 1 (last - first)
    List.replicate blanks ' ' ++ List.replicate marks '^' ++ carets (written + blanks + marks) rest

/-- The lines of a pattern as they are shown; nothing is shown behind a last line feed. -/
def shownLines (pattern : List Char) : List (List Char) :=
  let lines := splitLines pattern
  let ended := lines.dropLast.map fun line =>
    if line.getLast? = some '\r' then line.dropLast else line
  match lines.getLast? with
  | some [] | none => ended
  | some last => ended ++ [last]

/-- The fault in words, below the pattern with the characters at fault marked. A pattern of several
lines has its lines numbered, and a fault that runs over several lines is described instead. -/
def render (fault : Fault) (pattern : String) : String :=
  let chars := pattern.toList
  let address (place : Nat) : Address := Location.address ⟨chars.toArray, place⟩
  let places := fault.extents.map fun extent => (address extent.start, address extent.stop)
  let count := (splitLines chars).length
  let width := if count ≤ 1 then 0 else (toString count).length
  let margin (number : Nat) : String :=
    let digits := toString number
    if width = 0 then "    " else "".pushn ' ' (width - digits.length) ++ digits ++ ": "
  let body := (shownLines chars).zipIdx 1 |>.flatMap fun (line, number) =>
    let marked := places.filter fun (start, stop) => start.line = number ∧ stop.line = number
    let marks := carets 0 (marked.map fun (start, stop) => (start.offset, stop.offset))
    let indent := "".pushn ' ' (margin number).length
    (margin number ++ String.ofList line) ::
      (if marked.isEmpty then [] else [indent ++ String.ofList marks])
  let divider := if width = 0 then [] else ["".pushn '~' 79]
  let notes := (places.filter fun (start, stop) => start.line ≠ stop.line).map fun (start, stop) =>
    s!"on line {start.line} (column {start.offset + 1}) through " ++
      s!"line {stop.line} (column {stop.offset})"
  "\n".intercalate (["regex parse error:"] ++ divider ++ body ++ divider ++ notes ++
    ["error: " ++ fault.cause.message])

end Fault

end DocCoverage.Pattern
