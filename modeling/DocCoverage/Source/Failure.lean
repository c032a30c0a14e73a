import DocCoverage.Source.Location

/-!
# Failed parses

A failure is a cause and the location where it arose. Causes are data; `Cause.message` is the
only place that puts them into words.
-/

namespace DocCoverage

/-- Why a parse fails. -/
inductive Cause (ε : Type) where
  /-- An element was asked for behind the last one. -/
  | endOfInput
  /-- The next element is missing or not an accepted one. -/
  | unsatisfied
  /-- A sequence asks for `expected` where `found` stands. -/
  | mismatch (expected found : ε) (sequence : List ε)
  /-- The input ends where a sequence asks for `expected`. -/
  | truncated (expected : ε) (sequence : List ε)
  /-- A repetition up to an end would repeat a match of no elements. -/
  | stalled
  /-- A grammar refers to a rule that its table does not have. -/
  | undefinedRule (name : String)
  /-- A cause in the words of whoever reports it. -/
  | other (message : String)
deriving DecidableEq

/-- The cause in words. -/
def Cause.message {ε : Type} [Element ε] : Cause ε → String
  | .endOfInput => "unexpected end of input"
  | .unsatisfied => "did not satisfy predicate"
  | .mismatch expected found sequence =>
    "expected '" ++ Element.spell expected ++ "', found '" ++ Element.spell found ++
      "' while matching '" ++ Element.decode sequence ++ "'"
  | .truncated expected sequence =>
    "expected '" ++ Element.spell expected ++ "', but reached end of input while matching '" ++
      Element.decode sequence ++ "'"
  | .stalled => "many_till: parser made no progress"
  | .undefinedRule name => "undefined rule '" ++ name ++ "'"
  | .other message => message

/-- A failed parse. -/
structure ParseFailure (ε : Type) where
  cause : Cause ε
  location : Location ε
deriving DecidableEq

namespace ParseFailure

variable {ε : Type}

/-- Whether an element was asked for behind the last one; all other failures are syntax errors. -/
def isEndOfInput (failure : ParseFailure ε) : Bool :=
  match failure.cause with
  | .endOfInput => true
  | _ => false

/-- The number of elements before the place of the failure. -/
def position (failure : ParseFailure ε) : Nat := failure.location.position

variable [Element ε]

/-- The cause of the failure in words. -/
def message (failure : ParseFailure ε) : String := failure.cause.message

variable [DecidableEq ε]

/-- The first line of a report: what happened, and its address. -/
def headline (failure : ParseFailure ε) : String :=
  let address := failure.location.address
  if failure.isEndOfInput then
    s!"Unexpected end of input at line {address.line}, offset {address.offset} " ++
      s!"(absolute position: {failure.position})"
  else
    s!"Syntax error at line {address.line}, offset {address.offset}: " ++ failure.message

/-- The full report: the headline, an empty line, and the excerpt around the failure. -/
def report (failure : ParseFailure ε) : String :=
  failure.headline ++ "\n\n" ++
    String.join (failure.location.excerpt.map fun line => line.render ++ "\n")

end ParseFailure

end DocCoverage
