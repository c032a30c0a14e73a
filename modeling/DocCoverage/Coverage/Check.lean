import DocCoverage.Coverage.Declaration
import DocCoverage.Token.Basic

/-!
# Documentation coverage

A documentation comment documents the first public function of the text right behind it. Every
other public function is undocumented.
-/

namespace DocCoverage

open Log (Logged)

/-- The public functions of a source, by whether they are documented. -/
structure Coverage where
  /-- How many functions are documented. -/
  documented : Nat
  /-- The names of all other functions, in order and with repetitions. -/
  undocumented : List String
deriving DecidableEq, Repr

namespace Coverage

/-- The coverage of a source without public functions. -/
def empty : Coverage := ⟨0, []⟩

/-- Whether every function is documented. -/
def isComplete (coverage : Coverage) : Bool := coverage.undocumented.isEmpty

/-- The coverage after the functions of one more text, of which the first one is documented if
`credit` says so. -/
def add (coverage : Coverage) (credit : Bool) : (names : List String) → Coverage
  | [] => coverage
  | name :: names =>
    if credit then ⟨coverage.documented + 1, coverage.undocumented ++ names⟩
    else ⟨coverage.documented, coverage.undocumented ++ name :: names⟩

/-- Goes on over the tokens; `credit` says whether the token before them is a documentation
comment. -/
def scan (coverage : Coverage) (credit : Bool) : List Token → Logged Coverage
  | [] => return coverage
  | token :: tokens => do
    match token with
    | .text content =>
      let names ← Declaration.namesLogged content
      scan (coverage.add credit names) false tokens
    | .comment _ | .stringLiteral _ => scan coverage token.isDoc tokens

/-- The coverage of a list of tokens, with a report. -/
def checkLogged (tokens : List Token) : Logged Coverage := do
  let coverage ← scan empty false tokens
  Logged.report .debug "docgate::checker"
    (s!"{coverage.documented} documented and {coverage.undocumented.length} " ++
      "undocumented public functions")
  return coverage

/-- The coverage of a list of tokens. -/
def check (tokens : List Token) : Coverage := (checkLogged tokens).value

end Coverage

/-- The names of the public functions that no documentation comment documents. -/
def undocumentedFunctions (tokens : List Token) : List String :=
  (Coverage.check tokens).undocumented

end DocCoverage
