import DocCoverage.Grammar.Basic
import DocCoverage.Parser.Balanced
import DocCoverage.Parser.Element
import DocCoverage.Parser.Layout
import DocCoverage.Token.Recognizer

/-!
# Parsers of grammars

A grammar is read with an environment that gives a parser for each rule name. The environment of
a table of rules is the limit of its unrollings: `Rules.parser depth` follows at most `depth`
references into each other and diverges behind that.

A parse that ends never enters a rule again at the place where it is still inside that rule, so
the references that are open at one time are bounded by the number of pairs of a rule and a place.
`Rules.depthAt` is that bound, and `Rules.run` unrolls as far. That nothing is lost by it is
`Rules.run_eq_of_endsAt`: whatever unrolling ends does what `Rules.run` does. Behind the bound all
unrollings have the same outcome (`Rules.outcome_eq_of_depthAt_le`).
-/

namespace DocCoverage

variable {ε κ : Type}

/-- The parser of a named recognizer. -/
def Recognizer.parser : {ε : Type} → Recognizer ε → Parser ε (Value ε κ)
  | _, .space => Parser.space.map .element
  | _, .skipSpaces => Parser.skipSpaces.map fun _ => .unit
  | _, .endOfLine => Parser.endOfLine.map .element
  | _, .lineComment => Token.lineComment.map .token
  | _, .blockComment => Token.blockComment.map .token
  | _, .comment => Token.anyComment.map .token
  | _, .stringLiteral => Token.quoted.map .token
  | _, .text => Token.plainText.map .token

/-- The value of a node of a balanced region. -/
def Node.value : Node (Value ε κ) (List (Value ε κ)) (Value ε κ) → Value ε κ
  | .opened marker => .opened marker
  | .inner items => .inner items
  | .closed marker => .closed marker

section Semantics

variable [DecidableEq ε] [Element ε]

/-- The parser of a grammar, with the parsers of the rules that it refers to. -/
def Grammar.parser (rule : String → Parser ε (Value ε κ)) :
    Grammar ε κ → Parser ε (Value ε κ)
  | .pure payload => Parser.pure (.constant payload)
  | .any => Parser.any.map .element
  | .element expected => (Parser.element expected).map .element
  | .satisfy predicate => (Parser.satisfy predicate.holds).map .element
  | .literal expected => (Parser.literal expected).map .slice
  | .take count => (Parser.take count).map fun elements => .list (elements.map .element)
  | .recognize recognizer => recognizer.parser
  | .map body mapping => (body.parser rule).map mapping.apply
  | .orElse first second => (first.parser rule).orElse (second.parser rule)
  | .both first second =>
    ((first.parser rule).both (second.parser rule)).map fun (left, right) => .pair left right
  | .andThen first second => (first.parser rule).andThen (second.parser rule)
  | .followedBy first second => (first.parser rule).followedBy (second.parser rule)
  | .apply first second combination =>
    ((first.parser rule).map combination.apply).apply (second.parser rule)
  | .bind first next => (first.parser rule).bind fun value => (next value.flatten).parser rule
  | .lookAhead body => (body.parser rule).lookAhead
  | .withSpan body => (body.parser rule).withSpan.map fun (value, span) => .spanned value span
  | .many body => (body.parser rule).many.map .list
  | .many1 body => (body.parser rule).many1.map .list
  | .skipMany body => (body.parser rule).skipMany.map fun _ => .unit
  | .skipMany1 body => (body.parser rule).skipMany1.map fun _ => .unit
  | .manyTill body stop => ((body.parser rule).manyTill (stop.parser rule)).map .list
  | .balanced inner opening closing =>
    ((inner.parser rule).balanced (opening.parser rule) (closing.parser rule)).map
      fun nodes => .list (nodes.map Node.value)
  | .lazy body => Parser.lazy fun _ => body.parser rule
  | .ref name => Parser.lazy fun _ => rule name

namespace Rules

/-- The parser of a named rule that follows at most `depth` references into each other. -/
def parser (rules : Rules ε κ) : (depth : Nat) → (name : String) → Parser ε (Value ε κ)
  | 0, _ => Parser.diverge
  | depth + 1, name =>
    match rules.find? name with
    | some body => body.parser (rules.parser depth)
    | none => Parser.fail (.undefinedRule name)

/-- The number of pairs of a rule and a place from the cursor on, and one more for a name that is
not in the table. -/
def depthAt (rules : Rules ε κ) (cursor : Cursor ε) : Nat := rules.length * (cursor.left + 1) + 1

/-- Runs a grammar with the rules that it refers to. -/
def run (rules : Rules ε κ) (grammar : Grammar ε κ) (cursor : Cursor ε) :
    Attempt ε (Value ε κ) :=
  (grammar.parser (rules.parser (rules.depthAt cursor))).run cursor

/-- Runs grammars one after the other. A success moves the cursor for those that follow; a
failure leaves it where it is. -/
def runAll (rules : Rules ε κ) : List (Grammar ε κ) → Cursor ε → List (Attempt ε (Value ε κ))
  | [], _ => []
  | grammar :: grammars, cursor =>
    let attempt := rules.run grammar cursor
    let next := match attempt.outcome with
      | .success _ after => after
      | .failure _ | .diverged => cursor
    attempt :: runAll rules grammars next

end Rules

end Semantics

end DocCoverage
