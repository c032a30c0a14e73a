import DocCoverage.Grammar.Recursion

/-!
# Entering rules

Which rules a grammar can enter before it has read anything. A table of rules whose entries do not
run in circles is not left-recursive. Apart from that, only an opening marker that reads nothing
can keep a parse from getting on.
-/

namespace DocCoverage

variable {ε κ : Type} [DecidableEq ε] [Element ε]

namespace Grammar

/-- The grammar succeeds somewhere without reading anything. -/
def MayBeEmpty (rules : Rules ε κ) (grammar : Grammar ε κ) : Prop :=
  ∃ depth cursor value after,
    (grammar.parser (rules.parser depth)).outcome cursor = .success value after ∧
      after.position = cursor.position

/-- Running the grammar may enter the named rule before anything has been read. -/
inductive Enters (rules : Rules ε κ) : Grammar ε κ → String → Prop where
  | ref {name} : Enters rules (.ref name) name
  | lazy {body name} (inside : Enters rules body name) : Enters rules (.lazy body) name
  | map {body mapping name} (inside : Enters rules body name) :
      Enters rules (.map body mapping) name
  | lookAhead {body name} (inside : Enters rules body name) : Enters rules (.lookAhead body) name
  | withSpan {body name} (inside : Enters rules body name) : Enters rules (.withSpan body) name
  | many {body name} (inside : Enters rules body name) : Enters rules (.many body) name
  | many1 {body name} (inside : Enters rules body name) : Enters rules (.many1 body) name
  | skipMany {body name} (inside : Enters rules body name) : Enters rules (.skipMany body) name
  | skipMany1 {body name} (inside : Enters rules body name) : Enters rules (.skipMany1 body) name
  | orElseFirst {first second name} (inside : Enters rules first name) :
      Enters rules (.orElse first second) name
  | orElseSecond {first second name} (inside : Enters rules second name) :
      Enters rules (.orElse first second) name
  | manyTillBody {body stop name} (inside : Enters rules body name) :
      Enters rules (.manyTill body stop) name
  | manyTillStop {body stop name} (inside : Enters rules stop name) :
      Enters rules (.manyTill body stop) name
  | balanced {inner opening closing name} (inside : Enters rules opening name) :
      Enters rules (.balanced inner opening closing) name
  | bothFirst {first second name} (inside : Enters rules first name) :
      Enters rules (.both first second) name
  | bothSecond {first second name} (empty : MayBeEmpty rules first)
      (inside : Enters rules second name) : Enters rules (.both first second) name
  | andThenFirst {first second name} (inside : Enters rules first name) :
      Enters rules (.andThen first second) name
  | andThenSecond {first second name} (empty : MayBeEmpty rules first)
      (inside : Enters rules second name) : Enters rules (.andThen first second) name
  | followedByFirst {first second name} (inside : Enters rules first name) :
      Enters rules (.followedBy first second) name
  | followedBySecond {first second name} (empty : MayBeEmpty rules first)
      (inside : Enters rules second name) : Enters rules (.followedBy first second) name
  | applyFirst {first second combination name} (inside : Enters rules first name) :
      Enters rules (.apply first second combination) name
  | applySecond {first second combination name} (empty : MayBeEmpty rules first)
      (inside : Enters rules second name) : Enters rules (.apply first second combination) name
  | bindFirst {first next name} (inside : Enters rules first name) :
      Enters rules (.bind first next) name
  | bindNext {first next read name} (empty : MayBeEmpty rules first)
      (inside : Enters rules (next read) name) : Enters rules (.bind first next) name

/-- No opening marker of a balanced region in the grammar may be empty. -/
def OpeningsRead (rules : Rules ε κ) : Grammar ε κ → Prop
  | .pure _ | .any | .element _ | .satisfy _ | .literal _ | .take _ | .recognize _ | .ref _ => True
  | .map body _ | .lookAhead body | .withSpan body | .many body | .many1 body | .skipMany body
  | .skipMany1 body | .lazy body => body.OpeningsRead rules
  | .orElse first second | .both first second | .andThen first second | .followedBy first second
  | .apply first second _ | .manyTill first second =>
    first.OpeningsRead rules ∧ second.OpeningsRead rules
  | .bind first next => first.OpeningsRead rules ∧ ∀ read, (next read).OpeningsRead rules
  | .balanced inner opening closing =>
    ¬ opening.MayBeEmpty rules ∧ inner.OpeningsRead rules ∧ opening.OpeningsRead rules ∧
      closing.OpeningsRead rules

end Grammar

/-- The second rule may be entered from the first one before anything has been read. -/
def Rules.Enters (rules : Rules ε κ) (first second : String) : Prop :=
  ∃ body, rules.find? first = some body ∧ body.Enters rules second

/-- Some rule may come back to itself before anything has been read. -/
def Rules.LeftRecursive (rules : Rules ε κ) : Prop :=
  ∃ name, Relation.TransGen rules.Enters name name

end DocCoverage
