import DocCoverage.Grammar.Value
import DocCoverage.Text.Blank

/-!
# Grammars

A grammar is a parser written down as data, with references to named rules. `Rules` is a table
of such rules, which may refer to each other and to themselves. What a grammar reads is defined
with its rules, in the module on recursion.
-/

namespace DocCoverage

/-- A condition on one element. -/
inductive Predicate (ε : Type) where
  | always
  | never
  /-- A space, tab, line feed or carriage return, by code. -/
  | space
  | oneOf (elements : List ε)
  /-- From one element to another, both included, by code. -/
  | range (low high : ε)
  | not (predicate : Predicate ε)
deriving DecidableEq

/-- Whether the predicate holds of an element. -/
def Predicate.holds {ε : Type} [DecidableEq ε] [Element ε] : Predicate ε → ε → Bool
  | .always, _ => true
  | .never, _ => false
  | .space, element => Text.isSpace (Element.toChar element)
  | .oneOf elements, element => elements.contains element
  | .range low high, element =>
    (Element.toChar low).toNat ≤ (Element.toChar element).toNat &&
      (Element.toChar element).toNat ≤ (Element.toChar high).toNat
  | .not predicate, element => !predicate.holds element

/-- A change to the value of a grammar. -/
inductive Mapping where
  /-- The number of elements in the value. -/
  | length
  /-- The elements in the value, as text. -/
  | text
  /-- A list in reverse order. -/
  | reverse
  | wrap
  | discard
deriving DecidableEq, Repr

/-- The changed value. -/
def Mapping.apply {ε κ : Type} [Element ε] : Mapping → Value ε κ → Value ε κ
  | .length, value => .count value.flatten.length
  | .text, value => .text (Element.decode value.flatten)
  | .reverse, value => value.reverse
  | .wrap, value => .wrapped value
  | .discard, _ => .unit

/-- What becomes of the two values of an application. -/
inductive Combination where
  | pair
  | swap
  | left
  | right
deriving DecidableEq, Repr

/-- The combined value. -/
def Combination.apply {ε κ : Type} : Combination → Value ε κ → Value ε κ → Value ε κ
  | .pair, first, second => .pair first second
  | .swap, first, second => .pair second first
  | .left, first, _ => first
  | .right, _, second => second

/-- The recognizers that have names of their own. All of them read characters. -/
inductive Recognizer : Type → Type where
  | space : Recognizer Char
  | skipSpaces : Recognizer Char
  | endOfLine : Recognizer Char
  | lineComment : Recognizer Char
  | blockComment : Recognizer Char
  | comment : Recognizer Char
  | stringLiteral : Recognizer Char
  | text : Recognizer Char

/-- A parser as data, over elements of type `ε` and with constants of type `κ`. -/
inductive Grammar (ε κ : Type) where
  | pure (payload : κ)
  | any
  | element (expected : ε)
  | satisfy (predicate : Predicate ε)
  | literal (expected : List ε)
  | take (count : Nat)
  | recognize (recognizer : Recognizer ε)
  | map (body : Grammar ε κ) (mapping : Mapping)
  | orElse (first second : Grammar ε κ)
  | both (first second : Grammar ε κ)
  | andThen (first second : Grammar ε κ)
  | followedBy (first second : Grammar ε κ)
  | apply (first second : Grammar ε κ) (combination : Combination)
  /-- The elements in the first value choose the grammar to go on with. -/
  | bind (first : Grammar ε κ) (next : List ε → Grammar ε κ)
  | lookAhead (body : Grammar ε κ)
  | withSpan (body : Grammar ε κ)
  | many (body : Grammar ε κ)
  | many1 (body : Grammar ε κ)
  | skipMany (body : Grammar ε κ)
  | skipMany1 (body : Grammar ε κ)
  | manyTill (body stop : Grammar ε κ)
  | balanced (inner opening closing : Grammar ε κ)
  | lazy (body : Grammar ε κ)
  /-- The rule of the given name. -/
  | ref (name : String)

namespace Grammar

variable {ε κ : Type}

/-- The value of the first element if that is a decimal digit, and zero otherwise. -/
def leadingDigit [Element ε] : List ε → Nat
  | [] => 0
  | first :: _ =>
    let char := Element.toChar first
    if char.isDigit then char.toNat - '0'.toNat else 0

/-- Reads what the first grammar has read once more. -/
def repeated (first : Grammar ε κ) : Grammar ε κ := first.bind .literal

/-- Reads as many elements as the digit says that the first grammar begins with. -/
def counted [Element ε] (first : Grammar ε κ) : Grammar ε κ :=
  first.bind fun read => .take (leadingDigit read)

/-- Goes on with the case of the first element that was read, or with the default. -/
def switch [DecidableEq ε] (first : Grammar ε κ) (cases : List (ε × Grammar ε κ))
    (default : Grammar ε κ) : Grammar ε κ :=
  first.bind fun read =>
    match read.head? with
    | some found =>
      match cases.find? fun (expected, _) => expected == found with
      | some (_, chosen) => chosen
      | none => default
    | none => default

end Grammar

/-- A table of named rules. -/
abbrev Rules (ε κ : Type) := List (String × Grammar ε κ)

/-- The rule of the given name; the first one, if there are several. -/
def Rules.find? {ε κ : Type} (rules : Rules ε κ) (name : String) : Option (Grammar ε κ) :=
  rules.lookup name

end DocCoverage
