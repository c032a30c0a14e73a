import DocCoverage.Log.Entry
import DocCoverage.Parser.Element
import DocCoverage.Parser.Layout

/-!
# Public functions

A public function is declared by the words `public` and `func`, separated by spaces, and a name
that runs up to the first angle bracket or parenthesis. Nothing is asked of what stands before
the first word, and the name may hold anything but those two brackets.
-/

namespace DocCoverage.Declaration

open Log (Logged)

/-- A word and at least one space. -/
def keyword (word : String) : Parser Char Unit :=
  (Parser.literal word.toList).andThen (Parser.space.andThen Parser.skipSpaces)

/-- Whether a character ends the name of a function. -/
def endsName (char : Char) : Bool := char == '<' || char == '('

/-- The declaration of a public function, up to the end of its name. -/
def publicFunction : Parser Char String :=
  (Parser.skipSpaces.andThen ((keyword "public").andThen ((keyword "func").andThen
    (Parser.any.manyTill (Parser.satisfy endsName))))).map String.ofList

/-- Declarations and characters in between. -/
def scanner : Parser Char (List (Option String)) :=
  ((publicFunction.map some).orElse (Parser.any.map fun _ => none)).many

/-- The names of all public functions declared in a text, in order, with a report. -/
def namesLogged (text : String) : Logged (List String) := do
  match ← Logged.ofAttempt (scanner.run (Cursor.start text.toList.toArray)) with
  | .success found _ => return found.filterMap id
  | .failure _ | .diverged => return []

/-- The names of all public functions declared in a text, in order. -/
def names (text : String) : List String := (namesLogged text).value

end DocCoverage.Declaration
