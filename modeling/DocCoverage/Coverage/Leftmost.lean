import DocCoverage.Coverage.Declaration

/-!
# Leftmost declarations

What the public functions of a text are, said on the list of its characters. A declaration
matches where its words, spaces and name stand; the names are those of the leftmost matches, each
looked for behind the one before it.
-/

namespace DocCoverage.Declaration

/-- What stands behind a word and the spaces after it, of which there has to be at least one. -/
def afterWord? (word text : List Char) : Option (List Char) :=
  match text.drop word.length with
  | space :: rest =>
    if word.isPrefixOf text ∧ Text.isSpace space then some (rest.dropWhile Text.isSpace) else none
  | [] => none

/-- The name of the declaration that begins a text, and what stands behind the character that ends
the name. -/
def match? (text : List Char) : Option (List Char × List Char) := do
  let declared ← afterWord? "public".toList text
  let named ← afterWord? "func".toList declared
  match named.dropWhile (!endsName ·) with
  | _ :: rest => some (named.takeWhile (!endsName ·), rest)
  | [] => none

/-- The names of the leftmost declarations in a text. -/
inductive Leftmost : List Char → List String → Prop where
  | nil : Leftmost [] []
  | found {text name rest : List Char} {names : List String}
      (matched : match? text = some (name, rest)) (others : Leftmost rest names) :
      Leftmost text (String.ofList name :: names)
  | passed {char : Char} {text : List Char} {names : List String}
      (unmatched : match? (char :: text) = none) (others : Leftmost text names) :
      Leftmost (char :: text) names

end DocCoverage.Declaration
