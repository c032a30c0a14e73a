import DocCoverage.Source.Element

/-!
# Locations in an input

A location names a place in an input by the number of elements before it. It has a readable
`Address`, counted in lines, and is shown inside the `excerpt` of the lines around it.

* `Address.advance` is the effect of one element on an address.
* `Location.excerpt` lists the lines of the excerpt as data; `ExcerptLine.render` writes them.
-/

namespace DocCoverage

/-- A place in an input. It may lie behind the last element. -/
structure Location (ε : Type) where
  source : Array ε
  position : Nat
deriving DecidableEq

/-- A line, counted from one, and the number of elements of that line before the place. -/
structure Address where
  line : Nat
  offset : Nat
deriving DecidableEq, Repr

/-- The address of the first element of any input. -/
def Address.first : Address := ⟨1, 0⟩

/-- One line of an excerpt. -/
inductive ExcerptLine where
  /-- A source line with its number. -/
  | plain (number : Nat) (text : String)
  /-- The source line that holds the place shown. -/
  | marked (number : Nat) (text : String)
  /-- A caret below the marked line, behind the given number of columns. -/
  | caret (columns : Nat)
deriving DecidableEq, Repr

namespace ExcerptLine

/-- What stands in front of the text of a line that is not marked. -/
def plainMargin (number : Nat) : String := s!"    {number} | "

/-- What stands in front of the text of the marked line. -/
def markedMargin (number : Nat) : String := s!"  > {number} | "

/-- A line of an excerpt as it is printed. -/
def render : ExcerptLine → String
  | plain number text => plainMargin number ++ text
  | marked number text => markedMargin number ++ text
  | caret columns => String.ofList (List.replicate columns ' ') ++ "^--- here"

end ExcerptLine

section Lines

variable {ε : Type} [DecidableEq ε] [Element ε]

/-- The address behind one more element. -/
def Address.advance (address : Address) (element : ε) : Address :=
  if element = Element.lineFeed then ⟨address.line + 1, 0⟩
  else ⟨address.line, address.offset + 1⟩

/-- The lines of a run, without the line feeds that separate them. -/
def splitLines (run : List ε) : List (List ε) := run.splitOn Element.lineFeed

end Lines

namespace Location

variable {ε : Type}

/-- The elements from the location on. -/
def rest (location : Location ε) : List ε := location.source.toList.drop location.position

/-- How far the location lies behind the last element. -/
def excess (location : Location ε) : Nat := location.position - location.source.size

variable [DecidableEq ε] [Element ε]

/-- The line and offset of the location. A place behind the last element belongs to the last
line. -/
def address (location : Location ε) : Address :=
  let reached := (location.source.toList.take location.position).foldl Address.advance Address.first
  { reached with offset := reached.offset + location.excess }

/-- How many lines an excerpt shows on either side of the marked one. -/
def reach : Nat := 2

/-- The line of a location and up to `reach` lines on either side of it, with a caret below the
location itself. -/
def excerpt (location : Location ε) : List ExcerptLine :=
  let address := location.address
  (splitLines location.source.toList).zipIdx 1 |>.flatMap fun (line, number) =>
    let text := Element.decode line
    if number = address.line then
      [.marked number text, .caret ((ExcerptLine.markedMargin number).length + address.offset)]
    else if number ≤ address.line + reach ∧ address.line ≤ number + reach then
      [.plain number text]
    else []

end Location

end DocCoverage
