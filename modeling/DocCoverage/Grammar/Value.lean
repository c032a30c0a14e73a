import DocCoverage.Source.Span
import DocCoverage.Token.Basic

/-!
# Values of grammars

Grammars are data, so the values of all their parsers have one type. A value can be flattened
to the elements in it, in order, which is how one part of a grammar can depend on what another
part has read.
-/

namespace DocCoverage

/-- A value of a grammar over elements of type `ε`. The type `κ` holds the constants that a
grammar may yield without reading anything. -/
inductive Value (ε κ : Type) where
  | element (read : ε)
  /-- A part of the input. -/
  | slice (run : List ε)
  | list (items : List (Value ε κ))
  | pair (first second : Value ε κ)
  | unit
  | constant (payload : κ)
  | count (number : Nat)
  | text (content : String)
  | wrapped (value : Value ε κ)
  /-- A value with the stretch of input that it was read from. -/
  | spanned (value : Value ε κ) (span : Span ε)
  /-- An opening marker of a balanced region. -/
  | opened (marker : Value ε κ)
  /-- A run of values inside a balanced region. -/
  | inner (items : List (Value ε κ))
  /-- A closing marker of a balanced region. -/
  | closed (marker : Value ε κ)
  | token (found : Token)

namespace Value

variable {ε κ : Type}

section Flatten

variable [Element ε]

mutual

/-- The elements in a value, in order. -/
def flatten : Value ε κ → List ε
  | .element read => [read]
  | .slice run => run
  | .list items | .inner items => flattenAll items
  | .pair first second => first.flatten ++ second.flatten
  | .unit | .constant _ | .count _ | .text _ => []
  | .wrapped value | .spanned value _ | .opened value | .closed value => value.flatten
  | .token found => Element.encode found.content

/-- The elements in several values, in order. -/
def flattenAll : List (Value ε κ) → List ε
  | [] => []
  | value :: values => value.flatten ++ flattenAll values

end

end Flatten

/-- A list in reverse order; any other value as it is. -/
def reverse : Value ε κ → Value ε κ
  | .list items => .list items.reverse
  | value => value

end Value

end DocCoverage
