import DocCoverage.Pattern.Basic
import DocCoverage.Pattern.Fault

/-!
# Parts of patterns

A part is a pattern together with what decides whether a pattern is accepted: how deeply its parts
lie in one another, what an automaton for it would cost, and whether it asks where words of more
than ASCII letters begin and end.

The regex library bounds the nesting by its default nest limit and the automaton by its default size
limit, and documents both. What a part takes of the latter is not documented: the costs are an
estimate, which may accept or refuse differently close to the limit.
-/

namespace DocCoverage.Pattern

open Text (CharSet)

/-- How the parts of a pattern lie in one another. -/
inductive Outline where
  /-- No parts are told apart. -/
  | leaf
  | beside (left right : Outline)
  /-- A part that stands at the given characters, around others. -/
  | around (extent : Extent) (inner : Outline)
deriving DecidableEq, Repr

namespace Outline

/-- The first part that lies in the given number of others. -/
def beyond? : Outline → Nat → Option Extent
  | .leaf, _ => none
  | .beside left right, depth => (left.beyond? depth).or (right.beyond? depth)
  | .around extent _, 0 => some extent
  | .around _ inner, depth + 1 => inner.beyond? depth

/-- Outlines beside each other. -/
def row (outlines : List Outline) : Outline := outlines.foldr .beside .leaf

end Outline

/-- What an automaton takes, in bytes. -/
structure Costs where
  state : Nat
  /-- A condition on the next byte. -/
  transition : Nat
  /-- A way from a state that offers several. -/
  branch : Nat
  /-- A set that is not contained in ASCII, of which characters take up to four bytes. -/
  wideSet : Nat

/-- The costs that are counted with. -/
def costs : Costs := ⟨32, 8, 4, 368⟩

/-- What the automaton of a pattern may take. -/
def costLimit : Nat := 10485760

/-- A part of a pattern. -/
structure Part where
  pattern : Pattern
  extent : Extent
  outline : Outline
  cost : Nat
  /-- Whether there is an edge of words that are not of ASCII alone. -/
  wideEdge : Bool

namespace Part

/-- The empty part. -/
def empty (extent : Extent) : Part := ⟨.empty, extent, .leaf, costs.state, false⟩

/-- One character, or its variants in case. -/
def ofChar (char : Char) (set : CharSet) (extent : Extent) : Part :=
  ⟨.chars set, extent, .leaf, char.utf8Size * costs.state, false⟩

/-- One character of a set. -/
def ofSet (set : CharSet) (extent : Extent) (outline : Outline) : Part :=
  let cost := if set.isAscii then 2 * costs.state + costs.transition else costs.wideSet
  ⟨.chars set, extent, outline, cost, false⟩

/-- A condition on a place. -/
def ofAnchor (condition : Anchor) (wideEdge : Bool) (extent : Extent) : Part :=
  ⟨.anchor condition, extent, .leaf, costs.state, wideEdge⟩

/-- What parts cost together. -/
def sumOfCosts (parts : List Part) : Nat := parts.foldl (fun sum part => sum + part.cost) 0

/-- Parts one behind the other. -/
def sequence (parts : List Part) (extent : Extent) (outline : Outline) : Part :=
  match parts with
  | [] => { empty extent with outline := outline }
  | first :: others =>
    ⟨others.foldl (fun pattern part => .sequence pattern part.pattern) first.pattern, extent,
      outline, sumOfCosts parts, parts.any Part.wideEdge⟩

/-- Alternatives, of which there is more than one. -/
def either (first : Part) (others : List Part) (extent : Extent) : Part :=
  let parts := first :: others
  ⟨others.foldl (fun pattern part => .either pattern part.pattern) first.pattern, extent,
    .around extent (.row (parts.map Part.outline)),
    sumOfCosts parts + 2 * costs.state + parts.length * costs.branch,
    parts.any Part.wideEdge⟩

/-- A group, of which the place may have to be remembered. -/
def group (inner : Part) (remembered : Bool) (extent : Extent) : Part :=
  { inner with
    extent := extent
    outline := .around extent inner.outline
    cost := inner.cost + if remembered then 2 * costs.state else 0 }

/-- What repetitions of a part cost. -/
def repeatedCost (cost least : Nat) (most : Option Nat) : Nat :=
  match most with
  | none => max 1 least * cost + 2 * (costs.state + costs.branch)
  | some most =>
    if most = least then least * cost
    else most * cost + (most - least) * (costs.state + 2 * costs.branch) + costs.state

/-- Repetitions of a part. To repeat the empty text makes no difference; what is repeated no times
makes none either. -/
def repeated (body : Part) (least : Nat) (most : Option Nat) (extent : Extent) : Part :=
  let pattern := Pattern.repeated body.pattern least most
  let outline := Outline.around extent body.outline
  if most = some 0 then ⟨pattern, extent, outline, costs.state, false⟩
  else if body.pattern.isOnlyEmpty then
    ⟨pattern, extent, outline, repeatedCost body.cost (min least 1) (some 1), body.wideEdge⟩
  else ⟨pattern, extent, outline, repeatedCost body.cost least most, body.wideEdge⟩

/-- What the automaton costs that looks for the part anywhere in a text. -/
def totalCost (part : Part) : Nat := part.cost + 5 * costs.state + 2 * costs.branch

end Part

end DocCoverage.Pattern
