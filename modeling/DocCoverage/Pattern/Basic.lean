import DocCoverage.Pattern.Anchor

/-!
# Patterns

A pattern is a regular expression: it describes texts, and is found in a text if it describes some
stretch of it. `Pattern.reach` says at which places such a stretch can end if it begins at one of
the given places, with one equation for each form of a pattern.

A text of `n` characters has `n + 1` places. A set of places is a list of `n + 1` marks.

Patterns follow the documentation of the regex library 1 that env_logger filters messages with. It
is built without its Unicode tables there, so that words, digits, blanks and case are known in ASCII
only. Only whether a pattern is found is ever asked for: what decides between several stretches
(greediness, the order of alternatives) and what a group has matched are left out.
-/

namespace DocCoverage

open Text (CharSet)

/-- A regular expression. -/
inductive Pattern where
  /-- The empty text. -/
  | empty
  /-- One character of the set. -/
  | chars (set : CharSet)
  /-- The empty text, at a place that meets the condition. -/
  | anchor (condition : Anchor)
  | sequence (first second : Pattern)
  | either (first second : Pattern)
  /-- At least `least` times the body and, if there is a bound, at most `most` times. -/
  | repeated (body : Pattern) (least : Nat) (most : Option Nat)
deriving DecidableEq, Repr

/-- Whether the pattern can describe no other text than the empty one. -/
def Pattern.isOnlyEmpty : Pattern → Bool
  | .empty | .anchor _ => true
  | .chars _ => false
  | .sequence first second | .either first second => first.isOnlyEmpty && second.isOnlyEmpty
  | .repeated body _ most => body.isOnlyEmpty || most == some 0

/-- A set of places of a text: which of them belong to it, in order. -/
abbrev Marks := List Bool

namespace Marks

/-- The set of all places of a text. -/
def all (text : List Char) : Marks := List.replicate (text.length + 1) true

/-- The places of either set. -/
def union (marks others : Marks) : Marks := List.zipWith (· || ·) marks others

/-- The places behind one character of the set. -/
def past (marks : Marks) (text : List Char) (set : CharSet) : Marks :=
  false :: List.zipWith (fun marked char => marked && set.contains char) marks text

/-- The places that meet a condition. -/
def meeting (marks : Marks) (text : List Char) (condition : Anchor) : Marks :=
  let around := List.zip (none :: text.map some) (text.map some ++ [none])
  List.zipWith (fun marked (before, behind) => marked && condition.holds before behind) marks around

/-- Takes a number of steps; a step that changes nothing is the last one. -/
def iterate (step : Marks → Marks) : Nat → Marks → Marks
  | 0, marks => marks
  | count + 1, marks =>
    let next := step marks
    if next = marks then marks else iterate step count next

end Marks

/-- The places at which a described stretch of the text can end that begins at one of the marked
places. Repetition needs no more rounds than there are places: a longer one goes through some round
that does not move, and can leave it out. -/
def Pattern.reach (text : List Char) : Pattern → Marks → Marks
  | .empty, marks => marks
  | .chars set, marks => marks.past text set
  | .anchor condition, marks => marks.meeting text condition
  | .sequence first second, marks => second.reach text (first.reach text marks)
  | .either first second, marks => (first.reach text marks).union (second.reach text marks)
  | .repeated body least most, marks =>
    let rounds := text.length + 1
    let further := match most with
      | some most => min (most - least) rounds
      | none => rounds
    Marks.iterate (fun marks => marks.union (body.reach text marks)) further
      (Marks.iterate (body.reach text) (min least rounds) marks)

/-- Whether the pattern describes some stretch of the text. -/
def Pattern.isFoundIn (pattern : Pattern) (text : String) : Bool :=
  (pattern.reach text.toList (Marks.all text.toList)).contains true

end DocCoverage
