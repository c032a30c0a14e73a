import DocCoverage.Parser.Balanced
import DocCoverage.Parser.Element

/-!
# Scanning for delimiters

A region between two fixed sequences can be found by one pass from left to right that only counts.
`Delimiter.rest?` is that pass. It goes on until everything is closed or the input ends.
-/

namespace DocCoverage.Delimiter

variable {ε : Type} [DecidableEq ε]

/-- What stands behind the place where `depth` open regions are all closed, if there is one before
the input ends. At every place the closing sequence is looked for first, then the opening one, and
one element is passed over where neither stands. An empty opening sequence opens nothing. -/
def rest? (opening closing : List ε) : (depth : Nat) → List ε → Option (List ε)
  | 0, input => some input
  | _ + 1, [] => none
  | depth + 1, head :: tail =>
    if closing.isPrefixOf (head :: tail) then
      rest? opening closing depth ((head :: tail).drop closing.length)
    else if opening.isPrefixOf (head :: tail) ∧ 0 < opening.length then
      rest? opening closing (depth + 2) ((head :: tail).drop opening.length)
    else rest? opening closing (depth + 1) tail
termination_by depth input => (input.length, depth)
decreasing_by
  · rcases Nat.eq_zero_or_pos closing.length with empty | reads
    · rw [empty, List.drop_zero]
      exact Prod.Lex.right _ (Nat.lt_succ_self _)
    · refine Prod.Lex.left _ _ ?_
      rw [List.length_drop, List.length_cons]
      omega
  · refine Prod.Lex.left _ _ ?_
    rw [List.length_drop, List.length_cons]
    omega
  · exact Prod.Lex.left _ _ (Nat.lt_succ_self _)

/-- What stands behind the region that begins the input, if one does. -/
def region? (opening closing input : List ε) : Option (List ε) :=
  if opening.isPrefixOf input then rest? opening closing 1 (input.drop opening.length) else none

end DocCoverage.Delimiter
