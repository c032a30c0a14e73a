import DocCoverage.Parser.Basic

/-!
# Parsers of elements

The parsers that read the input themselves: one element that is accepted by a predicate, and a
fixed sequence of elements. All other parsers are built from these.
-/

namespace DocCoverage.Parser

variable {ε : Type}

/-- One element that the predicate accepts. -/
@[inline] def satisfy (accepts : ε → Bool) : Parser ε ε :=
  ⟨fun cursor =>
    match cursor.peek? with
    | some element =>
      if accepts element then .success element cursor.next
      else .failure (cursor.failure .unsatisfied)
    | none => .failure (cursor.failure .unsatisfied)⟩

/-- Any one element. -/
@[inline] def any : Parser ε ε := satisfy fun _ => true

/-- Exactly `count` elements. -/
def take : (count : Nat) → Parser ε (List ε)
  | 0 => Parser.pure []
  | count + 1 => any.bind fun element => (take count).map (element :: ·)

variable [DecidableEq ε]

/-- One element equal to the given one. -/
@[inline] def element (expected : ε) : Parser ε ε := satisfy fun found => found == expected

/-- The cursor behind the elements of `expected`, or the first place where the input departs
from them. `sequence` is what the failure says was being read. -/
def follow (sequence : List ε) : (expected : List ε) → Cursor ε →
    Except (ParseFailure ε) (Cursor ε)
  | [], cursor => .ok cursor
  | expected :: rest, cursor =>
    match cursor.peek? with
    | some found =>
      if found = expected then follow sequence rest cursor.next
      else .error (cursor.failure (.mismatch expected found sequence))
    | none => .error (cursor.failure (.truncated expected sequence))

/-- A fixed sequence of elements. The value is the part of the input that was read. -/
@[inline] def literal (expected : List ε) : Parser ε (List ε) :=
  ⟨fun cursor =>
    match follow expected expected cursor with
    | .ok after => .success (cursor.upTo after) after
    | .error reason => .failure reason⟩

end DocCoverage.Parser
