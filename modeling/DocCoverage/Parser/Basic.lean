import DocCoverage.Parser.Attempt
import DocCoverage.Source.Span

/-!
# Parsers

A parser is a function from cursors to attempts. Building one does no work, and running one
changes nothing, so every parser can be run any number of times and an alternative always starts
from the cursor that the first choice was given.

Sequencing is all by way of `bind`: a later parser starts where the earlier one stopped, and the
first failure is the failure of the whole.
-/

namespace DocCoverage

/-- A parser of values of type `α` from elements of type `ε`. -/
structure Parser (ε α : Type) where
  /-- Runs the parser at a cursor. -/
  run : Cursor ε → Attempt ε α

namespace Parser

variable {ε α β γ : Type}

/-- How the parser ends at a cursor. -/
def outcome (parser : Parser ε α) (cursor : Cursor ε) : Outcome ε α := (parser.run cursor).outcome

/-- Reads nothing and has the given value. -/
@[inline] protected def pure (value : α) : Parser ε α := ⟨fun cursor => .success value cursor⟩

/-- Fails where it stands. -/
def fail (cause : Cause ε) : Parser ε α := ⟨fun cursor => .failure (cursor.failure cause)⟩

/-- Never ends. -/
def diverge : Parser ε α := ⟨fun _ => .diverged⟩

/-- Goes on with the parser that the first value chooses. -/
@[inline] protected def bind (parser : Parser ε α) (next : α → Parser ε β) : Parser ε β :=
  ⟨fun cursor => (parser.run cursor).bind fun value after => (next value).run after⟩

/-- Changes the value and nothing else. -/
@[inline] protected def map (transform : α → β) (parser : Parser ε α) : Parser ε β :=
  ⟨fun cursor => (parser.run cursor).bind fun value after => .success (transform value) after⟩

/-- Both parsers in order, with both values. -/
@[inline] def both (first : Parser ε α) (second : Parser ε β) : Parser ε (α × β) :=
  first.bind fun left => second.map fun right => (left, right)

/-- Both parsers in order, with the value of the second. -/
@[inline] def andThen (first : Parser ε α) (second : Parser ε β) : Parser ε β :=
  first.bind fun _ => second

/-- Both parsers in order, with the value of the first. -/
@[inline] def followedBy (first : Parser ε α) (second : Parser ε β) : Parser ε α :=
  first.bind fun value => second.map fun _ => value

/-- Both parsers in order; the first value is applied to the second. -/
@[inline] def apply (function : Parser ε (α → β)) (argument : Parser ε α) : Parser ε β :=
  function.bind fun transform => argument.map transform

/-- The second parser, from the same cursor, where the first one fails. -/
@[inline] def orElse (first second : Parser ε α) : Parser ε α :=
  ⟨fun cursor => (first.run cursor).orElse fun _ => second.run cursor⟩

/-- The value of the parser, without moving on. -/
@[inline] def lookAhead (parser : Parser ε α) : Parser ε α :=
  ⟨fun cursor => (parser.run cursor).bind fun value _ => .success value cursor⟩

/-- The value of the parser together with the span that it reads. -/
@[inline] def withSpan (parser : Parser ε α) : Parser ε (α × Span ε) :=
  ⟨fun cursor => (parser.run cursor).bind fun value after =>
    .success (value, Span.between cursor after) after⟩

/-- A parser that is built only when it runs. -/
def lazy (build : Unit → Parser ε α) : Parser ε α := ⟨fun cursor => (build ()).run cursor⟩

@[ext] theorem ext {first second : Parser ε α}
    (same : ∀ cursor, first.run cursor = second.run cursor) : first = second := by
  cases first
  cases second
  exact congrArg mk (funext same)

/-! The outcome of each combinator, in terms of the outcomes of its parts. -/

@[simp] theorem outcome_pure (value : α) (cursor : Cursor ε) :
    (Parser.pure value).outcome cursor = .success value cursor := rfl

@[simp] theorem outcome_fail (cause : Cause ε) (cursor : Cursor ε) :
    (fail cause : Parser ε α).outcome cursor = .failure (cursor.failure cause) := rfl

@[simp] theorem outcome_diverge (cursor : Cursor ε) :
    (diverge : Parser ε α).outcome cursor = .diverged := rfl

theorem outcome_bind (parser : Parser ε α) (next : α → Parser ε β) (cursor : Cursor ε) :
    (parser.bind next).outcome cursor =
      (parser.outcome cursor).bind fun value after => (next value).outcome after :=
  Attempt.outcome_bind ..

theorem outcome_map (transform : α → β) (parser : Parser ε α) (cursor : Cursor ε) :
    (parser.map transform).outcome cursor = (parser.outcome cursor).map transform :=
  Attempt.outcome_bind ..

theorem outcome_orElse (first second : Parser ε α) (cursor : Cursor ε) :
    (first.orElse second).outcome cursor =
      (first.outcome cursor).orElse (second.outcome cursor) :=
  Attempt.outcome_orElse ..

theorem outcome_lookAhead (parser : Parser ε α) (cursor : Cursor ε) :
    parser.lookAhead.outcome cursor =
      (parser.outcome cursor).bind fun value _ => .success value cursor :=
  Attempt.outcome_bind ..

theorem outcome_withSpan (parser : Parser ε α) (cursor : Cursor ε) :
    parser.withSpan.outcome cursor =
      (parser.outcome cursor).bind fun value after =>
        .success (value, Span.between cursor after) after :=
  Attempt.outcome_bind ..

@[simp] theorem lazy_eq (build : Unit → Parser ε α) : lazy build = build () := rfl

end Parser

end DocCoverage
