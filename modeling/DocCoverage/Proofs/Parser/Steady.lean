import DocCoverage.Parser.Forward

/-!
# Steady parsers

The loops ask of the parsers that they repeat to read something wherever they succeed, and stop a
repetition that does not. A parser is steady if it is put together so that every repetition in it
keeps to that. A steady parser is quiet: wherever it runs, no repetition has to be stopped, not even
in a part of it that is given up later.
-/

namespace DocCoverage

variable {ε α β : Type}

namespace Parser

/-- The parser is put together from the combinators, and each parser that is repeated in it reads at
least one element wherever it succeeds. -/
inductive Steady : {α : Type} → Parser ε α → Prop where
  | pure {α : Type} (value : α) : Steady (Parser.pure value)
  | fail {α : Type} (cause : Cause ε) : Steady (fail cause : Parser ε α)
  | satisfy (accepts : ε → Bool) : Steady (satisfy accepts)
  | literal [DecidableEq ε] (expected : List ε) : Steady (literal expected)
  | map {α β : Type} {parser : Parser ε α} (transform : α → β) (inside : Steady parser) :
      Steady (parser.map transform)
  | bind {α β : Type} {parser : Parser ε α} {next : α → Parser ε β} (one : Steady parser)
      (two : ∀ value, Steady (next value)) : Steady (parser.bind next)
  | orElse {α : Type} {first second : Parser ε α} (one : Steady first) (two : Steady second) :
      Steady (first.orElse second)
  | lookAhead {α : Type} {parser : Parser ε α} (inside : Steady parser) : Steady parser.lookAhead
  | withSpan {α : Type} {parser : Parser ε α} (inside : Steady parser) : Steady parser.withSpan
  | many {α : Type} {parser : Parser ε α} (inside : Steady parser)
      (consuming : parser.Consuming) : Steady parser.many
  | many1 {α : Type} {parser : Parser ε α} (inside : Steady parser)
      (consuming : parser.Consuming) : Steady parser.many1
  | skipMany {α : Type} {parser : Parser ε α} (inside : Steady parser)
      (consuming : parser.Consuming) : Steady parser.skipMany
  | skipMany1 {α : Type} {parser : Parser ε α} (inside : Steady parser)
      (consuming : parser.Consuming) : Steady parser.skipMany1
  | manyTill {α β : Type} {parser : Parser ε α} {stop : Parser ε β} (inside : Steady parser)
      (consuming : parser.Consuming) (ends : Steady stop) : Steady (parser.manyTill stop)
  | balanced {ο ι κ : Type} {inner : Parser ε ι} {opening : Parser ε ο} {closing : Parser ε κ}
      (inside : Steady inner) (consuming : inner.Consuming) (opens : Steady opening)
      (closes : Steady closing) : Steady (inner.balanced opening closing)

/-- Wherever the parser runs, no repetition stalls. -/
def Quiet (parser : Parser ε α) : Prop := ∀ cursor, (parser.run cursor).stalls = []

end Parser

theorem Attempt.stalls_bind_eq_nil {first : Attempt ε α} {next : α → Cursor ε → Attempt ε β}
    (one : first.stalls = []) (two : ∀ value after, (next value after).stalls = []) :
    (first.bind next).stalls = [] := by
  unfold Attempt.bind
  cases first.outcome with
  | success value after => rw [stalls_after, one, two, List.append_nil]
  | failure reason => exact one
  | diverged => exact one

namespace Parser

section Combinators

variable {parser first second : Parser ε α}

theorem quiet_satisfy (accepts : ε → Bool) : (satisfy accepts).Quiet := by
  intro cursor
  unfold satisfy
  dsimp only
  split
  · split <;> rfl
  · rfl

theorem quiet_literal [DecidableEq ε] (expected : List ε) : (literal expected).Quiet := by
  intro cursor
  unfold literal
  dsimp only
  split <;> rfl

theorem Quiet.bind {next : α → Parser ε β} (one : parser.Quiet)
    (two : ∀ value, (next value).Quiet) : (parser.bind next).Quiet :=
  fun cursor => Attempt.stalls_bind_eq_nil (one cursor) fun value after => two value after

theorem Quiet.map (quiet : parser.Quiet) (transform : α → β) : (parser.map transform).Quiet :=
  fun cursor => Attempt.stalls_bind_eq_nil (quiet cursor) fun _ _ => rfl

theorem Quiet.orElse (one : first.Quiet) (two : second.Quiet) : (first.orElse second).Quiet := by
  intro cursor
  unfold Parser.orElse Attempt.orElse
  dsimp only
  cases (first.run cursor).outcome with
  | success value after => exact one cursor
  | failure reason => rw [Attempt.stalls_after, one, two, List.append_nil]
  | diverged => exact one cursor

theorem Quiet.lookAhead (quiet : parser.Quiet) : parser.lookAhead.Quiet :=
  fun cursor => Attempt.stalls_bind_eq_nil (quiet cursor) fun _ _ => rfl

theorem Quiet.withSpan (quiet : parser.Quiet) : parser.withSpan.Quiet :=
  fun cursor => Attempt.stalls_bind_eq_nil (quiet cursor) fun _ _ => rfl

end Combinators

section Loops

variable {parser : Parser ε α} {stop : Parser ε β}

/-- What a quiet parser does is told by its outcome. -/
theorem Quiet.run_eq (quiet : parser.Quiet) (cursor : Cursor ε) :
    parser.run cursor = ⟨parser.outcome cursor, []⟩ :=
  congrArg (Attempt.mk (parser.outcome cursor)) (quiet cursor)

/-- A repetition of a quiet parser that gets on adds nothing to the stalls. -/
theorem stalls_collect (quiet : parser.Quiet) (consuming : parser.Consuming)
    (repetition : Repetition) (cursor : Cursor ε) (values : List α) (stalls : List Stall) :
    (collect repetition parser cursor values stalls).stalls = stalls.reverse := by
  induction cursor using Cursor.left_induction generalizing values with
  | step cursor ih =>
    rw [collect.eq_def, quiet.run_eq]
    cases reached : parser.outcome cursor with
    | success value after =>
      have closer := consuming cursor value after reached
      dsimp only
      rw [if_pos closer]
      exact ih after closer (value :: values)
    | failure reason => exact List.append_nil _
    | diverged => exact List.append_nil _

theorem Quiet.many (quiet : parser.Quiet) (consuming : parser.Consuming) : parser.many.Quiet :=
  fun cursor => stalls_collect quiet consuming .many cursor [] []

theorem Quiet.many1 (quiet : parser.Quiet) (consuming : parser.Consuming) :
    parser.many1.Quiet := by
  intro cursor
  unfold Parser.many1
  dsimp only
  rw [quiet.run_eq]
  cases reached : parser.outcome cursor with
  | success value after =>
    dsimp only [Attempt.bind]
    rw [if_pos (consuming cursor value after reached)]
    exact stalls_collect quiet consuming .many1 after [value] []
  | failure reason => rfl
  | diverged => rfl

theorem Quiet.skipMany (quiet : parser.Quiet) (consuming : parser.Consuming) :
    parser.skipMany.Quiet := by
  intro cursor
  unfold Parser.skipMany
  dsimp only
  induction cursor using Cursor.left_induction with
  | step cursor ih =>
    rw [skip.eq_def, quiet.run_eq]
    cases reached : parser.outcome cursor with
    | success value after =>
      have closer := consuming cursor value after reached
      dsimp only
      rw [if_pos closer]
      exact ih after closer
    | failure reason => rfl
    | diverged => rfl

theorem Quiet.skipMany1 (quiet : parser.Quiet) (consuming : parser.Consuming) :
    parser.skipMany1.Quiet := by
  intro cursor
  unfold Parser.skipMany1
  dsimp only
  rw [quiet.run_eq]
  cases reached : parser.outcome cursor with
  | success value after =>
    dsimp only [Attempt.bind]
    rw [if_pos (consuming cursor value after reached)]
    exact quiet.skipMany consuming after
  | failure reason => rfl
  | diverged => rfl

/-- The end that a repetition waits for need not read anything. -/
theorem stalls_collectTill (quiet : parser.Quiet) (consuming : parser.Consuming)
    (ends : stop.Quiet) (cursor : Cursor ε) (values : List α) :
    (collectTill parser stop cursor values []).stalls = [] := by
  induction cursor using Cursor.left_induction generalizing values with
  | step cursor ih =>
    rw [collectTill.eq_def, ends.run_eq]
    cases stop.outcome cursor with
    | success _ _ => rfl
    | diverged => rfl
    | failure _ =>
      dsimp only
      rw [quiet.run_eq]
      cases reached : parser.outcome cursor with
      | success value after =>
        have closer := consuming cursor value after reached
        dsimp only
        rw [if_pos closer]
        exact ih after closer (value :: values)
      | failure reason => rfl
      | diverged => rfl

theorem Quiet.manyTill (quiet : parser.Quiet) (consuming : parser.Consuming) (ends : stop.Quiet) :
    (parser.manyTill stop).Quiet :=
  fun cursor => stalls_collectTill quiet consuming ends cursor []

end Loops

end Parser

namespace Balanced

variable {ο ι κ : Type} {inner : Parser ε ι} {opening : Parser ε ο} {closing : Parser ε κ}

theorem quiet_boundary (opens : opening.Quiet) (closes : closing.Quiet) :
    (boundary opening closing).Quiet :=
  (opens.lookAhead.map _).orElse (closes.lookAhead.map _)

/-- The stalls after a step, those of the whole attempt if it is over. -/
def Step.stalls : Step ε ο ι κ → List Stall
  | .more progress => progress.stalls.reverse
  | .over attempt => attempt.stalls

/-- A step adds nothing to the stalls. -/
theorem stalls_step (quiet : inner.Quiet) (consuming : inner.Consuming) (opens : opening.Quiet)
    (closes : closing.Quiet) (progress : Progress ε ο ι κ) :
    (step inner opening closing progress).stalls = progress.stalls.reverse := by
  unfold step
  rw [closes.run_eq]
  cases closing.outcome progress.cursor with
  | success marker after => rfl
  | diverged => exact List.append_nil _
  | failure _ =>
    dsimp only
    rw [opens.run_eq]
    cases opening.outcome progress.cursor with
    | success marker after => rfl
    | diverged => simp [Step.stalls]
    | failure _ =>
      dsimp only
      rw [(quiet.manyTill consuming (quiet_boundary opens closes)).run_eq]
      cases (inner.manyTill (boundary opening closing)).outcome progress.cursor with
      | success values after => rfl
      | failure reason => simp [Step.stalls]
      | diverged => simp [Step.stalls]

theorem stalls_loop (quiet : inner.Quiet) (consuming : inner.Consuming) (opens : opening.Quiet)
    (closes : closing.Quiet) (progress : Progress ε ο ι κ) :
    (loop inner opening closing progress).stalls = progress.stalls.reverse := by
  have kept := stalls_step quiet consuming opens closes
  fun_induction loop inner opening closing progress with
  | case1 progress closed => rfl
  | case2 progress opened attempt stepped => rw [← kept progress, stepped]; rfl
  | case3 progress opened next stepped advances ih => rw [ih, ← kept progress, stepped]; rfl
  | case4 progress opened next stepped stuck => rw [← kept progress, stepped]; rfl

end Balanced

namespace Parser

theorem Quiet.balanced {ο ι κ : Type} {inner : Parser ε ι} {opening : Parser ε ο}
    {closing : Parser ε κ} (quiet : inner.Quiet) (consuming : inner.Consuming)
    (opens : opening.Quiet) (closes : closing.Quiet) : (inner.balanced opening closing).Quiet :=
  fun cursor => Attempt.stalls_bind_eq_nil (opens cursor) fun _ _ =>
    Balanced.stalls_loop quiet consuming opens closes _

/-- In a steady parser no repetition ever stalls. -/
theorem Steady.quiet {parser : Parser ε α} (steady : parser.Steady) : parser.Quiet := by
  induction steady with
  | pure value => exact fun _ => rfl
  | fail cause => exact fun _ => rfl
  | satisfy accepts => exact quiet_satisfy accepts
  | literal expected => exact quiet_literal expected
  | map transform inside quiet => exact quiet.map transform
  | bind one two quiet quiets => exact quiet.bind quiets
  | orElse one two first second => exact first.orElse second
  | lookAhead inside quiet => exact quiet.lookAhead
  | withSpan inside quiet => exact quiet.withSpan
  | many inside consuming quiet => exact quiet.many consuming
  | many1 inside consuming quiet => exact quiet.many1 consuming
  | skipMany inside consuming quiet => exact quiet.skipMany consuming
  | skipMany1 inside consuming quiet => exact quiet.skipMany1 consuming
  | manyTill inside consuming ends quiet stop => exact quiet.manyTill consuming stop
  | balanced inside consuming opens closes quiet opening closing =>
    exact quiet.balanced consuming opening closing

theorem Consuming.orElse {first second : Parser ε α} (one : first.Consuming)
    (two : second.Consuming) : (first.orElse second).Consuming := by
  intro cursor value after succeeded
  rw [outcome_orElse] at succeeded
  rcases Outcome.orElse_eq_success_iff.mp succeeded with here | ⟨-, there⟩
  · exact one cursor value after here
  · exact two cursor value after there

section Steps

variable {first : Parser ε α} {second : Parser ε β}

theorem Steady.both (one : first.Steady) (two : second.Steady) : (first.both second).Steady :=
  one.bind fun _ => two.map _

theorem Steady.andThen (one : first.Steady) (two : second.Steady) : (first.andThen second).Steady :=
  one.bind fun _ => two

end Steps

end Parser

end DocCoverage
