import DocCoverage.Parser.Balanced
import DocCoverage.Parser.Element
import DocCoverage.Parser.Repeat.Outcome

/-!
# Forward parsers

A parser is forward if it stays in its input and never moves back. The loops rely on nothing else
about the parsers that they repeat. Every parser of this library is forward: there is one lemma
for each way to build one.
-/

namespace DocCoverage

variable {ε α β : Type}

/-- A cursor of the same input that is not in front of the first one. -/
def Cursor.Reaches (cursor after : Cursor ε) : Prop :=
  after.source = cursor.source ∧ cursor.position ≤ after.position

namespace Cursor

theorem Reaches.refl (cursor : Cursor ε) : cursor.Reaches cursor := ⟨rfl, Nat.le_refl _⟩

theorem Reaches.trans {first second third : Cursor ε} (one : first.Reaches second)
    (two : second.Reaches third) : first.Reaches third :=
  ⟨two.1.trans one.1, Nat.le_trans one.2 two.2⟩

theorem reaches_next (cursor : Cursor ε) : cursor.Reaches cursor.next := by
  refine ⟨source_next cursor, ?_⟩
  rw [position_next]
  split <;> omega

theorem reaches_advance (cursor : Cursor ε) (count : Nat) :
    cursor.Reaches (cursor.advance count) := by
  induction count generalizing cursor with
  | zero => exact .refl _
  | succ count ih => exact (reaches_next cursor).trans (ih cursor.next)

/-- A cursor that is reached has at most as much in front of it. -/
theorem Reaches.left_le {cursor after : Cursor ε} (reaches : cursor.Reaches after) :
    after.left ≤ cursor.left := by
  obtain ⟨sameSource, forwards⟩ := reaches
  rw [left, left, sameSource]
  omega

/-- In one input, having less in front of it is standing further on. -/
theorem left_lt_iff {cursor after : Cursor ε} (sameSource : after.source = cursor.source) :
    after.left < cursor.left ↔ cursor.position < after.position := by
  have bound := after.position_le
  rw [left, left, sameSource]
  rw [sameSource] at bound
  omega

/-- In one input, a place is told by how much is left there. -/
theorem eq_of_left_eq {cursor after : Cursor ε} (sameSource : after.source = cursor.source)
    (same : after.left = cursor.left) : after = cursor := by
  obtain ⟨source, position, bound⟩ := cursor
  obtain ⟨source', position', bound'⟩ := after
  dsimp only at sameSource
  subst sameSource
  have samePosition : position' = position := by
    simp only [left] at same
    omega
  subst samePosition
  rfl

/-- Reaching a place without reading is staying where one is. -/
theorem Reaches.eq_of_left_eq {cursor after : Cursor ε} (reaches : cursor.Reaches after)
    (same : after.left = cursor.left) : after = cursor :=
  Cursor.eq_of_left_eq reaches.1 same

theorem Reaches.left_lt_of_ne {cursor after : Cursor ε} (reaches : cursor.Reaches after)
    (moved : after ≠ cursor) : after.left < cursor.left :=
  Nat.lt_of_le_of_ne reaches.left_le fun same => moved (reaches.eq_of_left_eq same)

theorem Reaches.eq_of_not_left_lt {cursor after : Cursor ε} (reaches : cursor.Reaches after)
    (still : ¬ after.left < cursor.left) : after = cursor :=
  reaches.eq_of_left_eq (Nat.le_antisymm reaches.left_le (Nat.le_of_not_lt still))

end Cursor

/-- Where the outcome is a success, the cursor behind it is reached from the one before it. -/
def Outcome.From (cursor : Cursor ε) (outcome : Outcome ε α) : Prop :=
  ∀ value after, outcome = .success value after → cursor.Reaches after

namespace Outcome

theorem from_success {cursor after : Cursor ε} {value : α} (reaches : cursor.Reaches after) :
    From cursor (.success value after) := by
  intro _ _ same
  cases same
  exact reaches

theorem from_failure {cursor : Cursor ε} {reason : ParseFailure ε} :
    From cursor (.failure reason : Outcome ε α) := by
  intro _ _ same
  cases same

theorem from_diverged {cursor : Cursor ε} : From cursor (.diverged : Outcome ε α) := by
  intro _ _ same
  cases same

theorem From.bind {cursor : Cursor ε} {first : Outcome ε α}
    {next : α → Cursor ε → Outcome ε β} (start : From cursor first)
    (rest : ∀ value after, cursor.Reaches after → From cursor (next value after)) :
    From cursor (first.bind next) := by
  cases first with
  | success value after => exact rest value after (start value after rfl)
  | failure reason => exact from_failure
  | diverged => exact from_diverged

theorem From.map {cursor : Cursor ε} {outcome : Outcome ε α} (start : From cursor outcome)
    (transform : α → β) : From cursor (outcome.map transform) :=
  start.bind fun _ _ reaches => from_success reaches

theorem From.orElse {cursor : Cursor ε} {first second : Outcome ε α} (left : From cursor first)
    (right : From cursor second) : From cursor (first.orElse second) := by
  cases first with
  | success value after => exact left
  | failure reason => exact right
  | diverged => exact from_diverged

/-- What is reached from a later cursor is reached from the earlier one. -/
theorem From.trans {cursor middle : Cursor ε} {outcome : Outcome ε α}
    (reaches : cursor.Reaches middle) (start : From middle outcome) : From cursor outcome :=
  fun value after same => reaches.trans (start value after same)

end Outcome

namespace Parser

/-- Where the parser succeeds, it is still in the same input and has not moved back. -/
def Forward (parser : Parser ε α) : Prop :=
  ∀ cursor, (parser.outcome cursor).From cursor

/-- Where the parser succeeds, it has read at least one element. -/
def Consuming (parser : Parser ε α) : Prop :=
  ∀ cursor value after, parser.outcome cursor = .success value after → after.left < cursor.left

/-- The parser ends at every cursor. -/
def Ending (parser : Parser ε α) : Prop := ∀ cursor, parser.outcome cursor ≠ .diverged

/-- The parser ends at the cursor by failing. -/
def FailsAt (parser : Parser ε α) (cursor : Cursor ε) : Prop :=
  ∃ reason, parser.outcome cursor = .failure reason

section Failing

variable {cursor : Cursor ε}

theorem failsAt_map_iff {parser : Parser ε α} {transform : α → β} :
    (parser.map transform).FailsAt cursor ↔ parser.FailsAt cursor := by
  rw [FailsAt, outcome_map]
  exact exists_congr fun _ => Outcome.map_eq_failure_iff

theorem failsAt_orElse_iff {first second : Parser ε α} :
    (first.orElse second).FailsAt cursor ↔ first.FailsAt cursor ∧ second.FailsAt cursor := by
  simp only [FailsAt, outcome_orElse, Outcome.orElse_eq_failure_iff, exists_and_left]

theorem failsAt_lookAhead_iff {parser : Parser ε α} :
    parser.lookAhead.FailsAt cursor ↔ parser.FailsAt cursor := by
  rw [FailsAt, FailsAt, outcome_lookAhead]
  cases parser.outcome cursor with
  | success value after => simp
  | failure reason => exact Iff.rfl
  | diverged => exact Iff.rfl

end Failing

theorem eq_of_lookAhead {parser : Parser ε α} {cursor after : Cursor ε} {value : α}
    (seen : parser.lookAhead.outcome cursor = .success value after) : after = cursor := by
  rw [outcome_lookAhead] at seen
  obtain ⟨_, _, _, here⟩ := Outcome.bind_eq_success_iff.mp seen
  exact (Outcome.success.inj here).2.symm

section Combinators

theorem forward_pure (value : α) : (Parser.pure value : Parser ε α).Forward :=
  fun cursor => Outcome.from_success (.refl cursor)

theorem forward_fail (cause : Cause ε) : (fail cause : Parser ε α).Forward :=
  fun _ => Outcome.from_failure

theorem forward_diverge : (diverge : Parser ε α).Forward := fun _ => Outcome.from_diverged

theorem Forward.bind {parser : Parser ε α} {next : α → Parser ε β} (first : parser.Forward)
    (second : ∀ value, (next value).Forward) : (parser.bind next).Forward := by
  intro cursor
  rw [outcome_bind]
  exact (first cursor).bind fun value after reaches => .trans reaches (second value after)

theorem Forward.map {parser : Parser ε α} (forward : parser.Forward) (transform : α → β) :
    (parser.map transform).Forward := by
  intro cursor
  rw [outcome_map]
  exact (forward cursor).map transform

theorem Forward.both {first : Parser ε α} {second : Parser ε β} (one : first.Forward)
    (two : second.Forward) : (first.both second).Forward :=
  one.bind fun _ => two.map _

theorem Forward.andThen {first : Parser ε α} {second : Parser ε β} (one : first.Forward)
    (two : second.Forward) : (first.andThen second).Forward :=
  one.bind fun _ => two

theorem Forward.followedBy {first : Parser ε α} {second : Parser ε β} (one : first.Forward)
    (two : second.Forward) : (first.followedBy second).Forward :=
  one.bind fun _ => two.map _

theorem Forward.apply {function : Parser ε (α → β)} {argument : Parser ε α}
    (one : function.Forward) (two : argument.Forward) : (function.apply argument).Forward :=
  one.bind fun _ => two.map _

theorem Forward.orElse {first second : Parser ε α} (one : first.Forward) (two : second.Forward) :
    (first.orElse second).Forward := by
  intro cursor
  rw [outcome_orElse]
  exact (one cursor).orElse (two cursor)

/-- Looking ahead does not move, whatever the parser does. -/
theorem forward_lookAhead (parser : Parser ε α) : parser.lookAhead.Forward := by
  intro cursor
  rw [outcome_lookAhead]
  cases parser.outcome cursor with
  | success value after => exact Outcome.from_success (.refl cursor)
  | failure reason => exact Outcome.from_failure
  | diverged => exact Outcome.from_diverged

theorem Forward.withSpan {parser : Parser ε α} (forward : parser.Forward) :
    parser.withSpan.Forward := by
  intro cursor
  rw [outcome_withSpan]
  exact (forward cursor).bind fun _ _ reaches => Outcome.from_success reaches

end Combinators

section Elements

theorem forward_satisfy (accepts : ε → Bool) : (satisfy accepts).Forward := by
  intro cursor
  unfold Parser.outcome satisfy
  dsimp only
  split
  · split
    · exact Outcome.from_success cursor.reaches_next
    · exact Outcome.from_failure
  · exact Outcome.from_failure

theorem forward_any : (any : Parser ε ε).Forward := forward_satisfy _

variable [DecidableEq ε]

theorem forward_element (expected : ε) : (element expected).Forward := forward_satisfy _

/-- Following a sequence ends behind as many elements as it has, and they are its elements. -/
theorem eq_advance_of_follow {sequence expected : List ε} {cursor after : Cursor ε}
    (followed : follow sequence expected cursor = .ok after) :
    after = cursor.advance expected.length ∧ expected <+: cursor.rest := by
  induction expected generalizing cursor with
  | nil =>
    obtain rfl := Except.ok.inj followed
    exact ⟨rfl, List.nil_prefix⟩
  | cons head tail ih =>
    unfold follow at followed
    split at followed
    · next found seen =>
      split at followed
      · next same =>
        obtain ⟨behind, stands⟩ := ih followed
        rw [Cursor.rest_of_peek? seen, same]
        exact ⟨behind, (List.cons_prefix_cons).mpr ⟨rfl, stands⟩⟩
      · cases followed
    · cases followed

theorem forward_literal (expected : List ε) : (literal expected).Forward := by
  intro cursor
  unfold Parser.outcome literal
  dsimp only
  split
  · next after followed =>
    rw [(eq_advance_of_follow followed).1]
    exact Outcome.from_success (cursor.reaches_advance _)
  · exact Outcome.from_failure

end Elements

section Loops

theorem Forward.many {parser : Parser ε α} (forward : parser.Forward) : parser.many.Forward := by
  intro cursor
  induction cursor using Cursor.left_induction with
  | step cursor ih =>
    rw [outcome_many]
    cases reached : parser.outcome cursor with
    | success value after =>
      have reaches := forward cursor value after reached
      dsimp only
      split
      · next closer => exact .trans reaches ((ih after closer).map _)
      · exact Outcome.from_success reaches
    | failure reason => exact Outcome.from_success (.refl cursor)
    | diverged => exact Outcome.from_diverged

theorem Forward.many1 {parser : Parser ε α} (forward : parser.Forward) :
    parser.many1.Forward := by
  intro cursor
  rw [outcome_many1]
  refine (forward cursor).bind fun value after reaches => ?_
  split
  · exact .trans reaches ((forward.many after).map _)
  · exact Outcome.from_success reaches

theorem Forward.skipMany {parser : Parser ε α} (forward : parser.Forward) :
    parser.skipMany.Forward := by
  intro cursor
  induction cursor using Cursor.left_induction with
  | step cursor ih =>
    rw [outcome_skipMany]
    cases reached : parser.outcome cursor with
    | success value after =>
      have reaches := forward cursor value after reached
      dsimp only
      split
      · next closer => exact .trans reaches (ih after closer)
      · exact Outcome.from_success reaches
    | failure reason => exact Outcome.from_success (.refl cursor)
    | diverged => exact Outcome.from_diverged

theorem Forward.skipMany1 {parser : Parser ε α} (forward : parser.Forward) :
    parser.skipMany1.Forward := by
  intro cursor
  rw [outcome_skipMany1]
  refine (forward cursor).bind fun value after reaches => ?_
  split
  · exact .trans reaches (forward.skipMany after)
  · exact Outcome.from_success reaches

theorem Forward.manyTill {parser : Parser ε α} {stop : Parser ε β} (forward : parser.Forward)
    (ends : stop.Forward) : (parser.manyTill stop).Forward := by
  intro cursor
  induction cursor using Cursor.left_induction with
  | step cursor ih =>
    rw [outcome_manyTill]
    cases stopped : stop.outcome cursor with
    | success value after => exact Outcome.from_success (ends cursor value after stopped)
    | failure reason =>
      refine (forward cursor).bind fun value after reaches => ?_
      split
      · next closer => exact .trans reaches ((ih after closer).map _)
      · exact Outcome.from_failure
    | diverged => exact Outcome.from_diverged

end Loops

end Parser

namespace Balanced

variable {ο ι κ : Type} {inner : Parser ε ι} {opening : Parser ε ο} {closing : Parser ε κ}

theorem forward_boundary (opening : Parser ε ο) (closing : Parser ε κ) :
    (boundary opening closing).Forward :=
  ((Parser.forward_lookAhead opening).map _).orElse ((Parser.forward_lookAhead closing).map _)

/-- A step that goes on goes on from a cursor that it has reached. -/
theorem reaches_of_step (inside : inner.Forward) (opens : opening.Forward)
    (closes : closing.Forward) {progress next : Progress ε ο ι κ}
    (stepped : step inner opening closing progress = .more next) :
    progress.cursor.Reaches next.cursor := by
  unfold step at stepped
  split at stepped
  · next marker after closed ran =>
    cases stepped
    exact closes progress.cursor marker after (congrArg Attempt.outcome ran)
  · cases stepped
  · split at stepped
    · next marker after opened ran =>
      cases stepped
      exact opens progress.cursor marker after (congrArg Attempt.outcome ran)
    · cases stepped
    · split at stepped
      · next values after seen ran =>
        cases stepped
        exact inside.manyTill (forward_boundary opening closing) progress.cursor values after
          (congrArg Attempt.outcome ran)
      · cases stepped
      · cases stepped

/-- A step that does not go on has not succeeded. -/
theorem not_success_of_step {progress : Progress ε ο ι κ}
    {attempt : Attempt ε (List (Node ο (List ι) κ))}
    (stepped : step inner opening closing progress = .over attempt)
    (nodes : List (Node ο (List ι) κ)) (after : Cursor ε) :
    attempt.outcome ≠ .success nodes after := by
  unfold step at stepped
  split at stepped
  · cases stepped
  · cases stepped
    intro same
    cases same
  · split at stepped
    · cases stepped
    · cases stepped
      intro same
      cases same
    · split at stepped
      · cases stepped
      · cases stepped
        intro same
        cases same
      · cases stepped
        intro same
        cases same

theorem from_loop (inside : inner.Forward) (opens : opening.Forward) (closes : closing.Forward)
    (progress : Progress ε ο ι κ) :
    (loop inner opening closing progress).outcome.From progress.cursor := by
  fun_induction loop inner opening closing progress with
  | case1 progress closed => exact Outcome.from_success (.refl _)
  | case2 progress opened attempt stepped =>
    exact fun nodes after succeeded => absurd succeeded (not_success_of_step stepped nodes after)
  | case3 progress opened next stepped advances ih =>
    exact .trans (reaches_of_step inside opens closes stepped) ih
  | case4 progress opened next stepped stuck => exact Outcome.from_diverged

end Balanced

theorem Parser.Forward.balanced {ο ι κ : Type} {inner : Parser ε ι} {opening : Parser ε ο}
    {closing : Parser ε κ} (inside : inner.Forward) (opens : opening.Forward)
    (closes : closing.Forward) : (inner.balanced opening closing).Forward := by
  intro cursor
  unfold Parser.outcome Parser.balanced
  rw [Attempt.outcome_bind]
  exact (opens cursor).bind fun marker after reaches =>
    .trans reaches (Balanced.from_loop inside opens closes _)

end DocCoverage
