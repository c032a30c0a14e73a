import DocCoverage.Parser.Built
import DocCoverage.Parser.Forward
import DocCoverage.Proofs.Parser.Balanced
import DocCoverage.Proofs.Parser.Reading

/-!
# Parsers stay in their input

Whatever is built from the combinators either succeeds at a place of the same input that is reached
by reading on, or fails with a syntax error at such a place. The two halves have one closure lemma
for each combinator: `Forward` is about successes, and `Located` about failures. A failure lies
behind a success that came before it, so that the second half rests on the first.
-/

namespace DocCoverage

variable {ε α β : Type}

/-- A cursor that is reached is reached by reading on, element by element. -/
theorem Cursor.Reaches.exists_advance {cursor after : Cursor ε} (reaches : cursor.Reaches after) :
    ∃ count, cursor.position + count ≤ cursor.source.size ∧ after = cursor.advance count := by
  obtain ⟨sameSource, forwards⟩ := reaches
  have bound := after.position_le
  rw [sameSource] at bound
  refine ⟨after.position - cursor.position, by omega, ?_⟩
  have sum : cursor.position + (after.position - cursor.position) = after.position := by omega
  refine eq_of_rest_eq (sameSource.trans (source_advance ..).symm) ?_
  rw [rest_advance, rest, rest, sameSource, List.drop_drop, sum]

theorem Cursor.atEnd_eq_false_iff {cursor : Cursor ε} :
    cursor.atEnd = false ↔ cursor.position < cursor.source.size := by
  have bound := cursor.position_le
  rw [atEnd, beq_eq_false_iff_ne]
  omega

/-- The failure is a syntax error in the input of the cursor and not in front of it. -/
structure ParseFailure.Within (cursor : Cursor ε) (reason : ParseFailure ε) : Prop where
  syntactic : reason.cause ≠ .endOfInput
  source : reason.location.source = cursor.source
  behind : cursor.position ≤ reason.position
  inside : reason.position ≤ cursor.source.size

theorem Cursor.within_failure (cursor : Cursor ε) {cause : Cause ε} (own : cause ≠ .endOfInput) :
    (cursor.failure cause).Within cursor :=
  ⟨own, rfl, Nat.le_refl _, cursor.position_le⟩

theorem ParseFailure.Within.isEndOfInput_eq_false {cursor : Cursor ε} {reason : ParseFailure ε}
    (within : reason.Within cursor) : reason.isEndOfInput = false := by
  unfold isEndOfInput
  split
  · next ended => exact absurd ended within.syntactic
  · rfl

theorem ParseFailure.Within.trans {cursor middle : Cursor ε} {reason : ParseFailure ε}
    (reaches : cursor.Reaches middle) (within : reason.Within middle) : reason.Within cursor where
  syntactic := within.syntactic
  source := within.source.trans reaches.1
  behind := Nat.le_trans reaches.2 within.behind
  inside := reaches.1 ▸ within.inside

/-- Where the outcome is a failure, it lies in the input of the cursor and not in front of it. -/
def Outcome.Located (cursor : Cursor ε) (outcome : Outcome ε α) : Prop :=
  ∀ reason, outcome = .failure reason → reason.Within cursor

namespace Outcome

variable {cursor : Cursor ε}

theorem located_success {value : α} {after : Cursor ε} :
    Located cursor (.success value after) := nofun

theorem located_diverged : Located cursor (.diverged : Outcome ε α) := nofun

theorem located_failure {reason : ParseFailure ε} (within : reason.Within cursor) :
    Located cursor (.failure reason : Outcome ε α) := by
  intro _ same
  cases same
  exact within

/-- What lies behind a cursor that is reached lies behind the earlier one. -/
theorem Located.trans {middle : Cursor ε} {outcome : Outcome ε α}
    (reaches : cursor.Reaches middle) (located : Located middle outcome) :
    Located cursor outcome :=
  fun reason failed => (located reason failed).trans reaches

theorem Located.bind {first : Outcome ε α} {next : α → Cursor ε → Outcome ε β}
    (located : Located cursor first) (start : From cursor first)
    (rest : ∀ value after, cursor.Reaches after → Located cursor (next value after)) :
    Located cursor (first.bind next) := by
  cases first with
  | success value after => exact rest value after (start value after rfl)
  | failure reason => exact located_failure (located reason rfl)
  | diverged => exact located_diverged

/-- Where nothing fails behind the first outcome, nothing has to be known of its cursor. -/
theorem Located.always {first : Outcome ε α} (located : Located cursor first)
    (value : α → Cursor ε → β) (place : α → Cursor ε → Cursor ε) :
    Located cursor (first.bind fun found after =>
      .success (value found after) (place found after)) := by
  cases first with
  | success found after => exact located_success
  | failure reason => exact located_failure (located reason rfl)
  | diverged => exact located_diverged

theorem Located.map {outcome : Outcome ε α} (located : Located cursor outcome)
    (transform : α → β) : Located cursor (outcome.map transform) :=
  located.always _ _

/-- Of two choices, only the failure of the second one is reported. -/
theorem Located.orElse {first second : Outcome ε α} (located : Located cursor second) :
    Located cursor (first.orElse second) := by
  cases first with
  | success value after => exact located_success
  | failure reason => exact located
  | diverged => exact located_diverged

end Outcome

namespace Parser

/-- Where the parser fails, it does so in its input and not in front of where it started. -/
def Located (parser : Parser ε α) : Prop := ∀ cursor, (parser.outcome cursor).Located cursor

section Combinators

theorem located_pure (value : α) : (Parser.pure value : Parser ε α).Located :=
  fun _ => Outcome.located_success

theorem located_fail {cause : Cause ε} (own : cause ≠ .endOfInput) :
    (fail cause : Parser ε α).Located :=
  fun cursor => Outcome.located_failure (cursor.within_failure own)

theorem located_diverge : (diverge : Parser ε α).Located := fun _ => Outcome.located_diverged

theorem Located.bind {parser : Parser ε α} {next : α → Parser ε β} (first : parser.Located)
    (forward : parser.Forward) (second : ∀ value, (next value).Located) :
    (parser.bind next).Located := by
  intro cursor
  rw [outcome_bind]
  exact (first cursor).bind (forward cursor) fun value after reaches =>
    .trans reaches (second value after)

theorem Located.map {parser : Parser ε α} (located : parser.Located) (transform : α → β) :
    (parser.map transform).Located := by
  intro cursor
  rw [outcome_map]
  exact (located cursor).map transform

theorem Located.orElse {first second : Parser ε α} (located : second.Located) :
    (first.orElse second).Located := by
  intro cursor
  rw [outcome_orElse]
  exact (located cursor).orElse

theorem Located.lookAhead {parser : Parser ε α} (located : parser.Located) :
    parser.lookAhead.Located := by
  intro cursor
  rw [outcome_lookAhead]
  exact (located cursor).always _ _

theorem Located.withSpan {parser : Parser ε α} (located : parser.Located) :
    parser.withSpan.Located := by
  intro cursor
  rw [outcome_withSpan]
  exact (located cursor).always _ _

end Combinators

section Elements

theorem located_satisfy (accepts : ε → Bool) : (satisfy accepts).Located := by
  intro cursor
  unfold Parser.outcome satisfy
  dsimp only
  split
  · split
    · exact Outcome.located_success
    · exact Outcome.located_failure (cursor.within_failure nofun)
  · exact Outcome.located_failure (cursor.within_failure nofun)

variable [DecidableEq ε]

/-- A sequence fails at the first place that departs from it. -/
theorem within_of_follow {sequence expected : List ε} {cursor : Cursor ε}
    {reason : ParseFailure ε} (failed : follow sequence expected cursor = .error reason) :
    reason.Within cursor := by
  induction expected generalizing cursor with
  | nil => cases failed
  | cons head tail ih =>
    unfold follow at failed
    split at failed
    · split at failed
      · exact (ih failed).trans cursor.reaches_next
      · cases failed
        exact cursor.within_failure nofun
    · cases failed
      exact cursor.within_failure nofun

theorem located_literal (expected : List ε) : (literal expected).Located := by
  intro cursor
  unfold Parser.outcome literal
  dsimp only
  split
  · exact Outcome.located_success
  · next reason failed => exact Outcome.located_failure (within_of_follow failed)

end Elements

section Loops

variable {parser : Parser ε α}

/-- A repetition that may be empty takes a failure of the repeated parser for its end. -/
theorem many_ne_failure (parser : Parser ε α) (cursor : Cursor ε) (reason : ParseFailure ε) :
    parser.many.outcome cursor ≠ .failure reason := by
  induction cursor using Cursor.left_induction with
  | step cursor ih =>
    rw [outcome_many]
    split
    · next value after reached =>
      split
      · next closer =>
        have goes_on := ih after closer
        cases ended : parser.many.outcome after with
        | success values last => exact nofun
        | failure other => exact fun same => goes_on (ended.trans same)
        | diverged => exact nofun
      · exact nofun
    · exact nofun
    · exact nofun

theorem skipMany_ne_failure (parser : Parser ε α) (cursor : Cursor ε)
    (reason : ParseFailure ε) : parser.skipMany.outcome cursor ≠ .failure reason := by
  induction cursor using Cursor.left_induction with
  | step cursor ih =>
    rw [outcome_skipMany]
    split
    · next value after reached =>
      split
      · next closer => exact ih after closer
      · exact nofun
    · exact nofun
    · exact nofun

theorem located_many (parser : Parser ε α) : parser.many.Located :=
  fun cursor reason failed => absurd failed (many_ne_failure parser cursor reason)

theorem located_skipMany (parser : Parser ε α) : parser.skipMany.Located :=
  fun cursor reason failed => absurd failed (skipMany_ne_failure parser cursor reason)

theorem Located.many1 (located : parser.Located) (forward : parser.Forward) :
    parser.many1.Located := by
  intro cursor
  rw [outcome_many1]
  refine (located cursor).bind (forward cursor) fun value after reaches => ?_
  split
  · exact .trans reaches ((located_many parser after).map _)
  · exact Outcome.located_success

theorem Located.skipMany1 (located : parser.Located) (forward : parser.Forward) :
    parser.skipMany1.Located := by
  intro cursor
  rw [outcome_skipMany1]
  refine (located cursor).bind (forward cursor) fun value after reaches => ?_
  split
  · exact .trans reaches (located_skipMany parser after)
  · exact Outcome.located_success

/-- A repetition up to an end fails with its parser or where it does not get on. The failures of
the end are not reported. -/
theorem Located.manyTill (located : parser.Located) (forward : parser.Forward)
    (stop : Parser ε β) : (parser.manyTill stop).Located := by
  intro cursor
  induction cursor using Cursor.left_induction with
  | step cursor ih =>
    rw [outcome_manyTill]
    split
    · exact Outcome.located_success
    · exact Outcome.located_diverged
    · refine (located cursor).bind (forward cursor) fun value after reaches => ?_
      split
      · next closer => exact .trans reaches ((ih after closer).map _)
      · exact Outcome.located_failure (cursor.within_failure nofun)

end Loops

end Parser

namespace Balanced

variable {ο ι κ : Type} {inner : Parser ε ι} {opening : Parser ε ο} {closing : Parser ε κ}

theorem forward_piece (inside : inner.Forward) (opens : opening.Forward)
    (closes : closing.Forward) : (piece inner opening closing).Forward :=
  ((closes.map _).orElse (opens.map _)).orElse
    ((inside.manyTill (forward_boundary opening closing)).map _)

/-- Where neither marker stands, the failure is that of the run in between. -/
theorem located_piece (inside : inner.Located) (forward : inner.Forward) :
    (piece inner opening closing).Located :=
  .orElse ((inside.manyTill forward _).map _)

theorem located_remainder (located : (piece inner opening closing).Located)
    (forward : (piece inner opening closing).Forward) (depth : Nat) (cursor : Cursor ε) :
    (remainder inner opening closing depth cursor).Located cursor := by
  induction depth, cursor using advance_induction with
  | step depth cursor ih =>
    by_cases closed : depth = 0
    · rw [closed, remainder_zero]
      exact Outcome.located_success
    · rw [remainder_eq _ _ _ closed]
      refine (located cursor).bind (forward cursor) fun node after reaches => ?_
      split
      · next advances => exact .trans reaches ((ih _ after advances).map _)
      · exact Outcome.located_diverged

end Balanced

theorem Parser.Located.balanced {ο ι κ : Type} {inner : Parser ε ι} {opening : Parser ε ο}
    {closing : Parser ε κ} (inside : inner.Located) (opens : opening.Located)
    (innerForward : inner.Forward) (openingForward : opening.Forward)
    (closingForward : closing.Forward) : (inner.balanced opening closing).Located := by
  intro cursor
  rw [outcome_balanced]
  have pieces : (Balanced.piece inner opening closing).Located :=
    Balanced.located_piece inside innerForward
  have moves := Balanced.forward_piece innerForward openingForward closingForward
  exact (opens cursor).bind (openingForward cursor) fun marker after reaches =>
    .trans reaches ((Balanced.located_remainder pieces moves 1 after).map _)

namespace Parser.Built

variable {parser : Parser ε α}

theorem forward (built : parser.Built) : parser.Forward := by
  induction built with
  | pure value => exact forward_pure value
  | satisfy accepts => exact forward_satisfy accepts
  | literal expected => exact forward_literal expected
  | map transform _ ih => exact ih.map transform
  | orElse _ _ one two => exact one.orElse two
  | both _ _ one two => exact one.both two
  | andThen _ _ one two => exact one.andThen two
  | followedBy _ _ one two => exact one.followedBy two
  | apply _ _ one two => exact one.apply two
  | bind _ _ one two => exact one.bind two
  | lookAhead _ _ => exact forward_lookAhead _
  | withSpan _ ih => exact ih.withSpan
  | many _ ih => exact ih.many
  | many1 _ ih => exact ih.many1
  | skipMany _ ih => exact ih.skipMany
  | skipMany1 _ ih => exact ih.skipMany1
  | manyTill _ _ ih ends => exact ih.manyTill ends
  | balanced _ _ _ inside opens closes => exact inside.balanced opens closes
  | lazy _ ih => exact ih
  | diverge => exact forward_diverge
  | fail _ => exact forward_fail _
  | limit _ ends ih =>
    -- At each cursor the rule ends like one of its unrollings, which one depends on the cursor.
    intro cursor
    obtain ⟨depth, same⟩ := ends cursor
    exact same ▸ ih depth cursor

/-- Sequences are handled by the lemma for dynamically chosen parsers, of which they are cases. -/
theorem located (built : parser.Built) : parser.Located := by
  induction built with
  | pure value => exact located_pure value
  | satisfy accepts => exact located_satisfy accepts
  | literal expected => exact located_literal expected
  | map transform _ ih => exact ih.map transform
  | orElse _ _ _ two => exact two.orElse
  | both one _ first second => exact first.bind one.forward fun _ => second.map _
  | andThen one _ first second => exact first.bind one.forward fun _ => second
  | followedBy one _ first second => exact first.bind one.forward fun _ => second.map _
  | apply one _ first second => exact first.bind one.forward fun _ => second.map _
  | bind one _ first second => exact first.bind one.forward second
  | lookAhead _ ih => exact ih.lookAhead
  | withSpan _ ih => exact ih.withSpan
  | many _ _ => exact located_many _
  | many1 built ih => exact ih.many1 built.forward
  | skipMany _ _ => exact located_skipMany _
  | skipMany1 built ih => exact ih.skipMany1 built.forward
  | manyTill built _ ih _ => exact ih.manyTill built.forward _
  | balanced inside opens closes one two _ =>
    exact one.balanced two inside.forward opens.forward closes.forward
  | lazy _ ih => exact ih
  | diverge => exact located_diverge
  | fail own => exact located_fail own
  | limit _ ends ih =>
    intro cursor
    obtain ⟨depth, same⟩ := ends cursor
    exact same ▸ ih depth cursor

end Parser.Built

/-- A parser that is confined to its input ends at a place of it that reading on from the start
leads to, or fails with a syntax error that points to such a place. -/
structure Parser.Confined (parser : Parser ε α) : Prop where
  success : ∀ cursor value after, parser.outcome cursor = .success value after →
    ∃ count, cursor.position + count ≤ cursor.source.size ∧ after = cursor.advance count ∧
      after.source = cursor.source ∧ after.position = cursor.position + count ∧
      (after.atEnd = false ↔ after.position < cursor.source.size)
  failure : ∀ cursor reason, parser.outcome cursor = .failure reason →
    reason.isEndOfInput = false ∧ reason.location.source = cursor.source ∧
      cursor.position ≤ reason.position ∧ reason.position ≤ cursor.source.size

theorem Parser.Built.confined {parser : Parser ε α} (built : parser.Built) :
    parser.Confined where
  success cursor value after succeeded := by
    have reaches := built.forward cursor value after succeeded
    obtain ⟨count, inside, rfl⟩ := reaches.exists_advance
    have within : count ≤ cursor.left := by
      rw [Cursor.left]
      omega
    exact ⟨count, inside, rfl, reaches.1, Cursor.position_advance within, by
      rw [Cursor.atEnd_eq_false_iff, reaches.1]⟩
  failure cursor reason failed := by
    have within := built.located cursor reason failed
    exact ⟨within.isEndOfInput_eq_false, within.source, within.behind, within.inside⟩

end DocCoverage
