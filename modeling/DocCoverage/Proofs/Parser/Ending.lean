import DocCoverage.Proofs.Parser.Confinement

/-!
# Parsers that end

A parser ends at a cursor if its parts end there and further on. The loops need no more than that,
since each of them stops at a step that does not get on. Only the loop of a balanced region has no
such guard, and ends because every turn reads something or closes a region: there, an opening marker
that reads nothing has to be ruled out.
-/

namespace DocCoverage

variable {ε α β : Type}

namespace Outcome

theorem bind_ne_diverged {first : Outcome ε α} {next : α → Cursor ε → Outcome ε β}
    (ends : first ≠ .diverged)
    (later : ∀ value after, first = .success value after → next value after ≠ .diverged) :
    first.bind next ≠ .diverged := by
  cases first with
  | success value after => exact later value after rfl
  | failure reason => exact nofun
  | diverged => exact absurd rfl ends

theorem map_ne_diverged {outcome : Outcome ε α} (ends : outcome ≠ .diverged) (transform : α → β) :
    outcome.map transform ≠ .diverged :=
  bind_ne_diverged ends fun _ _ _ => nofun

theorem orElse_ne_diverged {first second : Outcome ε α} (one : first ≠ .diverged)
    (two : second ≠ .diverged) : first.orElse second ≠ .diverged := by
  cases first with
  | success value after => exact nofun
  | failure reason => exact two
  | diverged => exact absurd rfl one

end Outcome

namespace Parser

/-- The parser ends at the cursor, one way or the other. -/
def EndsAt (parser : Parser ε α) (cursor : Cursor ε) : Prop := parser.outcome cursor ≠ .diverged

/-- The parser ends wherever less is left than at the cursor. -/
def EndsBehind (parser : Parser ε α) (cursor : Cursor ε) : Prop :=
  ∀ after, after.left < cursor.left → parser.EndsAt after

variable {parser : Parser ε α} {cursor : Cursor ε}

theorem endsAt_fail (cause : Cause ε) (cursor : Cursor ε) :
    (fail cause : Parser ε α).EndsAt cursor := nofun

theorem EndsBehind.of_lt {after : Cursor ε} (ends : parser.EndsBehind cursor)
    (closer : after.left < cursor.left) : parser.EndsBehind after :=
  fun last closer' => ends last (Nat.lt_trans closer' closer)

/-- A parser with a reading ends everywhere. -/
theorem Reads.ending {reading : Reading ε α} (reads : parser.Reads reading) : parser.Ending := by
  intro cursor
  cases read : reading cursor.rest with
  | some found =>
    obtain ⟨value, rest⟩ := found
    obtain ⟨after, succeeded, -, -⟩ := reads.success read
    rw [succeeded]
    exact nofun
  | none =>
    obtain ⟨reason, failed⟩ := reads.failure read
    rw [failed]
    exact nofun

section Combinators

theorem EndsAt.bind (ends : parser.EndsAt cursor) {next : α → Parser ε β}
    (later : ∀ value after, parser.outcome cursor = .success value after →
      (next value).EndsAt after) : (parser.bind next).EndsAt cursor := by
  unfold EndsAt
  rw [outcome_bind]
  exact Outcome.bind_ne_diverged ends later

theorem EndsAt.map (ends : parser.EndsAt cursor) (transform : α → β) :
    (parser.map transform).EndsAt cursor := by
  unfold EndsAt
  rw [outcome_map]
  exact Outcome.map_ne_diverged ends transform

theorem EndsAt.orElse {other : Parser ε α} (one : parser.EndsAt cursor)
    (two : other.EndsAt cursor) : (parser.orElse other).EndsAt cursor := by
  unfold EndsAt
  rw [outcome_orElse]
  exact Outcome.orElse_ne_diverged one two

theorem EndsAt.lookAhead (ends : parser.EndsAt cursor) : parser.lookAhead.EndsAt cursor := by
  unfold EndsAt
  rw [outcome_lookAhead]
  exact Outcome.bind_ne_diverged ends fun _ _ _ => nofun

theorem EndsAt.withSpan (ends : parser.EndsAt cursor) : parser.withSpan.EndsAt cursor := by
  unfold EndsAt
  rw [outcome_withSpan]
  exact Outcome.bind_ne_diverged ends fun _ _ _ => nofun

theorem ending_take (count : Nat) : (take count : Parser ε (List ε)).Ending := by
  intro cursor
  induction count generalizing cursor with
  | zero => exact nofun
  | succ count ih => exact EndsAt.bind (reads_any.ending cursor) fun _ after _ => .map (ih after) _

end Combinators

section Loops

theorem EndsAt.many (ends : parser.EndsAt cursor) (later : parser.EndsBehind cursor) :
    parser.many.EndsAt cursor := by
  induction cursor using Cursor.left_induction with
  | step cursor ih =>
    unfold EndsAt
    rw [outcome_many]
    split
    · next value after _ =>
      split
      · next closer =>
        exact Outcome.map_ne_diverged (ih after closer (later after closer) (later.of_lt closer)) _
      · exact nofun
    · exact nofun
    · next diverged => exact absurd diverged ends

theorem EndsAt.skipMany (ends : parser.EndsAt cursor) (later : parser.EndsBehind cursor) :
    parser.skipMany.EndsAt cursor := by
  induction cursor using Cursor.left_induction with
  | step cursor ih =>
    unfold EndsAt
    rw [outcome_skipMany]
    split
    · next value after _ =>
      split
      · next closer => exact ih after closer (later after closer) (later.of_lt closer)
      · exact nofun
    · exact nofun
    · next diverged => exact absurd diverged ends

theorem EndsAt.many1 (ends : parser.EndsAt cursor) (later : parser.EndsBehind cursor) :
    parser.many1.EndsAt cursor := by
  unfold EndsAt
  rw [outcome_many1]
  refine Outcome.bind_ne_diverged ends fun value after _ => ?_
  split
  · next closer =>
    exact Outcome.map_ne_diverged (EndsAt.many (later after closer) (later.of_lt closer)) _
  · exact nofun

theorem EndsAt.skipMany1 (ends : parser.EndsAt cursor) (later : parser.EndsBehind cursor) :
    parser.skipMany1.EndsAt cursor := by
  unfold EndsAt
  rw [outcome_skipMany1]
  refine Outcome.bind_ne_diverged ends fun value after _ => ?_
  split
  · next closer => exact EndsAt.skipMany (later after closer) (later.of_lt closer)
  · exact nofun

theorem EndsAt.manyTill {stop : Parser ε β} (ends : parser.EndsAt cursor)
    (stops : stop.EndsAt cursor) (later : parser.EndsBehind cursor)
    (stopsLater : stop.EndsBehind cursor) : (parser.manyTill stop).EndsAt cursor := by
  induction cursor using Cursor.left_induction with
  | step cursor ih =>
    unfold EndsAt
    rw [outcome_manyTill]
    split
    · exact nofun
    · next diverged => exact absurd diverged stops
    · refine Outcome.bind_ne_diverged ends fun value after _ => ?_
      split
      · next closer =>
        exact Outcome.map_ne_diverged (ih after closer (later after closer)
          (stopsLater after closer) (later.of_lt closer) (stopsLater.of_lt closer)) _
      · exact nofun

/-- Where it does not stop at once, a repetition up to an end gets on, or else it fails. -/
theorem left_lt_of_manyTill {stop : Parser ε β} (forward : parser.Forward)
    (stopForward : stop.Forward) {reason : ParseFailure ε} {values : List α} {last : Cursor ε}
    (going : stop.outcome cursor = .failure reason)
    (succeeded : (parser.manyTill stop).outcome cursor = .success values last) :
    last.left < cursor.left := by
  rw [outcome_manyTill, going] at succeeded
  obtain ⟨value, after, -, rest⟩ := Outcome.bind_eq_success_iff.mp succeeded
  split at rest
  · next closer =>
    obtain ⟨values', later, -⟩ := Outcome.map_eq_success_iff.mp rest
    have bound := (forward.manyTill stopForward after values' last later).left_le
    omega
  · cases rest

end Loops

end Parser

namespace Balanced

variable {ο ι κ : Type} {inner : Parser ε ι} {opening : Parser ε ο} {closing : Parser ε κ}
variable {cursor : Cursor ε}

theorem endsAt_boundary (opens : opening.EndsAt cursor) (closes : closing.EndsAt cursor) :
    (boundary opening closing).EndsAt cursor :=
  (opens.lookAhead.map _).orElse (closes.lookAhead.map _)

theorem endsAt_piece (inside : inner.EndsAt cursor) (opens : opening.EndsAt cursor)
    (closes : closing.EndsAt cursor) (insideLater : inner.EndsBehind cursor)
    (opensLater : opening.EndsBehind cursor) (closesLater : closing.EndsBehind cursor) :
    (piece inner opening closing).EndsAt cursor := by
  refine ((closes.map _).orElse (opens.map _)).orElse (.map ?_ _)
  refine inside.manyTill (endsAt_boundary opens closes) insideLater fun after closer => ?_
  exact endsAt_boundary (opensLater after closer) (closesLater after closer)

/-- Every node makes twice what is left and the number of open regions together smaller. -/
theorem descends_of_takes (inside : inner.Forward) (opens : opening.Consuming)
    (closes : closing.Forward) {depth : Nat} (opened : depth ≠ 0)
    {node : Node ο (List ι) κ} {after : Cursor ε}
    (takes : Takes inner opening closing cursor node after) :
    after.left ≤ cursor.left ∧
      2 * after.left + node.depthAfter depth < 2 * cursor.left + depth := by
  cases takes with
  | closed read =>
    have bound := (closes _ _ _ read).left_le
    simp only [Node.depthAfter]
    omega
  | opened _ read =>
    have closer := opens _ _ _ read
    simp only [Node.depthAfter]
    omega
  | inner unclosed unopened read =>
    obtain ⟨reason, going⟩ := failsAt_boundary_iff.mpr ⟨unclosed, unopened⟩
    have closer := Parser.left_lt_of_manyTill inside (forward_boundary _ _) going read
    simp only [Node.depthAfter]
    omega

/-- Every node reads something or closes a region. -/
theorem advances_of_piece (inside : inner.Forward) (opens : opening.Consuming)
    (closes : closing.Forward) {depth : Nat} (opened : depth ≠ 0)
    {node : Node ο (List ι) κ} {after : Cursor ε}
    (read : (piece inner opening closing).outcome cursor = .success node after) :
    after.left < cursor.left ∨ after.left = cursor.left ∧ node.depthAfter depth < depth := by
  have descends := descends_of_takes inside opens closes opened (takes_of_piece read)
  omega

/-- The loop ends where the pieces end, since what is left and the number of open regions never
stay the same together. -/
theorem remainder_ne_diverged (inside : inner.Forward) (opens : opening.Consuming)
    (closes : closing.Forward) (moves : (piece inner opening closing).Forward)
    (depth : Nat) (cursor : Cursor ε)
    (ends : ∀ after, after.left ≤ cursor.left → (piece inner opening closing).EndsAt after) :
    remainder inner opening closing depth cursor ≠ .diverged := by
  induction depth, cursor using advance_induction with
  | step depth cursor ih =>
    by_cases closed : depth = 0
    · rw [closed, remainder_zero]
      exact nofun
    · rw [remainder_eq _ _ _ closed]
      refine Outcome.bind_ne_diverged (ends cursor (Nat.le_refl _)) fun node after read => ?_
      have advances := advances_of_piece inside opens closes closed read
      have bound := (moves cursor node after read).left_le
      rw [if_pos advances]
      exact Outcome.map_ne_diverged
        (ih _ after advances fun last within => ends last (Nat.le_trans within bound)) _

end Balanced

theorem Parser.EndsAt.balanced {ο ι κ : Type} {inner : Parser ε ι} {opening : Parser ε ο}
    {closing : Parser ε κ} {cursor : Cursor ε} (starts : opening.EndsAt cursor)
    (insideLater : inner.EndsBehind cursor) (opensLater : opening.EndsBehind cursor)
    (closesLater : closing.EndsBehind cursor) (inside : inner.Forward) (opens : opening.Forward)
    (reads : opening.Consuming) (closes : closing.Forward) :
    (inner.balanced opening closing).EndsAt cursor := by
  have moves : (Balanced.piece inner opening closing).Forward :=
    Balanced.forward_piece inside opens closes
  unfold EndsAt
  rw [outcome_balanced]
  refine Outcome.bind_ne_diverged starts fun marker after read => Outcome.map_ne_diverged ?_ _
  have closer := reads cursor marker after read
  refine Balanced.remainder_ne_diverged inside reads closes moves 1 after fun last within => ?_
  have further : last.left < cursor.left := Nat.lt_of_le_of_lt within closer
  exact Balanced.endsAt_piece (insideLater last further) (opensLater last further)
    (closesLater last further) (insideLater.of_lt further) (opensLater.of_lt further)
    (closesLater.of_lt further)

end DocCoverage
