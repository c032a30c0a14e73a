import DocCoverage.Parser.Repeat.Outcome
import DocCoverage.Parser.Balanced
import DocCoverage.Parser.Forward

/-!
# Outcomes of balanced regions

The loop of a balanced region reads one node after another. `piece` is the parser of the next
node, and `remainder` is the outcome of the loop, which has one equation: the next node, and then
the rest at the depth behind it. The outcome depends neither on the stalls nor on the nodes that
have been read before.
-/

namespace DocCoverage

variable {ε ο ι κ : Type}

/-- How many regions are open behind the node. -/
def Node.depthAfter (depth : Nat) : Node ο ι κ → Nat
  | .opened _ => depth + 1
  | .inner _ => depth
  | .closed _ => depth - 1

namespace Balanced

variable (inner : Parser ε ι) (opening : Parser ε ο) (closing : Parser ε κ)

/-- The next node inside a region. -/
def piece : Parser ε (Node ο (List ι) κ) :=
  ((closing.map .closed).orElse (opening.map .opened)).orElse
    ((inner.manyTill (boundary opening closing)).map .inner)

/-- The next node inside a region, by what has read it. -/
inductive Takes (cursor : Cursor ε) : Node ο (List ι) κ → Cursor ε → Prop where
  | closed {marker : κ} {after : Cursor ε} (read : closing.outcome cursor = .success marker after) :
      Takes cursor (.closed marker) after
  | opened {marker : ο} {after : Cursor ε} (unclosed : closing.FailsAt cursor)
      (read : opening.outcome cursor = .success marker after) :
      Takes cursor (.opened marker) after
  | inner {run : List ι} {after : Cursor ε} (unclosed : closing.FailsAt cursor)
      (unopened : opening.FailsAt cursor)
      (read : (inner.manyTill (boundary opening closing)).outcome cursor = .success run after) :
      Takes cursor (.inner run) after

/-- How reading ends from a cursor with `depth` open regions on. -/
def remainder (depth : Nat) (cursor : Cursor ε) : Outcome ε (List (Node ο (List ι) κ)) :=
  (loop inner opening closing ⟨cursor, depth, [], []⟩).outcome

section Markers

variable {inner opening closing}

theorem failsAt_boundary_iff {cursor : Cursor ε} :
    (boundary opening closing).FailsAt cursor ↔
      closing.FailsAt cursor ∧ opening.FailsAt cursor := by
  rw [boundary, Parser.failsAt_orElse_iff, Parser.failsAt_map_iff, Parser.failsAt_map_iff,
    Parser.failsAt_lookAhead_iff, Parser.failsAt_lookAhead_iff, and_comm]

/-- A marker that comes next is only looked at. -/
theorem eq_of_boundary {cursor after : Cursor ε} {seen : Unit}
    (marked : (boundary opening closing).outcome cursor = .success seen after) :
    after = cursor := by
  rw [boundary, Parser.outcome_orElse, Parser.outcome_map, Parser.outcome_map,
    Outcome.orElse_eq_success_iff, Outcome.map_eq_success_iff,
    Outcome.map_eq_success_iff] at marked
  rcases marked with ⟨_, opened, -⟩ | ⟨-, _, closed, -⟩
  · exact Parser.eq_of_lookAhead opened
  · exact Parser.eq_of_lookAhead closed

theorem takes_of_piece {cursor after : Cursor ε} {node : Node ο (List ι) κ}
    (read : (piece inner opening closing).outcome cursor = .success node after) :
    Takes inner opening closing cursor node after := by
  unfold piece at read
  simp only [Parser.outcome_orElse, Parser.outcome_map, Outcome.orElse_eq_success_iff,
    Outcome.orElse_eq_failure_iff, Outcome.map_eq_success_iff, Outcome.map_eq_failure_iff] at read
  rcases read with (⟨marker, closed, rfl⟩ | ⟨unclosed, marker, opened, rfl⟩) |
    ⟨⟨reason, unclosed, unopened⟩, run, ran, rfl⟩
  · exact .closed closed
  · exact .opened unclosed opened
  · exact .inner unclosed ⟨reason, unopened⟩ ran

end Markers

/-- A step reads the next node and counts it. -/
theorem step_eq (progress : Progress ε ο ι κ) :
    step inner opening closing progress =
      match (piece inner opening closing).run progress.cursor with
      | ⟨.success node after, seen⟩ =>
        .more ⟨after, node.depthAfter progress.depth, node :: progress.nodes,
          seen.reverse ++ progress.stalls⟩
      | ⟨.failure reason, seen⟩ => .over ⟨.failure reason, progress.stalls.reverse ++ seen⟩
      | ⟨.diverged, seen⟩ => .over ⟨.diverged, progress.stalls.reverse ++ seen⟩ := by
  unfold step piece Parser.orElse Parser.map
  dsimp only
  rcases closing.run progress.cursor with ⟨marker, after⟩ | ⟨reason⟩ | _
  · simp [Attempt.orElse, Attempt.bind, Attempt.success, Attempt.after, Node.depthAfter]
  · rcases opening.run progress.cursor with ⟨marker, after⟩ | ⟨reason⟩ | _
    · simp [Attempt.orElse, Attempt.bind, Attempt.success, Attempt.after, Node.depthAfter]
    · rcases (inner.manyTill (boundary opening closing)).run progress.cursor with
        ⟨values, after⟩ | ⟨reason⟩ | _ <;>
      simp [Attempt.orElse, Attempt.bind, Attempt.success, Attempt.after, Node.depthAfter]
    · simp [Attempt.orElse, Attempt.bind, Attempt.after]
  · simp [Attempt.orElse, Attempt.bind]

omit inner opening closing in
theorem advances_iff {cursor after : Cursor ε} {depth depth' : Nat}
    {nodes nodes' : List (Node ο (List ι) κ)} {stalls stalls' : List Stall} :
    Progress.Advances ⟨cursor, depth, nodes, stalls⟩ ⟨after, depth', nodes', stalls'⟩ ↔
      after.left < cursor.left ∨ after.left = cursor.left ∧ depth' < depth := .rfl

omit inner opening closing in
/-- Induction on what every turn of the loop makes smaller: what is left to be read or else the
number of open regions. -/
theorem advance_induction {motive : Nat → Cursor ε → Prop}
    (step : ∀ depth cursor,
      (∀ depth' after, after.left < cursor.left ∨ after.left = cursor.left ∧ depth' < depth →
        motive depth' after) → motive depth cursor)
    (depth : Nat) (cursor : Cursor ε) : motive depth cursor :=
  step depth cursor fun depth' after _advances => advance_induction step depth' after
termination_by (cursor.left, depth)
decreasing_by
  rcases _advances with closer | ⟨same, shallower⟩
  · exact Prod.Lex.left _ _ closer
  · rw [same]
    exact Prod.Lex.right _ shallower

/-- What has been read before stands in front of what is read later. -/
theorem outcome_loop (depth : Nat) (cursor : Cursor ε) (nodes : List (Node ο (List ι) κ))
    (stalls : List Stall) :
    (loop inner opening closing ⟨cursor, depth, nodes, stalls⟩).outcome =
      (remainder inner opening closing depth cursor).map (nodes.reverse ++ ·) := by
  induction depth, cursor using advance_induction generalizing nodes stalls with
  | step depth cursor ih =>
    unfold remainder
    rw [loop.eq_def, loop.eq_def inner opening closing ⟨cursor, depth, [], []⟩]
    dsimp only
    by_cases closed : depth = 0
    · simp [closed]
    · rw [step_eq, step_eq]
      dsimp only
      rcases (piece inner opening closing).run cursor with ⟨node, after⟩ | ⟨reason⟩ | _
      · rw [if_neg closed, if_neg closed]
        dsimp only
        by_cases advances : after.left < cursor.left ∨
            after.left = cursor.left ∧ node.depthAfter depth < depth
        · rw [dif_pos (advances_iff.mpr advances), dif_pos (advances_iff.mpr advances),
            ih _ after advances (node :: nodes), ih _ after advances [node], Outcome.map_map]
          congr 1
          funext tail
          simp
        · rw [dif_neg (mt advances_iff.mp advances), dif_neg (mt advances_iff.mp advances)]
          rfl
      · simp [closed]
      · simp [closed]

theorem remainder_zero (cursor : Cursor ε) :
    remainder inner opening closing 0 cursor = .success [] cursor := by
  unfold remainder
  rw [loop.eq_def]
  rfl

/-- The next node, and then the rest at the depth behind it. -/
theorem remainder_eq {depth : Nat} (opened : depth ≠ 0) (cursor : Cursor ε) :
    remainder inner opening closing depth cursor =
      ((piece inner opening closing).outcome cursor).bind fun node after =>
        if after.left < cursor.left ∨ after.left = cursor.left ∧ node.depthAfter depth < depth then
          (remainder inner opening closing (node.depthAfter depth) after).map (node :: ·)
        else .diverged := by
  refine (congrArg Attempt.outcome (loop.eq_def ..)).trans ?_
  rw [step_eq, if_neg opened]
  unfold Parser.outcome
  dsimp only
  rcases (piece inner opening closing).run cursor with ⟨node, after⟩ | ⟨reason⟩ | _
  · dsimp only [Outcome.bind_success]
    by_cases advances : after.left < cursor.left ∨
        after.left = cursor.left ∧ node.depthAfter depth < depth
    · rw [dif_pos (advances_iff.mpr advances), if_pos advances, outcome_loop]
      rfl
    · rw [dif_neg (mt advances_iff.mp advances), if_neg advances]
  · rfl
  · rfl

end Balanced

theorem Parser.outcome_balanced (inner : Parser ε ι) (opening : Parser ε ο)
    (closing : Parser ε κ) (cursor : Cursor ε) :
    (inner.balanced opening closing).outcome cursor =
      (opening.outcome cursor).bind fun marker after =>
        (Balanced.remainder inner opening closing 1 after).map (.opened marker :: ·) := by
  unfold Parser.outcome Parser.balanced
  rw [Attempt.outcome_bind]
  congr 1
  funext marker after
  exact Balanced.outcome_loop inner opening closing 1 after [.opened marker] []

end DocCoverage
