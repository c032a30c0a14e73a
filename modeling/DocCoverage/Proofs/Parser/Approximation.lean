import DocCoverage.Proofs.Parser.Confinement

/-!
# Approximations

One parser approximates another one if the other does the same wherever the first one ends. That is
how the unrollings of a rule are related: a reference that is followed no deeper never ends, and
following it deeper makes no difference to what does not wait for it. Every way to build a parser
keeps the relation, with everything that is recorded on the way, as it only runs its parts further
on in the input.
-/

namespace DocCoverage

variable {ε α β : Type}

/-- The second attempt is the first one, unless that never ends. -/
def Attempt.Approximates (first second : Attempt ε α) : Prop :=
  first.outcome ≠ .diverged → second = first

namespace Attempt

variable {first second third : Attempt ε α}

theorem Approximates.refl (attempt : Attempt ε α) : attempt.Approximates attempt := fun _ => rfl

theorem approximates_of_diverged (never : first.outcome = .diverged) : first.Approximates second :=
  (absurd never ·)

theorem Approximates.trans (one : first.Approximates second) (two : second.Approximates third) :
    first.Approximates third := by
  intro ended
  obtain rfl := one ended
  exact two ended

theorem Approximates.bind (start : first.Approximates second)
    {next next' : α → Cursor ε → Attempt ε β}
    (later : ∀ value after, first.outcome = .success value after →
      (next value after).Approximates (next' value after)) :
    (first.bind next).Approximates (second.bind next') := by
  by_cases never : first.outcome = .diverged
  · refine approximates_of_diverged ?_
    rw [outcome_bind, never, Outcome.bind_diverged]
  · rw [start never]
    unfold Attempt.bind
    cases reached : first.outcome with
    | success value after =>
      intro ended
      dsimp only
      rw [later value after reached ended]
    | failure reason => exact .refl _
    | diverged => exact .refl _

theorem Approximates.orElse (start : first.Approximates second)
    {other other' : Unit → Attempt ε α}
    (later : ∀ built, (other built).Approximates (other' built)) :
    (first.orElse other).Approximates (second.orElse other') := by
  by_cases never : first.outcome = .diverged
  · refine approximates_of_diverged ?_
    rw [outcome_orElse, never, Outcome.orElse_diverged]
  · rw [start never]
    unfold Attempt.orElse
    cases first.outcome with
    | success value after => exact .refl _
    | failure reason =>
      intro ended
      dsimp only
      rw [later () ended]
    | diverged => exact .refl _

end Attempt

namespace Parser

/-- From the cursor on, the second parser does the same as the first one wherever that ends. -/
def Approximates (first second : Parser ε α) (cursor : Cursor ε) : Prop :=
  ∀ after, cursor.Reaches after → (first.run after).Approximates (second.run after)

variable {first second third : Parser ε α} {cursor after : Cursor ε}

theorem Approximates.refl (parser : Parser ε α) (cursor : Cursor ε) :
    parser.Approximates parser cursor := fun _ _ => .refl _

theorem approximates_diverge (parser : Parser ε α) (cursor : Cursor ε) :
    diverge.Approximates parser cursor := fun _ _ => Attempt.approximates_of_diverged rfl

theorem Approximates.trans (one : first.Approximates second cursor)
    (two : second.Approximates third cursor) : first.Approximates third cursor :=
  fun after reaches => (one after reaches).trans (two after reaches)

theorem Approximates.of_reaches (approximates : first.Approximates second cursor)
    (reaches : cursor.Reaches after) : first.Approximates second after :=
  fun last further => approximates last (reaches.trans further)

/-- Where a parser approximates another one, they do the same or the first one never ends. -/
theorem Approximates.same_or_diverged (approximates : first.Approximates second cursor) :
    second.run cursor = first.run cursor ∨ ∃ seen, first.run cursor = ⟨.diverged, seen⟩ := by
  by_cases never : first.outcome cursor = .diverged
  · exact .inr ⟨(first.run cursor).stalls, congrArg (Attempt.mk · _) never⟩
  · exact .inl (approximates cursor (.refl cursor) never)

theorem Forward.reaches_of_run (forward : first.Forward) {value : α} {seen : List Stall}
    (ran : first.run cursor = ⟨.success value after, seen⟩) : cursor.Reaches after :=
  forward cursor value after (congrArg Attempt.outcome ran)

section Combinators

theorem Approximates.bind (one : first.Approximates second cursor) (forward : first.Forward)
    {next next' : α → Parser ε β} (two : ∀ value, (next value).Approximates (next' value) cursor) :
    (first.bind next).Approximates (second.bind next') cursor :=
  fun place reaches => (one place reaches).bind fun value after read =>
    two value after (reaches.trans (forward place value after read))

theorem Approximates.map (approximates : first.Approximates second cursor) (transform : α → β) :
    (first.map transform).Approximates (second.map transform) cursor :=
  fun place reaches => (approximates place reaches).bind fun _ _ _ => .refl _

theorem Approximates.orElse {other other' : Parser ε α} (one : first.Approximates second cursor)
    (two : other.Approximates other' cursor) :
    (first.orElse other).Approximates (second.orElse other') cursor :=
  fun place reaches => (one place reaches).orElse fun _ => two place reaches

theorem Approximates.lookAhead (approximates : first.Approximates second cursor) :
    first.lookAhead.Approximates second.lookAhead cursor :=
  fun place reaches => (approximates place reaches).bind fun _ _ _ => .refl _

theorem Approximates.withSpan (approximates : first.Approximates second cursor) :
    first.withSpan.Approximates second.withSpan cursor :=
  fun place reaches => (approximates place reaches).bind fun _ _ _ => .refl _

section Sequences

variable {other other' : Parser ε β}

theorem Approximates.both (one : first.Approximates second cursor) (forward : first.Forward)
    (two : other.Approximates other' cursor) :
    (first.both other).Approximates (second.both other') cursor :=
  one.bind forward fun _ => two.map _

theorem Approximates.andThen (one : first.Approximates second cursor) (forward : first.Forward)
    (two : other.Approximates other' cursor) :
    (first.andThen other).Approximates (second.andThen other') cursor :=
  one.bind forward fun _ => two

theorem Approximates.followedBy (one : first.Approximates second cursor) (forward : first.Forward)
    (two : other.Approximates other' cursor) :
    (first.followedBy other).Approximates (second.followedBy other') cursor :=
  one.bind forward fun _ => two.map _

theorem Approximates.apply {function function' : Parser ε (α → β)}
    (one : function.Approximates function' cursor) (forward : function.Forward)
    (two : first.Approximates second cursor) :
    (function.apply first).Approximates (function'.apply second) cursor :=
  one.bind forward fun _ => two.map _

end Sequences

end Combinators

section Loops

theorem approximates_collect (approximates : first.Approximates second cursor)
    (forward : first.Forward) (repetition : Repetition) (values : List α) (stalls : List Stall) :
    (collect repetition first cursor values stalls).Approximates
      (collect repetition second cursor values stalls) := by
  induction cursor using Cursor.left_induction generalizing values stalls with
  | step cursor ih =>
    rw [collect.eq_def, collect.eq_def repetition second]
    rcases approximates.same_or_diverged with same | ⟨seen, never⟩
    · rw [same]
      rcases ran : first.run cursor with ⟨⟨value, after⟩ | ⟨reason⟩ | _, seen⟩
      · dsimp only
        split
        · next closer =>
          exact ih after closer (approximates.of_reaches (forward.reaches_of_run ran)) _ _
        · exact .refl _
      · exact .refl _
      · exact .refl _
    · rw [never]
      exact Attempt.approximates_of_diverged rfl

theorem Approximates.many (approximates : first.Approximates second cursor)
    (forward : first.Forward) : first.many.Approximates second.many cursor :=
  fun _ reaches => approximates_collect (approximates.of_reaches reaches) forward .many [] []

theorem Approximates.many1 (approximates : first.Approximates second cursor)
    (forward : first.Forward) : first.many1.Approximates second.many1 cursor := by
  intro place reaches
  refine (approximates place reaches).bind fun value after read => ?_
  split
  · have further := reaches.trans (forward place value after read)
    exact approximates_collect (approximates.of_reaches further) forward .many1 [value] []
  · exact .refl _

theorem approximates_skip (approximates : first.Approximates second cursor)
    (forward : first.Forward) (stalls : List Stall) :
    (skip first cursor stalls).Approximates (skip second cursor stalls) := by
  induction cursor using Cursor.left_induction generalizing stalls with
  | step cursor ih =>
    rw [skip.eq_def, skip.eq_def second]
    rcases approximates.same_or_diverged with same | ⟨seen, never⟩
    · rw [same]
      rcases ran : first.run cursor with ⟨⟨value, after⟩ | ⟨reason⟩ | _, seen⟩
      · dsimp only
        split
        · next closer =>
          exact ih after closer (approximates.of_reaches (forward.reaches_of_run ran)) _
        · exact .refl _
      · exact .refl _
      · exact .refl _
    · rw [never]
      exact Attempt.approximates_of_diverged rfl

theorem Approximates.skipMany (approximates : first.Approximates second cursor)
    (forward : first.Forward) : first.skipMany.Approximates second.skipMany cursor :=
  fun _ reaches => approximates_skip (approximates.of_reaches reaches) forward []

theorem Approximates.skipMany1 (approximates : first.Approximates second cursor)
    (forward : first.Forward) : first.skipMany1.Approximates second.skipMany1 cursor := by
  intro place reaches
  refine (approximates place reaches).bind fun value after read => ?_
  split
  · have further := reaches.trans (forward place value after read)
    exact approximates_skip (approximates.of_reaches further) forward []
  · exact .refl _

variable {stop stop' : Parser ε β}

theorem approximates_collectTill (approximates : first.Approximates second cursor)
    (forward : first.Forward) (ends : stop.Approximates stop' cursor) (values : List α)
    (stalls : List Stall) :
    (collectTill first stop cursor values stalls).Approximates
      (collectTill second stop' cursor values stalls) := by
  induction cursor using Cursor.left_induction generalizing values stalls with
  | step cursor ih =>
    rw [collectTill.eq_def, collectTill.eq_def second]
    rcases ends.same_or_diverged with same | ⟨tried, never⟩
    · rw [same]
      rcases stop.run cursor with ⟨⟨ending, after⟩ | ⟨reason⟩ | _, tried⟩
      · exact .refl _
      · rcases approximates.same_or_diverged with same | ⟨seen, never⟩
        · dsimp only
          rw [same]
          rcases ran : first.run cursor with ⟨⟨value, after⟩ | ⟨reason⟩ | _, seen⟩
          · dsimp only
            split
            · next closer =>
              have reaches := forward.reaches_of_run ran
              exact ih after closer (approximates.of_reaches reaches) (ends.of_reaches reaches) _ _
            · exact .refl _
          · exact .refl _
          · exact .refl _
        · dsimp only
          rw [never]
          exact Attempt.approximates_of_diverged rfl
      · exact .refl _
    · rw [never]
      exact Attempt.approximates_of_diverged rfl

theorem Approximates.manyTill (approximates : first.Approximates second cursor)
    (forward : first.Forward) (ends : stop.Approximates stop' cursor) :
    (first.manyTill stop).Approximates (second.manyTill stop') cursor :=
  fun _ reaches => approximates_collectTill (approximates.of_reaches reaches) forward
    (ends.of_reaches reaches) [] []

end Loops

end Parser

namespace Balanced

variable {ο ι κ : Type} {inner inner' : Parser ε ι} {opening opening' : Parser ε ο}
  {closing closing' : Parser ε κ} {cursor : Cursor ε}

theorem approximates_piece (inside : inner.Approximates inner' cursor) (forward : inner.Forward)
    (opens : opening.Approximates opening' cursor) (closes : closing.Approximates closing' cursor) :
    (piece inner opening closing).Approximates (piece inner' opening' closing') cursor :=
  ((closes.map _).orElse (opens.map _)).orElse
    ((inside.manyTill forward ((opens.lookAhead.map _).orElse (closes.lookAhead.map _))).map _)

/-- The loop does nothing but read one node after the other. -/
theorem approximates_loop
    (nodes_approximate : (piece inner opening closing).Approximates
      (piece inner' opening' closing') cursor)
    (forward : (piece inner opening closing).Forward) (depth : Nat)
    (nodes : List (Node ο (List ι) κ)) (stalls : List Stall) :
    (loop inner opening closing ⟨cursor, depth, nodes, stalls⟩).Approximates
      (loop inner' opening' closing' ⟨cursor, depth, nodes, stalls⟩) := by
  induction depth, cursor using advance_induction generalizing nodes stalls with
  | step depth cursor ih =>
    rw [loop.eq_def, loop.eq_def inner' opening' closing' ⟨cursor, depth, nodes, stalls⟩]
    dsimp only
    by_cases closed : depth = 0
    · rw [if_pos closed, if_pos closed]
      exact .refl _
    rw [if_neg closed, if_neg closed, step_eq, step_eq]
    dsimp only
    rcases nodes_approximate.same_or_diverged with same | ⟨seen, never⟩
    · rw [same]
      rcases ran : (piece inner opening closing).run cursor with
        ⟨⟨node, after⟩ | ⟨reason⟩ | _, seen⟩
      · dsimp only
        split
        · next advances =>
          exact ih _ after (advances_iff.mp advances)
            (nodes_approximate.of_reaches (forward.reaches_of_run ran)) _ _
        · exact .refl _
      · exact .refl _
      · exact .refl _
    · rw [never]
      exact Attempt.approximates_of_diverged rfl

end Balanced

theorem Parser.Approximates.balanced {ο ι κ : Type} {inner inner' : Parser ε ι}
    {opening opening' : Parser ε ο} {closing closing' : Parser ε κ} {cursor : Cursor ε}
    (inside : inner.Approximates inner' cursor) (inner_forward : inner.Forward)
    (opens : opening.Approximates opening' cursor) (opening_forward : opening.Forward)
    (closes : closing.Approximates closing' cursor) (closing_forward : closing.Forward) :
    (inner.balanced opening closing).Approximates (inner'.balanced opening' closing') cursor := by
  intro place reaches
  refine (opens place reaches).bind fun marker after read => ?_
  have further := reaches.trans (opening_forward place marker after read)
  have nodes := Balanced.approximates_piece inside inner_forward opens closes
  exact Balanced.approximates_loop (nodes.of_reaches further)
    (Balanced.forward_piece inner_forward opening_forward closing_forward) 1 _ _

end DocCoverage
