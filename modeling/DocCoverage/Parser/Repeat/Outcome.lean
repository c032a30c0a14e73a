import DocCoverage.Parser.Repeat

/-!
# Outcomes of repetitions

One equation for the outcome of each loop, by what the parser does first. What was collected
before a step stands in front of what comes later, and the outcome depends neither on the stalls
nor on the name of the repetition.
-/

namespace DocCoverage.Parser

variable {ε α β : Type}

theorem outcome_collect (repetition other : Repetition) (parser : Parser ε α) (cursor : Cursor ε)
    (values : List α) (stalls : List Stall) :
    (collect repetition parser cursor values stalls).outcome =
      (collect other parser cursor [] []).outcome.map (values.reverse ++ ·) := by
  suffices general : ∀ repetition other values stalls before,
      (collect repetition parser cursor values stalls).outcome =
        (collect other parser cursor [] before).outcome.map (values.reverse ++ ·) from general ..
  induction cursor using Cursor.left_induction with
  | step cursor ih =>
    intro repetition other values stalls before
    rw [collect.eq_def, collect.eq_def other]
    rcases parser.run cursor with ⟨value, after⟩ | ⟨reason⟩ | _
    · dsimp only
      by_cases closer : after.left < cursor.left
      · simp only [closer, if_true]
        rw [ih after closer repetition other (value :: values) _ [],
          ih after closer other other [value] _ [], Outcome.map_map]
        congr 1
        funext tail
        simp
      · simp [closer]
    · simp
    · simp

theorem outcome_many (parser : Parser ε α) (cursor : Cursor ε) :
    parser.many.outcome cursor = match parser.outcome cursor with
      | .success value after =>
        if after.left < cursor.left then (parser.many.outcome after).map (value :: ·)
        else .success [value] after
      | .failure _ => .success [] cursor
      | .diverged => .diverged := by
  unfold Parser.outcome many
  dsimp only
  rw [collect.eq_def]
  rcases parser.run cursor with ⟨value, after⟩ | ⟨reason⟩ | _
  · dsimp only
    split
    · exact outcome_collect ..
    · rfl
  · rfl
  · rfl

theorem outcome_many1 (parser : Parser ε α) (cursor : Cursor ε) :
    parser.many1.outcome cursor = (parser.outcome cursor).bind fun value after =>
      if after.left < cursor.left then (parser.many.outcome after).map (value :: ·)
      else .success [value] after := by
  unfold Parser.outcome many1
  rw [Attempt.outcome_bind]
  congr 1
  funext value after
  split
  · exact outcome_collect ..
  · rfl

theorem outcome_skip (parser : Parser ε α) (cursor : Cursor ε) (stalls : List Stall) :
    (skip parser cursor stalls).outcome = (skip parser cursor []).outcome := by
  suffices general : ∀ stalls before,
      (skip parser cursor stalls).outcome = (skip parser cursor before).outcome from general ..
  induction cursor using Cursor.left_induction with
  | step cursor ih =>
    intro stalls before
    rw [skip.eq_def, skip.eq_def parser cursor before]
    rcases parser.run cursor with ⟨value, after⟩ | ⟨reason⟩ | _
    · dsimp only
      split
      · next closer => exact ih after closer ..
      · rfl
    · rfl
    · rfl

theorem outcome_skipMany (parser : Parser ε α) (cursor : Cursor ε) :
    parser.skipMany.outcome cursor = match parser.outcome cursor with
      | .success _ after =>
        if after.left < cursor.left then parser.skipMany.outcome after else .success () after
      | .failure _ => .success () cursor
      | .diverged => .diverged := by
  unfold Parser.outcome skipMany
  dsimp only
  rw [skip.eq_def]
  rcases parser.run cursor with ⟨value, after⟩ | ⟨reason⟩ | _
  · dsimp only
    split
    · exact outcome_skip ..
    · rfl
  · rfl
  · rfl

theorem outcome_skipMany1 (parser : Parser ε α) (cursor : Cursor ε) :
    parser.skipMany1.outcome cursor = (parser.outcome cursor).bind fun _ after =>
      if after.left < cursor.left then parser.skipMany.outcome after else .success () after := by
  unfold Parser.outcome skipMany1
  rw [Attempt.outcome_bind]
  congr 1
  funext value after
  split <;> rfl

theorem outcome_collectTill (parser : Parser ε α) (stop : Parser ε β) (cursor : Cursor ε)
    (values : List α) (stalls : List Stall) :
    (collectTill parser stop cursor values stalls).outcome =
      (collectTill parser stop cursor [] []).outcome.map (values.reverse ++ ·) := by
  suffices general : ∀ values stalls before,
      (collectTill parser stop cursor values stalls).outcome =
        (collectTill parser stop cursor [] before).outcome.map (values.reverse ++ ·) from general ..
  induction cursor using Cursor.left_induction with
  | step cursor ih =>
    intro values stalls before
    rw [collectTill.eq_def, collectTill.eq_def parser stop cursor []]
    rcases stop.run cursor with ⟨ending, after⟩ | ⟨reason⟩ | _
    · simp
    · dsimp only
      rcases parser.run cursor with ⟨value, after⟩ | ⟨reason⟩ | _
      · dsimp only
        by_cases closer : after.left < cursor.left
        · simp only [closer, if_true]
          rw [ih after closer (value :: values) _ [],
            ih after closer [value] _ [], Outcome.map_map]
          congr 1
          funext tail
          simp
        · simp [closer]
      · simp
      · simp
    · simp

theorem outcome_manyTill (parser : Parser ε α) (stop : Parser ε β) (cursor : Cursor ε) :
    (parser.manyTill stop).outcome cursor = match stop.outcome cursor with
      | .success _ after => .success [] after
      | .diverged => .diverged
      | .failure _ => (parser.outcome cursor).bind fun value after =>
        if after.left < cursor.left then ((parser.manyTill stop).outcome after).map (value :: ·)
        else .failure (cursor.failure .stalled) := by
  unfold Parser.outcome manyTill
  dsimp only
  rw [collectTill.eq_def]
  rcases stop.run cursor with ⟨ending, after⟩ | ⟨reason⟩ | _
  · rfl
  · dsimp only
    rcases parser.run cursor with ⟨value, after⟩ | ⟨reason⟩ | _
    · dsimp only [Outcome.bind_success]
      split
      · exact outcome_collectTill ..
      · rfl
    · rfl
    · rfl
  · rfl

end DocCoverage.Parser
