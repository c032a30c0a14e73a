import DocCoverage.Proofs.Parser.Nesting

/-!
# Turns of the loop of a balanced region

The loop of a balanced region has no guard of its own against turns that get nowhere. `Turns` runs
it as it is and counts the turns; a loop that never stops has no such count. Opening raises the
number of open regions but has to read something, and closing may read nothing but lowers it: every
turn makes twice what is left and the number of open regions together smaller, so that the loop
stops within as many turns.
-/

namespace DocCoverage.Balanced

variable {ε ο ι κ : Type}

/-- From some progress on, the loop is over after so many turns, and comes out like this. -/
inductive Turns (inner : Parser ε ι) (opening : Parser ε ο) (closing : Parser ε κ) :
    Progress ε ο ι κ → Nat → Attempt ε (List (Node ο (List ι) κ)) → Prop where
  | done {progress : Progress ε ο ι κ} (closed : progress.depth = 0) :
      Turns inner opening closing progress 0
        ⟨.success progress.nodes.reverse progress.cursor, progress.stalls.reverse⟩
  | over {progress : Progress ε ο ι κ} {attempt : Attempt ε (List (Node ο (List ι) κ))}
      (opened : progress.depth ≠ 0)
      (stepped : step inner opening closing progress = .over attempt) :
      Turns inner opening closing progress 1 attempt
  | more {progress next : Progress ε ο ι κ} {count : Nat}
      {attempt : Attempt ε (List (Node ο (List ι) κ))} (opened : progress.depth ≠ 0)
      (stepped : step inner opening closing progress = .more next)
      (later : Turns inner opening closing next count attempt) :
      Turns inner opening closing progress (count + 1) attempt

variable {inner : Parser ε ι} {opening : Parser ε ο} {closing : Parser ε κ}

/-- A turn that goes on has read a node and counted it. -/
theorem exists_takes_of_step {progress next : Progress ε ο ι κ}
    (stepped : step inner opening closing progress = .more next) :
    ∃ node, Takes inner opening closing progress.cursor node next.cursor ∧
      next.depth = node.depthAfter progress.depth := by
  rw [step_eq] at stepped
  split at stepped
  · next node after seen ran =>
    cases stepped
    exact ⟨node, takes_of_piece (congrArg Attempt.outcome ran), rfl⟩
  · cases stepped
  · cases stepped

/-- The loop is over before what is left and the number of open regions are used up, and its guard
makes no difference. -/
theorem turns_loop (inside : inner.Forward) (reads : opening.Consuming)
    (closes : closing.Forward) (progress : Progress ε ο ι κ) :
    ∃ count, count ≤ 2 * progress.cursor.left + progress.depth ∧
      Turns inner opening closing progress count (loop inner opening closing progress) := by
  fun_induction loop inner opening closing progress with
  | case1 progress closed => exact ⟨0, Nat.zero_le _, .done closed⟩
  | case2 progress opened attempt stepped => exact ⟨1, by omega, .over opened stepped⟩
  | case3 progress opened next stepped advances ih =>
    obtain ⟨node, takes, counted⟩ := exists_takes_of_step stepped
    have descends := descends_of_takes inside reads closes opened takes
    obtain ⟨count, bound, turns⟩ := ih
    exact ⟨count + 1, by omega, .more opened stepped turns⟩
  | case4 progress opened next stepped stuck =>
    -- The guard never stops the loop, since the node has made the bound smaller.
    obtain ⟨node, takes, counted⟩ := exists_takes_of_step stepped
    have descends := descends_of_takes inside reads closes opened takes
    refine absurd ?_ stuck
    unfold Progress.Advances
    omega

section Openings

variable {cursor last : Cursor ε}

/-- A node that opens a region has read something. -/
theorem Takes.position_add_le (innerForward : inner.Forward) (openingForward : opening.Forward)
    (closingForward : closing.Forward) (reads : opening.Consuming) {node : Node ο (List ι) κ}
    (takes : Takes inner opening closing cursor node last) :
    cursor.position + (if node.isOpened then 1 else 0) ≤ last.position := by
  have reaches := takes.reaches innerForward openingForward closingForward
  cases takes with
  | closed read => exact reaches.2
  | opened _ read => exact (Cursor.left_lt_iff reaches.1).mp (reads _ _ _ read)
  | inner _ _ read => exact reaches.2

theorem Closes.position_add_le (innerForward : inner.Forward) (openingForward : opening.Forward)
    (closingForward : closing.Forward) (reads : opening.Consuming) {depth : Nat}
    {nodes : List (Node ο (List ι) κ)}
    (closes : Closes inner opening closing depth cursor nodes last) :
    cursor.position + nodes.countP Node.isOpened ≤ last.position := by
  induction closes with
  | done => exact Nat.le_refl _
  | node takes _ ih =>
    have here := takes.position_add_le innerForward openingForward closingForward reads
    rw [List.countP_cons]
    omega

end Openings

/-- Where its parsers end and stay in the input without moving back, and every opening marker reads
something, a balanced region ends. Its loop stops within a number of turns that grows with what is
left, and there are at most as many opening markers as elements have been read. -/
theorem balanced_stops (innerForward : inner.Forward) (openingForward : opening.Forward)
    (closingForward : closing.Forward) (innerEnding : inner.Ending)
    (openingEnding : opening.Ending) (closingEnding : closing.Ending) (reads : opening.Consuming)
    (cursor : Cursor ε) :
    (inner.balanced opening closing).outcome cursor ≠ .diverged ∧
      (∀ marker middle, opening.outcome cursor = .success marker middle →
        ∃ count attempt,
          Turns inner opening closing ⟨middle, 1, [.opened marker], []⟩ count attempt ∧
          count ≤ 3 * middle.left + 1 ∧ middle.left < cursor.left ∧
          attempt.outcome = (inner.balanced opening closing).outcome cursor) ∧
      ∀ nodes last, (inner.balanced opening closing).outcome cursor = .success nodes last →
        cursor.position + nodes.countP Node.isOpened ≤ last.position := by
  refine ⟨?_, ?_, ?_⟩
  · exact Parser.EndsAt.balanced (openingEnding cursor) (fun after _ => innerEnding after)
      (fun after _ => openingEnding after) (fun after _ => closingEnding after) innerForward
      openingForward reads closingForward
  · intro marker middle started
    obtain ⟨count, bound, turns⟩ := turns_loop innerForward reads closingForward
      ⟨middle, 1, [.opened marker], []⟩
    refine ⟨count, _, turns, by dsimp only at bound; omega, reads _ _ _ started, ?_⟩
    rw [Parser.outcome_balanced, started, Outcome.bind_success, outcome_loop]
    rfl
  · intro nodes last read
    obtain ⟨marker, middle, later, rfl, started, closes⟩ := exists_closes read
    have moved := openingForward cursor marker middle started
    have first := (Cursor.left_lt_iff moved.1).mp (reads cursor marker middle started)
    have rest := closes.position_add_le innerForward openingForward closingForward reads
    rw [Node.countP_isOpened_opened]
    omega

/-- Two regions are opened by an element each, and both are closed by a marker that is not read. -/
theorem balanced_stops_unread :
    let letter : Parser Char Char := .any
    let bracket : Parser Char Char := .element '('
    let bound : Parser Char Char := (Parser.element ')').lookAhead
    let cursor := Cursor.start "((a)".toList.toArray
    let nodes : List (Node Char (List Char) Char) :=
      [.opened '(', .opened '(', .inner ['a'], .closed ')', .closed ')']
    (letter.Forward ∧ bracket.Forward ∧ bound.Forward) ∧
      (letter.Ending ∧ bracket.Ending ∧ bound.Ending) ∧ bracket.Consuming ∧
      (∃ count attempt,
        Turns letter bracket bound ⟨cursor.next, 1, [.opened '('], []⟩ count attempt ∧
        count ≤ 10 ∧ attempt.outcome = .success nodes (cursor.advance 3)) ∧
      cursor.position + nodes.countP Node.isOpened ≤ (cursor.advance 3).position := by
  intro letter bracket bound cursor nodes
  have forward : letter.Forward ∧ bracket.Forward ∧ bound.Forward :=
    ⟨Parser.forward_any, Parser.forward_element '(', Parser.forward_lookAhead _⟩
  have ending : letter.Ending ∧ bracket.Ending ∧ bound.Ending :=
    ⟨Parser.reads_any.ending, (Parser.reads_element '(').ending,
      fun cursor => Parser.EndsAt.lookAhead ((Parser.reads_element ')').ending cursor)⟩
  have reads : bracket.Consuming := Parser.consuming_satisfy _
  have read : (letter.balanced bracket bound).outcome cursor =
      .success nodes (cursor.advance 3) := by cbv
  obtain ⟨-, turns, openings⟩ := balanced_stops forward.1 forward.2.1 forward.2.2 ending.1
    ending.2.1 ending.2.2 reads cursor
  obtain ⟨count, attempt, ran, bounded, -, same⟩ := turns '(' cursor.next rfl
  exact ⟨forward, ending, reads, ⟨count, attempt, ran, bounded, same.trans read⟩,
    openings nodes (cursor.advance 3) read⟩

end DocCoverage.Balanced
