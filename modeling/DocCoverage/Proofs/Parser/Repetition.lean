import DocCoverage.Proofs.Parser.Ending

/-!
# Repetitions, step by step

A repetition runs its parser again and again. `Repeats` is the sequence of its steps, each of which
gets on, so that the next one starts where less is left. The sequence is over at some place, and the
repetitions differ in what they make of that place: those that take a failure for the end stop
there, keeping the value of a step that has read nothing, and those that wait for an end fail there
unless the end can be read. `Unfolds` says the first of the loops that keep on while they can, and
`Seeks` of the one that waits.
-/

namespace DocCoverage.Parser

variable {ε α β : Type}

/-- From a cursor on, the parser succeeds again and again up to another one, each time where
`passing` holds and with less left behind than in front. The values are in the order of the
steps. -/
inductive Repeats (parser : Parser ε α) (passing : Cursor ε → Prop) :
    Cursor ε → List α → Cursor ε → Prop where
  | none (cursor : Cursor ε) : Repeats parser passing cursor [] cursor
  | step {cursor middle last : Cursor ε} {value : α} {values : List α} (passed : passing cursor)
      (read : parser.outcome cursor = .success value middle) (closer : middle.left < cursor.left)
      (later : Repeats parser passing middle values last) :
      Repeats parser passing cursor (value :: values) last

/-- The parser succeeds at the cursor and leaves less behind it. -/
def GetsOn (parser : Parser ε α) (cursor : Cursor ε) : Prop :=
  ∃ value after, parser.outcome cursor = .success value after ∧ after.left < cursor.left

/-- Every value of the parser, written out, is what the parser has read for it. -/
def Slices (parser : Parser ε α) (written : α → List ε) : Prop :=
  ∀ cursor value after, parser.outcome cursor = .success value after →
    written value = cursor.upTo after

theorem Reads.slices {parser : Parser ε α} {reading : Reading ε α} (reads : parser.Reads reading)
    {written : α → List ε} (whole : ∀ text value rest, reading text = some (value, rest) →
      written value ++ rest = text) : parser.Slices written := by
  intro cursor value after succeeded
  obtain ⟨reaches, read⟩ := reads.of_success succeeded
  exact List.append_cancel_right ((whole _ _ _ read).trans reaches.upTo_append_rest.symm)

theorem slices_satisfy (accepts : ε → Bool) : (satisfy accepts).Slices ([·]) :=
  (reads_satisfy accepts).slices fun _ _ _ read => (Reading.satisfy_eq_some_iff.mp read).1.symm

/-- Looking ahead reads nothing. -/
theorem slices_lookAhead (parser : Parser ε α) : parser.lookAhead.Slices fun _ => [] := by
  intro cursor value after seen
  obtain rfl := eq_of_lookAhead seen
  exact (Cursor.upTo_self _).symm

section Steps

variable {parser : Parser ε α} {passing : Cursor ε → Prop} {cursor last : Cursor ε}
  {values : List α}

/-- The sequence of steps is over somewhere. -/
theorem exists_repeats (parser : Parser ε α) (passing : Cursor ε → Prop) (cursor : Cursor ε) :
    ∃ values last, parser.Repeats passing cursor values last ∧
      ¬ (passing last ∧ parser.GetsOn last) := by
  induction cursor using Cursor.left_induction with
  | step cursor ih =>
    by_cases goes : passing cursor ∧ parser.GetsOn cursor
    · obtain ⟨passed, value, after, read, closer⟩ := goes
      obtain ⟨values, last, repeats, stuck⟩ := ih after closer
      exact ⟨value :: values, last, .step passed read closer repeats, stuck⟩
    · exact ⟨[], cursor, .none cursor, goes⟩

theorem Repeats.imp {passing' : Cursor ε → Prop}
    (repeats : parser.Repeats passing cursor values last)
    (weaker : ∀ cursor, passing cursor → passing' cursor) :
    parser.Repeats passing' cursor values last := by
  induction repeats with
  | none cursor => exact .none cursor
  | step passed read closer _ ih => exact .step (weaker _ passed) read closer ih

theorem Repeats.reaches (repeats : parser.Repeats passing cursor values last)
    (forward : parser.Forward) : cursor.Reaches last := by
  induction repeats with
  | none cursor => exact .refl cursor
  | step _ read _ _ ih => exact (forward _ _ _ read).trans ih

/-- Every step reads at least one element. -/
theorem Repeats.length_add_left_le (repeats : parser.Repeats passing cursor values last) :
    values.length + last.left ≤ cursor.left := by
  induction repeats with
  | none cursor => exact Nat.le_of_eq (Nat.zero_add _)
  | step _ _ closer _ ih =>
    rw [List.length_cons]
    omega

/-- Where each value tells what has been read for it, the values tell all that has been read. -/
theorem Repeats.flatMap_eq_upTo (repeats : parser.Repeats passing cursor values last)
    (forward : parser.Forward) {written : α → List ε} (slices : parser.Slices written) :
    values.flatMap written = cursor.upTo last := by
  induction repeats with
  | none cursor => exact cursor.upTo_self.symm
  | step _ read _ later ih =>
    rw [List.flatMap_cons, slices _ _ _ read, ih]
    exact (forward _ _ _ read).upTo_append (later.reaches forward)

theorem Repeats.outcome_many (repeats : parser.Repeats passing cursor values last) :
    parser.many.outcome cursor = (parser.many.outcome last).map (values ++ ·) := by
  induction repeats with
  | none cursor => exact (Outcome.map_id _).symm
  | step _ read closer _ ih =>
    rw [Parser.outcome_many, read]
    dsimp only
    rw [if_pos closer, ih, Outcome.map_map]
    rfl

/-- A repetition up to an end passes over places where the end cannot be read. -/
theorem Repeats.outcome_manyTill {stop : Parser ε β}
    (repeats : parser.Repeats stop.FailsAt cursor values last) :
    (parser.manyTill stop).outcome cursor =
      ((parser.manyTill stop).outcome last).map (values ++ ·) := by
  induction repeats with
  | none cursor => exact (Outcome.map_id _).symm
  | step passed read closer _ ih =>
    obtain ⟨reason, failed⟩ := passed
    rw [Parser.outcome_manyTill, failed, read]
    dsimp only
    rw [Outcome.bind_success, if_pos closer, ih, Outcome.map_map]
    rfl

end Steps

section Unfolding

variable {parser : Parser ε α}

/-- The repetitions of the parser at the cursor are what their recursive definitions say. A step
that reads nothing is the last one, and its value is kept. -/
structure Unfolds (parser : Parser ε α) (cursor : Cursor ε) : Prop where
  many : parser.many.outcome cursor = (parser.many1.orElse (Parser.pure [])).outcome cursor
  fails : ∀ reason, parser.many1.outcome cursor = .failure reason ↔
    parser.outcome cursor = .failure reason
  stays : ∀ value, parser.outcome cursor = .success value cursor →
    parser.many1.outcome cursor = .success [value] cursor
  moves : ∀ value after, parser.outcome cursor = .success value after → after ≠ cursor →
    parser.many1.outcome cursor = (parser.many.outcome after).map (value :: ·)
  skipMany : parser.skipMany.outcome cursor = (parser.many.outcome cursor).map fun _ => ()
  skipMany1 : parser.skipMany1.outcome cursor = (parser.many1.outcome cursor).map fun _ => ()
  ends : parser.Ending → ∃ values last, parser.many.outcome cursor = .success values last
  steps : ∀ values last, parser.many.outcome cursor = .success values last →
    ∃ moved, parser.Repeats (fun _ => True) cursor moved last ∧
      (values = moved ∧ parser.FailsAt last ∨
        ∃ value, values = moved ++ [value] ∧ parser.outcome last = .success value last)
  bounded : ∀ values last, parser.many.outcome cursor = .success values last →
    values.length ≤ cursor.left + 1

/-- A repetition that may be empty is one that may not, or else nothing. -/
theorem outcome_many_eq_orElse (parser : Parser ε α) (cursor : Cursor ε) :
    parser.many.outcome cursor = (parser.many1.orElse (Parser.pure [])).outcome cursor := by
  rw [outcome_orElse, outcome_many1, Parser.outcome_many]
  cases parser.outcome cursor with
  | success value after =>
    rw [Outcome.bind_success]
    dsimp only
    split
    · cases rest : parser.many.outcome after with
      | success values last => rfl
      | failure reason => exact absurd rest (many_ne_failure parser after reason)
      | diverged => rfl
    · rfl
  | failure reason => rfl
  | diverged => rfl

theorem outcome_many1_eq_failure_iff {cursor : Cursor ε} {reason : ParseFailure ε} :
    parser.many1.outcome cursor = .failure reason ↔ parser.outcome cursor = .failure reason := by
  rw [outcome_many1]
  cases parser.outcome cursor with
  | success value after =>
    rw [Outcome.bind_success]
    refine iff_of_false ?_ nofun
    split
    · rw [Outcome.map_eq_failure_iff]
      exact many_ne_failure parser after reason
    · exact nofun
  | failure other => rw [Outcome.bind_failure, Outcome.failure.injEq, Outcome.failure.injEq]
  | diverged => exact iff_of_false nofun nofun

/-- Without the values, the repetition goes the same way. -/
theorem outcome_skipMany_eq_map (parser : Parser ε α) (cursor : Cursor ε) :
    parser.skipMany.outcome cursor = (parser.many.outcome cursor).map fun _ => () := by
  induction cursor using Cursor.left_induction with
  | step cursor ih =>
    rw [outcome_skipMany, Parser.outcome_many]
    cases parser.outcome cursor with
    | success value after =>
      dsimp only
      split
      · next closer =>
        rw [ih after closer, Outcome.map_map, Function.comp_def]
      · rfl
    | failure reason => rfl
    | diverged => rfl

theorem outcome_skipMany1_eq_map (parser : Parser ε α) (cursor : Cursor ε) :
    parser.skipMany1.outcome cursor = (parser.many1.outcome cursor).map fun _ => () := by
  rw [outcome_skipMany1, outcome_many1]
  cases parser.outcome cursor with
  | success value after =>
    rw [Outcome.bind_success, Outcome.bind_success]
    split
    · rw [outcome_skipMany_eq_map, Outcome.map_map, Function.comp_def]
    · rfl
  | failure reason => rfl
  | diverged => rfl

/-- A repetition ends where its parser fails, or behind a step that has read nothing. -/
theorem exists_repeats_of_many (forward : parser.Forward) {cursor last : Cursor ε}
    {values : List α} (ended : parser.many.outcome cursor = .success values last) :
    ∃ moved, parser.Repeats (fun _ => True) cursor moved last ∧
      (values = moved ∧ parser.FailsAt last ∨
        ∃ value, values = moved ++ [value] ∧ parser.outcome last = .success value last) := by
  obtain ⟨moved, place, repeats, stuck⟩ := exists_repeats parser (fun _ => True) cursor
  rw [repeats.outcome_many, Parser.outcome_many] at ended
  cases read : parser.outcome place with
  | success value after =>
    have still : ¬ after.left < place.left :=
      fun closer => stuck ⟨trivial, value, after, read, closer⟩
    obtain rfl := (forward place value after read).eq_of_not_left_lt still
    rw [read] at ended
    dsimp only at ended
    rw [if_neg still] at ended
    obtain ⟨rfl, rfl⟩ := Outcome.success.inj ended
    exact ⟨moved, repeats, .inr ⟨value, rfl, read⟩⟩
  | failure reason =>
    rw [read] at ended
    obtain ⟨rfl, rfl⟩ := Outcome.success.inj ended
    exact ⟨moved, repeats, .inl ⟨List.append_nil moved, reason, read⟩⟩
  | diverged =>
    rw [read] at ended
    cases ended

/-- For every parser that stays in its input and does not move back, whether it reads something or
not, the repetitions are what their recursive definitions say. -/
theorem repetitions_unfold (forward : parser.Forward) (cursor : Cursor ε) :
    parser.Unfolds cursor where
  many := outcome_many_eq_orElse parser cursor
  fails _ := outcome_many1_eq_failure_iff
  stays value read := by
    rw [outcome_many1, read, Outcome.bind_success, if_neg (Nat.lt_irrefl _)]
  moves value after read moved := by
    have closer := (forward cursor value after read).left_lt_of_ne moved
    rw [outcome_many1, read, Outcome.bind_success, if_pos closer]
  skipMany := outcome_skipMany_eq_map parser cursor
  skipMany1 := outcome_skipMany1_eq_map parser cursor
  ends ending := by
    have ends : parser.many.EndsAt cursor := EndsAt.many (ending cursor) fun after _ => ending after
    cases ended : parser.many.outcome cursor with
    | success values last => exact ⟨values, last, rfl⟩
    | failure reason => exact absurd ended (many_ne_failure parser cursor reason)
    | diverged => exact absurd ended ends
  steps _ _ := exists_repeats_of_many forward
  bounded values last ended := by
    obtain ⟨moved, repeats, ⟨rfl, -⟩ | ⟨value, rfl, -⟩⟩ := exists_repeats_of_many forward ended
    · have bound := repeats.length_add_left_le
      omega
    · have bound := repeats.length_add_left_le
      rw [List.length_append, List.length_singleton]
      omega

/-- A parser that reads a letter or nothing: at the end of the input one more value is kept, so that
there is one value more than there are elements. -/
theorem repetitions_unfold_still :
    let parser : Parser Char Char := (element 'a').orElse (Parser.pure 'x')
    let cursor := Cursor.start "aa".toList.toArray
    parser.Forward ∧ ∃ last,
      parser.many.outcome cursor = .success ['a', 'a', 'x'] last ∧
      parser.skipMany.outcome cursor = .success () last ∧
      parser.many1.outcome cursor = (parser.many.outcome cursor.next).map ('a' :: ·) ∧
      parser.many1.outcome last = .success ['x'] last := by
  intro parser cursor
  have forward : parser.Forward := (forward_element 'a').orElse (forward_pure 'x')
  have unfolds := repetitions_unfold forward cursor
  have ended : parser.many.outcome cursor = .success ['a', 'a', 'x'] (cursor.advance 2) := by cbv
  refine ⟨forward, cursor.advance 2, ended, ?_, ?_, ?_⟩
  · rw [unfolds.skipMany, ended, Outcome.map_success]
  · exact unfolds.moves 'a' cursor.next rfl (by decide)
  · exact (repetitions_unfold forward (cursor.advance 2)).stays 'x' rfl

end Unfolding

section Seeking

variable {parser : Parser ε α} {stop : Parser ε β} {cursor : Cursor ε}

/-- How a repetition up to an end comes out. It steps over places where the end cannot be read, and
is over at the first place where the end can be read, where the parser fails, or where the parser
reads nothing. -/
inductive Seeks (parser : Parser ε α) (stop : Parser ε β) (cursor : Cursor ε) :
    Outcome ε (List α) → Prop where
  | found {values : List α} {last after : Cursor ε} {ending : β}
      (repeats : parser.Repeats stop.FailsAt cursor values last)
      (stopped : stop.outcome last = .success ending after) :
      Seeks parser stop cursor (.success values after)
  | failed {values : List α} {last : Cursor ε} {reason : ParseFailure ε}
      (repeats : parser.Repeats stop.FailsAt cursor values last) (unstopped : stop.FailsAt last)
      (failed : parser.outcome last = .failure reason) :
      Seeks parser stop cursor (.failure reason)
  | stalled {values : List α} {last after : Cursor ε} {value : α}
      (repeats : parser.Repeats stop.FailsAt cursor values last) (unstopped : stop.FailsAt last)
      (read : parser.outcome last = .success value after) (still : ¬ after.left < last.left) :
      Seeks parser stop cursor (.failure (last.failure .stalled))
  | stopDiverged {values : List α} {last : Cursor ε}
      (repeats : parser.Repeats stop.FailsAt cursor values last)
      (diverged : stop.outcome last = .diverged) : Seeks parser stop cursor .diverged
  | parserDiverged {values : List α} {last : Cursor ε}
      (repeats : parser.Repeats stop.FailsAt cursor values last) (unstopped : stop.FailsAt last)
      (diverged : parser.outcome last = .diverged) : Seeks parser stop cursor .diverged

theorem exists_seeks (parser : Parser ε α) (stop : Parser ε β) (cursor : Cursor ε) :
    ∃ ended, parser.Seeks stop cursor ended := by
  obtain ⟨values, last, repeats, stuck⟩ := exists_repeats parser stop.FailsAt cursor
  cases stopped : stop.outcome last with
  | success ending after => exact ⟨_, .found repeats stopped⟩
  | diverged => exact ⟨_, .stopDiverged repeats stopped⟩
  | failure reason =>
    have unstopped : stop.FailsAt last := ⟨reason, stopped⟩
    cases read : parser.outcome last with
    | success value after =>
      exact ⟨_, .stalled repeats unstopped read fun closer =>
        stuck ⟨unstopped, value, after, read, closer⟩⟩
    | failure reason => exact ⟨_, .failed repeats unstopped read⟩
    | diverged => exact ⟨_, .parserDiverged repeats unstopped read⟩

theorem Seeks.outcome_manyTill {ended : Outcome ε (List α)}
    (seeks : parser.Seeks stop cursor ended) :
    (parser.manyTill stop).outcome cursor = ended := by
  cases seeks with
  | found repeats stopped =>
    rw [repeats.outcome_manyTill, Parser.outcome_manyTill, stopped]
    exact congrArg (Outcome.success · _) (List.append_nil _)
  | failed repeats unstopped failed =>
    obtain ⟨reason, refused⟩ := unstopped
    rw [repeats.outcome_manyTill, Parser.outcome_manyTill, refused, failed]
    rfl
  | stalled repeats unstopped read still =>
    obtain ⟨reason, refused⟩ := unstopped
    rw [repeats.outcome_manyTill, Parser.outcome_manyTill, refused, read]
    dsimp only
    rw [Outcome.bind_success, if_neg still, Outcome.map_failure]
  | stopDiverged repeats diverged =>
    rw [repeats.outcome_manyTill, Parser.outcome_manyTill, diverged]
    rfl
  | parserDiverged repeats unstopped diverged =>
    obtain ⟨reason, refused⟩ := unstopped
    rw [repeats.outcome_manyTill, Parser.outcome_manyTill, refused, diverged]
    rfl

theorem outcome_manyTill_eq_iff {ended : Outcome ε (List α)} :
    (parser.manyTill stop).outcome cursor = ended ↔ parser.Seeks stop cursor ended := by
  constructor
  · rintro rfl
    obtain ⟨ended, seeks⟩ := exists_seeks parser stop cursor
    rwa [seeks.outcome_manyTill]
  · exact Seeks.outcome_manyTill

/-- Reading the end only after having seen it makes no difference. -/
theorem outcome_manyTill_eq_followedBy (parser : Parser ε α) (stop : Parser ε β)
    (cursor : Cursor ε) :
    (parser.manyTill stop).outcome cursor =
      ((parser.manyTill stop.lookAhead).followedBy stop).outcome cursor := by
  -- The steps are the same, because looking ahead fails where the end itself does. Only the last
  -- place is left to be compared.
  have ahead {values : List α} {last : Cursor ε}
      (repeats : parser.Repeats stop.FailsAt cursor values last) :
      parser.Repeats stop.lookAhead.FailsAt cursor values last :=
    repeats.imp fun _ => failsAt_lookAhead_iff.mpr
  rw [followedBy, outcome_bind]
  obtain ⟨ended, seeks⟩ := exists_seeks parser stop cursor
  rw [seeks.outcome_manyTill]
  cases seeks with
  | @found values last after ending repeats stopped =>
    have seen : stop.lookAhead.outcome last = .success ending last := by
      rw [outcome_lookAhead, stopped, Outcome.bind_success]
    rw [(Seeks.found (ahead repeats) seen).outcome_manyTill, Outcome.bind_success, outcome_map,
      stopped, Outcome.map_success]
  | failed repeats unstopped failed =>
    rw [(Seeks.failed (ahead repeats) (failsAt_lookAhead_iff.mpr unstopped)
      failed).outcome_manyTill, Outcome.bind_failure]
  | stalled repeats unstopped read still =>
    rw [(Seeks.stalled (ahead repeats) (failsAt_lookAhead_iff.mpr unstopped) read
      still).outcome_manyTill, Outcome.bind_failure]
  | @stopDiverged values last repeats diverged =>
    have unseen : stop.lookAhead.outcome last = .diverged := by
      rw [outcome_lookAhead, diverged, Outcome.bind_diverged]
    rw [(Seeks.stopDiverged (ahead repeats) unseen).outcome_manyTill, Outcome.bind_diverged]
  | parserDiverged repeats unstopped diverged =>
    rw [(Seeks.parserDiverged (ahead repeats) (failsAt_lookAhead_iff.mpr unstopped)
      diverged).outcome_manyTill, Outcome.bind_diverged]

/-- A repetition up to an end stops at the first place where the end can be read, and nowhere else
but where the parser fails or does not get on before. Within one input, getting on is standing
further on. -/
theorem manyTill_seeks [Element ε] (parser : Parser ε α) (stop : Parser ε β)
    (cursor : Cursor ε) :
    (∀ ended, (parser.manyTill stop).outcome cursor = ended ↔ parser.Seeks stop cursor ended) ∧
      (parser.Ending → stop.Ending → (parser.manyTill stop).outcome cursor ≠ .diverged) ∧
      (∀ last : Cursor ε,
        (last.failure .stalled).message = "many_till: parser made no progress") ∧
      (∀ last value after, parser.outcome last = .success value after →
        after.source = last.source →
        (after.left < last.left ↔ last.position < after.position)) ∧
      (parser.manyTill stop).outcome cursor =
        ((parser.manyTill stop.lookAhead).followedBy stop).outcome cursor := by
  refine ⟨fun ended => outcome_manyTill_eq_iff, fun ending stopEnding => ?_, fun _ => rfl,
    fun _ _ _ _ sameSource => Cursor.left_lt_iff sameSource,
    outcome_manyTill_eq_followedBy parser stop cursor⟩
  exact EndsAt.manyTill (ending cursor) (stopEnding cursor) (fun after _ => ending after)
    fun after _ => stopEnding after

/-- Letters are read up to a mark. Where something else stands in front of the mark, a parser that
makes do with nothing gets no further. -/
theorem manyTill_seeks_letters :
    let letter : Parser Char Char := (element 'a').orElse (Parser.pure 'x')
    let mark : Parser Char Char := element ';'
    let marked := Cursor.start "aa;b".toList.toArray
    let interrupted := Cursor.start "aab;".toList.toArray
    letter.Seeks mark marked (.success ['a', 'a'] (marked.advance 3)) ∧
      letter.Seeks mark interrupted (.failure ((interrupted.advance 2).failure .stalled)) := by
  intro letter mark marked interrupted
  have found : (letter.manyTill mark).outcome marked =
      .success ['a', 'a'] (marked.advance 3) := by cbv
  have stalled : (letter.manyTill mark).outcome interrupted =
      .failure ((interrupted.advance 2).failure .stalled) := by cbv
  exact ⟨((manyTill_seeks letter mark marked).1 _).mp found,
    ((manyTill_seeks letter mark interrupted).1 _).mp stalled⟩

end Seeking

end DocCoverage.Parser
