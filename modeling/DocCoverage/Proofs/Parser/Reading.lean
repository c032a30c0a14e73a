import DocCoverage.Parser.Forward

/-!
# Readings

A reading says what a parser does in terms of the elements that are left to be read, without
cursors: the value and what is left behind it, or nothing where the parser fails. `Parser.Reads`
ties a parser to its reading, and there is one lemma for each way to build a parser. A parser that
has a reading always ends, stays in its input, and does the same wherever the same is left.
-/

namespace DocCoverage

variable {ε α β : Type}

namespace Cursor

theorem rest_advance (cursor : Cursor ε) (count : Nat) :
    (cursor.advance count).rest = cursor.rest.drop count := by
  induction count generalizing cursor with
  | zero => rfl
  | succ count ih => rw [advance, ih, rest_next, List.drop_tail, Nat.add_comm]

/-- What has been read and what is left make up the same input at both cursors. -/
theorem Reaches.position_add_length {cursor after : Cursor ε} (reaches : cursor.Reaches after) :
    after.position + after.rest.length = cursor.position + cursor.rest.length := by
  have bound := cursor.position_le
  have bound' := after.position_le
  have size := congrArg Array.size reaches.1
  simp only [length_rest, left]
  omega

theorem position_advance {cursor : Cursor ε} {count : Nat} (within : count ≤ cursor.left) :
    (cursor.advance count).position = cursor.position + count := by
  have whole := (cursor.reaches_advance count).position_add_length
  rw [rest_advance, List.length_drop, length_rest] at whole
  omega

/-- Two cursors of one input with the same left to be read are the same. -/
theorem eq_of_rest_eq {first second : Cursor ε} (sameSource : first.source = second.source)
    (sameRest : first.rest = second.rest) : first = second := by
  obtain ⟨source, position, bound⟩ := first
  obtain ⟨source', position', bound'⟩ := second
  dsimp only at sameSource
  subst sameSource
  have sameLeft := congrArg List.length sameRest
  rw [length_rest, length_rest] at sameLeft
  have samePosition : position = position' := by
    simp only [left] at sameLeft
    omega
  subst samePosition
  rfl

theorem advance_advance (cursor : Cursor ε) (count more : Nat) :
    (cursor.advance count).advance more = cursor.advance (count + more) := by
  refine eq_of_rest_eq ?_ ?_
  · simp only [source_advance]
  · simp only [rest_advance, List.drop_drop]

/-- What stands between a cursor and a later one, and what stands behind that. -/
theorem Reaches.upTo_append_rest {cursor after : Cursor ε} (reaches : cursor.Reaches after) :
    cursor.upTo after ++ after.rest = cursor.rest := by
  obtain ⟨sameSource, forwards⟩ := reaches
  rw [upTo, rest, rest, sameSource, Array.toList_extract, List.extract_eq_take_drop,
    ← Nat.sub_add_cancel forwards, Nat.add_sub_cancel, Nat.add_comm, ← List.drop_drop]
  exact List.take_append_drop _ _

theorem upTo_self (cursor : Cursor ε) : cursor.upTo cursor = [] := by
  simp [upTo]

theorem Reaches.upTo_append {cursor middle after : Cursor ε} (one : cursor.Reaches middle)
    (two : middle.Reaches after) : cursor.upTo middle ++ middle.upTo after = cursor.upTo after := by
  have whole : (cursor.upTo middle ++ middle.upTo after) ++ after.rest =
      cursor.upTo after ++ after.rest := by
    rw [List.append_assoc, two.upTo_append_rest, one.upTo_append_rest,
      (one.trans two).upTo_append_rest]
  exact List.append_cancel_right whole

theorem Reaches.length_upTo {cursor after : Cursor ε} (reaches : cursor.Reaches after) :
    (cursor.upTo after).length = after.position - cursor.position := by
  have within : after.position ≤ cursor.source.size := reaches.1 ▸ after.position_le
  rw [upTo, Array.length_toList, Array.size_extract, Nat.min_eq_left within]

theorem upTo_advance (cursor : Cursor ε) (count : Nat) :
    cursor.upTo (cursor.advance count) = cursor.rest.take count := by
  have split := (cursor.reaches_advance count).upTo_append_rest
  rw [rest_advance] at split
  exact List.append_cancel_right (split.trans (List.take_append_drop count cursor.rest).symm)

/-- Behind some elements there is less left to be read than in front of them. -/
theorem left_lt_of_append {cursor after : Cursor ε} {elements : List ε}
    (shape : elements ++ after.rest = cursor.rest) (nonempty : elements ≠ []) :
    after.left < cursor.left := by
  have positive := List.length_pos_iff.mpr nonempty
  rw [← length_rest, ← length_rest, ← shape, List.length_append]
  omega

end Cursor

/-- Between two places of an input there is always a stretch of it. -/
theorem Span.slice?_between {first last : Cursor ε} (reaches : first.Reaches last) :
    (between first last).slice? = some (first.upTo last) :=
  if_pos ⟨reaches.2, Nat.le_trans last.position_le (Nat.le_of_eq (congrArg Array.size reaches.1))⟩

/-- What a parser does, said on the elements left to be read. -/
abbrev Reading (ε α : Type) := List ε → Option (α × List ε)

/-- The parser does at every cursor what the reading says of the elements left there. -/
structure Parser.Reads (parser : Parser ε α) (reading : Reading ε α) : Prop where
  success {cursor : Cursor ε} {value : α} {rest : List ε}
    (read : reading cursor.rest = some (value, rest)) :
    ∃ after, parser.outcome cursor = .success value after ∧ cursor.Reaches after ∧
      after.rest = rest
  failure {cursor : Cursor ε} (refused : reading cursor.rest = none) :
    ∃ reason, parser.outcome cursor = .failure reason

namespace Reading

/-- One element that is accepted. -/
def satisfy (accepts : ε → Bool) : Reading ε ε
  | [] => none
  | head :: tail => if accepts head then some (head, tail) else none

/-- A fixed sequence. -/
def literal [DecidableEq ε] (expected : List ε) : Reading ε (List ε) := fun text =>
  if expected.isPrefixOf text then some (expected, text.drop expected.length) else none

/-- The elements in front of the nearest place where `stop` reads something, which is read too. -/
def upTo (stop : Reading ε β) : Reading ε (List ε)
  | [] => (stop []).map fun (_, rest) => ([], rest)
  | head :: tail =>
    match stop (head :: tail) with
    | some (_, rest) => some ([], rest)
    | none => (upTo stop tail).map fun (run, rest) => (head :: run, rest)

/-- What is read again and again, until nothing is read or a step reads no element, and what is
left behind. -/
def many (reading : Reading ε α) (text : List ε) : List α × List ε :=
  match reading text with
  | none => ([], text)
  | some (value, rest) =>
    if rest.length < text.length then
      let (values, last) := many reading rest
      (value :: values, last)
    else ([value], rest)
termination_by text.length

/-- What is read again and again up to the first place where `stop` reads something, which is read
too. A step that reads no element ends this in vain. -/
def manyTill (reading : Reading ε α) (stop : Reading ε β) (text : List ε) :
    Option (List α × List ε) :=
  match stop text with
  | some (_, rest) => some ([], rest)
  | none =>
    match reading text with
    | none => none
    | some (value, rest) =>
      if rest.length < text.length then
        (manyTill reading stop rest).map fun (values, last) => (value :: values, last)
      else none
termination_by text.length

theorem many_of_none {reading : Reading ε α} {text : List ε} (refused : reading text = none) :
    many reading text = ([], text) := by
  rw [many.eq_def, refused]

theorem many_of_some {reading : Reading ε α} {text rest : List ε} {value : α}
    (read : reading text = some (value, rest)) (closer : rest.length < text.length) :
    many reading text = (value :: (many reading rest).1, (many reading rest).2) := by
  rw [many.eq_def, read]
  simp [closer]

theorem many_of_stalled {reading : Reading ε α} {text rest : List ε} {value : α}
    (read : reading text = some (value, rest)) (stalled : ¬ rest.length < text.length) :
    many reading text = ([value], rest) := by
  rw [many.eq_def, read]
  simp [stalled]

theorem literal_append [DecidableEq ε] (expected rest : List ε) :
    literal expected (expected ++ rest) = some (expected, rest) := by
  simp [literal]

theorem literal_of_not_prefix [DecidableEq ε] {expected text : List ε}
    (absent : ¬ expected <+: text) : literal expected text = none := by
  simp [literal, absent]

theorem satisfy_eq_some_iff {accepts : ε → Bool} {text rest : List ε} {element : ε} :
    satisfy accepts text = some (element, rest) ↔
      text = element :: rest ∧ accepts element = true := by
  cases text with
  | nil => simp [satisfy]
  | cons head tail =>
    simp only [satisfy, Option.ite_none_right_eq_some, Option.some.injEq, Prod.mk.injEq,
      List.cons.injEq]
    constructor
    · rintro ⟨accepted, rfl, rfl⟩
      exact ⟨⟨rfl, rfl⟩, accepted⟩
    · rintro ⟨⟨rfl, rfl⟩, accepted⟩
      exact ⟨accepted, rfl, rfl⟩

theorem many_satisfy (accepts : ε → Bool) (text : List ε) :
    many (satisfy accepts) text = (text.takeWhile accepts, text.dropWhile accepts) := by
  induction text with
  | nil => exact many_of_none rfl
  | cons head tail ih =>
    by_cases accepted : accepts head = true
    · have read : satisfy accepts (head :: tail) = some (head, tail) := by simp [satisfy, accepted]
      rw [many_of_some read (Nat.lt_succ_self _), ih, List.takeWhile_cons_of_pos accepted,
        List.dropWhile_cons_of_pos accepted]
    · have refused : satisfy accepts (head :: tail) = none := by simp [satisfy, accepted]
      rw [many_of_none refused, List.takeWhile_cons_of_neg accepted,
        List.dropWhile_cons_of_neg accepted]

section ManyTill

variable {reading : Reading ε α} {stop : Reading ε β} {text rest : List ε} {value : α}

theorem manyTill_of_end {found : β × List ε} (ended : stop text = some found) :
    manyTill reading stop text = some ([], found.2) := by
  rw [manyTill.eq_def, ended]

theorem manyTill_of_none (unended : stop text = none) (refused : reading text = none) :
    manyTill reading stop text = none := by
  rw [manyTill.eq_def, unended]
  dsimp only
  rw [refused]

theorem manyTill_of_some (unended : stop text = none) (read : reading text = some (value, rest))
    (closer : rest.length < text.length) :
    manyTill reading stop text =
      (manyTill reading stop rest).map fun (values, last) => (value :: values, last) := by
  rw [manyTill.eq_def, unended]
  dsimp only
  rw [read]
  simp [closer]

theorem manyTill_of_stalled (unended : stop text = none)
    (read : reading text = some (value, rest)) (stalled : ¬ rest.length < text.length) :
    manyTill reading stop text = none := by
  rw [manyTill.eq_def, unended]
  dsimp only
  rw [read]
  simp [stalled]

theorem manyTill_any (stop : Reading ε β) (text : List ε) :
    manyTill (satisfy fun _ => true) stop text = upTo stop text := by
  induction text with
  | nil =>
    cases ended : stop [] with
    | some found => rw [manyTill_of_end ended, upTo, ended, Option.map_some]
    | none => rw [manyTill_of_none ended rfl, upTo, ended, Option.map_none]
  | cons head tail ih =>
    cases ended : stop (head :: tail) with
    | some found => rw [manyTill_of_end ended, upTo, ended]
    | none => rw [manyTill_of_some ended rfl (Nat.lt_succ_self _), upTo, ended, ih]

end ManyTill

/-- The run in front of the nearest place is the shortest one with such a place behind it. -/
theorem upTo_eq_some_iff {stop : Reading ε β} {text run rest : List ε} :
    upTo stop text = some (run, rest) ↔
      (∀ count < run.length, stop (text.drop count) = none) ∧
        ∃ found, text = run ++ found ∧ ∃ value, stop found = some (value, rest) := by
  induction text generalizing run with
  | nil =>
    constructor
    · intro read
      simp only [upTo, Option.map_eq_some_iff, Prod.mk.injEq] at read
      obtain ⟨⟨value, behind⟩, stopped, rfl, rfl⟩ := read
      exact ⟨fun _ below => absurd below (Nat.not_lt_zero _), [], rfl, value, stopped⟩
    · rintro ⟨-, found, shape, value, stopped⟩
      obtain ⟨rfl, rfl⟩ := List.nil_eq_append_iff.mp shape
      simp [upTo, stopped]
  | cons head tail ih =>
    cases here : stop (head :: tail) with
    | some found =>
      obtain ⟨value, behind⟩ := found
      constructor
      · intro read
        simp only [upTo, here, Option.some.injEq, Prod.mk.injEq] at read
        obtain ⟨rfl, rfl⟩ := read
        exact ⟨fun _ below => absurd below (Nat.not_lt_zero _), _, rfl, value, here⟩
      · rintro ⟨before, found, shape, value', stopped⟩
        cases run with
        | nil =>
          obtain rfl : head :: tail = found := shape
          obtain ⟨rfl, rfl⟩ := Prod.mk.inj (Option.some.inj (here.symm.trans stopped))
          simp [upTo, here]
        | cons first run =>
          have refused := before 0 (Nat.zero_lt_succ _)
          rw [List.drop_zero, here] at refused
          cases refused
    | none =>
      simp only [upTo, here, Option.map_eq_some_iff, Prod.mk.injEq]
      constructor
      · rintro ⟨⟨run', behind⟩, read, rfl, rfl⟩
        obtain ⟨before, found, rfl, stopped⟩ := ih.mp read
        refine ⟨fun count below => ?_, found, rfl, stopped⟩
        cases count with
        | zero => exact here
        | succ count => exact before count (Nat.lt_of_succ_lt_succ below)
      · rintro ⟨before, found, shape, value, stopped⟩
        cases run with
        | nil =>
          obtain rfl : head :: tail = found := shape
          rw [here] at stopped
          cases stopped
        | cons first run =>
          obtain ⟨rfl, rfl⟩ := List.cons.inj shape
          refine ⟨(run, rest), ih.mpr ⟨fun count below => ?_, found, rfl, value, stopped⟩, rfl, rfl⟩
          exact before (count + 1) (Nat.succ_lt_succ below)

/-- There is no run exactly if there is no place. -/
theorem upTo_eq_none_iff {stop : Reading ε β} {text : List ε} :
    upTo stop text = none ↔ ∀ count, stop (text.drop count) = none := by
  induction text with
  | nil => simp [upTo]
  | cons head tail ih =>
    constructor
    · intro refused
      cases here : stop (head :: tail) with
      | some found => simp [upTo, here] at refused
      | none =>
        simp only [upTo, here, Option.map_eq_none_iff] at refused
        intro count
        cases count with
        | zero => exact here
        | succ count => exact ih.mp refused count
    · intro nowhere
      have here : stop (head :: tail) = none := nowhere 0
      simp only [upTo, here, Option.map_eq_none_iff]
      exact ih.mpr fun count => nowhere (count + 1)

theorem upTo_satisfy (accepts : ε → Bool) (text : List ε) :
    upTo (satisfy accepts) text = match text.dropWhile (!accepts ·) with
      | _ :: rest => some (text.takeWhile (!accepts ·), rest)
      | [] => none := by
  induction text with
  | nil => rfl
  | cons head tail ih =>
    cases accepted : accepts head with
    | true => simp [upTo, satisfy, accepted]
    | false =>
      simp only [upTo, satisfy, accepted, Bool.not_false, List.dropWhile_cons_of_pos,
        List.takeWhile_cons_of_pos, ih]
      cases tail.dropWhile (!accepts ·) <;> rfl

/-- The elements in front of the first one that is accepted. -/
theorem upTo_satisfy_eq_some_iff {accepts : ε → Bool} {text run rest : List ε} :
    upTo (satisfy accepts) text = some (run, rest) ↔
      ∃ found, text = run ++ found :: rest ∧ (∀ element ∈ run, accepts element = false) ∧
        accepts found = true := by
  induction text generalizing run with
  | nil => simp [upTo, satisfy]
  | cons head tail ih =>
    cases accepted : accepts head with
    | true =>
      simp only [upTo, satisfy, accepted, if_true, Option.some.injEq, Prod.mk.injEq]
      constructor
      · rintro ⟨rfl, rfl⟩
        exact ⟨head, rfl, nofun, accepted⟩
      · rintro ⟨found, shape, refused, -⟩
        cases run with
        | nil => exact ⟨rfl, (List.cons.inj shape).2⟩
        | cons first run =>
          have refusedHead := refused first (List.mem_cons_self ..)
          rw [← (List.cons.inj shape).1, accepted] at refusedHead
          cases refusedHead
    | false =>
      simp only [upTo, satisfy, accepted, Bool.false_eq_true, if_false, Option.map_eq_some_iff,
        Prod.mk.injEq]
      constructor
      · rintro ⟨⟨run', last⟩, read, rfl, rfl⟩
        obtain ⟨found, rfl, refused, stops⟩ := ih.mp read
        exact ⟨found, rfl, List.forall_mem_cons.mpr ⟨accepted, refused⟩, stops⟩
      · rintro ⟨found, shape, refused, stops⟩
        cases run with
        | nil =>
          obtain ⟨rfl, rfl⟩ := List.cons.inj shape
          rw [accepted] at stops
          cases stops
        | cons first run =>
          obtain ⟨rfl, rfl⟩ := List.cons.inj shape
          have later := (List.forall_mem_cons.mp refused).2
          exact ⟨(run, rest), ih.mpr ⟨found, rfl, later, stops⟩, rfl, rfl⟩

end Reading

namespace Parser

variable {parser : Parser ε α} {reading : Reading ε α} {cursor after : Cursor ε}

/-- What is known of the reading where the parser has succeeded. -/
theorem Reads.of_success (reads : parser.Reads reading) {value : α}
    (succeeded : parser.outcome cursor = .success value after) :
    cursor.Reaches after ∧ reading cursor.rest = some (value, after.rest) := by
  cases read : reading cursor.rest with
  | none =>
    obtain ⟨reason, failed⟩ := reads.failure read
    cases succeeded.symm.trans failed
  | some found =>
    obtain ⟨value', rest⟩ := found
    obtain ⟨after', succeeded', reaches, rfl⟩ := reads.success read
    cases succeeded.symm.trans succeeded'
    exact ⟨reaches, rfl⟩

/-- A parser with a reading stays in its input. -/
theorem Reads.forward (reads : parser.Reads reading) : parser.Forward :=
  fun _ _ _ succeeded => (reads.of_success succeeded).1

/-- A success is known from what is read and from what is left. -/
theorem Reads.outcome_eq_success_iff (reads : parser.Reads reading) {value : α} :
    parser.outcome cursor = .success value after ↔
      cursor.Reaches after ∧ reading cursor.rest = some (value, after.rest) := by
  constructor
  · exact reads.of_success
  · rintro ⟨reaches, read⟩
    obtain ⟨after', succeeded, reaches', same⟩ := reads.success read
    obtain rfl := Cursor.eq_of_rest_eq (reaches'.1.trans reaches.1.symm) same
    exact succeeded

theorem Reads.exists_success_iff (reads : parser.Reads reading) :
    (∃ value after, parser.outcome cursor = .success value after) ↔ reading cursor.rest ≠ none := by
  constructor
  · rintro ⟨value, after, succeeded⟩
    rw [(reads.of_success succeeded).2]
    exact Option.some_ne_none _
  · intro read
    obtain ⟨⟨value, rest⟩, here⟩ := Option.ne_none_iff_exists'.mp read
    obtain ⟨after, succeeded, -⟩ := reads.success here
    exact ⟨value, after, succeeded⟩

theorem Reads.congr (reads : parser.Reads reading) {other : Reading ε α}
    (same : ∀ text, reading text = other text) : parser.Reads other :=
  funext same ▸ reads

section Combinators

theorem map_map {γ : Type} (second : β → γ) (first : α → β) (parser : Parser ε α) :
    (parser.map first).map second = parser.map (second ∘ first) := by
  ext cursor
  unfold Parser.map
  dsimp only
  rcases parser.run cursor with ⟨value, after⟩ | _ | _
  · simp [Attempt.bind, Attempt.success, Attempt.after]
  · rfl
  · rfl

variable {first : Reading ε α} {second : Reading ε β}

theorem Reads.bind {next : α → Parser ε β} {second : α → Reading ε β}
    (one : parser.Reads first) (two : ∀ value, (next value).Reads (second value)) :
    (parser.bind next).Reads fun text =>
      (first text).bind fun (value, rest) => second value rest where
  success := by
    intro cursor value rest read
    obtain ⟨⟨left, middle⟩, readFirst, readSecond⟩ := Option.bind_eq_some_iff.mp read
    obtain ⟨between, ranFirst, reaches, rfl⟩ := one.success readFirst
    obtain ⟨after, ranSecond, further, behind⟩ := (two left).success readSecond
    refine ⟨after, ?_, reaches.trans further, behind⟩
    rw [outcome_bind, ranFirst, Outcome.bind_success, ranSecond]
  failure := by
    intro cursor refused
    cases readFirst : first cursor.rest with
    | none =>
      obtain ⟨reason, failed⟩ := one.failure readFirst
      exact ⟨reason, by rw [outcome_bind, failed, Outcome.bind_failure]⟩
    | some found =>
      obtain ⟨between, ranFirst, -, behind⟩ := one.success readFirst
      have refusedSecond : second found.1 between.rest = none := by
        rw [behind]
        simpa only [readFirst, Option.bind_some] using refused
      obtain ⟨reason, failed⟩ := (two found.1).failure refusedSecond
      exact ⟨reason, by rw [outcome_bind, ranFirst, Outcome.bind_success, failed]⟩

theorem Reads.map (reads : parser.Reads reading) (transform : α → β) :
    (parser.map transform).Reads fun text =>
      (reading text).map fun (value, rest) => (transform value, rest) where
  success := by
    intro cursor value rest read
    obtain ⟨⟨found, behind⟩, readFound, same⟩ := Option.map_eq_some_iff.mp read
    cases same
    obtain ⟨after, succeeded, reaches, shape⟩ := reads.success readFound
    exact ⟨after, by rw [outcome_map, succeeded, Outcome.map_success], reaches, shape⟩
  failure := by
    intro cursor refused
    obtain ⟨reason, failed⟩ := reads.failure (Option.map_eq_none_iff.mp refused)
    exact ⟨reason, by rw [outcome_map, failed, Outcome.map_failure]⟩

theorem Reads.both {other : Parser ε β} (one : parser.Reads first) (two : other.Reads second) :
    (parser.both other).Reads fun text => (first text).bind fun (left, rest) =>
      (second rest).map fun (right, behind) => ((left, right), behind) :=
  one.bind fun _ => two.map _

theorem Reads.andThen {other : Parser ε β} (one : parser.Reads first) (two : other.Reads second) :
    (parser.andThen other).Reads fun text => (first text).bind fun (_, rest) => second rest :=
  one.bind fun _ => two

theorem Reads.orElse {other : Parser ε α} {second : Reading ε α} (one : parser.Reads first)
    (two : other.Reads second) :
    (parser.orElse other).Reads fun text => (first text).or (second text) where
  success := by
    intro cursor value rest read
    cases readFirst : first cursor.rest with
    | none =>
      obtain ⟨reason, failed⟩ := one.failure readFirst
      simp only [readFirst, Option.none_or] at read
      obtain ⟨after, succeeded, reaches, behind⟩ := two.success read
      exact ⟨after, by rw [outcome_orElse, failed, Outcome.orElse_failure, succeeded], reaches,
        behind⟩
    | some found =>
      simp only [readFirst, Option.some_or, Option.some.injEq] at read
      subst read
      obtain ⟨after, succeeded, reaches, behind⟩ := one.success readFirst
      exact ⟨after, by rw [outcome_orElse, succeeded, Outcome.orElse_success], reaches, behind⟩
  failure := by
    intro cursor refused
    obtain ⟨refusedFirst, refusedSecond⟩ := Option.or_eq_none_iff.mp refused
    obtain ⟨reason, failed⟩ := one.failure refusedFirst
    obtain ⟨reason', failed'⟩ := two.failure refusedSecond
    exact ⟨reason', by rw [outcome_orElse, failed, Outcome.orElse_failure, failed']⟩

theorem Reads.lookAhead (reads : parser.Reads reading) :
    parser.lookAhead.Reads fun text => (reading text).map fun (value, _) => (value, text) where
  success := by
    intro cursor value rest read
    obtain ⟨⟨found, behind⟩, readFound, same⟩ := Option.map_eq_some_iff.mp read
    cases same
    obtain ⟨after, succeeded, -⟩ := reads.success readFound
    exact ⟨cursor, by rw [outcome_lookAhead, succeeded, Outcome.bind_success], .refl cursor, rfl⟩
  failure := by
    intro cursor refused
    obtain ⟨reason, failed⟩ := reads.failure (Option.map_eq_none_iff.mp refused)
    exact ⟨reason, by rw [outcome_lookAhead, failed, Outcome.bind_failure]⟩

end Combinators

section Elements

theorem reads_satisfy (accepts : ε → Bool) :
    (satisfy accepts).Reads (Reading.satisfy accepts) where
  success := by
    intro cursor value rest read
    cases seen : cursor.peek? with
    | none =>
      rw [Cursor.peek?_eq_head?, List.head?_eq_none_iff] at seen
      rw [seen] at read
      cases read
    | some element =>
      rw [Cursor.rest_of_peek? seen] at read
      simp only [Reading.satisfy, Option.ite_none_right_eq_some, Option.some.injEq,
        Prod.mk.injEq] at read
      obtain ⟨accepted, rfl, rfl⟩ := read
      refine ⟨cursor.next, ?_, cursor.reaches_next, rfl⟩
      simp [Parser.outcome, satisfy, seen, accepted, Attempt.success]
  failure := by
    intro cursor refused
    refine ⟨cursor.failure .unsatisfied, ?_⟩
    cases seen : cursor.peek? with
    | none => simp [Parser.outcome, satisfy, seen, Attempt.failure]
    | some element =>
      rw [Cursor.rest_of_peek? seen] at refused
      simp only [Reading.satisfy, ite_eq_right_iff, reduceCtorEq, imp_false,
        Bool.not_eq_true] at refused
      simp [Parser.outcome, satisfy, seen, refused, Attempt.failure]

theorem reads_any : (any : Parser ε ε).Reads (Reading.satisfy fun _ => true) := reads_satisfy _

/-- The slice of one element is that element. -/
theorem slice_any :
    (any.withSpan.map fun (_, span) => span.slice?.getD []) =
      (any.map fun element => [element] : Parser ε (List ε)) := by
  ext cursor
  unfold any satisfy withSpan Parser.map
  dsimp only
  cases seen : cursor.peek? with
  | none => rfl
  | some element =>
    have slice : (Span.between cursor cursor.next).slice? = some [element] := by
      have first : cursor.upTo cursor.next = cursor.rest.take 1 := cursor.upTo_advance 1
      rw [Span.slice?_between cursor.reaches_next, first, Cursor.rest_of_peek? seen]
      rfl
    simp only [if_true, Attempt.bind, Attempt.success, Attempt.after, slice, Option.getD_some,
      List.append_nil]

variable [DecidableEq ε]

theorem reads_element (expected : ε) :
    (element expected).Reads (Reading.satisfy fun found => found == expected) := reads_satisfy _

/-- A sequence that stands at the cursor is followed to its end. -/
theorem follow_of_isPrefix {sequence expected : List ε} (stands : expected <+: cursor.rest) :
    follow sequence expected cursor = .ok (cursor.advance expected.length) := by
  induction expected generalizing cursor with
  | nil => rfl
  | cons head tail ih =>
    obtain ⟨behind, shape⟩ := stands
    have seen : cursor.peek? = some head := by
      rw [Cursor.peek?_eq_head?, ← shape]
      rfl
    have further : tail <+: cursor.next.rest := by
      rw [Cursor.rest_next, ← shape]
      exact ⟨behind, rfl⟩
    unfold follow
    simp only [seen, if_true]
    exact ih further

theorem outcome_literal_of_isPrefix {expected : List ε} (stands : expected <+: cursor.rest) :
    (literal expected).outcome cursor = .success expected (cursor.advance expected.length) := by
  have sliced : cursor.upTo (cursor.advance expected.length) = expected := by
    rw [Cursor.upTo_advance, ← List.prefix_iff_eq_take.mp stands]
  simp [Parser.outcome, literal, follow_of_isPrefix stands, sliced, Attempt.success]

theorem reads_literal (expected : List ε) :
    (literal expected).Reads (Reading.literal expected) where
  success := by
    intro cursor value rest read
    simp only [Reading.literal, Option.ite_none_right_eq_some, Option.some.injEq, Prod.mk.injEq,
      List.isPrefixOf_iff_prefix] at read
    obtain ⟨stands, rfl, rfl⟩ := read
    exact ⟨_, outcome_literal_of_isPrefix stands, cursor.reaches_advance _, cursor.rest_advance _⟩
  failure := by
    intro cursor refused
    simp only [Reading.literal, ite_eq_right_iff, reduceCtorEq, imp_false,
      List.isPrefixOf_iff_prefix] at refused
    cases followed : follow expected expected cursor with
    | ok after => exact absurd (eq_advance_of_follow followed).2 refused
    | error reason =>
      exact ⟨reason, by simp [Parser.outcome, literal, followed, Attempt.failure]⟩

end Elements

section Consuming

/-- What leaves fewer elements has read something. -/
theorem Reads.consuming (reads : parser.Reads reading)
    (shorter : ∀ {text value rest}, reading text = some (value, rest) →
      rest.length < text.length) : parser.Consuming := by
  intro cursor value after succeeded
  have fewer := shorter (reads.of_success succeeded).2
  rwa [Cursor.length_rest, Cursor.length_rest] at fewer

/-- One element that is accepted is read, and not only looked at. -/
theorem consuming_satisfy (accepts : ε → Bool) : (satisfy accepts).Consuming := by
  refine (reads_satisfy accepts).consuming fun {text element rest} read => ?_
  rw [(Reading.satisfy_eq_some_iff.mp read).1]
  exact Nat.lt_succ_self _

theorem consuming_literal [DecidableEq ε] {expected : List ε} (nonempty : expected ≠ []) :
    (literal expected).Consuming := by
  refine (reads_literal expected).consuming fun {text run rest} read => ?_
  simp only [Reading.literal, Option.ite_none_right_eq_some, Option.some.injEq, Prod.mk.injEq,
    List.isPrefixOf_iff_prefix] at read
  obtain ⟨stands, -, rfl⟩ := read
  have positive := List.length_pos_iff.mpr nonempty
  have bound := stands.length_le
  rw [List.length_drop]
  omega

theorem Consuming.map {parser : Parser ε α} (consuming : parser.Consuming) (transform : α → β) :
    (parser.map transform).Consuming := by
  intro cursor value after succeeded
  rw [outcome_map] at succeeded
  obtain ⟨found, read, -⟩ := Outcome.map_eq_success_iff.mp succeeded
  exact consuming cursor found after read

end Consuming

section Loops

theorem Reads.many (reads : parser.Reads reading) :
    parser.many.Reads fun text => some (reading.many text) where
  success := by
    intro cursor values rest read
    obtain same := Option.some.inj read
    induction cursor using Cursor.left_induction generalizing values rest with
    | step cursor ih =>
      rw [outcome_many]
      cases readFirst : reading cursor.rest with
      | none =>
        obtain ⟨reason, failed⟩ := reads.failure readFirst
        rw [Reading.many_of_none readFirst] at same
        cases same
        exact ⟨cursor, by rw [failed], .refl cursor, rfl⟩
      | some found =>
        obtain ⟨value, behind⟩ := found
        obtain ⟨middle, succeeded, reaches, rfl⟩ := reads.success readFirst
        by_cases closer : middle.left < cursor.left
        · rw [Reading.many_of_some readFirst (by rwa [Cursor.length_rest, Cursor.length_rest])]
            at same
          cases same
          obtain ⟨after, ran, further, shape⟩ :=
            ih middle closer rfl rfl
          refine ⟨after, ?_, reaches.trans further, shape⟩
          rw [succeeded]
          simp only [closer, if_true, ran, Outcome.map_success]
        · rw [Reading.many_of_stalled readFirst (by rwa [Cursor.length_rest, Cursor.length_rest])]
            at same
          cases same
          exact ⟨middle, by rw [succeeded]; simp only [closer, if_false], reaches, rfl⟩
  failure refused := nomatch refused

theorem Reads.skipMany (reads : parser.Reads reading) :
    parser.skipMany.Reads fun text => some ((), (reading.many text).2) where
  success := by
    intro cursor value rest read
    obtain ⟨-, rfl⟩ := Prod.mk.inj (Option.some.inj read)
    clear read
    induction cursor using Cursor.left_induction with
    | step cursor ih =>
      rw [outcome_skipMany]
      cases readFirst : reading cursor.rest with
      | none =>
        obtain ⟨reason, failed⟩ := reads.failure readFirst
        rw [Reading.many_of_none readFirst]
        exact ⟨cursor, by rw [failed], .refl cursor, rfl⟩
      | some found =>
        obtain ⟨value, behind⟩ := found
        obtain ⟨middle, succeeded, reaches, rfl⟩ := reads.success readFirst
        by_cases closer : middle.left < cursor.left
        · rw [Reading.many_of_some readFirst (by rwa [Cursor.length_rest, Cursor.length_rest])]
          obtain ⟨after, ran, further, shape⟩ := ih middle closer
          refine ⟨after, ?_, reaches.trans further, shape⟩
          rw [succeeded]
          simp only [closer, if_true, ran]
        · rw [Reading.many_of_stalled readFirst (by rwa [Cursor.length_rest, Cursor.length_rest])]
          exact ⟨middle, by rw [succeeded]; simp only [closer, if_false], reaches, rfl⟩
  failure refused := nomatch refused

theorem Reads.manyTill {stop : Parser ε β} {end? : Reading ε β} (reads : parser.Reads reading)
    (stops : stop.Reads end?) : (parser.manyTill stop).Reads (reading.manyTill end?) where
  success := by
    intro cursor values rest read
    induction cursor using Cursor.left_induction generalizing values with
    | step cursor ih =>
      rw [outcome_manyTill]
      cases readEnd : end? cursor.rest with
      | some found =>
        obtain ⟨after, stopped, reaches, behind⟩ := stops.success readEnd
        rw [Reading.manyTill_of_end readEnd] at read
        cases read
        exact ⟨after, by rw [stopped], reaches, behind⟩
      | none =>
        obtain ⟨reason, unended⟩ := stops.failure readEnd
        cases readFirst : reading cursor.rest with
        | none =>
          rw [Reading.manyTill_of_none readEnd readFirst] at read
          cases read
        | some found =>
          obtain ⟨value, behind⟩ := found
          obtain ⟨middle, succeeded, reaches, rfl⟩ := reads.success readFirst
          by_cases closer : middle.left < cursor.left
          · rw [Reading.manyTill_of_some readEnd readFirst
              (by rwa [Cursor.length_rest, Cursor.length_rest])] at read
            obtain ⟨⟨values', last⟩, readRest, same⟩ := Option.map_eq_some_iff.mp read
            cases same
            obtain ⟨after, ran, further, shape⟩ := ih middle closer readRest
            refine ⟨after, ?_, reaches.trans further, shape⟩
            rw [unended, succeeded]
            simp only [Outcome.bind_success, closer, if_true, ran, Outcome.map_success]
          · rw [Reading.manyTill_of_stalled readEnd readFirst
              (by rwa [Cursor.length_rest, Cursor.length_rest])] at read
            cases read
  failure := by
    intro cursor refused
    induction cursor using Cursor.left_induction with
    | step cursor ih =>
      rw [outcome_manyTill]
      cases readEnd : end? cursor.rest with
      | some found =>
        rw [Reading.manyTill_of_end readEnd] at refused
        cases refused
      | none =>
        obtain ⟨reason, unended⟩ := stops.failure readEnd
        rw [unended]
        cases readFirst : reading cursor.rest with
        | none =>
          obtain ⟨reason', failed⟩ := reads.failure readFirst
          exact ⟨reason', by rw [failed, Outcome.bind_failure]⟩
        | some found =>
          obtain ⟨value, behind⟩ := found
          obtain ⟨middle, succeeded, -, rfl⟩ := reads.success readFirst
          simp only [succeeded, Outcome.bind_success]
          by_cases closer : middle.left < cursor.left
          · rw [Reading.manyTill_of_some readEnd readFirst
              (by rwa [Cursor.length_rest, Cursor.length_rest])] at refused
            obtain ⟨reason', failed⟩ :=
              ih middle closer (Option.map_eq_none_iff.mp refused)
            exact ⟨reason', by rw [if_pos closer, failed, Outcome.map_failure]⟩
          · exact ⟨_, by rw [if_neg closer]⟩

/-- Reading any elements up to a place is reading up to the nearest such place. -/
theorem Reads.any_manyTill {stop : Parser ε β} {end? : Reading ε β} (stops : stop.Reads end?) :
    (any.manyTill stop).Reads end?.upTo :=
  (reads_any.manyTill stops).congr (Reading.manyTill_any end?)

end Loops

end Parser

end DocCoverage
