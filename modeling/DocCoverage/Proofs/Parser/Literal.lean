import DocCoverage.Proofs.Parser.Reading

/-!
# Fixed sequences

A fixed sequence is read where what is left to be read begins with it. Anywhere else it fails where
the two part, which is behind their longest common prefix. Reading one sequence behind another is
therefore reading the one that they make up, in the successes as well as in the places of the
failures. Only the messages differ, since a failure names the sequence that was being read.
-/

namespace DocCoverage

variable {ε : Type}

theorem append_prefix_iff {first second text : List ε} (stands : first <+: text) :
    first ++ second <+: text ↔ second <+: text.drop first.length := by
  obtain ⟨rest, rfl⟩ := stands
  rw [List.drop_left, List.prefix_append_right_inj]

/-- Both outcomes are a success at the same cursor, the second with the value of the first one
transformed, or both are a failure at the same place. -/
inductive Outcome.Parallel {α β : Type} (transform : α → β) : Outcome ε α → Outcome ε β → Prop where
  | success (value : α) (after : Cursor ε) :
      Parallel transform (.success value after) (.success (transform value) after)
  | failure {reason other : ParseFailure ε} (same : reason.location = other.location) :
      Parallel transform (.failure reason) (.failure other)

variable [DecidableEq ε]

/-- The longest list that both lists begin with. -/
def commonPrefix : List ε → List ε → List ε
  | left :: lefts, right :: rights =>
    if left = right then left :: commonPrefix lefts rights else []
  | [], _ | _, [] => []

section CommonPrefix

variable {first second text : List ε}

/-- What both lists begin with is what their longest common prefix begins with. -/
theorem prefix_commonPrefix_iff {other : List ε} :
    other <+: commonPrefix first second ↔ other <+: first ∧ other <+: second := by
  induction other generalizing first second with
  | nil => exact iff_of_true List.nil_prefix ⟨List.nil_prefix, List.nil_prefix⟩
  | cons head tail ih =>
    cases first with
    | nil => simp [commonPrefix]
    | cons left lefts =>
      cases second with
      | nil => simp [commonPrefix]
      | cons right rights =>
        by_cases same : left = right
        · subst same
          simp only [commonPrefix, if_true, List.cons_prefix_cons, ih]
          exact and_and_left
        · simp only [commonPrefix, same, if_false, List.prefix_nil, List.cons_prefix_cons,
            reduceCtorEq, false_iff]
          rintro ⟨⟨rfl, -⟩, rfl, -⟩
          exact same rfl

theorem commonPrefix_prefix_right : commonPrefix first second <+: second :=
  (prefix_commonPrefix_iff.mp List.prefix_rfl).2

/-- Behind a list that stands in front, the comparison goes on. -/
theorem commonPrefix_append_of_isPrefix (stands : first <+: text) :
    commonPrefix (first ++ second) text =
      first ++ commonPrefix second (text.drop first.length) := by
  obtain ⟨rest, rfl⟩ := stands
  rw [List.drop_left]
  induction first with
  | nil => rfl
  | cons head tail ih => simp [commonPrefix, ih]

/-- Behind a list that does not stand in front, nothing more is compared. -/
theorem commonPrefix_append_of_not_isPrefix (absent : ¬ first <+: text) :
    commonPrefix (first ++ second) text = commonPrefix first text := by
  induction first generalizing text with
  | nil => exact absurd List.nil_prefix absent
  | cons head tail ih =>
    cases text with
    | nil => rfl
    | cons found rest =>
      by_cases same : head = found
      · subst same
        have further : ¬ tail <+: rest := fun stands =>
          absent (List.cons_prefix_cons.mpr ⟨rfl, stands⟩)
        simp [commonPrefix, ih further]
      · simp [commonPrefix, same]

end CommonPrefix

namespace Parser

variable {expected : List ε} {cursor : Cursor ε}

/-- A sequence that does not stand at the cursor is followed as far as it agrees with what stands
there. -/
theorem exists_follow_error (sequence : List ε) (absent : ¬ expected <+: cursor.rest) :
    ∃ reason, follow sequence expected cursor = .error reason ∧
      reason.location =
        (cursor.advance (commonPrefix expected cursor.rest).length).location := by
  induction expected generalizing cursor with
  | nil => exact absurd List.nil_prefix absent
  | cons head tail ih =>
    unfold follow
    cases seen : cursor.peek? with
    | none =>
      rw [Cursor.peek?_eq_head?, List.head?_eq_none_iff] at seen
      rw [seen]
      exact ⟨_, rfl, rfl⟩
    | some found =>
      have shape := Cursor.rest_of_peek? seen
      rw [shape] at absent ⊢
      by_cases same : found = head
      · subst same
        have further : ¬ tail <+: cursor.next.rest := fun stands =>
          absent (List.cons_prefix_cons.mpr ⟨rfl, stands⟩)
        obtain ⟨reason, failed, place⟩ := ih further
        refine ⟨reason, ?_, ?_⟩
        · simp only [if_true, failed]
        · simp only [commonPrefix, if_true, List.length_cons, Cursor.advance, place]
      · refine ⟨_, if_neg same, ?_⟩
        simp only [commonPrefix, Ne.symm same, if_false, List.length_nil]
        rfl

/-- A sequence that does not stand at the cursor fails where it departs from what stands there. -/
theorem exists_literal_failure (absent : ¬ expected <+: cursor.rest) :
    ∃ reason, (literal expected).outcome cursor = .failure reason ∧
      reason.location =
        ⟨cursor.source, cursor.position + (commonPrefix expected cursor.rest).length⟩ := by
  obtain ⟨reason, failed, place⟩ := exists_follow_error expected absent
  have agreed : (commonPrefix expected cursor.rest).length ≤ cursor.rest.length :=
    commonPrefix_prefix_right.length_le
  rw [Cursor.length_rest] at agreed
  rw [Cursor.location, Cursor.source_advance, Cursor.position_advance agreed] at place
  exact ⟨reason, by simp [Parser.outcome, literal, failed, Attempt.failure], place⟩

/-- What reading a fixed sequence at a cursor comes to. It succeeds exactly where the sequence
stands, with that part of the input for its value, and fails otherwise behind as much of it as
stands there. -/
structure Compares (expected : List ε) (cursor : Cursor ε) : Prop where
  succeeds : (∃ value after, (literal expected).outcome cursor = .success value after) ↔
    expected <+: cursor.rest
  reads : ∀ value after, (literal expected).outcome cursor = .success value after →
    value = expected ∧ cursor.upTo after = expected ∧ after.source = cursor.source ∧
      after.position = cursor.position + expected.length
  fails : ¬ expected <+: cursor.rest → ∃ reason,
    (literal expected).outcome cursor = .failure reason ∧
      reason.location =
        ⟨cursor.source, cursor.position + (commonPrefix expected cursor.rest).length⟩

theorem compares_literal (expected : List ε) (cursor : Cursor ε) : Compares expected cursor := by
  by_cases stands : expected <+: cursor.rest
  · have read := outcome_literal_of_isPrefix stands
    refine ⟨iff_of_true ⟨_, _, read⟩ stands, fun value after succeeded => ?_, absurd stands⟩
    obtain ⟨rfl, rfl⟩ := Outcome.success.inj (read.symm.trans succeeded)
    have within := stands.length_le
    rw [Cursor.length_rest] at within
    exact ⟨rfl, by rw [Cursor.upTo_advance, ← List.prefix_iff_eq_take.mp stands],
      Cursor.source_advance .., Cursor.position_advance within⟩
  · obtain ⟨reason, failed, place⟩ := exists_literal_failure stands
    have refused {value : List ε} {after : Cursor ε} :
        (literal expected).outcome cursor ≠ .success value after := by
      rw [failed]
      exact nofun
    exact ⟨iff_of_false (fun ⟨_, _, succeeded⟩ => refused succeeded) stands,
      fun _ _ succeeded => absurd succeeded refused, fun _ => ⟨reason, failed, place⟩⟩

/-- Two sequences one behind the other are read where the one that they make up is. -/
theorem both_literal_parallel (first second : List ε) (cursor : Cursor ε) :
    Outcome.Parallel (fun (left, right) => left ++ right)
      (((literal first).both (literal second)).outcome cursor)
      ((literal (first ++ second)).outcome cursor) := by
  rw [both, outcome_bind]
  by_cases stands : first <+: cursor.rest
  · have within := stands.length_le
    rw [Cursor.length_rest] at within
    rw [outcome_literal_of_isPrefix stands, Outcome.bind_success, outcome_map]
    have rest := cursor.rest_advance first.length
    by_cases further : second <+: (cursor.advance first.length).rest
    · have whole : first ++ second <+: cursor.rest :=
        (append_prefix_iff stands).mpr (rest ▸ further)
      rw [outcome_literal_of_isPrefix further, outcome_literal_of_isPrefix whole,
        Outcome.map_success, Cursor.advance_advance, ← List.length_append]
      exact .success (first, second) _
    · have absent : ¬ first ++ second <+: cursor.rest := fun whole =>
        further (rest ▸ (append_prefix_iff stands).mp whole)
      obtain ⟨reason, failed, place⟩ := exists_literal_failure further
      obtain ⟨other, failed', place'⟩ := exists_literal_failure absent
      rw [failed, failed', Outcome.map_failure]
      refine .failure ?_
      rw [place, place', commonPrefix_append_of_isPrefix stands, List.length_append, rest,
        Cursor.source_advance, Cursor.position_advance within, Nat.add_assoc]
  · have absent : ¬ first ++ second <+: cursor.rest := fun whole =>
      stands ((List.prefix_append first second).trans whole)
    obtain ⟨reason, failed, place⟩ := exists_literal_failure stands
    obtain ⟨other, failed', place'⟩ := exists_literal_failure absent
    rw [failed, failed', Outcome.bind_failure]
    exact .failure (by rw [place, place', commonPrefix_append_of_not_isPrefix stands])

/-- A sequence is read where it stands, in one piece or in two, and fails where it departs from what
stands there. -/
theorem literal_compares (cursor : Cursor ε) :
    (∀ expected, Compares expected cursor) ∧ ∀ first second,
      Outcome.Parallel (fun (left, right) => left ++ right)
        (((literal first).both (literal second)).outcome cursor)
        ((literal (first ++ second)).outcome cursor) :=
  ⟨fun expected => compares_literal expected cursor, fun first second =>
    both_literal_parallel first second cursor⟩

end Parser

end DocCoverage
