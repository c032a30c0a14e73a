import DocCoverage.Proofs.Parser.Balanced
import DocCoverage.Proofs.Parser.Reading
import DocCoverage.Source.Shift

/-!
# Parsing depends on what is left

A parser does the same wherever the same is left to be read. `Parser.Mirrors` compares a run on
an input with a run on that input behind some other elements: the second one ends in the same way,
at places and with failures that lie further back. The values may carry positions, so it is said
for each parser what becomes of them, and the two runs may be runs of different parsers: behind a
value that carries positions, they go on with different ones. There is one lemma for each way to
build a parser.
-/

namespace DocCoverage

variable {ε α α' β β' γ γ' : Type} {before : Array ε}

/-- An input is read behind another one from where the other one ends. -/
theorem Cursor.start_shift (before source : Array ε) :
    (start source).shift before = (start (before ++ source)).advance before.size := by
  refine eq_of_rest_eq (by simp [start]) ?_
  simp [rest_advance]

theorem Cursor.shift_empty (cursor : Cursor ε) : cursor.shift #[] = cursor :=
  eq_of_rest_eq (by simp) (by simp)

namespace Outcome

/-- The same outcome behind `before`, with a changed value. -/
def shift (before : Array ε) (change : α → α') : Outcome ε α → Outcome ε α'
  | .success value after => .success (change value) (after.shift before)
  | .failure reason => .failure (reason.shift before)
  | .diverged => .diverged

@[simp] theorem shift_success (change : α → α') (value : α) (after : Cursor ε) :
    (success value after).shift before change = success (change value) (after.shift before) := rfl

@[simp] theorem shift_failure (change : α → α') (reason : ParseFailure ε) :
    (failure reason).shift before change = failure (reason.shift before) := rfl

@[simp] theorem shift_diverged (change : α → α') :
    (diverged : Outcome ε α).shift before change = diverged := rfl

/-- Behind nothing, only the value may be another one. -/
theorem shift_empty (outcome : Outcome ε α) (change : α → α') :
    outcome.shift #[] change = outcome.map change := by
  cases outcome with
  | success value after => simp [Cursor.shift_empty]
  | failure reason => simp [ParseFailure.shift, Location.shift]
  | diverged => rfl

theorem bind_shift {change : α → α'} {change' : β → β'} (outcome : Outcome ε α)
    {next : α → Cursor ε → Outcome ε β} {next' : α' → Cursor ε → Outcome ε β'}
    (mirrors : ∀ value after,
      next' (change value) (after.shift before) = (next value after).shift before change') :
    (outcome.shift before change).bind next' = (outcome.bind next).shift before change' := by
  cases outcome with
  | success value after => exact mirrors value after
  | failure reason => rfl
  | diverged => rfl

theorem map_shift {change : α → α'} {change' : β → β'} {transform : α → β} {transform' : α' → β'}
    (outcome : Outcome ε α)
    (commutes : ∀ value, transform' (change value) = change' (transform value)) :
    (outcome.shift before change).map transform' =
      (outcome.map transform).shift before change' :=
  bind_shift outcome fun value after => congrArg (success · (after.shift before)) (commutes value)

theorem orElse_shift (change : α → α') (first second : Outcome ε α) :
    (first.shift before change).orElse (second.shift before change) =
      (first.orElse second).shift before change := by
  cases first <;> rfl

/-- Both runs decide alike, so that their branches can be compared one by one. -/
theorem ite_shift {condition : Prop} [Decidable condition] {change : α → α'}
    {one two : Outcome ε α} {one' two' : Outcome ε α'}
    (holds : condition → one' = one.shift before change)
    (fails : ¬condition → two' = two.shift before change) :
    (if condition then one' else two') =
      (if condition then one else two).shift before change := by
  split
  · next held => exact holds held
  · next failed => exact fails failed

end Outcome

namespace Parser

/-- Behind `before`, the second parser ends like the first one does without it. -/
def Mirrors (before : Array ε) (change : α → α') (parser : Parser ε α)
    (mirror : Parser ε α') : Prop :=
  ∀ cursor, mirror.outcome (cursor.shift before) = (parser.outcome cursor).shift before change

variable {change : α → α'} {change' : β → β'}

/-- A parser that does the same up to the values mirrors the other one behind nothing. -/
theorem mirrors_empty_iff {parser : Parser ε α} {mirror : Parser ε α'} :
    Mirrors #[] change parser mirror ↔
      ∀ cursor, mirror.outcome cursor = (parser.outcome cursor).map change := by
  simp only [Mirrors, Cursor.shift_empty, Outcome.shift_empty]

theorem mirrors_self (parser : Parser ε α) : Mirrors #[] id parser parser :=
  mirrors_empty_iff.mpr fun _ => (Outcome.map_id _).symm

section Combinators

theorem mirrors_pure (change : α → α') (value : α) :
    Mirrors before change (Parser.pure value) (Parser.pure (change value)) := fun _ => rfl

theorem mirrors_fail (change : α → α') (cause : Cause ε) :
    Mirrors before change (fail cause) (fail cause) := fun _ => rfl

theorem mirrors_diverge (change : α → α') : Mirrors before change diverge diverge := fun _ => rfl

variable {parser : Parser ε α} {mirror : Parser ε α'}

theorem Mirrors.bind (mirrors : Mirrors before change parser mirror) {next : α → Parser ε β}
    {next' : α' → Parser ε β'}
    (later : ∀ value, Mirrors before change' (next value) (next' (change value))) :
    Mirrors before change' (parser.bind next) (mirror.bind next') := by
  intro cursor
  rw [outcome_bind, outcome_bind, mirrors cursor]
  exact Outcome.bind_shift _ later

theorem Mirrors.map (mirrors : Mirrors before change parser mirror) {transform : α → β}
    {transform' : α' → β'}
    (commutes : ∀ value, transform' (change value) = change' (transform value)) :
    Mirrors before change' (parser.map transform) (mirror.map transform') := by
  intro cursor
  rw [outcome_map, outcome_map, mirrors cursor]
  exact Outcome.map_shift _ commutes

theorem Mirrors.orElse (one : Mirrors before change parser mirror) {other : Parser ε α}
    {other' : Parser ε α'} (two : Mirrors before change other other') :
    Mirrors before change (parser.orElse other) (mirror.orElse other') := by
  intro cursor
  rw [outcome_orElse, outcome_orElse, one cursor, two cursor]
  exact Outcome.orElse_shift ..

theorem Mirrors.both (one : Mirrors before change parser mirror) {other : Parser ε β}
    {other' : Parser ε β'} (two : Mirrors before change' other other') :
    Mirrors before (Prod.map change change') (parser.both other) (mirror.both other') :=
  one.bind fun _ => two.map fun _ => rfl

theorem Mirrors.andThen (one : Mirrors before change parser mirror) {other : Parser ε β}
    {other' : Parser ε β'} (two : Mirrors before change' other other') :
    Mirrors before change' (parser.andThen other) (mirror.andThen other') :=
  one.bind fun _ => two

theorem Mirrors.followedBy (one : Mirrors before change parser mirror) {other : Parser ε β}
    {other' : Parser ε β'} (two : Mirrors before change' other other') :
    Mirrors before change (parser.followedBy other) (mirror.followedBy other') :=
  one.bind fun _ => two.map fun _ => rfl

/-- A function of two arguments that is mapped over the first parser and then applied. -/
theorem apply_map (first : Parser ε α) (combine : α → β → γ) (second : Parser ε β) :
    (first.map combine).apply second = first.bind fun value => second.map (combine value) := by
  ext cursor
  unfold Parser.apply Parser.bind Parser.map
  dsimp only
  rcases first.run cursor with ⟨value, after⟩ | _ | _
  · simp [Attempt.bind, Attempt.success, Attempt.after]
  · rfl
  · rfl

theorem Mirrors.applyMap (one : Mirrors before change parser mirror) {other : Parser ε β}
    {other' : Parser ε β'} (two : Mirrors before change' other other') {combine : α → β → γ}
    {combine' : α' → β' → γ'} {changed : γ → γ'}
    (commutes : ∀ left right,
      combine' (change left) (change' right) = changed (combine left right)) :
    Mirrors before changed ((parser.map combine).apply other)
      ((mirror.map combine').apply other') := by
  rw [apply_map, apply_map]
  exact one.bind fun left => two.map (commutes left)

theorem Mirrors.lookAhead (mirrors : Mirrors before change parser mirror) :
    Mirrors before change parser.lookAhead mirror.lookAhead := by
  intro cursor
  rw [outcome_lookAhead, outcome_lookAhead, mirrors cursor]
  exact Outcome.bind_shift _ fun _ _ => rfl

/-- A span moves with the places that it was made from. -/
theorem Mirrors.withSpan (mirrors : Mirrors before change parser mirror) :
    Mirrors before (Prod.map change (Span.shift before)) parser.withSpan mirror.withSpan := by
  intro cursor
  rw [outcome_withSpan, outcome_withSpan, mirrors cursor]
  exact Outcome.bind_shift _ fun _ _ => rfl

end Combinators

section Elements

theorem mirrors_satisfy (accepts : ε → Bool) :
    Mirrors before id (satisfy accepts) (satisfy accepts) := by
  intro cursor
  unfold Parser.outcome satisfy
  dsimp only
  rw [Cursor.peek?_shift]
  split
  · split
    · simp [Attempt.success]
    · rfl
  · rfl

theorem mirrors_any : Mirrors before id (any : Parser ε ε) any := mirrors_satisfy _

theorem mirrors_take (count : Nat) :
    Mirrors before id (take count : Parser ε (List ε)) (take count) := by
  induction count with
  | zero => exact mirrors_pure id []
  | succ count ih => exact mirrors_any.bind fun _ => ih.map fun _ => rfl

variable [DecidableEq ε]

theorem mirrors_element (expected : ε) : Mirrors before id (element expected) (element expected) :=
  mirrors_satisfy _

/-- A sequence is followed in both inputs up to the same place. -/
theorem follow_shift (sequence expected : List ε) (cursor : Cursor ε) :
    follow sequence expected (cursor.shift before) =
      match follow sequence expected cursor with
      | .ok after => .ok (after.shift before)
      | .error reason => .error (reason.shift before) := by
  induction expected generalizing cursor with
  | nil => rfl
  | cons head tail ih =>
    unfold follow
    rw [Cursor.peek?_shift, Cursor.next_shift]
    cases cursor.peek? with
    | none => rfl
    | some found =>
      dsimp only
      by_cases same : found = head
      · rw [if_pos same, if_pos same, ih]
      · rw [if_neg same, if_neg same]
        rfl

theorem mirrors_literal (expected : List ε) :
    Mirrors before id (literal expected) (literal expected) := by
  intro cursor
  unfold Parser.outcome literal
  dsimp only
  rw [follow_shift]
  cases follow expected expected cursor with
  | ok after => simp [Attempt.success]
  | error reason => rfl

end Elements

section Loops

variable {parser : Parser ε α} {mirror : Parser ε α'}

theorem Mirrors.many (mirrors : Mirrors before change parser mirror) :
    Mirrors before (List.map change) parser.many mirror.many := by
  intro cursor
  induction cursor using Cursor.left_induction with
  | step cursor ih =>
    rw [outcome_many, outcome_many, mirrors cursor]
    cases parser.outcome cursor with
    | success value after =>
      simp only [Outcome.shift_success, Cursor.left_shift]
      refine Outcome.ite_shift (fun closer => ?_) fun _ => rfl
      rw [ih after closer]
      exact Outcome.map_shift _ fun _ => rfl
    | failure reason => rfl
    | diverged => rfl

theorem Mirrors.many1 (mirrors : Mirrors before change parser mirror) :
    Mirrors before (List.map change) parser.many1 mirror.many1 := by
  intro cursor
  rw [outcome_many1, outcome_many1, mirrors cursor]
  refine Outcome.bind_shift _ fun value after => ?_
  simp only [Cursor.left_shift]
  refine Outcome.ite_shift (fun _ => ?_) fun _ => rfl
  rw [mirrors.many after]
  exact Outcome.map_shift _ fun _ => rfl

theorem Mirrors.skipMany (mirrors : Mirrors before change parser mirror) :
    Mirrors before id parser.skipMany mirror.skipMany := by
  intro cursor
  induction cursor using Cursor.left_induction with
  | step cursor ih =>
    rw [outcome_skipMany, outcome_skipMany, mirrors cursor]
    cases parser.outcome cursor with
    | success value after =>
      simp only [Outcome.shift_success, Cursor.left_shift]
      exact Outcome.ite_shift (ih after) fun _ => rfl
    | failure reason => rfl
    | diverged => rfl

theorem Mirrors.skipMany1 (mirrors : Mirrors before change parser mirror) :
    Mirrors before id parser.skipMany1 mirror.skipMany1 := by
  intro cursor
  rw [outcome_skipMany1, outcome_skipMany1, mirrors cursor]
  refine Outcome.bind_shift _ fun value after => ?_
  simp only [Cursor.left_shift]
  exact Outcome.ite_shift (fun _ => mirrors.skipMany after) fun _ => rfl

theorem Mirrors.manyTill (mirrors : Mirrors before change parser mirror) {stop : Parser ε β}
    {stop' : Parser ε β'} (ends : Mirrors before change' stop stop') :
    Mirrors before (List.map change) (parser.manyTill stop) (mirror.manyTill stop') := by
  intro cursor
  induction cursor using Cursor.left_induction with
  | step cursor ih =>
    rw [outcome_manyTill, outcome_manyTill, ends cursor]
    cases stop.outcome cursor with
    | success value after => rfl
    | failure reason =>
      dsimp only [Outcome.shift_failure]
      rw [mirrors cursor]
      refine Outcome.bind_shift _ fun value after => ?_
      simp only [Cursor.left_shift]
      refine Outcome.ite_shift (fun closer => ?_) fun _ => rfl
      rw [ih after closer]
      exact Outcome.map_shift _ fun _ => rfl
    | diverged => rfl

end Loops

end Parser

section Balanced

variable {ο ο' ι ι' κ κ' : Type} {changeInner : ι → ι'} {changeOpening : ο → ο'}
  {changeClosing : κ → κ'} {inner : Parser ε ι} {inner' : Parser ε ι'} {opening : Parser ε ο}
  {opening' : Parser ε ο'} {closing : Parser ε κ} {closing' : Parser ε κ'}

/-- The node with changed values. -/
def Node.map (changeOpening : ο → ο') (changeInner : ι → ι') (changeClosing : κ → κ') :
    Node ο ι κ → Node ο' ι' κ'
  | .opened marker => .opened (changeOpening marker)
  | .inner run => .inner (changeInner run)
  | .closed marker => .closed (changeClosing marker)

@[simp] theorem Node.map_id : Node.map id id id = (id : Node ο ι κ → Node ο ι κ) := by
  funext node
  cases node <;> rfl

@[simp] theorem Node.depthAfter_map (depth : Nat) (node : Node ο ι κ) :
    (node.map changeOpening changeInner changeClosing).depthAfter depth =
      node.depthAfter depth := by
  cases node <;> rfl

namespace Balanced

theorem mirrors_boundary (opens : opening.Mirrors before changeOpening opening')
    (closes : closing.Mirrors before changeClosing closing') :
    (boundary opening closing).Mirrors before id (boundary opening' closing') := by
  refine .orElse ?_ ?_
  · exact opens.lookAhead.map fun _ => rfl
  · exact closes.lookAhead.map fun _ => rfl

theorem mirrors_piece (inside : inner.Mirrors before changeInner inner')
    (opens : opening.Mirrors before changeOpening opening')
    (closes : closing.Mirrors before changeClosing closing') :
    (piece inner opening closing).Mirrors before
      (Node.map changeOpening (List.map changeInner) changeClosing)
      (piece inner' opening' closing') := by
  refine .orElse (.orElse ?_ ?_) ?_
  · exact closes.map fun _ => rfl
  · exact opens.map fun _ => rfl
  · exact (inside.manyTill (mirrors_boundary opens closes)).map fun _ => rfl

variable {change : Node ο (List ι) κ → Node ο' (List ι') κ'}

/-- The nodes are read alike, and each of them opens or closes as many regions in both inputs. -/
theorem remainder_shift
    (pieces : (piece inner opening closing).Mirrors before change (piece inner' opening' closing'))
    (counts : ∀ node depth, (change node).depthAfter depth = node.depthAfter depth)
    (depth : Nat) (cursor : Cursor ε) :
    remainder inner' opening' closing' depth (cursor.shift before) =
      (remainder inner opening closing depth cursor).shift before (List.map change) := by
  induction depth, cursor using advance_induction with
  | step depth cursor ih =>
    by_cases closed : depth = 0
    · rw [closed, remainder_zero, remainder_zero]
      rfl
    · rw [remainder_eq _ _ _ closed, remainder_eq _ _ _ closed, pieces cursor]
      refine Outcome.bind_shift _ fun node after => ?_
      simp only [Cursor.left_shift, counts]
      refine Outcome.ite_shift (fun advances => ?_) fun _ => rfl
      rw [ih _ after advances]
      exact Outcome.map_shift _ fun _ => rfl

end Balanced

theorem Parser.Mirrors.balanced (inside : inner.Mirrors before changeInner inner')
    (opens : opening.Mirrors before changeOpening opening')
    (closes : closing.Mirrors before changeClosing closing') :
    (inner.balanced opening closing).Mirrors before
      (List.map (Node.map changeOpening (List.map changeInner) changeClosing))
      (inner'.balanced opening' closing') := by
  intro cursor
  rw [outcome_balanced, outcome_balanced, opens cursor]
  refine Outcome.bind_shift _ fun marker after => ?_
  have pieces := Balanced.mirrors_piece inside opens closes
  rw [Balanced.remainder_shift pieces (fun node depth => Node.depthAfter_map depth node) 1 after]
  exact Outcome.map_shift _ fun _ => rfl

end Balanced

end DocCoverage
