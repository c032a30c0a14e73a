import DocCoverage.Source.Cursor

/-!
# Attempts

Running a parser at a cursor is an attempt. It succeeds with a value and the cursor behind what
was read, fails with a reason, or never ends, and on its way it may have had to stop repetitions
that were not moving. The list of those `stalls` covers everything that was run, including what
was given up later.
-/

namespace DocCoverage

/-- The ways to repeat a parser. -/
inductive Repetition where
  | many
  | many1
  | skipMany
  | skipMany1
  | manyTill
deriving DecidableEq, Repr

/-- The name of the repetition in messages. -/
def Repetition.name : Repetition → String
  | many => "many"
  | many1 => "many1"
  | skipMany => "skip_many"
  | skipMany1 => "skip_many1"
  | manyTill => "many_till"

/-- A repetition that was stopped because the repeated parser read nothing. -/
structure Stall where
  repetition : Repetition
  position : Nat
deriving DecidableEq, Repr

/-- The stall in words. -/
def Stall.message (stall : Stall) : String :=
  s!"{stall.repetition.name}: inner parser succeeded without consuming input " ++
    s!"at position {stall.position}, stopping"

/-- How an attempt ends, if it ends. -/
inductive Outcome (ε α : Type) where
  /-- The value, and the cursor behind what was read. -/
  | success (value : α) (after : Cursor ε)
  | failure (reason : ParseFailure ε)
  /-- The attempt never ends. -/
  | diverged
deriving DecidableEq

/-- How an attempt ends, and the stalls on the way, in order. -/
structure Attempt (ε α : Type) where
  outcome : Outcome ε α
  stalls : List Stall
deriving DecidableEq

namespace Outcome

variable {ε α β : Type}

/-- Goes on with `next` where the first outcome is a success. -/
protected def bind (first : Outcome ε α) (next : α → Cursor ε → Outcome ε β) : Outcome ε β :=
  match first with
  | .success value after => next value after
  | .failure reason => .failure reason
  | .diverged => .diverged

/-- Changes the value and nothing else. -/
protected def map (transform : α → β) (outcome : Outcome ε α) : Outcome ε β :=
  outcome.bind fun value after => .success (transform value) after

/-- Falls back to `other` where the first outcome is a failure. -/
def orElse (first other : Outcome ε α) : Outcome ε α :=
  match first with
  | .failure _ => other
  | .success value after => .success value after
  | .diverged => .diverged

@[simp] theorem bind_success (value : α) (after : Cursor ε) (next : α → Cursor ε → Outcome ε β) :
    (success value after).bind next = next value after := rfl

@[simp] theorem bind_failure (reason : ParseFailure ε) (next : α → Cursor ε → Outcome ε β) :
    (failure reason : Outcome ε α).bind next = failure reason := rfl

@[simp] theorem bind_diverged (next : α → Cursor ε → Outcome ε β) :
    (diverged : Outcome ε α).bind next = diverged := rfl

@[simp] theorem map_success (transform : α → β) (value : α) (after : Cursor ε) :
    (success value after).map transform = success (transform value) after := rfl

@[simp] theorem map_failure (transform : α → β) (reason : ParseFailure ε) :
    (failure reason).map transform = failure reason := rfl

@[simp] theorem map_diverged (transform : α → β) :
    (diverged : Outcome ε α).map transform = diverged := rfl

@[simp] theorem orElse_success (value : α) (after : Cursor ε) (other : Outcome ε α) :
    (success value after).orElse other = success value after := rfl

@[simp] theorem orElse_failure (reason : ParseFailure ε) (other : Outcome ε α) :
    (failure reason).orElse other = other := rfl

@[simp] theorem orElse_diverged (other : Outcome ε α) :
    (diverged : Outcome ε α).orElse other = diverged := rfl

theorem bind_eq_success_iff {first : Outcome ε α} {next : α → Cursor ε → Outcome ε β} {value : β}
    {after : Cursor ε} :
    first.bind next = success value after ↔
      ∃ found middle, first = success found middle ∧ next found middle = success value after := by
  constructor
  · intro succeeded
    cases first with
    | success found middle => exact ⟨found, middle, rfl, succeeded⟩
    | failure reason => cases succeeded
    | diverged => cases succeeded
  · rintro ⟨found, middle, rfl, succeeded⟩
    exact succeeded

theorem map_eq_success_iff {transform : α → β} {outcome : Outcome ε α} {value : β}
    {after : Cursor ε} :
    outcome.map transform = success value after ↔
      ∃ found, outcome = success found after ∧ transform found = value := by
  unfold Outcome.map
  rw [bind_eq_success_iff]
  constructor
  · rintro ⟨found, middle, succeeded, same⟩
    cases same
    exact ⟨found, succeeded, rfl⟩
  · rintro ⟨found, succeeded, rfl⟩
    exact ⟨found, after, succeeded, rfl⟩

theorem orElse_eq_success_iff {first other : Outcome ε α} {value : α} {after : Cursor ε} :
    first.orElse other = success value after ↔
      first = success value after ∨
        (∃ reason, first = failure reason) ∧ other = success value after := by
  cases first <;> simp

theorem map_eq_failure_iff {transform : α → β} {outcome : Outcome ε α}
    {reason : ParseFailure ε} :
    outcome.map transform = failure reason ↔ outcome = failure reason := by
  cases outcome <;> simp

theorem orElse_eq_failure_iff {first other : Outcome ε α} {reason : ParseFailure ε} :
    first.orElse other = failure reason ↔
      (∃ earlier, first = failure earlier) ∧ other = failure reason := by
  cases first <;> simp

theorem map_map {γ : Type} (second : β → γ) (first : α → β) (outcome : Outcome ε α) :
    (outcome.map first).map second = outcome.map (second ∘ first) := by
  cases outcome <;> rfl

theorem map_id (outcome : Outcome ε α) : outcome.map id = outcome := by
  cases outcome <;> rfl

end Outcome

namespace Attempt

variable {ε α β : Type}

/-- The attempt that reads nothing and has the given value. -/
def success (value : α) (after : Cursor ε) : Attempt ε α := ⟨.success value after, []⟩

/-- The attempt that fails at once. -/
def failure (reason : ParseFailure ε) : Attempt ε α := ⟨.failure reason, []⟩

/-- The attempt that never ends. -/
def diverged : Attempt ε α := ⟨.diverged, []⟩

/-- The same attempt, after the given stalls. -/
@[inline] def after (attempt : Attempt ε α) (stalls : List Stall) : Attempt ε α :=
  { attempt with stalls := stalls ++ attempt.stalls }

/-- Goes on with `next` where the first attempt succeeds. -/
@[inline] protected def bind (first : Attempt ε α) (next : α → Cursor ε → Attempt ε β) :
    Attempt ε β :=
  match first.outcome with
  | .success value cursor => (next value cursor).after first.stalls
  | .failure reason => ⟨.failure reason, first.stalls⟩
  | .diverged => ⟨.diverged, first.stalls⟩

/-- Falls back to `other` where the first attempt fails. -/
@[inline] def orElse (first : Attempt ε α) (other : Unit → Attempt ε α) : Attempt ε α :=
  match first.outcome with
  | .failure _ => (other ()).after first.stalls
  | .success .. | .diverged => first

@[simp] theorem outcome_after (attempt : Attempt ε α) (stalls : List Stall) :
    (attempt.after stalls).outcome = attempt.outcome := rfl

@[simp] theorem stalls_after (attempt : Attempt ε α) (stalls : List Stall) :
    (attempt.after stalls).stalls = stalls ++ attempt.stalls := rfl

theorem outcome_bind (first : Attempt ε α) (next : α → Cursor ε → Attempt ε β) :
    (first.bind next).outcome =
      first.outcome.bind fun value after => (next value after).outcome := by
  unfold Attempt.bind
  cases first.outcome <;> rfl

theorem outcome_orElse (first : Attempt ε α) (other : Unit → Attempt ε α) :
    (first.orElse other).outcome = first.outcome.orElse (other ()).outcome := by
  unfold orElse
  cases same : first.outcome <;> simp [same]

end Attempt

end DocCoverage
