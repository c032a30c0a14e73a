import Mathlib.Data.Finset.Card
import Mathlib.Data.Finset.Prod
import Mathlib.Order.Interval.Finset.Nat
import DocCoverage.Proofs.Grammar.Ending
import DocCoverage.Proofs.Parser.Approximation

/-!
# How deep rules have to be unrolled

A deeper unrolling of a table of rules does the same as a shallower one wherever that ends. From
the bound on, which counts the pairs of a rule and a place, no further rule ends anywhere: where one
more reference lets a rule end for the first time, one reference less has done so for another rule
or at another place, since without that the rule would not have noticed. So `Rules.run` is what
every unrolling comes to that ends.
-/

namespace DocCoverage

variable {ε κ : Type} [DecidableEq ε] [Element ε] {rules : Rules ε κ} {depth depth' : Nat}
  {cursor after : Cursor ε} {name : String}

/-- A grammar depends on the rules only through what they do further on. -/
theorem Grammar.approximates {rule rule' : String → Parser ε (Value ε κ)}
    (built : ∀ name, (rule name).Built)
    (same : ∀ name, (rule name).Approximates (rule' name) cursor) (grammar : Grammar ε κ) :
    (grammar.parser rule).Approximates (grammar.parser rule') cursor := by
  have forward (part : Grammar ε κ) : (part.parser rule).Forward := (part.built built).forward
  induction grammar with
  | pure _ | any | element _ | satisfy _ | literal _ | take _ | recognize _ => exact .refl _ _
  | map body mapping inside => exact inside.map _
  | orElse first second one two => exact one.orElse two
  | both first second one two => exact (one.both (forward first) two).map _
  | andThen first second one two => exact one.andThen (forward first) two
  | followedBy first second one two => exact one.followedBy (forward first) two
  | apply first second combination one two =>
    exact (one.map _).apply ((forward first).map _) two
  | bind first next one two => exact one.bind (forward first) fun value => two value.flatten
  | lookAhead body inside => exact inside.lookAhead
  | withSpan body inside => exact inside.withSpan.map _
  | many body inside => exact (inside.many (forward body)).map _
  | many1 body inside => exact (inside.many1 (forward body)).map _
  | skipMany body inside => exact (inside.skipMany (forward body)).map _
  | skipMany1 body inside => exact (inside.skipMany1 (forward body)).map _
  | manyTill body stop inside ends => exact (inside.manyTill (forward body) ends).map _
  | balanced inner opening closing inside opens closes =>
    exact (inside.balanced (forward inner) opens (forward opening) closes (forward closing)).map _
  | lazy body inside => exact inside
  | ref name => exact same name

namespace Rules

/-- Following one more reference changes nothing where a rule ends without that. -/
theorem approximates_succ (rules : Rules ε κ) (depth : Nat) (name : String) (cursor : Cursor ε) :
    (rules.parser depth name).Approximates (rules.parser (depth + 1) name) cursor := by
  induction depth generalizing name with
  | zero => exact Parser.approximates_diverge _ _
  | succ depth ih =>
    rw [parser, parser]
    cases rules.find? name with
    | none => exact .refl _ _
    | some body => exact body.approximates (rules.built depth) ih

theorem approximates_of_le (deeper : depth ≤ depth') (name : String) (cursor : Cursor ε) :
    (rules.parser depth name).Approximates (rules.parser depth' name) cursor := by
  induction deeper with
  | refl => exact .refl _ _
  | step _ ih => exact ih.trans (rules.approximates_succ _ name cursor)

theorem endsAt_of_le (deeper : depth ≤ depth') (ends : (rules.parser depth name).EndsAt cursor) :
    (rules.parser depth' name).EndsAt cursor := by
  have same := approximates_of_le deeper name cursor cursor (.refl cursor) ends
  unfold Parser.EndsAt Parser.outcome
  rw [same]
  exact ends

/-- A rule ends at the cursor with one more reference, but not with so many. -/
structure EndsFirst (rules : Rules ε κ) (depth : Nat) (name : String) (cursor : Cursor ε) :
    Prop where
  ends : (rules.parser (depth + 1) name).EndsAt cursor
  before : ¬ (rules.parser depth name).EndsAt cursor

theorem EndsFirst.unique (first : rules.EndsFirst depth name cursor)
    (second : rules.EndsFirst depth' name cursor) : depth = depth' := by
  rcases Nat.lt_trichotomy depth depth' with shallower | same | deeper
  · exact absurd (endsAt_of_le shallower first.ends) second.before
  · exact same
  · exact absurd (endsAt_of_le deeper second.ends) first.before

/-- Only a rule of the table takes more than one reference to end. -/
theorem EndsFirst.mem (first : rules.EndsFirst (depth + 1) name cursor) :
    name ∈ rules.map Prod.fst := by
  cases found : rules.find? name with
  | some body => exact mem_of_find? found
  | none =>
    refine absurd ?_ first.before
    rw [parser, found]
    exact Parser.endsAt_fail _ _

/-- Where no rule ends for the first time from the cursor on, one more reference changes nothing. -/
theorem approximates_of_none
    (none : ∀ name after, cursor.Reaches after → ¬ rules.EndsFirst depth name after)
    (name : String) :
    (rules.parser (depth + 1) name).Approximates (rules.parser depth name) cursor := by
  intro after reaches ended
  have ends : (rules.parser depth name).EndsAt after := by
    by_contra before
    exact none name after reaches ⟨ended, before⟩
  exact (rules.approximates_succ depth name after after (.refl after) ends).symm

/-- A rule that ends for the first time has waited for one that has done so with one reference
less. -/
theorem EndsFirst.exists_earlier (late : rules.EndsFirst (depth + 1) name cursor) :
    ∃ name' after, cursor.Reaches after ∧ rules.EndsFirst depth name' after := by
  by_contra none
  refine late.before ?_
  have ends := late.ends
  have same := approximates_of_none fun name' after reaches first =>
    none ⟨name', after, reaches, first⟩
  rw [parser] at ends ⊢
  cases found : rules.find? name with
  | none => exact Parser.endsAt_fail _ _
  | some body =>
    rw [found] at ends
    have unchanged := body.approximates (rules.built _) same cursor (.refl cursor) ends
    unfold Parser.EndsAt Parser.outcome
    dsimp only
    rw [unchanged]
    exact ends

theorem EndsFirst.exists_of_le (late : rules.EndsFirst depth name cursor)
    (earlier : depth' ≤ depth) :
    ∃ name' after, cursor.Reaches after ∧ rules.EndsFirst depth' name' after := by
  induction depth generalizing name cursor with
  | zero =>
    obtain rfl := Nat.le_zero.mp earlier
    exact ⟨name, cursor, .refl cursor, late⟩
  | succ depth ih =>
    rcases Nat.le_succ_iff.mp earlier with earlier | rfl
    · obtain ⟨_, middle, reaches, first⟩ := late.exists_earlier
      obtain ⟨name', after, further, found⟩ := ih first earlier
      exact ⟨name', after, reaches.trans further, found⟩
    · exact ⟨name, cursor, .refl cursor, late⟩

/-- For every number of references from one on, another pair of a rule and a place is needed. -/
theorem EndsFirst.le (late : rules.EndsFirst depth name cursor) :
    depth ≤ rules.length * (cursor.left + 1) := by
  let pairs := (rules.map Prod.fst).toFinset ×ˢ Finset.range (cursor.left + 1)
  have each : ∀ earlier ∈ Finset.Icc 1 depth, ∃ pair ∈ pairs, ∃ after, cursor.Reaches after ∧
      after.left = pair.2 ∧ rules.EndsFirst earlier pair.1 after := by
    intro earlier within
    obtain ⟨positive, bound⟩ := Finset.mem_Icc.mp within
    obtain ⟨name', after, reaches, first⟩ := late.exists_of_le bound
    obtain ⟨earlier, rfl⟩ := Nat.exists_eq_add_of_le' positive
    refine ⟨(name', after.left), Finset.mem_product.mpr ⟨?_, ?_⟩, after, reaches, rfl, first⟩
    · exact List.mem_toFinset.mpr first.mem
    · exact Finset.mem_range.mpr (Nat.lt_succ_of_le reaches.left_le)
  have inhabited : Nonempty (Cursor ε) := ⟨cursor⟩
  choose! pair member place reaches here first using each
  have apart : Set.InjOn pair (Finset.Icc 1 depth) := by
    intro one within other within' same
    have samePlace : place one = place other := by
      refine Cursor.eq_of_left_eq ((reaches one within).1.trans (reaches other within').1.symm) ?_
      rw [here one within, here other within', same]
    have second := first other within'
    rw [← same, ← samePlace] at second
    exact (first one within).unique second
  calc depth = (Finset.Icc 1 depth).card := by rw [Nat.card_Icc, Nat.add_sub_cancel]
    _ ≤ pairs.card := Finset.card_le_card_of_injOn pair member apart
    _ = (rules.map Prod.fst).toFinset.card * (cursor.left + 1) := by
      rw [Finset.card_product, Finset.card_range]
    _ ≤ rules.length * (cursor.left + 1) := by
      refine Nat.mul_le_mul_right _ ?_
      exact (List.toFinset_card_le _).trans_eq (List.length_map _)

/-- From the bound on, following more references changes nothing. -/
theorem approximates_depthAt (rules : Rules ε κ) (depth : Nat) (name : String)
    (cursor : Cursor ε) :
    (rules.parser depth name).Approximates (rules.parser (rules.depthAt cursor) name) cursor := by
  rcases Nat.le_total depth (rules.depthAt cursor) with shallower | deeper
  · exact approximates_of_le shallower name cursor
  · induction deeper with
    | refl => exact .refl _ _
    | @step depth deep ih =>
      refine (approximates_of_none (fun name' after reaches late => ?_) name).trans ih
      have few := Nat.mul_le_mul_left rules.length (Nat.succ_le_succ reaches.left_le)
      exact absurd (late.le.trans few) (Nat.not_le_of_lt deep)

variable {grammar : Grammar ε κ}

/-- Wherever an unrolling ends, at whatever depth, running the grammar does the same. -/
theorem run_eq_of_endsAt (ends : (grammar.parser (rules.parser depth)).EndsAt cursor) :
    rules.run grammar cursor = (grammar.parser (rules.parser depth)).run cursor :=
  grammar.approximates (rules.built depth) (rules.approximates_depthAt depth · cursor) cursor
    (.refl cursor) ends

/-- Unrolling further than to the bound has the same outcome, also where that never ends. -/
theorem outcome_eq_of_depthAt_le (deep : rules.depthAt cursor ≤ depth) :
    (grammar.parser (rules.parser depth)).outcome cursor = (rules.run grammar cursor).outcome := by
  by_cases never : (rules.run grammar cursor).outcome = .diverged
  · by_contra differ
    have ends : (grammar.parser (rules.parser depth)).EndsAt cursor := by
      rw [never] at differ
      exact differ
    exact ends ((congrArg Attempt.outcome (run_eq_of_endsAt ends)).symm.trans never)
  · have deeper := grammar.approximates (rules.built (rules.depthAt cursor))
      (fun name => approximates_of_le deep name cursor) cursor (.refl cursor) never
    exact congrArg Attempt.outcome deeper

end Rules

end DocCoverage
