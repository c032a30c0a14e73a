import DocCoverage.Parser.Forward

/-!
# Parsers that refer to themselves

A parser may be used in its own definition, behind something that it has read before: it is built
anew whenever it is needed there, and each time less is left to be read. `Parser.recursive` is that
parser. What its definition makes of the parser itself is given as a `step`; following the
definition once more than there are elements left comes to the same as following it without end.
-/

namespace DocCoverage.Parser

variable {ε α β : Type}

/-- The definition followed `depth` times into itself; behind that, it never ends. -/
def unrolled (step : Parser ε α → Parser ε α) : (depth : Nat) → Parser ε α
  | 0 => diverge
  | depth + 1 => step (unrolled step depth)

/-- The parser that the definition defines. -/
def recursive (step : Parser ε α → Parser ε α) : Parser ε α :=
  ⟨fun cursor => (unrolled step (cursor.left + 1)).run cursor⟩

/-- What the definition does at a cursor depends only on what the parser itself does where less is
left to be read. -/
def Guarded (step : Parser ε α → Parser ε α) : Prop :=
  ∀ (first second : Parser ε α) (cursor : Cursor ε),
    (∀ after, after.left < cursor.left → first.run after = second.run after) →
      (step first).run cursor = (step second).run cursor

/-- Behind a parser that reads something, only what is done there matters. -/
theorem Consuming.andThen_run_congr {parser : Parser ε β} (consuming : parser.Consuming)
    {first second : Parser ε α} {cursor : Cursor ε}
    (same : ∀ after, after.left < cursor.left → first.run after = second.run after) :
    (parser.andThen first).run cursor = (parser.andThen second).run cursor := by
  unfold andThen Parser.bind Attempt.bind
  dsimp only
  split
  · next value after read => rw [same after (consuming cursor value after read)]
  · rfl
  · rfl

variable {step : Parser ε α → Parser ε α}

/-- From some depth on, it makes no difference how far the definition is followed. -/
theorem Guarded.unrolled_run (guarded : Guarded step) (cursor : Cursor ε) {depth depth' : Nat}
    (deep : cursor.left < depth) (deep' : cursor.left < depth') :
    (unrolled step depth).run cursor = (unrolled step depth').run cursor := by
  induction cursor using Cursor.left_induction generalizing depth depth' with
  | step cursor ih =>
    obtain ⟨depth, rfl⟩ := Nat.exists_eq_add_one_of_ne_zero (Nat.ne_zero_of_lt deep)
    obtain ⟨depth', rfl⟩ := Nat.exists_eq_add_one_of_ne_zero (Nat.ne_zero_of_lt deep')
    refine guarded _ _ cursor fun after closer => ih after closer ?_ ?_
    · exact Nat.lt_of_lt_of_le closer (Nat.le_of_lt_succ deep)
    · exact Nat.lt_of_lt_of_le closer (Nat.le_of_lt_succ deep')

/-- The parser is what its definition makes of it. -/
theorem Guarded.recursive_eq (guarded : Guarded step) : recursive step = step (recursive step) := by
  ext cursor
  refine guarded _ _ cursor fun after closer => ?_
  exact guarded.unrolled_run after closer (Nat.lt_succ_self _)

end DocCoverage.Parser
