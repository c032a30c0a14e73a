import DocCoverage.Grammar.Recursion
import DocCoverage.Proofs.Parser.Shift

/-!
# Grammars depend on what is left

Running a grammar on an input behind some other elements ends like running it on the input alone.
Of a value, only the spans in it tell the two runs apart. No later part of a grammar can depend on
them: a grammar goes on with the elements of a value, and these are the same.
-/

namespace DocCoverage

variable {ε κ : Type} (before : Array ε)

namespace Value

mutual

/-- The same value behind `before`: every span in it lies further back. -/
def shift : Value ε κ → Value ε κ
  | .element read => .element read
  | .slice run => .slice run
  | .list items => .list (shiftAll items)
  | .pair first second => .pair first.shift second.shift
  | .unit => .unit
  | .constant payload => .constant payload
  | .count number => .count number
  | .text content => .text content
  | .wrapped value => .wrapped value.shift
  | .spanned value span => .spanned value.shift (span.shift before)
  | .opened marker => .opened marker.shift
  | .inner items => .inner (shiftAll items)
  | .closed marker => .closed marker.shift
  | .token found => .token found

/-- The same values behind `before`. -/
def shiftAll : List (Value ε κ) → List (Value ε κ)
  | [] => []
  | value :: values => value.shift :: shiftAll values

end

theorem shiftAll_eq_map (values : List (Value ε κ)) :
    shiftAll before values = values.map (shift before) := by
  induction values with
  | nil => rfl
  | cons value values ih => rw [shiftAll, ih, List.map_cons]

variable [Element ε]

mutual

/-- The elements of a value do not depend on where it was read. -/
@[simp] theorem flatten_shift : (value : Value ε κ) → (value.shift before).flatten = value.flatten
  | .element _ | .slice _ | .unit | .constant _ | .count _ | .text _ | .token _ => rfl
  | .list items => flattenAll_shiftAll items
  | .inner items => flattenAll_shiftAll items
  | .pair first second => by
    rw [shift, flatten, flatten_shift first, flatten_shift second, flatten]
  | .wrapped value => flatten_shift value
  | .spanned value _ => flatten_shift value
  | .opened marker => flatten_shift marker
  | .closed marker => flatten_shift marker

theorem flattenAll_shiftAll :
    (values : List (Value ε κ)) → flattenAll (shiftAll before values) = flattenAll values
  | [] => rfl
  | value :: values => by
    rw [shiftAll, flattenAll, flatten_shift value, flattenAll_shiftAll values, flattenAll]

end

end Value

section Values

/-- A change sees nothing of a value but its elements and its shape. -/
theorem Mapping.apply_shift [Element ε] (mapping : Mapping) (value : Value ε κ) :
    mapping.apply (value.shift before) = (mapping.apply value).shift before := by
  cases mapping with
  | length => exact congrArg (Value.count ·.length) (value.flatten_shift before)
  | text => exact congrArg (Value.text <| Element.decode ·) (value.flatten_shift before)
  | reverse =>
    cases value with
    | list items =>
      simp only [apply, Value.shift, Value.reverse, Value.shiftAll_eq_map, List.map_reverse]
    | _ => rfl
  | wrap => rfl
  | discard => rfl

theorem Combination.apply_shift (combination : Combination) (first second : Value ε κ) :
    combination.apply (first.shift before) (second.shift before) =
      (combination.apply first second).shift before := by
  cases combination <;> rfl

theorem Node.value_shift (node : Node (Value ε κ) (List (Value ε κ)) (Value ε κ)) :
    (node.map (Value.shift before) (List.map (Value.shift before)) (Value.shift before)).value =
      node.value.shift before := by
  cases node with
  | inner items => exact congrArg Value.inner (Value.shiftAll_eq_map before items).symm
  | opened marker => rfl
  | closed marker => rfl

end Values

section Recognizers

variable {before : Array Char}

open DocCoverage.Parser

theorem Parser.mirrors_space : space.Mirrors before id space := mirrors_satisfy _

theorem Parser.mirrors_skipSpaces : skipSpaces.Mirrors before id skipSpaces :=
  mirrors_space.skipMany

theorem Parser.mirrors_endOfLine : endOfLine.Mirrors before id endOfLine :=
  ((mirrors_element _).orElse ((mirrors_literal _).map fun _ => rfl)).orElse
    ((mirrors_element _).map fun _ => rfl)

namespace Token

theorem mirrors_lineComment : lineComment.Mirrors before id lineComment :=
  ((mirrors_literal _).both (mirrors_any.manyTill mirrors_endOfLine)).map fun _ => by simp

theorem mirrors_blockComment : blockComment.Mirrors before id blockComment :=
  (mirrors_any.balanced (mirrors_literal _) (mirrors_literal _)).map fun _ => by simp

theorem mirrors_anyComment : anyComment.Mirrors before id anyComment :=
  mirrors_lineComment.orElse mirrors_blockComment

theorem mirrors_stringPiece : stringPiece.Mirrors before id stringPiece :=
  ((mirrors_literal _).orElse (mirrors_literal _)).orElse
    (mirrors_any.withSpan.map fun (_, span) => by simp)

theorem mirrors_quoted : quoted.Mirrors before id quoted :=
  ((mirrors_element _).andThen (mirrors_stringPiece.manyTill (mirrors_element _))).map
    fun _ => by simp

theorem mirrors_delimited : delimited.Mirrors before id delimited :=
  mirrors_anyComment.orElse mirrors_quoted

theorem mirrors_plainText : plainText.Mirrors before id plainText :=
  (mirrors_any.manyTill mirrors_delimited.lookAhead).map fun _ => by simp

end Token

end Recognizers

section Grammars

variable {before}

/-- No recognizer has a value with a span in it. -/
theorem Recognizer.mirrors (recognizer : Recognizer ε) :
    (recognizer.parser : Parser ε (Value ε κ)).Mirrors before (Value.shift before)
      recognizer.parser := by
  cases recognizer with
  | space => exact Parser.mirrors_space.map fun _ => rfl
  | skipSpaces => exact Parser.mirrors_skipSpaces.map fun _ => rfl
  | endOfLine => exact Parser.mirrors_endOfLine.map fun _ => rfl
  | lineComment => exact Token.mirrors_lineComment.map fun _ => rfl
  | blockComment => exact Token.mirrors_blockComment.map fun _ => rfl
  | comment => exact Token.mirrors_anyComment.map fun _ => rfl
  | stringLiteral => exact Token.mirrors_quoted.map fun _ => rfl
  | text => exact Token.mirrors_plainText.map fun _ => rfl

variable [DecidableEq ε] [Element ε]

theorem Grammar.mirrors {rule : String → Parser ε (Value ε κ)}
    (rules : ∀ name, (rule name).Mirrors before (Value.shift before) (rule name))
    (grammar : Grammar ε κ) :
    (grammar.parser rule).Mirrors before (Value.shift before) (grammar.parser rule) := by
  have items (values : List (Value ε κ)) :
      Value.list (values.map (Value.shift before)) = (Value.list values).shift before :=
    congrArg Value.list (Value.shiftAll_eq_map before values).symm
  induction grammar with
  | pure payload => exact Parser.mirrors_pure _ _
  | any => exact Parser.mirrors_any.map fun _ => rfl
  | element expected => exact (Parser.mirrors_element expected).map fun _ => rfl
  | satisfy predicate => exact (Parser.mirrors_satisfy _).map fun _ => rfl
  | literal expected => exact (Parser.mirrors_literal expected).map fun _ => rfl
  | take count =>
    refine (Parser.mirrors_take count).map fun elements => ?_
    rw [← items, List.map_map]
    rfl
  | recognize recognizer => exact recognizer.mirrors
  | map body mapping inside => exact inside.map (mapping.apply_shift before)
  | orElse first second one two => exact one.orElse two
  | both first second one two => exact (one.both two).map fun _ => rfl
  | andThen first second one two => exact one.andThen two
  | followedBy first second one two => exact one.followedBy two
  | apply first second combination one two =>
    exact one.applyMap two (combination.apply_shift before)
  | bind first next one two =>
    -- The elements of the value choose what follows, so both runs go on with the same grammar.
    refine one.bind fun value => ?_
    rw [value.flatten_shift before]
    exact two value.flatten
  | lookAhead body inside => exact inside.lookAhead
  | withSpan body inside => exact inside.withSpan.map fun _ => rfl
  | many body inside => exact inside.many.map items
  | many1 body inside => exact inside.many1.map items
  | skipMany body inside => exact inside.skipMany.map fun _ => rfl
  | skipMany1 body inside => exact inside.skipMany1.map fun _ => rfl
  | manyTill body stop inside ends => exact (inside.manyTill ends).map items
  | balanced inner opening closing inside opens closes =>
    refine (inside.balanced opens closes).map fun nodes => ?_
    rw [← items, List.map_map, List.map_map]
    exact congrArg Value.list (List.map_congr_left fun node _ => node.value_shift before)
  | lazy body inside => exact inside
  | ref name => exact rules name

namespace Rules

theorem mirrors (rules : Rules ε κ) (depth : Nat) (name : String) :
    (rules.parser depth name).Mirrors before (Value.shift before) (rules.parser depth name) := by
  induction depth generalizing name with
  | zero => exact Parser.mirrors_diverge _
  | succ depth ih =>
    rw [parser]
    split
    · next body found => exact body.mirrors ih
    · exact Parser.mirrors_fail _ _

/-- As much is left to be read behind `before`, so that rules are unrolled as far. -/
theorem outcome_run_shift (rules : Rules ε κ) (grammar : Grammar ε κ) (cursor : Cursor ε) :
    (rules.run grammar (cursor.shift before)).outcome =
      (rules.run grammar cursor).outcome.shift before (Value.shift before) := by
  unfold run depthAt
  rw [Cursor.left_shift]
  exact grammar.mirrors (rules.mirrors _) cursor

end Rules

end Grammars

section Behind

variable [Element ε]

/-- The second outcome is the first one further back in the input: of the same kind, with the same
value up to the places of its spans, or with the same message. -/
structure Outcome.Behind (short long : Outcome ε (Value ε κ)) : Prop where
  success : ∀ value after, short = .success value after → ∃ after',
    long = .success (value.shift before) after' ∧ after'.source = before ++ after.source ∧
      after'.position = before.size + after.position
  failure : ∀ reason, short = .failure reason → ∃ reason',
    long = .failure reason' ∧ reason'.isEndOfInput = reason.isEndOfInput ∧
      reason'.message = reason.message ∧ reason'.position = before.size + reason.position
  diverged : long = .diverged ↔ short = .diverged

theorem Outcome.behind_shift (outcome : Outcome ε (Value ε κ)) :
    Behind before outcome (outcome.shift before (Value.shift before)) where
  success := by
    rintro value after rfl
    exact ⟨after.shift before, rfl, rfl, rfl⟩
  failure := by
    rintro reason rfl
    exact ⟨reason.shift before, rfl, rfl, rfl, rfl⟩
  diverged := by
    cases outcome with
    | success value after => exact iff_of_false nofun nofun
    | failure reason => exact iff_of_false nofun nofun
    | diverged => exact Iff.rfl

/-- A grammar does on an input what it does on that input behind `before`, both with all references
followed and with as many as any given number. -/
theorem Rules.run_behind [DecidableEq ε] (rules : Rules ε κ) (grammar : Grammar ε κ)
    (source : Array ε) :
    Outcome.Behind before (rules.run grammar (Cursor.start source)).outcome
        (rules.run grammar ((Cursor.start (before ++ source)).advance before.size)).outcome ∧
      ∀ depth, Outcome.Behind before
        ((grammar.parser (rules.parser depth)).outcome (Cursor.start source))
        ((grammar.parser (rules.parser depth)).outcome
          ((Cursor.start (before ++ source)).advance before.size)) := by
  rw [← Cursor.start_shift]
  refine ⟨?_, fun depth => ?_⟩
  · rw [outcome_run_shift]
    exact Outcome.behind_shift ..
  · rw [grammar.mirrors (rules.mirrors depth)]
    exact Outcome.behind_shift ..

end Behind

end DocCoverage
