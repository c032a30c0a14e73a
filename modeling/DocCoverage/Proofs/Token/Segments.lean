import DocCoverage.Proofs.Token.Extension
import DocCoverage.Token.Tokenize

/-!
# Segments

What tokenizing does, said on the characters that are left: the next token again and again, and
then one text of what is left over.
-/

namespace DocCoverage.Token

/-- The text token of what is left over, if anything is. -/
def leftover (input : List Char) : List Token :=
  if input = [] then [] else [text (String.ofList input)]

/-- The tokens of a text. -/
def segments (input : List Char) : List Token :=
  let (tokens, rest) := Reading.many next? input
  tokens ++ leftover rest

section Next

variable {input run rest : List Char} {token : Token}

/-- Text runs up to the nearest place where a comment or a string literal stands. -/
theorem nearest?_eq_some_iff :
    nearest? input = some (run, rest) ↔
      input = run ++ rest ∧ delimited? rest ≠ none ∧
        ∀ count < run.length, delimited? (input.drop count) = none := by
  unfold nearest?
  rw [Reading.upTo_eq_some_iff]
  simp only [Option.map_eq_none_iff, Option.map_eq_some_iff, Prod.mk.injEq,
    Option.ne_none_iff_exists']
  constructor
  · rintro ⟨before, found, shape, value, ⟨⟨token, last⟩, here, -, rfl⟩⟩
    exact ⟨shape, ⟨_, here⟩, before⟩
  · rintro ⟨shape, ⟨⟨token, last⟩, here⟩, before⟩
    exact ⟨before, rest, shape, token, ⟨(token, last), here, rfl, rfl⟩⟩

theorem nearest?_eq_none_iff :
    nearest? input = none ↔ ∀ count, delimited? (input.drop count) = none := by
  unfold nearest?
  rw [Reading.upTo_eq_none_iff]
  simp only [Option.map_eq_none_iff]

/-- The next token is the comment or string literal behind the spaces, or else the text up to the
nearest one. -/
theorem next?_eq_some_iff :
    next? input = some (token, rest) ↔
      delimited? (input.dropWhile Text.isSpace) = some (token, rest) ∨
        delimited? (input.dropWhile Text.isSpace) = none ∧
          ∃ run, nearest? (input.dropWhile Text.isSpace) = some (run, rest) ∧
            text (String.ofList run) = token := by
  unfold next?
  rw [Option.or_eq_some_iff, made_eq_some_iff]

theorem next?_eq_none_iff :
    next? input = none ↔
      ∀ count, delimited? ((input.dropWhile Text.isSpace).drop count) = none := by
  unfold next?
  rw [Option.or_eq_none_iff, made, Option.map_eq_none_iff, nearest?_eq_none_iff]
  constructor
  · rintro ⟨-, nowhere⟩
    exact nowhere
  · exact fun nowhere => ⟨nowhere 0, nowhere⟩

/-- A text token has a first character. -/
theorem ne_nil_of_nearest? (undelimited : delimited? input = none)
    (read : nearest? input = some (run, rest)) : run ≠ [] := by
  rintro rfl
  obtain ⟨rfl, here, -⟩ := nearest?_eq_some_iff.mp read
  exact here undelimited

theorem length_lt_of_delimited? (read : delimited? input = some (token, rest)) :
    rest.length < input.length := by
  obtain ⟨raw, written, rfl, marked⟩ := written_of_delimited? read
  have positive := List.length_pos_iff.mpr (written.solid marked).1
  rw [List.length_append]
  omega

theorem suffix_of_next? (read : next? input = some (token, rest)) : rest <:+ input := by
  refine List.IsSuffix.trans ?_ (List.dropWhile_suffix Text.isSpace)
  rcases next?_eq_some_iff.mp read with here | ⟨-, run, near, -⟩
  · obtain ⟨raw, -, shape, -⟩ := written_of_delimited? here
    exact ⟨raw, shape⟩
  · exact ⟨run, (nearest?_eq_some_iff.mp near).1.symm⟩

theorem length_lt_of_next? (read : next? input = some (token, rest)) :
    rest.length < input.length := by
  have bound : (input.dropWhile Text.isSpace).length ≤ input.length :=
    (List.dropWhile_suffix _).length_le
  rcases next?_eq_some_iff.mp read with here | ⟨undelimited, run, near, -⟩
  · have shorter := length_lt_of_delimited? here
    omega
  · have positive := List.length_pos_iff.mpr (ne_nil_of_nearest? undelimited near)
    have shape := congrArg List.length (nearest?_eq_some_iff.mp near).1
    rw [List.length_append] at shape
    omega

theorem segments_of_next? (read : next? input = some (token, rest)) :
    segments input = token :: segments rest := by
  unfold segments
  rw [Reading.many_of_some read (length_lt_of_next? read)]
  rfl

theorem segments_of_delimited? (read : delimited? input = some (token, rest)) :
    segments input = token :: segments rest := by
  refine segments_of_next? (next?_eq_some_iff.mpr (.inl ?_))
  rw [Text.dropWhile_of_solid (solid_of_delimited? read), read]

theorem segments_of_none (refused : next? input = none) : segments input = leftover input := by
  unfold segments
  rw [Reading.many_of_none refused]
  rfl

/-- Nothing begins behind the end of a text. -/
theorem undelimited_of_lt
    (undelimited : ∀ count < input.length, delimited? (input.drop count) = none)
    (count : Nat) :
    delimited? (input.drop count) = none := by
  by_cases below : count < input.length
  · exact undelimited count below
  · rw [List.drop_of_length_le (Nat.le_of_not_lt below)]
    decide

/-- Where no comment and no string literal stands, everything is left over. -/
theorem segments_of_undelimited
    (undelimited : ∀ count < input.length, delimited? (input.drop count) = none) :
    segments input = leftover input := by
  obtain ⟨gap, shape⟩ := List.dropWhile_suffix (l := input) Text.isSpace
  refine segments_of_none (next?_eq_none_iff.mpr fun count => ?_)
  have later := undelimited_of_lt undelimited (gap.length + count)
  rw [← List.drop_drop] at later
  rwa [← shape, List.drop_left] at later

theorem Calm.segments_eq (calm : Calm input) : segments input = leftover input := by
  apply segments_of_undelimited
  intro count below
  have here := calm.delimited?_drop [] below
  rwa [List.append_nil] at here

/-- In front of a comment or string literal everything is one text, without the spaces that it
begins with. -/
theorem segments_append {front : List Char}
    (undelimited : ∀ count < front.length, delimited? ((front ++ input).drop count) = none)
    (read : delimited? input = some (token, rest)) :
    segments (front ++ input) =
      leftover (front.dropWhile Text.isSpace) ++ token :: segments rest := by
  obtain ⟨gap, split⟩ := List.dropWhile_suffix (l := front) Text.isSpace
  have skipped := Text.dropWhile_append_of_solid (solid_of_delimited? read) front
  generalize front.dropWhile Text.isSpace = run at split skipped ⊢
  cases run with
  | nil =>
    rw [List.nil_append] at skipped
    rw [segments_of_next? (next?_eq_some_iff.mpr (.inl (skipped.symm ▸ read)))]
    rfl
  | cons first run =>
    have before : ∀ count < (first :: run).length,
        delimited? ((first :: run ++ input).drop count) = none := by
      intro count below
      have inFront : gap.length + count < front.length := by
        rw [← split, List.length_append]
        omega
      have here := undelimited _ inFront
      rwa [← split, List.append_assoc, ← List.drop_drop, List.drop_left] at here
    have near : nearest? (first :: run ++ input) = some (first :: run, input) :=
      nearest?_eq_some_iff.mpr ⟨rfl, read ▸ Option.some_ne_none _, before⟩
    have next : next? (front ++ input) = some (.text (String.ofList (first :: run)), input) := by
      refine next?_eq_some_iff.mpr (.inr ?_)
      rw [skipped]
      exact ⟨before 0 (Nat.zero_lt_succ _), _, near, rfl⟩
    rw [segments_of_next? next, segments_of_delimited? read]
    rfl

/-- A text is one token if nothing begins inside of it, up to where the next token begins. -/
theorem segments_append_of_solid {front : List Char} (nonempty : front ≠ [])
    (solid : Text.Solid front)
    (undelimited : ∀ count < front.length, delimited? ((front ++ input).drop count) = none)
    (ends : input = [] ∨ delimited? input ≠ none) :
    segments (front ++ input) = .text (String.ofList front) :: segments input := by
  rcases ends with rfl | here
  · have none : next? [] = .none := by decide
    rw [List.append_nil] at undelimited ⊢
    rw [segments_of_undelimited undelimited, segments_of_none none, leftover, if_neg nonempty]
    rfl
  · obtain ⟨⟨token, rest⟩, read⟩ := Option.ne_none_iff_exists'.mp here
    rw [segments_append undelimited read, segments_of_delimited? read,
      Text.dropWhile_of_solid solid, leftover, if_neg nonempty]
    rfl

end Next

section Leads

variable {input rest : List Char} {tokens : List Token}

/-- The tokens lead from a text to what is left behind them. -/
inductive Leads : List Char → List Token → List Char → Prop where
  | nil {input : List Char} : Leads input [] input
  | cons {input middle rest : List Char} {token : Token} {tokens : List Token}
      (read : next? input = some (token, middle)) (others : Leads middle tokens rest) :
      Leads input (token :: tokens) rest

theorem Leads.segments_eq (leads : Leads input tokens rest) :
    segments input = tokens ++ segments rest := by
  induction leads with
  | nil => rfl
  | cons read others ih =>
    rw [segments_of_next? read, ih]
    rfl

theorem Leads.suffix (leads : Leads input tokens rest) : rest <:+ input := by
  induction leads with
  | nil => exact List.suffix_refl _
  | cons read others ih => exact ih.trans (suffix_of_next? read)

/-- No tokens are taken from nothing. -/
theorem Leads.eq_nil (leads : Leads input tokens input) : tokens = [] := by
  cases leads with
  | nil => rfl
  | cons read others =>
    have shorter := length_lt_of_next? read
    have bound := others.suffix.length_le
    omega

end Leads

/-- What tokenizing does where the tokens have been recognized. -/
theorem tokenize_of_success {input : String} {tokens : List Token} {after : Cursor Char}
    (succeeded : anyTokens.outcome (Cursor.start input.toList.toArray) = .success tokens after) :
    tokenize input = .ok (tokens ++ leftover after.rest) := by
  have ran : (anyTokens.run (Cursor.start input.toList.toArray)).outcome = .success tokens after :=
    succeeded
  have empty : after.left = 0 ↔ after.rest = [] := by
    rw [← Cursor.length_rest, List.length_eq_zero_iff]
  unfold tokenize tokenizeLogged
  simp only [Log.Logged.value_bind, Log.Logged.ofAttempt, ran, withLeftover, leftover, empty]
  split <;> simp

/-- Tokenizing always succeeds, with the segments of the text. -/
theorem tokenize_eq (input : String) : tokenize input = .ok (segments input.toList) := by
  have start : (Cursor.start input.toList.toArray).rest = input.toList := Cursor.rest_start _
  obtain ⟨after, succeeded, -, behind⟩ :=
    reads_anyToken.many.success (congrArg (fun text => some (Reading.many next? text)) start)
  rw [tokenize_of_success succeeded, behind, segments]

end DocCoverage.Token
