import DocCoverage.Proofs.Token.Insertion

/-!
# A line feed behind the text

A line feed at the end of a text finishes a line comment that runs up to there, and no other comment
and no string literal. Apart from that the tokens stay as they are: the line feed is left over, or
belongs to the break of the last line comment.
-/

namespace DocCoverage.Token

/-- Neither a comment nor a string literal begins in the stretch, with the rest behind it. -/
def Clear (stretch rest : List Char) : Prop :=
  ∀ count < stretch.length, delimited? ((stretch ++ rest).drop count) = none

/-- The text is a line comment but for the line break that ends one. -/
inductive Unended : List Char → Prop where
  | intro {body : List Char} (unbroken : Unbroken body) : Unended ('/' :: '/' :: body)

section Delimiters

variable {input last : List Char} {token : Token}

/-- A comment or string literal that is finished is read as before. -/
theorem delimited?_lineFeed (read : delimited? input = some (token, last)) :
    ∃ rest, Ends last [] rest ∧ delimited? (input ++ ['\n']) = some (token, rest) := by
  cases opening input with
  | line body =>
    simp only [List.cons_append, delimited?_line, made_eq_some_iff, behind_eq_some_iff] at read ⊢
    obtain ⟨run, ⟨line, read', rfl⟩, rfl⟩ := read
    rw [← List.append_nil body, ← List.append_nil last] at read'
    obtain ⟨rest, ends, further⟩ := upTo_lineBreak?_insert read' []
    exact ⟨rest, ends, _, ⟨line, further, rfl⟩, rfl⟩
  | block body =>
    simp only [List.cons_append, delimited?_block, made_eq_some_iff, behind_eq_some_iff] at read ⊢
    obtain ⟨run, ⟨run', read', rfl⟩, rfl⟩ := read
    exact ⟨_, .kept, _, ⟨run', closed?_append read' _, rfl⟩, rfl⟩
  | quote body =>
    simp only [List.cons_append, delimited?_quote, made_eq_some_iff] at read ⊢
    obtain ⟨run, read', rfl⟩ := read
    exact ⟨_, .kept, run, quotation?_append read' _, rfl⟩
  | none noLine noBlock noQuote =>
    rw [delimited?_of_unmarked noLine noBlock noQuote] at read
    cases read

/-- Of what is not finished, a line feed only finishes a line comment. -/
theorem delimited?_lineFeed_of_none (unread : delimited? input = none) :
    delimited? (input ++ ['\n']) = none ∨ Unended input := by
  cases opening input with
  | line body =>
    simp only [delimited?_line, made, Option.map_eq_none_iff, behind_eq_none_iff,
      upTo_lineBreak?_eq_none_iff] at unread
    exact .inr ⟨unread⟩
  | block body =>
    simp only [List.cons_append, delimited?_block, made, Option.map_eq_none_iff,
      behind_eq_none_iff] at unread ⊢
    obtain ⟨still, further⟩ := closed?_append_of_none unread
    refine .inl ?_
    rw [further _ (by simp) (by simp)]
    rfl
  | quote body =>
    simp only [List.cons_append, delimited?_quote, made, Option.map_eq_none_iff] at unread ⊢
    refine .inl ?_
    rw [quotation?_append_of_none unread (by simp) (by simp)]
    rfl
  | none noLine noBlock noQuote =>
    exact .inl (delimited?_append_of_unmarked noLine noBlock noQuote (by simp) (by simp) (by simp))

theorem suffix_of_delimited? (read : delimited? input = some (token, last)) : last <:+ input := by
  obtain ⟨raw, -, shape, -⟩ := written_of_delimited? read
  exact ⟨raw, shape⟩

theorem Unended.delimited? (unended : Unended input) :
    delimited? (input ++ ['\n']) = some (.comment (String.ofList input), []) := by
  obtain @⟨body, unbroken⟩ := unended
  have line : lineBreak?.upTo (body ++ ['\n']) = some (body, []) :=
    upTo_lineBreak?_eq_some_iff.mpr ⟨_, '\n', rfl, unbroken, rfl⟩
  rw [List.cons_append, List.cons_append, delimited?_line, line]
  rfl

end Delimiters

section Stretches

variable {stretch rest : List Char} {char : Char}

theorem clear_nil (rest : List Char) : Clear [] rest :=
  fun _ below => absurd below (Nat.not_lt_zero _)

theorem clear_cons_iff : Clear (char :: stretch) rest ↔
    delimited? (char :: stretch ++ rest) = none ∧ Clear stretch rest := by
  constructor
  · intro clear
    exact ⟨clear 0 (Nat.zero_lt_succ _),
      fun count below => clear (count + 1) (Nat.succ_lt_succ below)⟩
  · rintro ⟨here, later⟩ (_ | count) below
    · exact here
    · exact later count (Nat.lt_of_succ_lt_succ below)

theorem Clear.append {more : List Char} (clear : Clear stretch (more ++ rest))
    (clear' : Clear more rest) : Clear (stretch ++ more) rest := by
  induction stretch with
  | nil => exact clear'
  | cons char stretch ih =>
    obtain ⟨here, later⟩ := clear_cons_iff.mp clear
    rw [← List.append_assoc] at here
    exact clear_cons_iff.mpr ⟨here, ih later⟩

/-- Where nothing begins, everything is left over. -/
theorem Clear.segments_eq (clear : Clear stretch []) : segments stretch = leftover stretch := by
  refine segments_of_undelimited fun count below => ?_
  have here := clear count below
  rwa [List.append_nil] at here

/-- Either nothing begins in a text, or there is a first place where something does. -/
theorem clear_or_exists (input : List Char) :
    Clear input [] ∨ ∃ stretch rest token last,
      input = stretch ++ rest ∧ Clear stretch rest ∧ delimited? rest = some (token, last) := by
  induction input with
  | nil => exact .inl (clear_nil [])
  | cons char input ih =>
    cases read : delimited? (char :: input) with
    | some found => exact .inr ⟨[], _, found.1, found.2, rfl, clear_nil _, read⟩
    | none =>
      rcases ih with clear | ⟨stretch, rest, token, last, rfl, clear, read'⟩
      · exact .inl (clear_cons_iff.mpr ⟨by rwa [List.append_nil], clear⟩)
      · have clear' := clear_cons_iff.mpr ⟨read, clear⟩
        exact .inr ⟨char :: stretch, rest, token, last, rfl, clear', read'⟩

/-- Induction on what stands behind the first comment or string literal of a text. -/
theorem clear_induction {motive : List Char → Prop}
    (plain : ∀ input, Clear input [] → motive input)
    (step : ∀ stretch rest token last, Clear stretch rest → delimited? rest = some (token, last) →
      motive last → motive (stretch ++ rest)) (input : List Char) : motive input := by
  induction measured : input.length using Nat.strongRecOn generalizing input with
  | _ length ih =>
    subst measured
    rcases clear_or_exists input with clear | ⟨stretch, rest, token, last, rfl, clear, read⟩
    · exact plain input clear
    · have shorter := length_lt_of_delimited? read
      have bound : last.length < (stretch ++ rest).length := by
        rw [List.length_append]
        omega
      exact step stretch rest token last clear read (ih last.length bound last rfl)

/-- With a line feed behind it, a stretch stays clear up to the first line comment in it that has no
end. -/
theorem Clear.lineFeed (clear : Clear stretch rest) :
    Clear stretch (rest ++ ['\n']) ∨ ∃ front comment, front ++ comment = stretch ++ rest ∧
      Clear front comment ∧ Clear front (comment ++ ['\n']) ∧ Unended comment := by
  induction stretch with
  | nil => exact .inl (clear_nil _)
  | cons char stretch ih =>
    obtain ⟨here, later⟩ := clear_cons_iff.mp clear
    rcases delimited?_lineFeed_of_none here with still | unended
    · rcases ih later with clear' | ⟨front, comment, shape, before, before', unended⟩
      · rw [List.append_assoc] at still
        exact .inl (clear_cons_iff.mpr ⟨still, clear'⟩)
      · have whole : char :: front ++ comment = char :: stretch ++ rest :=
          congrArg (char :: ·) shape
        rw [← whole] at here still
        rw [List.append_assoc] at still
        exact .inr ⟨char :: front, comment, whole, clear_cons_iff.mpr ⟨here, before⟩,
          clear_cons_iff.mpr ⟨still, before'⟩, unended⟩
    · exact .inr ⟨[], _, rfl, clear_nil _, clear_nil _, unended⟩

end Stretches

theorem segments_nil : segments [] = [] := segments_of_none rfl

/-- The tokens of a text with a line feed behind it, by what becomes of the line feed. -/
inductive Fed (input : List Char) : List Token → Prop where
  /-- It belongs to the break of the last comment, behind a carriage return. -/
  | taken : Fed input (segments input)
  /-- It is left over, behind what was left over. -/
  | kept {tokens : List Token} {left : List Char}
      (shared : segments input = tokens ++ leftover left) :
      Fed input (tokens ++ leftover (left ++ ['\n']))
  /-- It ends a line comment, in front of which nothing else begins. -/
  | ended {tokens : List Token} {front comment : List Char}
      (shared : segments input = tokens ++ segments (front ++ comment))
      (inside : comment <:+ input) (clear : Clear front comment) (unended : Unended comment) :
      Fed input (tokens ++ (leftover (front.dropWhile Text.isSpace) ++
        [.comment (String.ofList comment)]))

/-- What becomes of the line feed does not depend on the tokens in front of the last ones. -/
theorem Fed.prepend {input last : List Char} {tokens others : List Token} (fed : Fed last others)
    (shared : segments input = tokens ++ segments last) (inside : last <:+ input) :
    Fed input (tokens ++ others) := by
  cases fed with
  | taken => exact shared ▸ .taken
  | kept shared' =>
    rw [← List.append_assoc]
    exact .kept (by rw [shared, shared', List.append_assoc])
  | ended shared' inside' clear unended =>
    rw [← List.append_assoc]
    exact .ended (by rw [shared, shared', List.append_assoc]) (inside'.trans inside) clear unended

/-- A line feed that ends a line comment leaves what stands in front of it as it was. -/
theorem Unended.fed {front comment : List Char} (unended : Unended comment)
    (clear : Clear front comment) (clear' : Clear front (comment ++ ['\n'])) :
    Fed (front ++ comment) (segments (front ++ comment ++ ['\n'])) := by
  rw [List.append_assoc, segments_append clear' unended.delimited?, segments_nil]
  exact @Fed.ended _ [] _ _ rfl (List.suffix_append ..) clear unended

/-- What a line feed behind a text does to its tokens. -/
theorem fed_segments (input : List Char) : Fed input (segments (input ++ ['\n'])) := by
  induction input using clear_induction with
  | plain input clear =>
    rcases clear.lineFeed with clear' | ⟨front, comment, shape, before, before', unended⟩
    · have feed : Clear ['\n'] [] := clear_cons_iff.mpr ⟨rfl, clear_nil _⟩
      have whole : Clear (input ++ ['\n']) [] := .append clear' feed
      rw [whole.segments_eq]
      exact @Fed.kept _ [] _ clear.segments_eq
    · rw [← List.append_nil input, ← shape]
      exact unended.fed before before'
  | step stretch rest token last clear read fed =>
    rcases clear.lineFeed with clear' | ⟨front, comment, shape, before, before', unended⟩
    · obtain ⟨rest', ends, read'⟩ := delimited?_lineFeed read
      have shared := segments_append clear read
      have inside := (suffix_of_delimited? read).trans (List.suffix_append stretch rest)
      rw [List.append_assoc, segments_append clear' read']
      cases ends with
      | kept =>
        rw [List.append_cons] at shared ⊢
        exact fed.prepend shared inside
      | taken empty =>
        rw [← empty, ← shared]
        exact .taken
    · rw [← shape]
      exact unended.fed before before'

end DocCoverage.Token
