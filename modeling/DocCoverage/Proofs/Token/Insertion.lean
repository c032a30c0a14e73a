import DocCoverage.Proofs.Token.Segments

/-!
# Inserting a documentation comment

A documentation comment on a line of its own can be put in front of any word: no comment and no
string literal that begins before it is opened or closed by it, and the tokens that end before it
stay as they are. Only the break of a line comment can grow, from a carriage return to one with a
line feed.
-/

namespace DocCoverage.Token

/-- A line that is a documentation comment. -/
def docLine : List Char := ['/', '/', '/', ' ', 'd', '\n']

/-- The text begins with a character that stands neither in a mark nor between words, and it has a
line feed. -/
structure Insertable (input : List Char) : Prop where
  solid : Text.Solid input
  noSlash : ¬ ['/'] <+: input
  noStar : ¬ ['*'] <+: input
  unquoted : ¬ ['"'] <+: input
  stops : ¬ ['\\'] <+: input
  lines : '\n' ∈ input

section Marks

variable {front input last : List Char} {token : Token}

theorem delimited?_docLine (input : List Char) :
    delimited? (docLine ++ input) = some (.comment "/// d", input) := by
  have line : lineBreak?.upTo (['/', ' ', 'd', '\n'] ++ input) = some (['/', ' ', 'd'], input) :=
    rfl
  change delimited? ('/' :: '/' :: (['/', ' ', 'd', '\n'] ++ input)) = _
  rw [delimited?_line, line]
  rfl

/-- No comment is opened or closed by the line. -/
theorem closed?_docLine (depth : Nat) (input : List Char) :
    closed? (depth + 1) ('\n' :: docLine ++ input) =
      behind ('\n' :: docLine) (closed? (depth + 1) input) := by
  simp [docLine, closed?, behind_behind]

theorem not_pair_prefix_append {first second : Char} {more : List Char}
    (here : ¬ [first, second] <+: front) (noFirst : ¬ [first] <+: more)
    (noSecond : ¬ [second] <+: more) : ¬ [first, second] <+: front ++ more := by
  rcases front with _ | ⟨head, _ | ⟨next, front⟩⟩
  · exact fun stands => noFirst ((List.prefix_append [first] [second]).trans stands)
  · simpa [List.cons_prefix_cons] using fun _ => noSecond
  · simpa [List.cons_prefix_cons] using here

/-- Where a text has no mark, none comes about from what stands behind it. -/
theorem delimited?_append_of_unmarked {more : List Char} (noLine : ¬ ['/', '/'] <+: front)
    (noBlock : ¬ ['/', '*'] <+: front) (noQuote : ¬ ['"'] <+: front) (noSlash : ¬ ['/'] <+: more)
    (noStar : ¬ ['*'] <+: more) (unquoted : ¬ ['"'] <+: more) :
    delimited? (front ++ more) = none :=
  delimited?_of_unmarked (not_pair_prefix_append noLine noSlash noSlash)
    (not_pair_prefix_append noBlock noSlash noStar)
    (not_singleton_prefix_append noQuote fun _ => unquoted)

theorem closed?_insert_eq_none_iff (insertable : Insertable input) (depth : Nat) :
    closed? depth (front ++ ('\n' :: docLine ++ input)) = none ↔
      closed? depth (front ++ input) = none := by
  cases inside : closed? depth front with
  | some found =>
    obtain ⟨run, last⟩ := found
    rw [closed?_append inside, closed?_append inside]
    exact ⟨nofun, nofun⟩
  | none =>
    obtain ⟨still, further⟩ := closed?_append_of_none inside
    rw [further _ (by simp) (by simp), further _ insertable.noSlash insertable.noStar,
      closed?_docLine, behind_behind, behind_eq_none_iff, behind_eq_none_iff]

theorem quotation?_insert_eq_none_iff (insertable : Insertable input) :
    quotation? (front ++ ('\n' :: docLine ++ input)) = none ↔
      quotation? (front ++ input) = none := by
  cases inside : quotation? front with
  | some found =>
    obtain ⟨run, last⟩ := found
    rw [quotation?_append inside, quotation?_append inside]
    exact ⟨nofun, nofun⟩
  | none =>
    rw [quotation?_append_of_none inside (by simp) (by simp),
      quotation?_append_of_none inside insertable.unquoted insertable.stops,
      quotation?_append_of_plain (by decide) (by decide), behind_behind, behind_eq_none_iff,
      behind_eq_none_iff]

/-- Comments and string literals begin at the same places as before. -/
theorem delimited?_insert_eq_none_iff (insertable : Insertable input) :
    delimited? (front ++ ('\n' :: docLine ++ input)) = none ↔
      delimited? (front ++ input) = none := by
  cases opening front with
  | line body =>
    have lines : '\n' ∈ body ++ input := List.mem_append_right body insertable.lines
    have lines' : '\n' ∈ body ++ ('\n' :: docLine ++ input) :=
      List.mem_append_right body (List.mem_cons_self ..)
    simp only [List.cons_append, delimited?_line, made, Option.map_eq_none_iff, behind_eq_none_iff]
    exact iff_of_false (upTo_lineBreak?_ne_none lines') (upTo_lineBreak?_ne_none lines)
  | block body =>
    have same : closed? 1 (body ++ ('\n' :: docLine ++ input)) = none ↔ _ :=
      closed?_insert_eq_none_iff insertable 1
    simpa only [List.cons_append, delimited?_block, made, Option.map_eq_none_iff,
      behind_eq_none_iff] using same
  | quote body =>
    have same : quotation? (body ++ ('\n' :: docLine ++ input)) = none ↔ _ :=
      quotation?_insert_eq_none_iff insertable
    simpa only [List.cons_append, delimited?_quote, made, Option.map_eq_none_iff] using same
  | none noLine noBlock noQuote =>
    have before := delimited?_append_of_unmarked noLine noBlock noQuote insertable.noSlash
      insertable.noStar insertable.unquoted
    have after : delimited? (front ++ ('\n' :: docLine ++ input)) = none :=
      delimited?_append_of_unmarked noLine noBlock noQuote (by simp) (by simp) (by simp)
    exact iff_of_true after before

end Marks

section Steps

variable {front input last more rest : List Char} {token : Token} {tokens : List Token}

/-- What is left where a line feed and `more` are put behind what was left: the same in front of
them, or only `more` if a line break has taken the line feed. -/
inductive Ends (last more : List Char) : List Char → Prop where
  | kept : Ends last more (last ++ '\n' :: more)
  | taken (empty : last = []) : Ends last more more

theorem lineBreak?_insert {char : Char}
    (read : lineBreak? (front ++ input) = some (char, last ++ input)) (more : List Char) :
    ∃ rest, Ends last more rest ∧ lineBreak? (front ++ '\n' :: more) = some (char, rest) := by
  obtain ⟨rfl, lineBreak, member, shape, single⟩ := lineBreak?_eq_some_iff.mp read
  rw [← List.append_assoc] at shape
  obtain rfl := List.append_cancel_right shape
  simp only [lineBreaks, List.mem_cons, List.not_mem_nil, or_false] at member
  rcases member with rfl | rfl | rfl
  · exact ⟨_, .kept, rfl⟩
  · exact ⟨_, .kept, rfl⟩
  have noFeed : ¬ ['\n'] <+: last ++ input := single rfl
  cases last with
  | nil => exact ⟨more, .taken rfl, rfl⟩
  | cons next last =>
    refine ⟨_, .kept, lineBreak?_return ?_⟩
    simpa [List.cons_prefix_cons] using noFeed

theorem upTo_lineBreak?_insert {line : List Char}
    (read : lineBreak?.upTo (front ++ input) = some (line, last ++ input)) (more : List Char) :
    ∃ rest, Ends last more rest ∧ lineBreak?.upTo (front ++ '\n' :: more) = some (line, rest) := by
  obtain ⟨found, char, shape, unbroken, broken⟩ := upTo_lineBreak?_eq_some_iff.mp read
  obtain ⟨-, lineBreak, -, rfl, -⟩ := lineBreak?_eq_some_iff.mp broken
  simp only [← List.append_assoc, List.append_cancel_right_eq] at shape broken
  subst shape
  obtain ⟨rest, ends, broken'⟩ := lineBreak?_insert broken more
  refine ⟨rest, ends, upTo_lineBreak?_eq_some_iff.mpr ⟨_, char, ?_, unbroken, broken'⟩⟩
  simp only [List.append_assoc]

/-- A comment or string literal that ends before the place is the same as before. -/
theorem delimited?_insert (insertable : Insertable input)
    (read : delimited? (front ++ input) = some (token, last ++ input)) (more : List Char) :
    ∃ rest, Ends last more rest ∧ delimited? (front ++ '\n' :: more) = some (token, rest) := by
  cases opening front with
  | line body =>
    simp only [List.cons_append, delimited?_line, made_eq_some_iff, behind_eq_some_iff] at read ⊢
    obtain ⟨run, ⟨line, read', rfl⟩, rfl⟩ := read
    obtain ⟨rest, ends, further⟩ := upTo_lineBreak?_insert read' more
    exact ⟨rest, ends, _, ⟨line, further, rfl⟩, rfl⟩
  | block body =>
    simp only [List.cons_append, delimited?_block, made_eq_some_iff, behind_eq_some_iff] at read ⊢
    obtain ⟨run, ⟨run', read', rfl⟩, rfl⟩ := read
    have inside := closed?_of_append insertable.noSlash insertable.noStar read'
    exact ⟨_, .kept, _, ⟨run', closed?_append inside _, rfl⟩, rfl⟩
  | quote body =>
    simp only [List.cons_append, delimited?_quote, made_eq_some_iff] at read ⊢
    obtain ⟨run, read', rfl⟩ := read
    have inside := quotation?_of_append insertable.unquoted insertable.stops read'
    exact ⟨_, .kept, run, quotation?_append inside _, rfl⟩
  | none noLine noBlock noQuote =>
    rw [delimited?_append_of_unmarked noLine noBlock noQuote insertable.noSlash insertable.noStar
      insertable.unquoted] at read
    cases read

theorem Insertable.undelimited (insertable : Insertable input) : delimited? input = none := by
  have none : delimited? ([] ++ input) = none := delimited?_append_of_unmarked (by simp) (by simp)
    (by simp) insertable.noSlash insertable.noStar insertable.unquoted
  exact none

theorem nearest?_insert (insertable : Insertable input) {run : List Char}
    (near : nearest? (front ++ input) = some (run, last ++ input)) :
    nearest? (front ++ ('\n' :: docLine ++ input)) =
      some (run, last ++ ('\n' :: docLine ++ input)) := by
  obtain ⟨shape, here, before⟩ := nearest?_eq_some_iff.mp near
  rw [← List.append_assoc] at shape
  obtain rfl := List.append_cancel_right shape
  refine nearest?_eq_some_iff.mpr ⟨List.append_assoc .., ?_, fun count below => ?_⟩
  · exact mt (delimited?_insert_eq_none_iff insertable).mp here
  · have inFront : count ≤ (run ++ last).length := by
      rw [List.length_append]
      omega
    have undelimited := before count below
    rw [List.drop_append_of_le_length inFront] at undelimited ⊢
    exact (delimited?_insert_eq_none_iff insertable).mpr undelimited

/-- A token that ends before the place is the same as before. -/
theorem next?_insert (insertable : Insertable input)
    (read : next? (front ++ input) = some (token, last ++ input)) :
    ∃ rest, Ends last (docLine ++ input) rest ∧
      next? (front ++ ('\n' :: docLine ++ input)) = some (token, rest) := by
  have skipped := Text.dropWhile_append_of_solid insertable.solid front
  rw [next?_eq_some_iff, skipped] at read
  cases solid : front.dropWhile Text.isSpace with
  | nil =>
    rw [solid, List.nil_append] at read
    rcases read with here | ⟨undelimited, run, near, -⟩
    · rw [insertable.undelimited] at here
      cases here
    · have positive := List.length_pos_iff.mpr (ne_nil_of_nearest? undelimited near)
      have shape := congrArg List.length (nearest?_eq_some_iff.mp near).1
      simp only [List.length_append] at shape
      omega
  | cons first front' =>
    have skipped' : (front ++ ('\n' :: docLine ++ input)).dropWhile Text.isSpace =
        first :: front' ++ ('\n' :: docLine ++ input) := by
      rw [List.dropWhile_append, solid, List.isEmpty_cons, if_neg Bool.false_ne_true]
    simp only [next?_eq_some_iff, skipped']
    rw [solid] at read
    rcases read with here | ⟨undelimited, run, near, rfl⟩
    · obtain ⟨rest, ends, further⟩ := delimited?_insert insertable here (docLine ++ input)
      exact ⟨rest, ends, .inl further⟩
    · refine ⟨_, .kept, .inr ⟨?_, run, nearest?_insert insertable near, rfl⟩⟩
      exact (delimited?_insert_eq_none_iff insertable).mpr undelimited

/-- The tokens that end before the place stay as they are. -/
theorem Leads.insert (insertable : Insertable input)
    (leads : Leads (front ++ input) tokens (last ++ input)) :
    ∃ rest, Ends last (docLine ++ input) rest ∧
      Leads (front ++ ('\n' :: docLine ++ input)) tokens rest := by
  generalize start : front ++ input = whole at leads
  generalize stop : last ++ input = ended at leads
  induction leads generalizing front with
  | nil =>
    obtain rfl := List.append_cancel_right (start.trans stop.symm)
    exact ⟨_, .kept, .nil⟩
  | @cons _ middle _ token tokens read others ih =>
    subst start stop
    obtain ⟨between, shape⟩ := others.suffix
    rw [← List.append_assoc] at shape
    subst shape
    obtain ⟨rest, ends, further⟩ := next?_insert insertable read
    cases ends with
    | kept =>
      obtain ⟨rest', ends', leads'⟩ := ih rfl rfl
      exact ⟨rest', ends', .cons further leads'⟩
    | taken empty =>
      obtain ⟨rfl, rfl⟩ := List.append_eq_nil_iff.mp empty
      obtain rfl := others.eq_nil
      exact ⟨_, .taken rfl, .cons further .nil⟩

/-- The segments with the line inserted: the tokens up to the place, what stands in front of the
place since then, the comment, and what is behind the place by itself. -/
theorem segments_insert (insertable : Insertable input)
    (leads : Leads (front ++ input) tokens (last ++ input))
    (undelimited : ∀ count ≤ last.length, delimited? ((last ++ input).drop count) = none) :
    ∃ gap, Text.Spaces gap ∧
      segments (front ++ ('\n' :: docLine ++ input)) = tokens ++ (leftover
        ((last ++ gap).dropWhile Text.isSpace) ++ .comment "/// d" :: segments input) := by
  obtain ⟨rest, ends, leads'⟩ := leads.insert insertable
  rw [leads'.segments_eq]
  cases ends with
  | kept =>
    refine ⟨['\n'], by decide, ?_⟩
    have before : ∀ count < (last ++ ['\n']).length,
        delimited? ((last ++ ['\n'] ++ (docLine ++ input)).drop count) = none := by
      intro count below
      have inLast : count ≤ last.length := by
        rw [List.length_append] at below
        exact Nat.le_of_lt_succ below
      have here := undelimited count inLast
      rw [List.drop_append_of_le_length inLast] at here
      rw [List.append_assoc, List.drop_append_of_le_length inLast]
      exact (delimited?_insert_eq_none_iff insertable).mpr here
    have read := delimited?_docLine input
    rw [← segments_append before read, List.append_assoc]
    rfl
  | taken empty =>
    refine ⟨[], by decide, ?_⟩
    rw [segments_of_delimited? (delimited?_docLine input), empty]
    rfl

end Steps

end DocCoverage.Token
