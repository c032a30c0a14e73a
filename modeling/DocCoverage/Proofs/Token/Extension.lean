import DocCoverage.Proofs.Token.Reading

/-!
# What is read with more behind it

A comment or a string literal that is finished is read in the same way whatever stands behind it.
One that is not finished goes on into what stands behind it, where only the number of open
comments is remembered, as long as no marker is split.
-/

namespace DocCoverage.Token

/-- The ways in which a text can begin. -/
inductive Opening : List Char → Prop where
  | line (body : List Char) : Opening ('/' :: '/' :: body)
  | block (body : List Char) : Opening ('/' :: '*' :: body)
  | quote (body : List Char) : Opening ('"' :: body)
  | none {input : List Char} (noLine : ¬ ['/', '/'] <+: input) (noBlock : ¬ ['/', '*'] <+: input)
      (noQuote : ¬ ['"'] <+: input) : Opening input

theorem opening (input : List Char) : Opening input := by
  by_cases line : ['/', '/'] <+: input
  · obtain ⟨body, rfl⟩ := line
    exact .line body
  by_cases block : ['/', '*'] <+: input
  · obtain ⟨body, rfl⟩ := block
    exact .block body
  by_cases quote : ['"'] <+: input
  · obtain ⟨body, rfl⟩ := quote
    exact .quote body
  exact .none line block quote

section Marks

variable {input : List Char}

theorem delimited?_line (body : List Char) :
    delimited? ('/' :: '/' :: body) =
      made comment (behind ['/', '/'] (lineBreak?.upTo body)) := by
  have noBlock : blockComment? ('/' :: '/' :: body) = none := rfl
  have noQuote : quoted? ('/' :: '/' :: body) = none := rfl
  rw [delimited?, anyComment?, noBlock, noQuote, Option.or_none]
  exact Option.or_none

theorem delimited?_block (body : List Char) :
    delimited? ('/' :: '*' :: body) = made comment (behind ['/', '*'] (closed? 1 body)) := by
  have noLine : lineComment? ('/' :: '*' :: body) = none := rfl
  have noQuote : quoted? ('/' :: '*' :: body) = none := rfl
  rw [delimited?, anyComment?, noLine, noQuote, Option.none_or]
  exact Option.or_none

theorem delimited?_quote (body : List Char) :
    delimited? ('"' :: body) = made stringLiteral (quotation? body) := by
  have noLine : lineComment? ('"' :: body) = none := rfl
  have noBlock : blockComment? ('"' :: body) = none := rfl
  rw [delimited?, anyComment?, noLine, noBlock]
  exact Option.none_or

/-- Without one of the marks nothing is read. -/
theorem delimited?_of_unmarked (noLine : ¬ ['/', '/'] <+: input) (noBlock : ¬ ['/', '*'] <+: input)
    (noQuote : ¬ ['"'] <+: input) : delimited? input = none := by
  cases read : delimited? input with
  | none => rfl
  | some found =>
    obtain ⟨token, last⟩ := found
    rcases Option.or_eq_some_iff.mp read with commented | ⟨-, literal⟩
    · obtain ⟨run, read', -⟩ := made_eq_some_iff.mp commented
      rcases Option.or_eq_some_iff.mp read' with line | ⟨-, block⟩
      · obtain ⟨lineBreak, -, rfl, marked⟩ := append_of_lineComment? line
        exact absurd (marked.trans (List.prefix_append ..)) noLine
      · obtain ⟨rfl, marked⟩ := append_of_blockComment? block
        exact absurd (marked.trans (List.prefix_append ..)) noBlock
    · obtain ⟨run, read', -⟩ := made_eq_some_iff.mp literal
      obtain rfl := append_of_quoted? read'
      exact absurd ⟨_, rfl⟩ noQuote

/-- Where neither a slash nor a quote stands nothing is read. -/
theorem delimited?_cons_of_plain {char : Char} (noSlash : char ≠ '/') (noQuote : char ≠ '"')
    (rest : List Char) : delimited? (char :: rest) = none := by
  apply delimited?_of_unmarked
  · rintro ⟨more, shape⟩
    exact noSlash (List.cons.inj shape).1.symm
  · rintro ⟨more, shape⟩
    exact noSlash (List.cons.inj shape).1.symm
  · rintro ⟨more, shape⟩
    exact noQuote (List.cons.inj shape).1.symm

end Marks

section Calm

variable {front more : List Char}

theorem Calm.append (calm : Calm front) (calm' : Calm more) : Calm (front ++ more) := by
  unfold Calm at calm calm' ⊢
  simp only [List.mem_append, not_or]
  exact ⟨⟨calm.1, calm'.1⟩, calm.2, calm'.2⟩

theorem Calm.delimited?_drop (calm : Calm front) (rest : List Char) {count : Nat}
    (below : count < front.length) : delimited? ((front ++ rest).drop count) = none := by
  have member := List.getElem_mem below
  rw [List.drop_append_of_le_length (Nat.le_of_lt below), List.drop_eq_getElem_cons below]
  exact delimited?_cons_of_plain (ne_of_mem_of_not_mem member calm.1)
    (ne_of_mem_of_not_mem member calm.2) _

end Calm

/-- A character begins a text with more behind it only if it begins the text, or what is behind
it. -/
theorem not_singleton_prefix_append {char : Char} {input more : List Char}
    (here : ¬ [char] <+: input) (next : input = [] → ¬ [char] <+: more) :
    ¬ [char] <+: input ++ more := by
  cases input with
  | nil => exact next rfl
  | cons head tail => simpa [List.cons_prefix_cons] using here

theorem not_prefix_of_ne_cons {char : Char} {input : List Char}
    (other : ∀ tail, input = char :: tail → False) : ¬ [char] <+: input := by
  rintro ⟨tail, shape⟩
  exact other tail shape.symm

section Blocks

variable {depth : Nat} {input run last : List Char} {char : Char}

theorem closed?_cons (noClose : char = '*' → ¬ ['/'] <+: input)
    (noOpen : char = '/' → ¬ ['*'] <+: input) :
    closed? (depth + 1) (char :: input) = behind [char] (closed? (depth + 1) input) := by
  rw [closed?]
  · rintro rest rfl rfl
    exact noClose rfl ⟨rest, rfl⟩
  · rintro rest rfl rfl
    exact noOpen rfl ⟨rest, rfl⟩

theorem closed?_append (read : closed? depth input = some (run, last)) (more : List Char) :
    closed? depth (input ++ more) = some (run, last ++ more) := by
  fun_induction closed? depth input generalizing run with
  | case1 input =>
    cases read
    rw [closed?]
  | case2 depth => cases read
  | case3 depth rest ih => exact behind_of_same read ih
  | case4 depth rest ih => exact behind_of_same read ih
  | case5 depth char rest noClose noOpen ih =>
    have nonempty : rest ≠ [] := by
      rintro rfl
      cases read
    rw [List.cons_append, closed?_cons]
    · exact behind_of_same read ih
    · exact fun star => not_singleton_prefix_append
        (not_prefix_of_ne_cons (noClose · star)) (absurd · nonempty)
    · exact fun slash => not_singleton_prefix_append
        (not_prefix_of_ne_cons (noOpen · slash)) (absurd · nonempty)

/-- Comments that are not closed yet are still open behind the text. -/
theorem closed?_append_of_none (unclosed : closed? depth input = none) :
    ∃ still, ∀ more : List Char, ¬ ['/'] <+: more → ¬ ['*'] <+: more →
      closed? depth (input ++ more) = behind input (closed? (still + 1) more) := by
  fun_induction closed? depth input with
  | case1 input => cases unclosed
  | case2 depth => exact ⟨depth, fun more _ _ => (behind_nil _).symm⟩
  | case3 depth rest ih =>
    obtain ⟨still, further⟩ := ih (behind_eq_none_iff.mp unclosed)
    refine ⟨still, fun more noSlash noStar => ?_⟩
    change behind ['*', '/'] (closed? depth (rest ++ more)) = _
    rw [further more noSlash noStar, behind_behind]
    rfl
  | case4 depth rest ih =>
    obtain ⟨still, further⟩ := ih (behind_eq_none_iff.mp unclosed)
    refine ⟨still, fun more noSlash noStar => ?_⟩
    change behind ['/', '*'] (closed? (depth + 2) (rest ++ more)) = _
    rw [further more noSlash noStar, behind_behind]
    rfl
  | case5 depth char rest noClose noOpen ih =>
    obtain ⟨still, further⟩ := ih (behind_eq_none_iff.mp unclosed)
    refine ⟨still, fun more noSlash noStar => ?_⟩
    rw [List.cons_append, closed?_cons, further more noSlash noStar, behind_behind]
    · rfl
    · exact fun star => not_singleton_prefix_append
        (not_prefix_of_ne_cons (noClose · star)) fun _ => noSlash
    · exact fun slash => not_singleton_prefix_append
        (not_prefix_of_ne_cons (noOpen · slash)) fun _ => noStar

/-- Closing a comment takes a marker. -/
theorem ne_nil_of_closed? (unclosed : 0 < depth) (read : closed? depth input = some (run, last)) :
    run ≠ [] := by
  revert read
  fun_cases closed? depth input with
  | case1 => exact absurd unclosed (Nat.lt_irrefl 0)
  | case2 => exact nofun
  | case3 depth rest => exact ne_nil_of_behind (List.cons_ne_nil _ _)
  | case4 depth rest => exact ne_nil_of_behind (List.cons_ne_nil _ _)
  | case5 depth char rest => exact ne_nil_of_behind (List.cons_ne_nil _ _)

/-- Comments that end within a text are closed in the text itself. -/
theorem closed?_of_append {more : List Char} (noSlash : ¬ ['/'] <+: more)
    (noStar : ¬ ['*'] <+: more)
    (read : closed? depth (input ++ more) = some (run, last ++ more)) :
    closed? depth input = some (run, last) := by
  cases inside : closed? depth input with
  | some found =>
    obtain ⟨run', last'⟩ := found
    rw [closed?_append inside more, Option.some.injEq, Prod.mk.injEq,
      List.append_cancel_right_eq] at read
    obtain ⟨rfl, rfl⟩ := read
    rfl
  | none =>
    obtain ⟨still, further⟩ := closed?_append_of_none inside
    rw [further more noSlash noStar] at read
    obtain ⟨run', read', -⟩ := behind_eq_some_iff.mp read
    have positive := List.length_pos_iff.mpr (ne_nil_of_closed? (Nat.succ_pos still) read')
    have shape := congrArg List.length (append_of_closed? read')
    simp only [List.length_append] at shape
    omega

theorem delimited?_append_of_blockComment? (read : blockComment? input = some (run, last))
    (more : List Char) :
    delimited? (input ++ more) = some (.comment (String.ofList run), last ++ more) := by
  revert read
  fun_cases blockComment? input with
  | case1 rest =>
    intro read
    obtain ⟨run', closed, rfl⟩ := behind_eq_some_iff.mp read
    have further := closed?_append closed more
    change delimited? ('/' :: '*' :: (rest ++ more)) = _
    rw [delimited?_block, further]
    rfl
  | case2 =>
    intro read
    cases read

/-- A whole comment is one that is read up to its end. -/
theorem wholeComment_iff {content : List Char} :
    WholeComment content ↔
      (∃ body, content = '/' :: '/' :: body ∧ Unbroken body) ∨
        blockComment? content = some (content, []) := by
  constructor
  · intro whole
    cases whole with
    | @line body unbroken => exact .inl ⟨body, rfl, unbroken⟩
    | block read whole =>
      have start : (Cursor.start content.toArray).rest = content := Cursor.rest_start _
      obtain ⟨-, found⟩ := reads_blockComment.of_success read
      rw [whole, start] at found
      obtain ⟨run, found', -⟩ := made_eq_some_iff.mp found
      obtain ⟨rfl, -⟩ := append_of_blockComment? found'
      rw [List.append_nil] at found' ⊢
      exact .inr found'
  · rintro (⟨body, rfl, unbroken⟩ | read)
    · exact .line unbroken
    · have start : (Cursor.start content.toArray).rest = content := Cursor.rest_start _
      have made_whole : made comment (blockComment? (Cursor.start content.toArray).rest) =
          some (.comment (String.ofList content), []) := by
        rw [start, read]
        rfl
      obtain ⟨after, succeeded, -, behind⟩ := reads_blockComment.success made_whole
      exact .block succeeded behind

end Blocks

section Quotations

variable {input run last : List Char} {char : Char}

theorem quotation?_cons (noQuote : char ≠ '"')
    (noBackslash : char = '\\' → ¬ ['\\'] <+: input)
    (noEscape : char = '\\' → ¬ ['"'] <+: input) :
    quotation? (char :: input) = behind [char] (quotation? input) := by
  rw [quotation?]
  · exact noQuote
  · rintro rest rfl rfl
    exact noBackslash rfl ⟨rest, rfl⟩
  · rintro rest rfl rfl
    exact noEscape rfl ⟨rest, rfl⟩

theorem quotation?_append (read : quotation? input = some (run, last)) (more : List Char) :
    quotation? (input ++ more) = some (run, last ++ more) := by
  fun_induction quotation? input generalizing run with
  | case1 => cases read
  | case2 rest =>
    cases read
    rfl
  | case3 rest ih => exact behind_of_same read ih
  | case4 rest ih => exact behind_of_same read ih
  | case5 char rest noQuote noBackslash noEscape ih =>
    have nonempty : rest ≠ [] := by
      rintro rfl
      cases read
    rw [List.cons_append, quotation?_cons noQuote]
    · exact behind_of_same read ih
    · exact fun escape => not_singleton_prefix_append
        (not_prefix_of_ne_cons (noBackslash · escape)) (absurd · nonempty)
    · exact fun escape => not_singleton_prefix_append
        (not_prefix_of_ne_cons (noEscape · escape)) (absurd · nonempty)

/-- A string literal that is not finished goes on behind the text. -/
theorem quotation?_append_of_none (unfinished : quotation? input = none) {more : List Char}
    (unquoted : ¬ ['"'] <+: more) (stops : ¬ ['\\'] <+: more) :
    quotation? (input ++ more) = behind input (quotation? more) := by
  fun_induction quotation? input with
  | case1 => exact (behind_nil _).symm
  | case2 rest => cases unfinished
  | case3 rest ih =>
    change behind ['\\', '\\'] (quotation? (rest ++ more)) = _
    rw [ih (behind_eq_none_iff.mp unfinished), behind_behind]
    rfl
  | case4 rest ih =>
    change behind ['\\', '"'] (quotation? (rest ++ more)) = _
    rw [ih (behind_eq_none_iff.mp unfinished), behind_behind]
    rfl
  | case5 char rest noQuote noBackslash noEscape ih =>
    rw [List.cons_append, quotation?_cons noQuote, ih (behind_eq_none_iff.mp unfinished),
      behind_behind]
    · rfl
    · exact fun escape => not_singleton_prefix_append
        (not_prefix_of_ne_cons (noBackslash · escape)) fun _ => stops
    · exact fun escape => not_singleton_prefix_append
        (not_prefix_of_ne_cons (noEscape · escape)) fun _ => unquoted

/-- A string literal that ends within a text is finished in the text itself. -/
theorem quotation?_of_append {more : List Char} (unquoted : ¬ ['"'] <+: more)
    (stops : ¬ ['\\'] <+: more)
    (read : quotation? (input ++ more) = some (run, last ++ more)) :
    quotation? input = some (run, last) := by
  cases inside : quotation? input with
  | some found =>
    obtain ⟨run', last'⟩ := found
    rw [quotation?_append inside more, Option.some.injEq, Prod.mk.injEq,
      List.append_cancel_right_eq] at read
    obtain ⟨rfl, rfl⟩ := read
    rfl
  | none =>
    rw [quotation?_append_of_none inside unquoted stops] at read
    obtain ⟨run', read', -⟩ := behind_eq_some_iff.mp read
    have shape := congrArg List.length (append_of_quotation? read')
    simp only [List.length_append, List.length_cons] at shape
    omega

theorem quotation?_append_of_plain {plain : List Char}
    (unquoted : '"' ∉ plain) (stops : '\\' ∉ plain) (input : List Char) :
    quotation? (plain ++ input) = behind plain (quotation? input) := by
  induction plain with
  | nil => exact (behind_nil _).symm
  | cons char plain ih =>
    simp only [List.mem_cons, not_or] at unquoted stops
    rw [List.cons_append, quotation?_cons (Ne.symm unquoted.1) (absurd · (Ne.symm stops.1))
      (absurd · (Ne.symm stops.1)), ih unquoted.2 stops.2, behind_behind]
    rfl

end Quotations

section Lines

variable {input line rest : List Char} {char : Char}

theorem unbroken_cons_iff :
    Unbroken (char :: line) ↔ (char ≠ '\n' ∧ char ≠ '\r') ∧ Unbroken line := by
  simp only [Unbroken, List.mem_cons, not_or, ne_eq, eq_comm (a := char)]
  exact and_and_and_comm

theorem lineBreak?_return (noFeed : ¬ ['\n'] <+: input) :
    lineBreak? ('\r' :: input) = some ('\n', input) := by
  rw [lineBreak?]
  rintro rest rfl
  exact noFeed ⟨rest, rfl⟩

theorem lineBreak?_cons_eq_none_iff :
    lineBreak? (char :: input) = none ↔ char ≠ '\n' ∧ char ≠ '\r' := by
  constructor
  · intro refused
    constructor
    · rintro rfl
      cases refused
    · rintro rfl
      by_cases feed : ['\n'] <+: input
      · obtain ⟨rest, rfl⟩ := feed
        cases refused
      · rw [lineBreak?_return feed] at refused
        cases refused
  · rintro ⟨noFeed, noReturn⟩
    rw [lineBreak?]
    · rintro rest ⟨⟩
      exact noFeed rfl
    · rintro rest ⟨⟩
      exact noReturn rfl
    · rintro rest ⟨⟩
      exact noReturn rfl

/-- A line goes on up to its break. -/
theorem upTo_lineBreak?_append (unbroken : Unbroken line) (input : List Char) :
    lineBreak?.upTo (line ++ input) = behind line (lineBreak?.upTo input) := by
  induction line with
  | nil => exact (behind_nil _).symm
  | cons char line ih =>
    obtain ⟨here, later⟩ := unbroken_cons_iff.mp unbroken
    rw [List.cons_append, Reading.upTo, lineBreak?_cons_eq_none_iff.mpr here]
    change behind [char] (lineBreak?.upTo (line ++ input)) = _
    rw [ih later, behind_behind]
    rfl

/-- A line is what stands in front of the first break. -/
theorem upTo_lineBreak?_eq_some_iff :
    lineBreak?.upTo input = some (line, rest) ↔
      ∃ found char, input = line ++ found ∧ Unbroken line ∧
        lineBreak? found = some (char, rest) := by
  constructor
  · intro read
    obtain ⟨before, found, rfl, char, broken⟩ := Reading.upTo_eq_some_iff.mp read
    refine ⟨found, char, rfl, ?_, broken⟩
    clear read
    induction line with
    | nil => exact ⟨nofun, nofun⟩
    | cons head line ih =>
      refine unbroken_cons_iff.mpr ⟨?_, ih fun count below => ?_⟩
      · exact lineBreak?_cons_eq_none_iff.mp (before 0 (Nat.zero_lt_succ _))
      · exact before (count + 1) (Nat.succ_lt_succ below)
  · rintro ⟨found, char, rfl, unbroken, broken⟩
    rw [upTo_lineBreak?_append unbroken]
    cases found with
    | nil => cases broken
    | cons head found =>
      rw [Reading.upTo, broken]
      simp [behind]

/-- Only a text without line breaks has no first line. -/
theorem upTo_lineBreak?_eq_none_iff : lineBreak?.upTo input = none ↔ Unbroken input := by
  induction input with
  | nil => exact iff_of_true rfl (by decide)
  | cons char input ih =>
    have here : lineBreak? (char :: input) = none ↔ _ := lineBreak?_cons_eq_none_iff
    rw [unbroken_cons_iff, ← here, ← ih, Reading.upTo]
    cases lineBreak? (char :: input) with
    | some found => simp
    | none => simp

theorem upTo_lineBreak?_ne_none (broken : '\n' ∈ input) : lineBreak?.upTo input ≠ none :=
  fun refused => (upTo_lineBreak?_eq_none_iff.mp refused).1 broken

end Lines

end DocCoverage.Token
