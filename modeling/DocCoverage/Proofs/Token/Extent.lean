import DocCoverage.Proofs.Parser.Scan
import DocCoverage.Proofs.Token.Rendering

/-!
# How far line comments and string literals reach

A line comment reaches to the first line break, and a string literal to the first quote that has an
even number of backslashes right in front of it. Nothing else ends them. Where what they run up to
is missing they fail at the end of the input, since nothing stops the run before.
-/

namespace DocCoverage.Token

section Lines

variable {cursor : Cursor Char} {input run last : List Char}

/-- A line comment is its line, which has no break in it, and one break behind it. -/
theorem lineComment?_eq_some_iff :
    lineComment? input = some (run, last) ↔
      ∃ line, run = '/' :: '/' :: line ∧ Unbroken line ∧ ∃ lineBreak ∈ lineBreaks,
        input = '/' :: '/' :: (line ++ (lineBreak ++ last)) ∧
          (lineBreak = ['\r'] → ¬ ['\n'] <+: last) := by
  constructor
  · fun_cases lineComment? input with
    | case1 body =>
      intro read
      obtain ⟨line, read', rfl⟩ := behind_eq_some_iff.mp read
      obtain ⟨found, char, rfl, unbroken, broken⟩ := upTo_lineBreak?_eq_some_iff.mp read'
      obtain ⟨-, lineBreak, member, rfl, single⟩ := lineBreak?_eq_some_iff.mp broken
      exact ⟨line, rfl, unbroken, lineBreak, member, rfl, single⟩
    | case2 =>
      intro read
      cases read
  · rintro ⟨line, rfl, unbroken, lineBreak, member, rfl, single⟩
    have broken := lineBreak?_eq_some_iff.mpr ⟨rfl, lineBreak, member, rfl, single⟩
    have read := upTo_lineBreak?_eq_some_iff.mpr ⟨_, _, rfl, unbroken, broken⟩
    exact behind_eq_some_iff.mpr ⟨line, read, rfl⟩

theorem lineComment?_ne_none_iff :
    lineComment? input ≠ none ↔ ['/', '/'] <+: input ∧ ('\n' ∈ input ∨ '\r' ∈ input) := by
  fun_cases lineComment? input with
  | case1 body =>
    rw [ne_eq, behind_eq_none_iff, upTo_lineBreak?_eq_none_iff, Unbroken, not_and_or,
      Classical.not_not, Classical.not_not]
    simp
  | case2 input elsewhere =>
    refine iff_of_false (absurd rfl) ?_
    rintro ⟨⟨body, rfl⟩, -⟩
    exact elsewhere body rfl

/-- Behind its slashes, a line comment fails only at the end of the input. -/
theorem lineComment_failsAtEnd (marked : ['/', '/'] <+: cursor.rest) :
    (lineComment.outcome cursor).FailsAtEnd cursor := by
  have opens : Reading.literal ['/', '/'] cursor.rest ≠ none := by
    obtain ⟨body, shape⟩ := marked
    rw [← shape, Reading.literal_append]
    exact Option.some_ne_none _
  unfold lineComment Parser.both
  rw [Parser.outcome_map]
  refine ((Parser.reads_literal _).bind_failsAtEnd opens fun marker middle => ?_).map _
  rw [Parser.outcome_map]
  exact (Parser.any_manyTill_failsAtEnd _ middle).map _

/-- How far a line comment at the cursor reaches. -/
structure LineExtent (cursor : Cursor Char) (ended : Outcome Char Token) : Prop where
  /-- The comment is the line without its break. The break is read too, and where a line feed
  stands right behind a carriage return it is part of it. -/
  read : ∀ token after, ended = .success token after ↔
    cursor.Reaches after ∧ ∃ line, Unbroken line ∧
      token = .comment (String.ofList ('/' :: '/' :: line)) ∧ ∃ lineBreak ∈ lineBreaks,
        cursor.rest = '/' :: '/' :: (line ++ (lineBreak ++ after.rest)) ∧
          (lineBreak = ['\r'] → ¬ ['\n'] <+: after.rest)
  succeeds : (∃ token after, ended = .success token after) ↔
    ['/', '/'] <+: cursor.rest ∧ ('\n' ∈ cursor.rest ∨ '\r' ∈ cursor.rest)
  unbroken : ['/', '/'] <+: cursor.rest → Unbroken cursor.rest →
    ∃ reason, ended = .failure reason ∧ reason.location = ⟨cursor.source, cursor.source.size⟩
  unmarked : ¬ ['/', '/'] <+: cursor.rest → ∃ reason, ended = .failure reason

theorem lineComment_reaches (cursor : Cursor Char) :
    LineExtent cursor (lineComment.outcome cursor) where
  read token after := by
    rw [reads_lineComment.outcome_eq_success_iff, made_eq_some_iff]
    constructor
    · rintro ⟨reaches, run, read, rfl⟩
      obtain ⟨line, rfl, unbroken, rest⟩ := lineComment?_eq_some_iff.mp read
      exact ⟨reaches, line, unbroken, rfl, rest⟩
    · rintro ⟨reaches, line, unbroken, rfl, rest⟩
      exact ⟨reaches, _, lineComment?_eq_some_iff.mpr ⟨line, rfl, unbroken, rest⟩, rfl⟩
  succeeds := by
    rw [reads_lineComment.exists_success_iff, ← lineComment?_ne_none_iff]
    exact not_congr Option.map_eq_none_iff
  unbroken marked endless := by
    have refused : lineComment? cursor.rest = none := by
      by_contra read
      rcases (lineComment?_ne_none_iff.mp read).2 with feed | single
      · exact endless.1 feed
      · exact endless.2 single
    obtain ⟨reason, failed⟩ := reads_lineComment.failure (Option.map_eq_none_iff.mpr refused)
    exact ⟨reason, failed, lineComment_failsAtEnd marked reason failed⟩
  unmarked elsewhere := by
    have refused : lineComment? cursor.rest = none := by
      by_contra read
      exact elsewhere (lineComment?_ne_none_iff.mp read).1
    exact reads_lineComment.failure (Option.map_eq_none_iff.mpr refused)

/-- Of two carriage returns the first one ends the comment by itself. -/
theorem lineComment_reaches_return :
    ∃ after, lineComment.outcome (Cursor.start "//a\r\r\nb".toList.toArray) =
      .success (.comment "//a") after ∧ after.rest = ['\r', '\n', 'b'] :=
  let cursor := Cursor.start "//a\r\r\nb".toList.toArray
  ⟨cursor.advance 4, ((lineComment_reaches cursor).read _ _).mpr
    ⟨cursor.reaches_advance _, ['a'], by decide, rfl, ['\r'], by decide, rfl, by decide⟩, rfl⟩

end Lines

section Quotes

variable {cursor : Cursor Char} {input content before after run last : List Char}

/-- A quote that no backslash escapes stands in the text. -/
def HasClosingQuote (input : List Char) : Prop :=
  ∃ before after, input = before ++ '"' :: after ∧ trailingEscapes before % 2 = 0

/-- In front of the quote that ends a quotation, the backslashes come in pairs. -/
theorem trailingEscapes_of_quotation? (read : quotation? input = some (run, last)) :
    trailingEscapes run % 2 = 0 := by
  fun_induction quotation? input generalizing run with
  | case1 => cases read
  | case2 rest =>
    cases read
    rfl
  | case3 rest ih =>
    obtain ⟨run, read', rfl⟩ := behind_eq_some_iff.mp read
    exact (trailingEscapes_pair_mod run).trans (ih read')
  | case4 rest ih =>
    obtain ⟨run, read', rfl⟩ := behind_eq_some_iff.mp read
    have none : trailingEscapes ['\\', '"'] = 0 := by decide
    rw [trailingEscapes_append_of_eq_zero none]
    exact ih read'
  | case5 char rest noQuote noBackslash noEscape ih =>
    obtain ⟨run, read', rfl⟩ := behind_eq_some_iff.mp read
    by_cases backslash : char = '\\'
    · -- Behind a backslash that is a piece of its own stands neither a backslash nor a quote.
      subst backslash
      have shape := append_of_quotation? read'
      cases run with
      | nil => exact absurd shape.symm (noEscape last rfl)
      | cons next run =>
        have unescaping : next ≠ '\\' := by
          rintro rfl
          exact noBackslash _ rfl shape.symm
        rw [List.singleton_append, trailingEscapes_backslash_cons unescaping]
        exact ih read'
    · rw [trailingEscapes_append_of_eq_zero (trailingEscapes_singleton backslash)]
      exact ih read'

/-- In front of any quote that is not escaped there is a first one. -/
theorem HasClosingQuote.exists_escaped (closes : HasClosingQuote input) :
    ∃ content rest, input = content ++ '"' :: rest ∧ Escaped content := by
  obtain ⟨before, after, shape, even⟩ := closes
  induction measured : before.length using Nat.strongRecOn generalizing before after with
  | _ length ih =>
    subst measured
    by_cases first : ∀ front behind, before = front ++ '"' :: behind → trailingEscapes front % 2 = 1
    · exact ⟨before, after, shape, first, even⟩
    · simp only [not_forall] at first
      obtain ⟨front, behind, rfl, unescaped⟩ := first
      have shorter : front.length < (front ++ '"' :: behind).length := by
        rw [List.length_append, List.length_cons]
        omega
      rw [List.append_assoc, List.cons_append] at shape
      exact ih _ shorter front _ shape (by omega) rfl

/-- A quotation ends at the first quote that is not escaped. -/
theorem quotation?_eq_some_iff :
    quotation? input = some (content, last) ↔
      input = content ++ '"' :: last ∧ Escaped content := by
  constructor
  · intro read
    have shape := append_of_quotation? read
    have closes : HasClosingQuote input :=
      ⟨content, last, shape.symm, trailingEscapes_of_quotation? read⟩
    obtain ⟨content', rest, rfl, escaped⟩ := closes.exists_escaped
    rw [quotation?_of_escaped escaped] at read
    cases read
    exact ⟨rfl, escaped⟩
  · rintro ⟨rfl, escaped⟩
    exact quotation?_of_escaped escaped last

theorem quotation?_ne_none_iff : quotation? input ≠ none ↔ HasClosingQuote input := by
  rw [Option.ne_none_iff_exists']
  constructor
  · rintro ⟨⟨content, rest⟩, read⟩
    obtain ⟨shape, escaped⟩ := quotation?_eq_some_iff.mp read
    exact ⟨content, rest, shape, escaped.ends⟩
  · intro closes
    obtain ⟨content, rest, shape, escaped⟩ := closes.exists_escaped
    exact ⟨(content, rest), quotation?_eq_some_iff.mpr ⟨shape, escaped⟩⟩

theorem quoted?_eq_some_iff :
    quoted? input = some (content, last) ↔
      input = '"' :: (content ++ '"' :: last) ∧ Escaped content := by
  fun_cases quoted? input with
  | case1 body => rw [quotation?_eq_some_iff, List.cons.injEq, eq_self, true_and]
  | case2 input elsewhere =>
    refine iff_of_false (Option.some_ne_none _ ·.symm) ?_
    rintro ⟨rfl, -⟩
    exact elsewhere _ rfl

theorem quoted?_ne_none_iff :
    quoted? input ≠ none ↔ ∃ body, input = '"' :: body ∧ HasClosingQuote body := by
  fun_cases quoted? input with
  | case1 body =>
    rw [quotation?_ne_none_iff]
    simp
  | case2 input elsewhere =>
    refine iff_of_false (absurd rfl) ?_
    rintro ⟨body, rfl, -⟩
    exact elsewhere body rfl

theorem consuming_stringPiece : stringPiece.Consuming := by
  refine reads_stringPiece.consuming fun {text piece rest} => ?_
  fun_cases stringPiece? text with
  | case1 =>
    intro read
    cases read
  | case2 =>
    rintro ⟨⟩
    simp only [List.length_cons]
    omega
  | case3 =>
    rintro ⟨⟩
    simp only [List.length_cons]
    omega
  | case4 =>
    rintro ⟨⟩
    exact Nat.lt_succ_self _

/-- A piece of a string literal is only missing at the end of the input. -/
theorem stringPiece_failsAtEnd (cursor : Cursor Char) :
    (stringPiece.outcome cursor).FailsAtEnd cursor := by
  unfold stringPiece
  rw [Parser.outcome_orElse, Parser.slice_any, Parser.outcome_map]
  exact .orElse ((Parser.any_failsAtEnd cursor).map _)

/-- Behind its quote, a string literal fails only at the end of the input. -/
theorem quoted_failsAtEnd (opened : ['"'] <+: cursor.rest) :
    (quoted.outcome cursor).FailsAtEnd cursor := by
  have opens : Reading.satisfy (fun found => found == '"') cursor.rest ≠ none := by
    obtain ⟨body, shape⟩ := opened
    rw [← shape]
    exact Option.some_ne_none _
  unfold quoted Parser.andThen
  rw [Parser.outcome_map]
  refine ((Parser.reads_element _).bind_failsAtEnd opens fun quote middle => ?_).map _
  exact Parser.manyTill_failsAtEnd stringPiece_failsAtEnd reads_stringPiece.forward
    consuming_stringPiece _ middle

/-- How far a string literal at the cursor reaches. -/
structure QuoteExtent (cursor : Cursor Char) (ended : Outcome Char Token) : Prop where
  /-- The literal is what stands between the two quotes as it is written, with escapes and line
  breaks, and no quote inside of it ends it. -/
  read : ∀ token after, ended = .success token after ↔
    cursor.Reaches after ∧ ∃ content, Escaped content ∧
      token = .stringLiteral (String.ofList content) ∧
        cursor.rest = '"' :: (content ++ '"' :: after.rest)
  succeeds : (∃ token after, ended = .success token after) ↔
    ∃ body, cursor.rest = '"' :: body ∧ HasClosingQuote body
  unclosed : ∀ body, cursor.rest = '"' :: body → ¬ HasClosingQuote body →
    ∃ reason, ended = .failure reason ∧ reason.location = ⟨cursor.source, cursor.source.size⟩
  unopened : ¬ ['"'] <+: cursor.rest → ∃ reason, ended = .failure reason

theorem quoted_reaches (cursor : Cursor Char) : QuoteExtent cursor (quoted.outcome cursor) where
  read token after := by
    rw [reads_quoted.outcome_eq_success_iff, made_eq_some_iff]
    constructor
    · rintro ⟨reaches, content, read, rfl⟩
      obtain ⟨shape, escaped⟩ := quoted?_eq_some_iff.mp read
      exact ⟨reaches, content, escaped, rfl, shape⟩
    · rintro ⟨reaches, content, escaped, rfl, shape⟩
      exact ⟨reaches, content, quoted?_eq_some_iff.mpr ⟨shape, escaped⟩, rfl⟩
  succeeds := by
    rw [reads_quoted.exists_success_iff, ← quoted?_ne_none_iff]
    exact not_congr Option.map_eq_none_iff
  unclosed body shape endless := by
    have refused : quoted? cursor.rest = none := by
      by_contra read
      obtain ⟨body', shape', closes⟩ := quoted?_ne_none_iff.mp read
      rw [shape, List.cons.injEq] at shape'
      rw [← shape'.2] at closes
      exact endless closes
    obtain ⟨reason, failed⟩ := reads_quoted.failure (Option.map_eq_none_iff.mpr refused)
    exact ⟨reason, failed, quoted_failsAtEnd ⟨body, shape.symm⟩ reason failed⟩
  unopened elsewhere := by
    have refused : quoted? cursor.rest = none := by
      by_contra read
      obtain ⟨body, shape, -⟩ := quoted?_ne_none_iff.mp read
      exact elsewhere ⟨body, shape.symm⟩
    exact reads_quoted.failure (Option.map_eq_none_iff.mpr refused)

/-- A quote behind three backslashes does not end the literal, and one behind two does. -/
theorem quoted_reaches_even :
    ∃ after, quoted.outcome (Cursor.start "\"\\\\\\\"\\\\\"a".toList.toArray) =
      .success (.stringLiteral "\\\\\\\"\\\\") after ∧ after.rest = ['a'] := by
  have escaped : Escaped ['\\', '\\', '\\', '"', '\\', '\\'] := by decide
  have behind : ((Cursor.start "\"\\\\\\\"\\\\\"a".toList.toArray).advance 8).rest = ['a'] := rfl
  refine ⟨_, ((quoted_reaches _).read _ _).mpr ⟨Cursor.reaches_advance _ 8, ?_⟩, behind⟩
  exact ⟨_, escaped, rfl, rfl⟩

end Quotes

end DocCoverage.Token
