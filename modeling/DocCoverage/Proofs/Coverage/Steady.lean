import DocCoverage.Coverage.Check
import DocCoverage.Proofs.Coverage.Names
import DocCoverage.Proofs.Parser.Steady
import DocCoverage.Proofs.Token.Extent

/-!
# No stalls

A step of tokenizing reads a token, and a step of the search for names reads at least one character.
The parsers inside of them that may read nothing, such as those of spaces and of text, are never
repeated themselves. So neither loop ever stalls, nothing is reported about one, and there are at
most as many tokens as characters.
-/

namespace DocCoverage

/-- The outcome of a quiet parser comes without any entry. -/
theorem Log.Logged.ofAttempt_of_quiet {ε α : Type} {parser : Parser ε α} (quiet : parser.Quiet)
    (cursor : Cursor ε) : ofAttempt (parser.run cursor) = ⟨parser.outcome cursor, []⟩ := by
  rw [quiet.run_eq]
  rfl

namespace Token

theorem steady_endOfLine : Parser.endOfLine.Steady :=
  .orElse (.orElse (.satisfy _) (.map _ (.literal _))) (.map _ (.satisfy _))

theorem steady_lineComment : lineComment.Steady :=
  .map _ (.both (.literal _)
    (.manyTill (.satisfy _) (Parser.consuming_satisfy _) steady_endOfLine))

theorem steady_blockComment : blockComment.Steady :=
  .map _ (.balanced (.satisfy _) (Parser.consuming_satisfy _) (.literal _) (.literal _))

theorem steady_stringPiece : stringPiece.Steady :=
  .orElse (.orElse (.literal _) (.literal _)) (.map _ (.withSpan (.satisfy _)))

theorem steady_quoted : quoted.Steady :=
  .map _ (.andThen (.satisfy _)
    (.manyTill steady_stringPiece consuming_stringPiece (.satisfy _)))

theorem steady_delimited : delimited.Steady :=
  .orElse (.orElse steady_lineComment steady_blockComment) steady_quoted

theorem steady_plainText : plainText.Steady :=
  .map _ (.manyTill (.satisfy _) (Parser.consuming_satisfy _) (.lookAhead steady_delimited))

theorem steady_anyToken : anyToken.Steady :=
  .andThen (.skipMany (.satisfy _) (Parser.consuming_satisfy _))
    (.orElse steady_delimited steady_plainText)

/-- Text may be empty, but only where a comment or a string literal stands, which is tried first. -/
theorem consuming_anyToken : anyToken.Consuming := reads_anyToken.consuming length_lt_of_next?

theorem steady_anyTokens : anyTokens.Steady := .many steady_anyToken consuming_anyToken

theorem level_of_mem_withLeftover {tokens : List Token} {after : Cursor Char} {entry : Log.Entry}
    (reported : entry ∈ (withLeftover tokens after).entries) : entry.level = .trace := by
  unfold withLeftover at reported
  split at reported
  · cases reported
  · obtain rfl := List.mem_singleton.mp reported
    rfl

/-- Tokenizing reports no warning. -/
theorem level_ne_warn_of_mem_tokenizeLogged {input : String} {entry : Log.Entry}
    (reported : entry ∈ (tokenizeLogged input).entries) : entry.level ≠ .warn := by
  unfold tokenizeLogged at reported
  dsimp only at reported
  rw [Log.Logged.ofAttempt_of_quiet steady_anyTokens.quiet, Log.Logged.entries_bind,
    List.nil_append] at reported
  dsimp only at reported
  split at reported
  · simp only [Log.Logged.entries_bind, List.mem_append] at reported
    rcases reported with fromLeftover | fromCount | none
    · simp [level_of_mem_withLeftover fromLeftover]
    · obtain rfl := List.mem_singleton.mp fromCount
      simp
    · cases none
  · cases reported
  · cases reported

/-- Each token takes at least one character. -/
theorem length_segments_le (input : List Char) : (segments input).length ≤ input.length := by
  induction size : input.length using Nat.strong_induction_on generalizing input with
  | _ size ih =>
    subst size
    cases read : next? input with
    | none =>
      rw [segments_of_none read, leftover]
      split
      · exact Nat.zero_le _
      · next nonempty => exact List.length_pos_iff.mpr nonempty
    | some found =>
      obtain ⟨token, rest⟩ := found
      have shorter := length_lt_of_next? read
      have others := ih _ shorter rest rfl
      rw [segments_of_next? read, List.length_cons]
      omega

end Token

namespace Declaration

theorem steady_keyword (word : String) : (keyword word).Steady :=
  .andThen (.literal _) (.andThen (.satisfy _)
    (.skipMany (.satisfy _) (Parser.consuming_satisfy _)))

theorem steady_publicFunction : publicFunction.Steady :=
  .map _ (.andThen (.skipMany (.satisfy _) (Parser.consuming_satisfy _))
    (.andThen (steady_keyword _) (.andThen (steady_keyword _)
      (.manyTill (.satisfy _) (Parser.consuming_satisfy _) (.satisfy _)))))

theorem consuming_publicFunction : publicFunction.Consuming := by
  refine reads_publicFunction.consuming fun {text name rest} read => ?_
  obtain ⟨⟨name, rest⟩, matched, same⟩ := Option.map_eq_some_iff.mp read
  cases same
  exact Nat.lt_of_lt_of_le (length_lt_of_match? matched) (List.dropWhile_suffix _).length_le

theorem steady_scanner : scanner.Steady :=
  .many (.orElse (.map _ steady_publicFunction) (.map _ (.satisfy _)))
    ((consuming_publicFunction.map _).orElse ((Parser.consuming_satisfy _).map _))

/-- The search for names reports nothing at all. -/
theorem entries_namesLogged (text : String) : (namesLogged text).entries = [] := by
  unfold namesLogged
  rw [Log.Logged.ofAttempt_of_quiet steady_scanner.quiet, Log.Logged.entries_bind, List.nil_append]
  dsimp only
  split <;> rfl

end Declaration

namespace Coverage

theorem entries_scan (coverage : Coverage) (credit : Bool) (tokens : List Token) :
    (scan coverage credit tokens).entries = [] := by
  induction tokens generalizing coverage credit with
  | nil => rfl
  | cons token tokens ih =>
    cases token with
    | text content =>
      unfold scan
      rw [Log.Logged.entries_bind, Declaration.entries_namesLogged, ih]
      rfl
    | comment _ => exact ih _ _
    | stringLiteral _ => exact ih _ _

/-- A check reports its counts and nothing else. -/
theorem level_of_mem_checkLogged {tokens : List Token} {entry : Log.Entry}
    (reported : entry ∈ (checkLogged tokens).entries) : entry.level = .debug := by
  unfold checkLogged at reported
  rw [Log.Logged.entries_bind, entries_scan, List.nil_append] at reported
  obtain rfl := List.mem_singleton.mp reported
  rfl

end Coverage

/-- No repetition stalls while a text is tokenized or searched for names, whatever becomes of the
part of the run that it belongs to. -/
structure NothingStalls (input : String) : Prop where
  /-- Every parser that the tokenizer repeats reads something wherever it succeeds. -/
  tokenizer : Token.anyTokens.Steady
  scanner : Declaration.scanner.Steady
  tokenizing (cursor : Cursor Char) : (Token.anyTokens.run cursor).stalls = []
  searching (cursor : Cursor Char) : (Declaration.scanner.run cursor).stalls = []
  tokenized : ∀ entry ∈ (Token.tokenizeLogged input).entries, entry.level ≠ .warn
  named : ∀ entry ∈ (Declaration.namesLogged input).entries, entry.level ≠ .warn
  checked (tokens : List Token) :
    ∀ entry ∈ (Coverage.checkLogged tokens).entries, entry.level ≠ .warn
  /-- There are at most as many tokens as characters. -/
  bounded : ∃ tokens, Token.tokenize input = .ok tokens ∧ tokens.length ≤ input.length

/-- The tokenizer and the search for names repeat only parsers that read something, so that no
repetition stalls on any text. -/
theorem nothing_stalls (input : String) : NothingStalls input where
  tokenizer := Token.steady_anyTokens
  scanner := Declaration.steady_scanner
  tokenizing := Token.steady_anyTokens.quiet
  searching := Declaration.steady_scanner.quiet
  tokenized _ reported := Token.level_ne_warn_of_mem_tokenizeLogged reported
  named entry reported := by
    rw [Declaration.entries_namesLogged] at reported
    cases reported
  checked tokens entry reported := by simp [Coverage.level_of_mem_checkLogged reported]
  bounded := by
    refine ⟨_, Token.tokenize_eq input, ?_⟩
    rw [← String.length_toList]
    exact Token.length_segments_le _

end DocCoverage
