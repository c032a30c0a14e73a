import DocCoverage.Grammar.Recursion
import DocCoverage.Proofs.Parser.Confinement
import DocCoverage.Token.Tokenize

/-!
# Grammars stay in their input

Every grammar is built from the combinators, whatever the rules are that it refers to: the rules
of a table are unrolled, and running a grammar with them is the limit of the unrollings.
-/

namespace DocCoverage

section Recognizers

namespace Parser

theorem built_space : space.Built := .satisfy _

theorem built_skipSpaces : skipSpaces.Built := built_space.skipMany

theorem built_endOfLine : endOfLine.Built :=
  ((built_element _).orElse ((Built.literal _).map _)).orElse ((built_element _).map _)

end Parser

namespace Token

open DocCoverage.Parser

theorem built_lineComment : lineComment.Built :=
  ((Built.literal _).both (built_any.manyTill built_endOfLine)).map _

theorem built_blockComment : blockComment.Built :=
  (built_any.balanced (.literal _) (.literal _)).map _

theorem built_anyComment : anyComment.Built := built_lineComment.orElse built_blockComment

theorem built_stringPiece : stringPiece.Built :=
  ((Built.literal _).orElse (.literal _)).orElse (built_any.withSpan.map _)

theorem built_quoted : quoted.Built :=
  ((built_element _).andThen (built_stringPiece.manyTill (built_element _))).map _

theorem built_delimited : delimited.Built := built_anyComment.orElse built_quoted

theorem built_plainText : plainText.Built := (built_any.manyTill built_delimited.lookAhead).map _

theorem built_anyTokens : anyTokens.Built :=
  (built_skipSpaces.andThen (built_delimited.orElse built_plainText)).many

end Token

end Recognizers

section Grammars

variable {ε κ : Type}

theorem Recognizer.built (recognizer : Recognizer ε) :
    (recognizer.parser : Parser ε (Value ε κ)).Built := by
  cases recognizer with
  | space => exact Parser.built_space.map _
  | skipSpaces => exact Parser.built_skipSpaces.map _
  | endOfLine => exact Parser.built_endOfLine.map _
  | lineComment => exact Token.built_lineComment.map _
  | blockComment => exact Token.built_blockComment.map _
  | comment => exact Token.built_anyComment.map _
  | stringLiteral => exact Token.built_quoted.map _
  | text => exact Token.built_plainText.map _

variable [DecidableEq ε] [Element ε]

theorem Grammar.built {rule : String → Parser ε (Value ε κ)}
    (rules : ∀ name, (rule name).Built) (grammar : Grammar ε κ) : (grammar.parser rule).Built := by
  induction grammar with
  | pure payload => exact .pure _
  | any => exact Parser.built_any.map _
  | element expected => exact (Parser.built_element expected).map _
  | satisfy predicate => exact (Parser.Built.satisfy _).map _
  | literal expected => exact (Parser.Built.literal expected).map _
  | take count => exact (Parser.built_take count).map _
  | recognize recognizer => exact recognizer.built
  | map body mapping inside => exact inside.map _
  | orElse first second one two => exact one.orElse two
  | both first second one two => exact (one.both two).map _
  | andThen first second one two => exact one.andThen two
  | followedBy first second one two => exact one.followedBy two
  | apply first second combination one two => exact (one.map _).apply two
  | bind first next one two => exact one.bind fun value => two value.flatten
  | lookAhead body inside => exact inside.lookAhead
  | withSpan body inside => exact inside.withSpan.map _
  | many body inside => exact inside.many.map _
  | many1 body inside => exact inside.many1.map _
  | skipMany body inside => exact inside.skipMany.map _
  | skipMany1 body inside => exact inside.skipMany1.map _
  | manyTill body stop inside ends => exact (inside.manyTill ends).map _
  | balanced inner opening closing inside opens closes =>
    exact (inside.balanced opens closes).map _
  | lazy body inside => exact inside.lazy
  | ref name => exact (rules name).lazy

namespace Rules

theorem built (rules : Rules ε κ) (depth : Nat) (name : String) :
    (rules.parser depth name).Built := by
  induction depth generalizing name with
  | zero => exact .diverge
  | succ depth ih =>
    rw [parser]
    split
    · next body found => exact body.built ih
    · exact .fail nofun

/-- Running a grammar with its rules is the limit of its unrollings. -/
theorem built_run (rules : Rules ε κ) (grammar : Grammar ε κ) :
    (Parser.mk (rules.run grammar)).Built :=
  .limit (fun depth => grammar.built (rules.built depth))
    fun cursor => ⟨rules.depthAt cursor, rfl⟩

end Rules

end Grammars

/-- Whatever is built from the combinators is confined to its input, and so are every grammar with
its rules and the parser of all tokens. -/
theorem confined_of_built :
    (∀ {ε α : Type} (parser : Parser ε α), parser.Built → parser.Confined) ∧
      (∀ {ε κ : Type} [DecidableEq ε] [Element ε] (rules : Rules ε κ) (grammar : Grammar ε κ),
        (Parser.mk (rules.run grammar)).Confined) ∧
      Token.anyTokens.Confined :=
  ⟨fun _ built => built.confined, fun rules grammar => (rules.built_run grammar).confined,
    Token.built_anyTokens.confined⟩

/-- Behind the first of the brackets, a rule that refers to itself reads two of them, and asking
for an element at the end is a syntax error there. -/
theorem confined_of_built_nested :
    let nest : Grammar Char Unit :=
      .orElse (.both (.element '(') (.both (.ref "nest") (.element ')'))) (.pure ())
    let cursor := Cursor.start "(())".toList.toArray
    (∃ value after, (Rules.run [("nest", nest)] nest cursor.next).outcome = .success value after ∧
      after.position = 3 ∧ ∃ count, after = cursor.next.advance count) ∧
    (Parser.any : Parser Char Char).Built ∧
      ∃ reason, Parser.any.outcome (cursor.advance 4) = .failure reason ∧
        reason.isEndOfInput = false ∧ 4 ≤ reason.position := by
  intro nest cursor
  refine ⟨⟨_, _, rfl, rfl, ?_⟩, Parser.built_any, _, rfl, ?_⟩
  · obtain ⟨count, -, reached, -⟩ :=
      (confined_of_built.2.1 [("nest", nest)] nest).success cursor.next _ _ rfl
    exact ⟨count, reached⟩
  · obtain ⟨syntactic, -, behind, -⟩ :=
      (confined_of_built.1 _ Parser.built_any).failure (cursor.advance 4) _ rfl
    exact ⟨syntactic, behind⟩

end DocCoverage
