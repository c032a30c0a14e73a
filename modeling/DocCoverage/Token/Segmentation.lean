import DocCoverage.Source.Span
import DocCoverage.Token.Recognizer

/-!
# Leftmost segmentation

What the tokens of a text are, said by position. Behind the spaces at a place stands a comment or a
string literal, or else text up to the nearest place where one stands; where none stands any more,
everything that is left is one last text.
-/

namespace DocCoverage.Token

/-- A comment begins at the cursor and ends before `after`, or, where none does, a string
literal. -/
inductive Begins (cursor : Cursor Char) (token : Token) (after : Cursor Char) : Prop where
  | comment (read : anyComment.outcome cursor = .success token after)
  | stringLiteral (uncommented : ∀ other last, anyComment.outcome cursor ≠ .success other last)
      (read : quoted.outcome cursor = .success token after)

/-- A comment or string literal begins at the cursor. -/
def Starts (cursor : Cursor Char) : Prop := ∃ token after, Begins cursor token after

/-- The cursor behind the spaces that it stands before. -/
def behindSpaces (cursor : Cursor Char) : Cursor Char :=
  cursor.advance (cursor.rest.takeWhile Text.isSpace).length

/-- The tokens from a cursor on, each with the stretch of the input that it is read from. -/
inductive Segmented : Cursor Char → List (Token × Span Char) → Prop where
  | delimited {cursor after : Cursor Char} {token : Token} {pieces : List (Token × Span Char)}
      (begins : Begins (behindSpaces cursor) token after) (others : Segmented after pieces) :
      Segmented cursor ((token, .between (behindSpaces cursor) after) :: pieces)
  | text {cursor : Cursor Char} {pieces : List (Token × Span Char)} (count : Nat)
      (before : ∀ distance < count, ¬ Starts ((behindSpaces cursor).advance distance))
      (here : Starts ((behindSpaces cursor).advance count)) (nonempty : 0 < count)
      (others : Segmented ((behindSpaces cursor).advance count) pieces) :
      Segmented cursor
        ((.text (String.ofList
            ((behindSpaces cursor).upTo ((behindSpaces cursor).advance count))),
          .between (behindSpaces cursor) ((behindSpaces cursor).advance count)) :: pieces)
  | leftover {cursor : Cursor Char} (none : ∀ distance,
      ¬ Starts ((behindSpaces cursor).advance distance)) (some : cursor.rest ≠ []) :
      Segmented cursor [(.text (String.ofList cursor.rest),
        ⟨cursor.source, cursor.position, cursor.source.size⟩)]
  | finished {cursor : Cursor Char} (empty : cursor.rest = []) : Segmented cursor []

end DocCoverage.Token
