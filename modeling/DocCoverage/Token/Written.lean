import DocCoverage.Token.Recognizer

/-!
# Written tokens

How tokens look in source text. A line comment may end with any of the three line breaks, so it is
written in several ways, of which `render` takes the shortest one; every other token is written in
one way. Between tokens there may be spaces.
-/

namespace DocCoverage.Token

/-- The line breaks that end a line comment. -/
def lineBreaks : List (List Char) := [['\n'], ['\r', '\n'], ['\r']]

/-- The text is a way to write the token. -/
inductive Written : Token → List Char → Prop where
  | lineComment {content : String} {lineBreak : List Char}
      (marked : ['/', '/'] <+: content.toList) (ends : lineBreak ∈ lineBreaks) :
      Written (.comment content) (content.toList ++ lineBreak)
  | blockComment {content : String} (marked : ['/', '*'] <+: content.toList) :
      Written (.comment content) content.toList
  | stringLiteral {content : String} :
      Written (.stringLiteral content) ('"' :: (content.toList ++ ['"']))
  | text {content : String} : Written (.text content) content.toList

/-- No line break is in the text. -/
def Unbroken (line : List Char) : Prop := '\n' ∉ line ∧ '\r' ∉ line

/-- No mark of a comment or string literal is in the text, nor half of one. -/
def Calm (input : List Char) : Prop := '/' ∉ input ∧ '"' ∉ input

instance : DecidablePred Unbroken := fun _ => inferInstanceAs (Decidable (_ ∧ _))

instance : DecidablePred Calm := fun _ => inferInstanceAs (Decidable (_ ∧ _))

/-- A comment in full: two slashes and the rest of a line without its break, or what is read as one
block comment up to its end. -/
inductive WholeComment : List Char → Prop where
  | line {body : List Char} (unbroken : Unbroken body) : WholeComment ('/' :: '/' :: body)
  | block {content : List Char} {token : Token} {after : Cursor Char}
      (read : blockComment.outcome (Cursor.start content.toArray) = .success token after)
      (whole : after.rest = []) : WholeComment content

/-- The token as it is written with a line feed behind a line comment. -/
def render : Token → List Char
  | .comment content =>
    if ['/', '/'].isPrefixOf content.toList then content.toList ++ ['\n'] else content.toList
  | .stringLiteral content => '"' :: (content.toList ++ ['"'])
  | .text content => content.toList

/-- How many backslashes stand side by side at the end of the text. -/
def trailingEscapes (text : List Char) : Nat := (text.reverse.takeWhile (· == '\\')).length

/-- No quote ends the text: an odd number of backslashes stands in front of each one inside of it,
and no such number in front of one that stands behind it. -/
structure Escaped (content : List Char) : Prop where
  quotes : ∀ before after, content = before ++ '"' :: after → trailingEscapes before % 2 = 1
  ends : trailingEscapes content % 2 = 0

theorem escaped_iff {content : List Char} :
    Escaped content ↔
      (∀ count < content.length, content[count]? = some '"' →
        trailingEscapes (content.take count) % 2 = 1) ∧ trailingEscapes content % 2 = 0 := by
  constructor
  · rintro ⟨quotes, ends⟩
    refine ⟨fun count below quote => quotes _ (content.drop (count + 1)) ?_, ends⟩
    rw [List.getElem?_eq_getElem below, Option.some.injEq] at quote
    rw [← quote, List.getElem_cons_drop, List.take_append_drop]
  · rintro ⟨quotes, ends⟩
    refine ⟨fun before after shape => ?_, ends⟩
    have quote := quotes before.length (by simp [shape]) (by simp [shape])
    rwa [shape, List.take_left] at quote

instance : DecidablePred Escaped := fun _ => decidable_of_iff _ escaped_iff.symm

/-- The token is read back from what it is rendered as, wherever that stands. -/
inductive Renderable : Token → Prop where
  | comment {content : String} (whole : WholeComment content.toList) : Renderable (.comment content)
  | stringLiteral {content : String} (escaped : Escaped content.toList) :
      Renderable (.stringLiteral content)
  | text {content : String} (nonempty : content ≠ "") (solid : Text.Solid content.toList)
      (calm : Calm content.toList) : Renderable (.text content)

/-- A token as it stands in a text: the spaces in front of it, and how it is written. -/
structure Part where
  gap : List Char
  token : Token
  raw : List Char

namespace Part

/-- The characters of the part. -/
def whole (part : Part) : List Char := part.gap ++ part.raw

/-- Only spaces stand in front of the token, it is written in one of its ways, and it is no empty
text. -/
structure Faithful (part : Part) : Prop where
  blank : Text.Spaces part.gap
  written : Written part.token part.raw
  nonempty : part.token ≠ .text ""

end Part

/-- The parts make up the text, and each text token reaches as far as it can. -/
structure Decomposes (parts : List Part) (input : List Char) : Prop where
  whole : parts.flatMap Part.whole = input
  faithful : ∀ part ∈ parts, part.Faithful
  /-- No two text tokens stand side by side. -/
  apart : ∀ before first second after, parts = before ++ first :: second :: after →
    ¬ (first.token.isText = true ∧ second.token.isText = true)
  /-- Only the last token may be written with a space in front, if it is text, and then all the
  spaces in front of it are part of it. -/
  solid : ∀ before part after, parts = before ++ part :: after → ¬ Text.Solid part.raw →
    after = [] ∧ part.token.isText = true ∧ part.gap = []

end DocCoverage.Token
