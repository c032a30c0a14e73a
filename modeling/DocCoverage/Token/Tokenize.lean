import DocCoverage.Log.Entry
import DocCoverage.Token.Recognizer

/-!
# Tokenizing

`tokenize` splits source text into tokens. Spaces in front of a token are dropped. What is left
where no further token is recognized, such as text behind the last comment or a comment that is
not finished, becomes one last text token, with the spaces in front of it.
-/

namespace DocCoverage

open Log (Logged)

/-- Why a text could not be tokenized. -/
inductive TokenizeError where
  | rejected (failure : ParseFailure Char)
  | unending
deriving DecidableEq

/-- The error in words. -/
def TokenizeError.message : TokenizeError → String
  | rejected failure =>
    let address := failure.location.address
    s!"tokenizing failed at line {address.line}, offset {address.offset} " ++
      s!"(position {failure.position}): {failure.message}"
  | unending => "tokenizing does not end"

namespace Token

/-- All tokens up to the place where none is recognized. -/
def anyTokens : Parser Char (List Token) := anyToken.many

/-- The tokens, and one more for what has been left over. -/
def withLeftover (tokens : List Token) (after : Cursor Char) : Logged (List Token) := do
  if after.left = 0 then
    return tokens
  else
    Logged.report .trace "docgate::tokenize"
      s!"{after.left} trailing characters from position {after.position} become a text token"
    return tokens ++ [text (String.ofList after.rest)]

/-- Splits a text into tokens, with a report. -/
def tokenizeLogged (input : String) : Logged (Except TokenizeError (List Token)) := do
  let chars := input.toList.toArray
  match ← Logged.ofAttempt (anyTokens.run (Cursor.start chars)) with
  | .success recognized after =>
    let tokens ← withLeftover recognized after
    Logged.report .debug "docgate::tokenize"
      s!"tokenized {chars.size} characters into {tokens.length} tokens"
    return .ok tokens
  | .failure failure => return .error (.rejected failure)
  | .diverged => return .error .unending

/-- Splits a text into tokens. -/
def tokenize (input : String) : Except TokenizeError (List Token) := (tokenizeLogged input).value

end Token

end DocCoverage
