import DocCoverage.Parser.Basic

/-!
# Repetition

The loops that run a parser again and again. Each step has to bring the cursor closer to the end
of the input. `many` and its relatives stop after a step that does not; `manyTill` fails there,
because the end that it waits for would never come. Either way the stall is recorded, and every
loop ends.

While they run, the loops keep their values and stalls latest first, and put them in order when
they end. `DocCoverage.Parser.Repeat.Outcome` has an equation for the outcome of each.
-/

namespace DocCoverage.Parser

variable {ε α β : Type}

/-- Runs the parser until it fails or reads nothing, adding to what was collected before. -/
@[specialize] def collect (repetition : Repetition) (parser : Parser ε α) (cursor : Cursor ε)
    (values : List α) (stalls : List Stall) : Attempt ε (List α) :=
  match parser.run cursor with
  | ⟨.success value after, seen⟩ =>
    if after.left < cursor.left then
      collect repetition parser after (value :: values) (seen.reverse ++ stalls)
    else
      ⟨.success (value :: values).reverse after,
        stalls.reverse ++ seen ++ [⟨repetition, cursor.position⟩]⟩
  | ⟨.failure _, seen⟩ => ⟨.success values.reverse cursor, stalls.reverse ++ seen⟩
  | ⟨.diverged, seen⟩ => ⟨.diverged, stalls.reverse ++ seen⟩
termination_by cursor.left

/-- Zero or more times the parser, with all values. -/
@[inline] def many (parser : Parser ε α) : Parser ε (List α) :=
  ⟨fun cursor => collect .many parser cursor [] []⟩

/-- One or more times the parser, with all values. -/
@[inline] def many1 (parser : Parser ε α) : Parser ε (List α) :=
  ⟨fun cursor => (parser.run cursor).bind fun value after =>
    if after.left < cursor.left then collect .many1 parser after [value] []
    else ⟨.success [value] after, [⟨.many1, cursor.position⟩]⟩⟩

/-- Runs the parser until it fails or reads nothing, keeping no values. -/
@[specialize] def skip (parser : Parser ε α) (cursor : Cursor ε) (stalls : List Stall) :
    Attempt ε Unit :=
  match parser.run cursor with
  | ⟨.success _ after, seen⟩ =>
    if after.left < cursor.left then skip parser after (seen.reverse ++ stalls)
    else ⟨.success () after, stalls.reverse ++ seen ++ [⟨.skipMany, cursor.position⟩]⟩
  | ⟨.failure _, seen⟩ => ⟨.success () cursor, stalls.reverse ++ seen⟩
  | ⟨.diverged, seen⟩ => ⟨.diverged, stalls.reverse ++ seen⟩
termination_by cursor.left

/-- Zero or more times the parser, without values. -/
@[inline] def skipMany (parser : Parser ε α) : Parser ε Unit :=
  ⟨fun cursor => skip parser cursor []⟩

/-- One or more times the parser, without values. -/
@[inline] def skipMany1 (parser : Parser ε α) : Parser ε Unit :=
  ⟨fun cursor => (parser.run cursor).bind fun _ after =>
    if after.left < cursor.left then parser.skipMany.run after
    else ⟨.success () after, [⟨.skipMany1, cursor.position⟩]⟩⟩

/-- Runs the parser until `stop` succeeds, adding to what was collected before. -/
@[specialize] def collectTill (parser : Parser ε α) (stop : Parser ε β) (cursor : Cursor ε)
    (values : List α) (stalls : List Stall) : Attempt ε (List α) :=
  match stop.run cursor with
  | ⟨.success _ after, tried⟩ => ⟨.success values.reverse after, stalls.reverse ++ tried⟩
  | ⟨.diverged, tried⟩ => ⟨.diverged, stalls.reverse ++ tried⟩
  | ⟨.failure _, tried⟩ =>
    match parser.run cursor with
    | ⟨.success value after, seen⟩ =>
      if after.left < cursor.left then
        collectTill parser stop after (value :: values) (seen.reverse ++ (tried.reverse ++ stalls))
      else
        ⟨.failure (cursor.failure .stalled),
          stalls.reverse ++ tried ++ seen ++ [⟨.manyTill, cursor.position⟩]⟩
    | ⟨.failure reason, seen⟩ => ⟨.failure reason, stalls.reverse ++ tried ++ seen⟩
    | ⟨.diverged, seen⟩ => ⟨.diverged, stalls.reverse ++ tried ++ seen⟩
termination_by cursor.left

/-- Any number of times the parser up to the first place where `stop` succeeds, which is tried
first at every step. What `stop` reads is read, and its value dropped. -/
@[inline] def manyTill (parser : Parser ε α) (stop : Parser ε β) : Parser ε (List α) :=
  ⟨fun cursor => collectTill parser stop cursor [] []⟩

end DocCoverage.Parser
