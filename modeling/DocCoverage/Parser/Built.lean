import DocCoverage.Parser.Balanced
import DocCoverage.Parser.Element

/-!
# Parsers built from combinators

The parsers that can be put together from the combinators of this library, with values of any type
and with any functions on them. A recursive rule is the limit of its unrollings, in which the
references to itself are followed less and less deep: wherever it ends, it ends like one of them.
-/

namespace DocCoverage.Parser

variable {ε : Type}

/-- The parser is put together from the combinators. -/
inductive Built : {α : Type} → Parser ε α → Prop where
  | pure {α : Type} (value : α) : Built (Parser.pure value)
  | satisfy (accepts : ε → Bool) : Built (satisfy accepts)
  | literal [DecidableEq ε] (expected : List ε) : Built (literal expected)
  | map {α β : Type} {parser : Parser ε α} (transform : α → β) (built : Built parser) :
      Built (parser.map transform)
  | orElse {α : Type} {first second : Parser ε α} (one : Built first) (two : Built second) :
      Built (first.orElse second)
  | both {α β : Type} {first : Parser ε α} {second : Parser ε β} (one : Built first)
      (two : Built second) : Built (first.both second)
  | andThen {α β : Type} {first : Parser ε α} {second : Parser ε β} (one : Built first)
      (two : Built second) : Built (first.andThen second)
  | followedBy {α β : Type} {first : Parser ε α} {second : Parser ε β} (one : Built first)
      (two : Built second) : Built (first.followedBy second)
  | apply {α β : Type} {function : Parser ε (α → β)} {argument : Parser ε α}
      (one : Built function) (two : Built argument) : Built (function.apply argument)
  | bind {α β : Type} {parser : Parser ε α} {next : α → Parser ε β} (one : Built parser)
      (two : ∀ value, Built (next value)) : Built (parser.bind next)
  | lookAhead {α : Type} {parser : Parser ε α} (built : Built parser) : Built parser.lookAhead
  | withSpan {α : Type} {parser : Parser ε α} (built : Built parser) : Built parser.withSpan
  | many {α : Type} {parser : Parser ε α} (built : Built parser) : Built parser.many
  | many1 {α : Type} {parser : Parser ε α} (built : Built parser) : Built parser.many1
  | skipMany {α : Type} {parser : Parser ε α} (built : Built parser) : Built parser.skipMany
  | skipMany1 {α : Type} {parser : Parser ε α} (built : Built parser) : Built parser.skipMany1
  | manyTill {α β : Type} {parser : Parser ε α} {stop : Parser ε β} (built : Built parser)
      (ends : Built stop) : Built (parser.manyTill stop)
  | balanced {ο ι κ : Type} {inner : Parser ε ι} {opening : Parser ε ο} {closing : Parser ε κ}
      (inside : Built inner) (opens : Built opening) (closes : Built closing) :
      Built (inner.balanced opening closing)
  | lazy {α : Type} {build : Unit → Parser ε α} (built : Built (build ())) : Built (lazy build)
  /-- A reference that is followed no deeper. -/
  | diverge {α : Type} : Built (diverge : Parser ε α)
  /-- A reference to no rule, or a parser of the user's own that always fails. Only a cursor
  reports that there is no further element. -/
  | fail {α : Type} {cause : Cause ε} (own : cause ≠ .endOfInput) :
      Built (fail cause : Parser ε α)
  /-- A recursive rule. -/
  | limit {α : Type} {parser : Parser ε α} {unrolled : Nat → Parser ε α}
      (built : ∀ depth, Built (unrolled depth))
      (ends : ∀ cursor, ∃ depth, parser.outcome cursor = (unrolled depth).outcome cursor) :
      Built parser

theorem built_any : (any : Parser ε ε).Built := .satisfy _

theorem built_element [DecidableEq ε] (expected : ε) : (element expected).Built := .satisfy _

theorem built_take (count : Nat) : (take count : Parser ε (List ε)).Built := by
  induction count with
  | zero => exact .pure _
  | succ count ih => exact built_any.bind fun _ => ih.map _

end DocCoverage.Parser
