import DocCoverage.Source.Cursor

/-!
# Spans

A span is a stretch of an input, from one position up to another that it does not include. Any
two numbers make a span; it has a `slice?` only if it runs forwards and within the input.
-/

namespace DocCoverage

/-- The stretch of `source` from `start` up to `stop`. -/
structure Span (ε : Type) where
  source : Array ε
  start : Nat
  stop : Nat
deriving DecidableEq

namespace Span

variable {ε : Type}

/-- The span between two places of an input. -/
def between (first last : Cursor ε) : Span ε := ⟨first.source, first.position, last.position⟩

/-- How many positions the span covers; none if it runs backwards. -/
def length (span : Span ε) : Nat := span.stop - span.start

/-- Whether the span covers no position. -/
def isEmpty (span : Span ε) : Bool := !decide (span.start < span.stop)

/-- The elements of the span, if it is a stretch of the input. -/
def slice? (span : Span ε) : Option (List ε) :=
  if span.start ≤ span.stop ∧ span.stop ≤ span.source.size then
    some (span.source.extract span.start span.stop).toList
  else none

/-- The elements of the span as text. -/
def text? [Element ε] (span : Span ε) : Option String := span.slice?.map Element.decode

end Span

end DocCoverage
