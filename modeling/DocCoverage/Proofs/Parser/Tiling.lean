import Mathlib.Data.List.Chain
import DocCoverage.Parser.Built
import DocCoverage.Proofs.Parser.Repetition
import DocCoverage.Proofs.Parser.Shift

/-!
# Spans of repetitions

A repetition of a parser together with its spans goes the same way as one without them. The spans
cover what the repetition reads, without gaps and without overlaps: each begins where the one in
front of it ends. Only the last one may be empty, because a step that reads nothing is the last step
of a repetition; a repetition up to an end keeps no such step.
-/

namespace DocCoverage

variable {ε α β : Type}

namespace Span

/-- The spans lie in the input one behind the other, from the first place up to the last one, and
what stands there is what they cut out. -/
structure Tile (first last : Cursor ε) (spans : List (Span ε)) : Prop where
  reaches : first.Reaches last
  starts : ∀ span ∈ spans.head?, span.start = first.position
  adjoin : spans.IsChain fun left right => left.stop = right.start
  ends : ∀ span ∈ spans.getLast?, span.stop = last.position
  still : spans = [] → last = first
  inside : ∀ span ∈ spans, span.source = first.source ∧ span.start ≤ span.stop ∧
    span.stop ≤ first.source.size
  slices : ∃ pieces : List (List ε), spans.map slice? = pieces.map some ∧
    pieces.flatten = first.upTo last

variable {first middle last : Cursor ε} {spans : List (Span ε)}

theorem isEmpty_between (reaches : first.Reaches last) (closer : last.left < first.left) :
    (between first last).isEmpty = false := by
  have further := (Cursor.left_lt_iff reaches.1).mp closer
  simp [between, isEmpty, further]

theorem tile_nil (cursor : Cursor ε) : Tile cursor cursor [] where
  reaches := .refl cursor
  starts := nofun
  adjoin := .nil
  ends := nofun
  still _ := rfl
  inside := nofun
  slices := ⟨[], rfl, cursor.upTo_self.symm⟩

/-- One more span in front, up to where the others begin. -/
theorem Tile.cons (reaches : first.Reaches middle) (later : Tile middle last spans) :
    Tile first last (between first middle :: spans) where
  reaches := reaches.trans later.reaches
  starts := by
    rintro span ⟨⟩
    rfl
  adjoin := List.isChain_cons.mpr ⟨fun span next => (later.starts span next).symm, later.adjoin⟩
  ends := by
    cases spans with
    | nil =>
      rintro span ⟨⟩
      rw [later.still rfl]
      rfl
    | cons next others =>
      rw [List.getLast?_cons_cons]
      exact later.ends
  still := nofun
  inside := by
    rintro span member
    rcases List.mem_cons.mp member with rfl | member
    · exact ⟨rfl, reaches.2, reaches.1 ▸ middle.position_le⟩
    · rw [← reaches.1]
      exact later.inside span member
  slices := by
    obtain ⟨pieces, cut, whole⟩ := later.slices
    refine ⟨first.upTo middle :: pieces, ?_, ?_⟩
    · rw [List.map_cons, List.map_cons, slice?_between reaches, cut]
    · rw [List.flatten_cons, whole, reaches.upTo_append later.reaches]

end Span

namespace Parser

variable {parser : Parser ε α} {cursor last : Cursor ε}

theorem span_of_withSpan {found : α × Span ε}
    (read : parser.withSpan.outcome cursor = .success found last) :
    found.2 = Span.between cursor last := by
  rw [outcome_withSpan] at read
  obtain ⟨value, after, -, same⟩ := Outcome.bind_eq_success_iff.mp read
  cases same
  rfl

section Steps

variable {passing : Cursor ε → Prop} {middle : Cursor ε} {pairs : List (α × Span ε)}

/-- The spans of the steps lie in front of those that begin where the steps end. -/
theorem Repeats.tile (repeats : parser.withSpan.Repeats passing cursor pairs middle)
    (forward : parser.Forward) {spans : List (Span ε)} (later : Span.Tile middle last spans) :
    Span.Tile cursor last (pairs.map Prod.snd ++ spans) := by
  induction repeats with
  | none cursor => exact later
  | step _ read _ _ ih =>
    rw [List.map_cons, List.cons_append, span_of_withSpan read]
    exact (ih later).cons (forward.withSpan _ _ _ read)

theorem Repeats.isEmpty_eq_false (repeats : parser.withSpan.Repeats passing cursor pairs middle)
    (forward : parser.Forward) : ∀ span ∈ pairs.map Prod.snd, span.isEmpty = false := by
  induction repeats with
  | none cursor => exact nofun
  | step _ read closer _ ih =>
    rw [List.map_cons, span_of_withSpan read]
    have nonempty := Span.isEmpty_between (forward.withSpan _ _ _ read) closer
    exact List.forall_mem_cons.mpr ⟨nonempty, ih⟩

end Steps

/-- A repetition of a parser that ends everywhere succeeds everywhere. -/
theorem Ending.exists_many (ending : parser.Ending) (cursor : Cursor ε) :
    ∃ values last, parser.many.outcome cursor = .success values last := by
  have ends : parser.many.EndsAt cursor := EndsAt.many (ending cursor) fun after _ => ending after
  cases ended : parser.many.outcome cursor with
  | success values last => exact ⟨values, last, rfl⟩
  | failure reason => exact absurd ended (many_ne_failure parser cursor reason)
  | diverged => exact absurd ended ends

theorem mirrors_withSpan (parser : Parser ε α) : Mirrors #[] Prod.fst parser.withSpan parser := by
  refine mirrors_empty_iff.mpr fun cursor => ?_
  rw [outcome_withSpan]
  cases parser.outcome cursor <;> rfl

/-- What the repetitions of a parser come to together with the spans that it reads. Without the
spans, the values are those of the repetitions of the parser alone. -/
structure SpansTile (parser : Parser ε α) (cursor : Cursor ε) : Prop where
  many : (parser.withSpan.many.outcome cursor).map (List.map Prod.fst) =
    parser.many.outcome cursor
  ends : parser.Ending → ∃ pairs last, parser.withSpan.many.outcome cursor = .success pairs last
  tiles : ∀ pairs last, parser.withSpan.many.outcome cursor = .success pairs last →
    Span.Tile cursor last (pairs.map Prod.snd) ∧
      ∀ span ∈ (pairs.map Prod.snd).dropLast, span.isEmpty = false
  manyTill : ∀ {β : Type} (stop : Parser ε β),
    ((parser.withSpan.manyTill stop).outcome cursor).map (List.map Prod.fst) =
      (parser.manyTill stop).outcome cursor
  tilesTill : ∀ {β : Type} (stop : Parser ε β) pairs after,
    (parser.withSpan.manyTill stop).outcome cursor = .success pairs after →
      ∃ last ending, stop.outcome last = .success ending after ∧
        Span.Tile cursor last (pairs.map Prod.snd) ∧
        ∀ span ∈ pairs.map Prod.snd, span.isEmpty = false

/-- The spans of a repetition tile what it reads, whatever parser of the library is repeated. -/
theorem spans_tile (built : parser.Built) (cursor : Cursor ε) : parser.SpansTile cursor where
  many := (mirrors_empty_iff.mp (mirrors_withSpan parser).many cursor).symm
  ends ending := Ending.exists_many (fun place => EndsAt.withSpan (ending place)) cursor
  tiles pairs last ended := by
    have forward := built.forward
    obtain ⟨moved, repeats, ⟨rfl, -⟩ | ⟨still, rfl, read⟩⟩ :=
      exists_repeats_of_many forward.withSpan ended
    · have tile := repeats.tile forward (Span.tile_nil last)
      rw [List.append_nil] at tile
      exact ⟨tile, fun span member =>
        repeats.isEmpty_eq_false forward span (List.dropLast_subset _ member)⟩
    · have tile := repeats.tile forward ((Span.tile_nil last).cons (.refl last))
      rw [← span_of_withSpan read, ← List.map_singleton, ← List.map_append] at tile
      refine ⟨tile, ?_⟩
      rw [List.map_append, List.map_singleton, List.dropLast_concat]
      exact repeats.isEmpty_eq_false forward
  manyTill stop :=
    (mirrors_empty_iff.mp ((mirrors_withSpan parser).manyTill (mirrors_self stop)) cursor).symm
  tilesTill stop pairs after ended := by
    have forward := built.forward
    cases outcome_manyTill_eq_iff.mp ended with
    | @found _ last _ ending repeats stopped =>
      have tile := repeats.tile forward (Span.tile_nil last)
      rw [List.append_nil] at tile
      exact ⟨last, ending, stopped, tile, repeats.isEmpty_eq_false forward⟩

/-- Letters, and nothing where there is none: the last span of the repetition is empty. Up to a
mark, the repetition has read the mark before it gets there. -/
theorem spans_tile_empty :
    let parser : Parser Char Char := (element 'a').orElse (Parser.pure 'x')
    let mark : Parser Char Char := element ';'
    let cursor := Cursor.start "aa;".toList.toArray
    let span (start stop : Nat) : Span Char := ⟨cursor.source, start, stop⟩
    let letters := [('a', span 0 1), ('a', span 1 2)]
    parser.Built ∧
      parser.withSpan.many.outcome cursor =
        .success (letters ++ [('x', span 2 2)]) (cursor.advance 2) ∧
      Span.Tile cursor (cursor.advance 2) [span 0 1, span 1 2, span 2 2] ∧
      (parser.withSpan.manyTill mark).outcome cursor = .success letters (cursor.advance 3) ∧
      (parser.manyTill mark).outcome cursor = .success ['a', 'a'] (cursor.advance 3) := by
  intro parser mark cursor span letters
  have built : parser.Built := (built_element 'a').orElse (.pure 'x')
  have tiled := spans_tile built cursor
  have many : parser.withSpan.many.outcome cursor =
      .success (letters ++ [('x', span 2 2)]) (cursor.advance 2) := by cbv
  have till : (parser.withSpan.manyTill mark).outcome cursor =
      .success letters (cursor.advance 3) := by cbv
  refine ⟨built, many, (tiled.tiles _ _ many).1, till, ?_⟩
  rw [← tiled.manyTill mark, till]
  rfl

end Parser

end DocCoverage
