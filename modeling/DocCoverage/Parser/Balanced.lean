import DocCoverage.Parser.Repeat

/-!
# Balanced regions

A balanced region begins with an opening marker and ends with the closing marker that belongs to
it. In between stand further such regions and runs of inner values. The value is the flat list of
`Node`s in the order of the input, which is the trace of the nesting.

The parser counts the open regions instead of recursing into them. It is a loop over `step`: at
every place the closing marker is tried first, then the opening marker, then a run of inner
values up to the next marker.
-/

namespace DocCoverage

/-- A part of a balanced region. -/
inductive Node (ο ι κ : Type) where
  | opened (marker : ο)
  | inner (run : ι)
  | closed (marker : κ)
deriving DecidableEq, Repr

/-- The elements of a node whose values all are runs of elements. -/
def Node.elements {ε : Type} : Node (List ε) (List ε) (List ε) → List ε
  | .opened run | .inner run | .closed run => run

namespace Balanced

variable {ε ο ι κ : Type}

/-- A region that has been read in part: where the cursor stands, how many regions are open, and
the nodes and stalls so far, latest first. -/
structure Progress (ε ο ι κ : Type) where
  cursor : Cursor ε
  depth : Nat
  nodes : List (Node ο (List ι) κ)
  stalls : List Stall

/-- Either there is more to read, or the attempt is over. -/
inductive Step (ε ο ι κ : Type) where
  | more (progress : Progress ε ο ι κ)
  | over (attempt : Attempt ε (List (Node ο (List ι) κ)))

/-- Succeeds where either marker comes next, without moving on. -/
def boundary (opening : Parser ε ο) (closing : Parser ε κ) : Parser ε Unit :=
  (opening.lookAhead.map fun _ => ()).orElse (closing.lookAhead.map fun _ => ())

/-- Reads the next node. -/
def step (inner : Parser ε ι) (opening : Parser ε ο) (closing : Parser ε κ)
    (progress : Progress ε ο ι κ) : Step ε ο ι κ :=
  match closing.run progress.cursor with
  | ⟨.success marker after, closed⟩ =>
    .more ⟨after, progress.depth - 1, .closed marker :: progress.nodes,
      closed.reverse ++ progress.stalls⟩
  | ⟨.diverged, closed⟩ => .over ⟨.diverged, progress.stalls.reverse ++ closed⟩
  | ⟨.failure _, closed⟩ =>
    match opening.run progress.cursor with
    | ⟨.success marker after, opened⟩ =>
      .more ⟨after, progress.depth + 1, .opened marker :: progress.nodes,
        opened.reverse ++ (closed.reverse ++ progress.stalls)⟩
    | ⟨.diverged, opened⟩ => .over ⟨.diverged, progress.stalls.reverse ++ closed ++ opened⟩
    | ⟨.failure _, opened⟩ =>
      match (inner.manyTill (boundary opening closing)).run progress.cursor with
      | ⟨.success values after, seen⟩ =>
        .more ⟨after, progress.depth, .inner values :: progress.nodes,
          seen.reverse ++ (opened.reverse ++ (closed.reverse ++ progress.stalls))⟩
      | ⟨.failure reason, seen⟩ =>
        .over ⟨.failure reason, progress.stalls.reverse ++ closed ++ opened ++ seen⟩
      | ⟨.diverged, seen⟩ =>
        .over ⟨.diverged, progress.stalls.reverse ++ closed ++ opened ++ seen⟩

/-- Whether a step has read something or, without reading, closed a region. A step that has done
neither would be repeated for ever. -/
def Progress.Advances (progress next : Progress ε ο ι κ) : Prop :=
  next.cursor.left < progress.cursor.left ∨
    next.cursor.left = progress.cursor.left ∧ next.depth < progress.depth

instance (progress next : Progress ε ο ι κ) : Decidable (progress.Advances next) :=
  inferInstanceAs (Decidable (_ ∨ _))

/-- Reads nodes until every region is closed. -/
def loop (inner : Parser ε ι) (opening : Parser ε ο) (closing : Parser ε κ)
    (progress : Progress ε ο ι κ) : Attempt ε (List (Node ο (List ι) κ)) :=
  if progress.depth = 0 then
    ⟨.success progress.nodes.reverse progress.cursor, progress.stalls.reverse⟩
  else match step inner opening closing progress with
    | .over attempt => attempt
    | .more next =>
      if _advances : progress.Advances next then loop inner opening closing next
      else ⟨.diverged, next.stalls.reverse⟩
termination_by (progress.cursor.left, progress.depth)
decreasing_by
  rcases _advances with closer | ⟨same, shallower⟩
  · exact Prod.Lex.left _ _ closer
  · rw [same]
    exact Prod.Lex.right _ shallower

end Balanced

/-- A region from an opening marker to the closing marker that belongs to it. -/
def Parser.balanced {ε ο ι κ : Type} (inner : Parser ε ι) (opening : Parser ε ο)
    (closing : Parser ε κ) : Parser ε (List (Node ο (List ι) κ)) :=
  ⟨fun cursor => (opening.run cursor).bind fun marker after =>
    Balanced.loop inner opening closing ⟨after, 1, [.opened marker], []⟩⟩

end DocCoverage
