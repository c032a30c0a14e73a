import DocCoverage.Parser.Balanced

/-!
# Regions as trees

A balanced region with single elements as its markers is a tree: the regions and runs of other
elements inside it, in order. The tree is written down by `render`, and `trace` lists the nodes
that reading it back gives.
-/

namespace DocCoverage

/-- What stands inside a region: a run of elements, or a region with its own content. -/
inductive Region (ε : Type) where
  | run (elements : List ε)
  | nested (content : List (Region ε))

namespace Region

variable {ε : Type}

/-- Whether this is a run. -/
def isRun : Region ε → Bool
  | .run _ => true
  | .nested _ => false

mutual

/-- The elements that the tree is written with. -/
def render (opening closing : ε) : Region ε → List ε
  | .run elements => elements
  | .nested content => opening :: (renderAll opening closing content ++ [closing])

/-- The elements that several trees are written with. -/
def renderAll (opening closing : ε) : List (Region ε) → List ε
  | [] => []
  | head :: rest => head.render opening closing ++ renderAll opening closing rest

end

mutual

/-- The nodes of the tree, in the order of the input. -/
def trace (opening closing : ε) : Region ε → List (Node ε (List ε) ε)
  | .run elements => [.inner elements]
  | .nested content => .opened opening :: (traceAll opening closing content ++ [.closed closing])

/-- The nodes of several trees. -/
def traceAll (opening closing : ε) : List (Region ε) → List (Node ε (List ε) ε)
  | [] => []
  | head :: rest => head.trace opening closing ++ traceAll opening closing rest

end

/-- No two runs stand side by side. -/
def Separated : List (Region ε) → Prop
  | [] | [_] => True
  | first :: second :: rest =>
    ¬ (first.isRun = true ∧ second.isRun = true) ∧ Separated (second :: rest)

/-- Runs are not empty, hold no marker, and do not stand side by side. -/
inductive Proper (opening closing : ε) : Region ε → Prop where
  | run {elements : List ε} (nonempty : elements ≠ [])
      (unmarked : ∀ element ∈ elements, element ≠ opening ∧ element ≠ closing) :
      Proper opening closing (.run elements)
  | nested {content : List (Region ε)} (proper : ∀ region ∈ content, Proper opening closing region)
      (separated : Separated content) : Proper opening closing (.nested content)

end Region

end DocCoverage
