import DocCoverage.Proofs.Parser.Repetition

/-!
# The nodes of a balanced region are well nested

Whatever the parsers of a balanced region are, the nodes that it reads nest like brackets: the loop
stops as soon as it has closed as many regions as it has opened, and a run of inner values goes on
up to the next marker. `Closes` is what the loop reads while it closes a number of regions, node by
node, and everything about the nodes is an induction over it.
-/

namespace DocCoverage

variable {ε ο ι κ : Type}

namespace Node

/-- Whether the node opens a region. -/
def isOpened : Node ο ι κ → Bool
  | .opened _ => true
  | .inner _ | .closed _ => false

/-- Whether the node closes a region. -/
def isClosed : Node ο ι κ → Bool
  | .closed _ => true
  | .opened _ | .inner _ => false

/-- A node changes the number of open regions by what it opens and closes. -/
theorem depthAfter_add (node : Node ο ι κ) {depth : Nat} (opened : depth ≠ 0) :
    node.depthAfter depth + (if node.isClosed then 1 else 0) =
      depth + (if node.isOpened then 1 else 0) := by
  cases node with
  | opened marker => rfl
  | inner run => rfl
  | closed marker => exact Nat.sub_add_cancel (Nat.pos_of_ne_zero opened)

theorem countP_isOpened_opened (marker : ο) (nodes : List (Node ο ι κ)) :
    (.opened marker :: nodes).countP isOpened = nodes.countP isOpened + 1 :=
  List.countP_cons_of_pos rfl

theorem countP_isClosed_opened (marker : ο) (nodes : List (Node ο ι κ)) :
    (.opened marker :: nodes).countP isClosed = nodes.countP isClosed :=
  List.countP_cons_of_neg Bool.false_ne_true

/-- The elements of a node, if each of its values can be written out. -/
def contents (opened : ο → List ε) (inner : ι → List ε) (closed : κ → List ε) :
    Node ο (List ι) κ → List ε
  | .opened marker => opened marker
  | .inner run => run.flatMap inner
  | .closed marker => closed marker

/-- The nodes are those of one region from its opening marker to the closing marker that belongs to
it: more has been opened than closed everywhere in between. Runs hold something, and none begins
where another one ends. -/
structure WellNested (nodes : List (Node ο (List ι) κ)) : Prop where
  first : ∃ marker, nodes.head? = some (.opened marker)
  last : ∃ marker, nodes.getLast? = some (.closed marker)
  even : nodes.countP isOpened = nodes.countP isClosed
  ahead : ∀ before later, nodes = before ++ later → before ≠ [] → later ≠ [] →
    before.countP isClosed < before.countP isOpened
  filled : ∀ run, .inner run ∈ nodes → run ≠ []
  apart : ∀ before one two later, nodes ≠ before ++ .inner one :: .inner two :: later

end Node

namespace Balanced

variable {inner : Parser ε ι} {opening : Parser ε ο} {closing : Parser ε κ}

/-- From a cursor up to another one the nodes are read, and with the last of them `depth` regions
are closed. -/
inductive Closes (inner : Parser ε ι) (opening : Parser ε ο) (closing : Parser ε κ) :
    Nat → Cursor ε → List (Node ο (List ι) κ) → Cursor ε → Prop where
  | done (cursor : Cursor ε) : Closes inner opening closing 0 cursor [] cursor
  | node {depth : Nat} {cursor middle last : Cursor ε} {node : Node ο (List ι) κ}
      {nodes : List (Node ο (List ι) κ)} (takes : Takes inner opening closing cursor node middle)
      (later : Closes inner opening closing (node.depthAfter (depth + 1)) middle nodes last) :
      Closes inner opening closing (depth + 1) cursor (node :: nodes) last

theorem closes_of_remainder {depth : Nat} {cursor last : Cursor ε}
    {nodes : List (Node ο (List ι) κ)}
    (read : remainder inner opening closing depth cursor = .success nodes last) :
    Closes inner opening closing depth cursor nodes last := by
  induction depth, cursor using advance_induction generalizing nodes with
  | step depth cursor ih =>
    cases depth with
    | zero =>
      rw [remainder_zero] at read
      cases read
      exact .done _
    | succ depth =>
      rw [remainder_eq _ _ _ (Nat.succ_ne_zero depth)] at read
      obtain ⟨node, middle, taken, rest⟩ := Outcome.bind_eq_success_iff.mp read
      split at rest
      · next advances =>
        obtain ⟨nodes, later, rfl⟩ := Outcome.map_eq_success_iff.mp rest
        exact .node (takes_of_piece taken) (ih _ middle advances later)
      · cases rest

/-- A run is read step by step up to a place where one of the markers can be read. -/
theorem Takes.inner_repeats {cursor after : Cursor ε} {run : List ι}
    (takes : Takes inner opening closing cursor (.inner run) after) :
    inner.Repeats (boundary opening closing).FailsAt cursor run after ∧
      ¬ (closing.FailsAt after ∧ opening.FailsAt after) := by
  cases takes with
  | inner unclosed unopened read =>
    cases Parser.outcome_manyTill_eq_iff.mp read with
    | found repeats stopped =>
      obtain rfl := eq_of_boundary stopped
      refine ⟨repeats, fun unmarked => ?_⟩
      obtain ⟨reason, failed⟩ := failsAt_boundary_iff.mpr unmarked
      cases stopped.symm.trans failed

theorem Takes.inner_ne_nil {cursor after : Cursor ε} {run : List ι}
    (takes : Takes inner opening closing cursor (.inner run) after) : run ≠ [] := by
  rintro rfl
  obtain ⟨repeats, marked⟩ := takes.inner_repeats
  cases repeats
  cases takes with
  | inner unclosed unopened _ => exact marked ⟨unclosed, unopened⟩

/-- Behind a run comes a marker. -/
theorem Takes.not_inner {cursor middle after : Cursor ε} {one two : List ι}
    (takes : Takes inner opening closing cursor (.inner one) middle) :
    ¬ Takes inner opening closing middle (.inner two) after := by
  intro again
  cases again with
  | inner unclosed unopened _ => exact takes.inner_repeats.2 ⟨unclosed, unopened⟩

section Closes

variable {depth : Nat} {cursor last : Cursor ε} {nodes : List (Node ο (List ι) κ)}

/-- The loop counts how many more regions have been opened than closed. -/
theorem Closes.depth_add_countP (closes : Closes inner opening closing depth cursor nodes last) :
    depth + nodes.countP Node.isOpened = nodes.countP Node.isClosed := by
  induction closes with
  | done => rfl
  | @node depth _ _ _ node _ _ _ ih =>
    have counted := node.depthAfter_add (Nat.add_one_ne_zero depth)
    rw [List.countP_cons, List.countP_cons]
    omega

/-- Before the last node, some region is still open. -/
theorem Closes.countP_lt (closes : Closes inner opening closing depth cursor nodes last)
    {before later : List (Node ο (List ι) κ)} (split : nodes = before ++ later)
    (more : later ≠ []) :
    before.countP Node.isClosed < depth + before.countP Node.isOpened := by
  induction closes generalizing before with
  | done =>
    obtain ⟨-, rfl⟩ := List.append_eq_nil_iff.mp split.symm
    exact absurd rfl more
  | @node depth _ _ _ node _ _ _ ih =>
    cases before with
    | nil => exact Nat.succ_pos depth
    | cons head before =>
      obtain ⟨rfl, rest⟩ := List.cons.inj split
      have counted := node.depthAfter_add (Nat.add_one_ne_zero depth)
      have ahead := ih rest
      rw [List.countP_cons, List.countP_cons]
      omega

theorem Closes.getLast? (closes : Closes inner opening closing depth cursor nodes last)
    (opened : depth ≠ 0) : ∃ marker, nodes.getLast? = some (.closed marker) := by
  induction closes with
  | done => exact absurd rfl opened
  | @node depth _ _ _ node nodes takes later ih =>
    -- No region is open any more behind the last node only, and only closing gets there.
    by_cases even : node.depthAfter (depth + 1) = 0
    · rw [even] at later
      cases later
      cases node with
      | closed marker => exact ⟨marker, rfl⟩
      | opened marker => cases even
      | inner run => cases even
    · obtain ⟨marker, ends⟩ := ih even
      exact ⟨marker, by rw [List.getLast?_cons, ends]; rfl⟩

theorem Closes.inner_ne_nil (closes : Closes inner opening closing depth cursor nodes last)
    {run : List ι} (member : .inner run ∈ nodes) : run ≠ [] := by
  induction closes with
  | done => cases member
  | node takes _ ih =>
    rcases List.mem_cons.mp member with rfl | member
    · exact takes.inner_ne_nil
    · exact ih member

theorem Closes.apart (closes : Closes inner opening closing depth cursor nodes last)
    (before : List (Node ο (List ι) κ)) (one two : List ι)
    (later : List (Node ο (List ι) κ)) :
    nodes ≠ before ++ .inner one :: .inner two :: later := by
  intro split
  induction closes generalizing before with
  | done => exact absurd split (List.append_ne_nil_of_right_ne_nil _ (List.cons_ne_nil _ _)).symm
  | node takes rest ih =>
    cases before with
    | nil =>
      obtain ⟨rfl, rfl⟩ := List.cons.inj split
      cases rest with
      | node again => exact takes.not_inner again
    | cons head before => exact ih before (List.cons.inj split).2

end Closes

section Contents

variable {cursor last : Cursor ε} {opened : ο → List ε} {inside : ι → List ε}
  {closed : κ → List ε}

theorem Takes.reaches (innerForward : inner.Forward) (openingForward : opening.Forward)
    (closingForward : closing.Forward) {node : Node ο (List ι) κ}
    (takes : Takes inner opening closing cursor node last) : cursor.Reaches last := by
  cases takes with
  | closed read => exact closingForward _ _ _ read
  | opened _ read => exact openingForward _ _ _ read
  | inner unclosed unopened read =>
    exact (Takes.inner unclosed unopened read).inner_repeats.1.reaches innerForward

theorem Takes.contents_eq_upTo (forward : inner.Forward) (opens : opening.Slices opened)
    (reads : inner.Slices inside) (closes : closing.Slices closed) {node : Node ο (List ι) κ}
    (takes : Takes inner opening closing cursor node last) :
    node.contents opened inside closed = cursor.upTo last := by
  cases takes with
  | closed read => exact closes _ _ _ read
  | opened _ read => exact opens _ _ _ read
  | inner unclosed unopened read =>
    exact (Takes.inner unclosed unopened read).inner_repeats.1.flatMap_eq_upTo forward reads

variable {depth : Nat} {nodes : List (Node ο (List ι) κ)}

theorem Closes.reaches (innerForward : inner.Forward) (openingForward : opening.Forward)
    (closingForward : closing.Forward)
    (closes : Closes inner opening closing depth cursor nodes last) : cursor.Reaches last := by
  induction closes with
  | done => exact .refl _
  | node takes _ ih =>
    exact (takes.reaches innerForward openingForward closingForward).trans ih

/-- The nodes hold what has been read for them. -/
theorem Closes.contents_eq_upTo (innerForward : inner.Forward) (openingForward : opening.Forward)
    (closingForward : closing.Forward) (opens : opening.Slices opened)
    (reads : inner.Slices inside) (ends : closing.Slices closed)
    (closes : Closes inner opening closing depth cursor nodes last) :
    nodes.flatMap (Node.contents opened inside closed) = cursor.upTo last := by
  induction closes with
  | done cursor => exact cursor.upTo_self.symm
  | node takes later ih =>
    have one := takes.reaches innerForward openingForward closingForward
    have two := later.reaches innerForward openingForward closingForward
    rw [List.flatMap_cons, takes.contents_eq_upTo innerForward opens reads ends, ih,
      one.upTo_append two]

end Contents

/-- A region is its opening marker and what closes it. -/
theorem exists_closes {cursor last : Cursor ε} {nodes : List (Node ο (List ι) κ)}
    (read : (inner.balanced opening closing).outcome cursor = .success nodes last) :
    ∃ marker middle later, nodes = .opened marker :: later ∧
      opening.outcome cursor = .success marker middle ∧
      Closes inner opening closing 1 middle later last := by
  rw [Parser.outcome_balanced] at read
  obtain ⟨marker, middle, opened, rest⟩ := Outcome.bind_eq_success_iff.mp read
  obtain ⟨later, closed, rfl⟩ := Outcome.map_eq_success_iff.mp rest
  exact ⟨marker, middle, later, rfl, opened, closes_of_remainder closed⟩

theorem Closes.wellNested {cursor last : Cursor ε} {nodes : List (Node ο (List ι) κ)}
    (closes : Closes inner opening closing 1 cursor nodes last) (marker : ο) :
    Node.WellNested (.opened marker :: nodes) where
  first := ⟨marker, rfl⟩
  last := by
    obtain ⟨closer, ends⟩ := closes.getLast? Nat.one_ne_zero
    exact ⟨closer, by rw [List.getLast?_cons, ends]; rfl⟩
  even := by
    have counted := closes.depth_add_countP
    rw [Node.countP_isOpened_opened, Node.countP_isClosed_opened]
    omega
  ahead := by
    intro before later split some more
    obtain ⟨head, before, rfl⟩ := List.exists_cons_of_ne_nil some
    obtain ⟨rfl, rest⟩ := List.cons.inj split
    have more_open := closes.countP_lt rest more
    rw [Node.countP_isOpened_opened, Node.countP_isClosed_opened]
    omega
  filled run member := by
    rcases List.mem_cons.mp member with same | member
    · cases same
    · exact closes.inner_ne_nil member
  apart before one two later split := by
    cases before with
    | nil => cases (List.cons.inj split).1
    | cons head before => exact closes.apart before one two later (List.cons.inj split).2

/-- Between any parsers that stay in the input and do not move back, the nodes of a balanced region
are well nested. Where each value tells what has been read for it, the nodes tell in order what the
region has been read from. -/
theorem balanced_nests (innerForward : inner.Forward) (openingForward : opening.Forward)
    (closingForward : closing.Forward) {cursor last : Cursor ε} {nodes : List (Node ο (List ι) κ)}
    (read : (inner.balanced opening closing).outcome cursor = .success nodes last) :
    Node.WellNested nodes ∧
      ∀ {opened : ο → List ε} {inside : ι → List ε} {closed : κ → List ε},
        opening.Slices opened → inner.Slices inside → closing.Slices closed →
        nodes.flatMap (Node.contents opened inside closed) = cursor.upTo last := by
  obtain ⟨marker, middle, later, rfl, started, closes⟩ := exists_closes read
  refine ⟨closes.wellNested marker, fun opens reads ends => ?_⟩
  have one := openingForward cursor marker middle started
  have two := closes.reaches innerForward openingForward closingForward
  rw [List.flatMap_cons, Node.contents, opens cursor marker middle started,
    closes.contents_eq_upTo innerForward openingForward closingForward opens reads ends,
    one.upTo_append two]

/-- A closing marker that is only looked at closes both regions at one place. -/
theorem balanced_nests_unread :
    let letter : Parser Char Char := .any
    let bracket : Parser Char Char := .element '('
    let bound : Parser Char Char := (Parser.element ')').lookAhead
    let cursor := Cursor.start "((a)".toList.toArray
    let nodes : List (Node Char (List Char) Char) :=
      [.opened '(', .opened '(', .inner ['a'], .closed ')', .closed ')']
    letter.Forward ∧ bracket.Forward ∧ bound.Forward ∧
      (letter.balanced bracket bound).outcome cursor = .success nodes (cursor.advance 3) ∧
      Node.WellNested nodes ∧
      nodes.flatMap (Node.contents ([·]) ([·]) fun _ => []) = cursor.upTo (cursor.advance 3) := by
  intro letter bracket bound cursor nodes
  have letters : letter.Forward := Parser.forward_any
  have brackets : bracket.Forward := Parser.forward_element '('
  have bounds : bound.Forward := Parser.forward_lookAhead _
  have read : (letter.balanced bracket bound).outcome cursor =
      .success nodes (cursor.advance 3) := by cbv
  obtain ⟨nested, whole⟩ := balanced_nests letters brackets bounds read
  exact ⟨letters, brackets, bounds, read, nested, whole (Parser.slices_satisfy _)
    (Parser.slices_satisfy _) (Parser.slices_lookAhead _)⟩

end Balanced

end DocCoverage
