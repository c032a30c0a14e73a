import DocCoverage.Parser.Region
import DocCoverage.Proofs.Parser.Balanced
import DocCoverage.Proofs.Parser.Reading

/-!
# Balanced regions between two elements

With two different elements as its markers, a balanced region is a tree of regions and runs: the
parser reads exactly what trees are written with, and its nodes are the trace of the tree.

The parser knows of no tree. What it has still to read are the ends of all the regions that are
open, which is one list of contents for each of them, the innermost first. `First` takes the next
node from such a list, and all facts about whole regions are inductions over it.
-/

namespace DocCoverage

variable {ε : Type}

/-- The elements that a node between two elements is read from. -/
def Node.written : Node ε (List ε) ε → List ε
  | .opened marker | .closed marker => [marker]
  | .inner run => run

namespace Region

variable {opening closing : ε}

section Open

variable (opening closing)

/-- What the ends of the open regions are written with. -/
def renderOpen (contents : List (List (Region ε))) : List ε :=
  contents.flatMap fun content => renderAll opening closing content ++ [closing]

/-- The nodes of the ends of the open regions. -/
def traceOpen (contents : List (List (Region ε))) : List (Node ε (List ε) ε) :=
  contents.flatMap fun content => traceAll opening closing content ++ [.closed closing]

/-- What may stand inside of a region. -/
structure ProperContent (content : List (Region ε)) : Prop where
  proper : ∀ region ∈ content, Proper opening closing region
  separated : Separated content

/-- The first node of the ends of the open regions, and the ends that are left behind it. -/
inductive First : List (List (Region ε)) → Node ε (List ε) ε → List (List (Region ε)) → Prop where
  | closed {others : List (List (Region ε))} : First ([] :: others) (.closed closing) others
  | opened {inside content : List (Region ε)} {others : List (List (Region ε))} :
      First ((.nested inside :: content) :: others) (.opened opening) (inside :: content :: others)
  | inner {run : List ε} {content : List (Region ε)} {others : List (List (Region ε))} :
      First ((.run run :: content) :: others) (.inner run) (content :: others)

/-- The element is neither marker. -/
def Plain (element : ε) : Prop := element ≠ opening ∧ element ≠ closing

/-- One of the markers comes next. -/
def Marked (text : List ε) : Prop :=
  ∃ marker tail, text = marker :: tail ∧ ¬ Plain opening closing marker

/-- The node is one that can be read where `rest` stands behind it. -/
inductive Fits : Node ε (List ε) ε → List ε → Prop where
  | opened {rest : List ε} : Fits (.opened opening) rest
  | closed {rest : List ε} : Fits (.closed closing) rest
  | inner {run rest : List ε} (nonempty : run ≠ [])
      (plain : ∀ element ∈ run, Plain opening closing element)
      (marked : Marked opening closing rest) : Fits (.inner run) rest

end Open

section First

variable {contents others others' : List (List (Region ε))} {content : List (Region ε)}
  {node : Node ε (List ε) ε} {run rest tail : List ε}

theorem proper_nested_iff :
    Proper opening closing (.nested content) ↔ ProperContent opening closing content := by
  constructor
  · rintro ⟨⟩
    next proper separated => exact ⟨proper, separated⟩
  · rintro ⟨proper, separated⟩
    exact .nested proper separated

theorem properContent_nil : ProperContent opening closing [] := ⟨nofun, trivial⟩

theorem properContent_cons_nested_iff {inside : List (Region ε)} :
    ProperContent opening closing (.nested inside :: content) ↔
      ProperContent opening closing inside ∧ ProperContent opening closing content := by
  have apart : Separated (.nested inside :: content) ↔ Separated content := by
    cases content with
    | nil => exact Iff.rfl
    | cons next content => simp [Separated, isRun]
  constructor
  · rintro ⟨proper, separated⟩
    obtain ⟨here, later⟩ := List.forall_mem_cons.mp proper
    exact ⟨proper_nested_iff.mp here, later, apart.mp separated⟩
  · rintro ⟨here, later⟩
    exact ⟨List.forall_mem_cons.mpr ⟨proper_nested_iff.mpr here, later.proper⟩,
      apart.mpr later.separated⟩

theorem exists_first (opening closing : ε) (some : contents ≠ []) :
    ∃ node others, First opening closing contents node others := by
  obtain ⟨content, contents, rfl⟩ := List.exists_cons_of_ne_nil some
  cases content with
  | nil => exact ⟨_, _, .closed⟩
  | cons region content =>
    cases region with
    | run elements => exact ⟨_, _, .inner⟩
    | nested inside => exact ⟨_, _, .opened⟩

/-- The node and what is left behind it are all that there was. -/
theorem First.unique (first : First opening closing contents node others)
    (first' : First opening closing others' node others) : contents = others' := by
  cases first <;> cases first' <;> rfl

theorem First.traceOpen_eq (first : First opening closing contents node others) :
    traceOpen opening closing contents = node :: traceOpen opening closing others := by
  cases first <;> simp [traceOpen, traceAll, trace]

theorem First.renderOpen_eq (first : First opening closing contents node others) :
    renderOpen opening closing contents = node.written ++ renderOpen opening closing others := by
  cases first <;> simp [renderOpen, renderAll, render, Node.written]

/-- The node counts as the parser counts it. -/
theorem First.length_eq (first : First opening closing contents node others) :
    others.length = node.depthAfter contents.length := by
  cases first <;> rfl

/-- The marker in front tells whether a run comes next. -/
theorem marked_iff (proper : ProperContent opening closing content) :
    Marked opening closing (renderOpen opening closing (content :: others) ++ tail) ↔
      ∀ region ∈ content.head?, region.isRun = false := by
  cases content with
  | nil =>
    refine ⟨fun _ => nofun, fun _ => ⟨closing, renderOpen opening closing others ++ tail, ?_, ?_⟩⟩
    · simp [renderOpen, renderAll]
    · exact fun plain => plain.2 rfl
  | cons region content =>
    have here := proper.proper region (List.mem_cons_self ..)
    cases here with
    | nested =>
      rename_i inside _ _
      constructor
      · intro _ region same
        cases same
        rfl
      · intro _
        refine ⟨opening, renderOpen opening closing (inside :: content :: others) ++ tail, ?_, ?_⟩
        · rw [First.opened.renderOpen_eq]
          rfl
        · exact fun plain => plain.1 rfl
    | run nonempty unmarked =>
      rename_i run
      obtain ⟨first, run, rfl⟩ := List.exists_cons_of_ne_nil nonempty
      constructor
      · rintro ⟨marker, tail, same, marks⟩
        rw [First.inner.renderOpen_eq] at same
        obtain ⟨rfl, -⟩ := List.cons.inj same
        exact absurd (unmarked first (List.mem_cons_self ..)) marks
      · intro plain
        cases plain _ rfl

theorem properContent_cons_run_iff :
    ProperContent opening closing (.run run :: content) ↔
      run ≠ [] ∧ (∀ element ∈ run, Plain opening closing element) ∧
        ProperContent opening closing content ∧ ∀ region ∈ content.head?, region.isRun = false := by
  have apart : Separated (.run run :: content) ↔
      Separated content ∧ ∀ region ∈ content.head?, region.isRun = false := by
    cases content with
    | nil => exact ⟨fun _ => ⟨trivial, nofun⟩, fun _ => trivial⟩
    | cons next content => simp [Separated, isRun, and_comm]
  constructor
  · rintro ⟨proper, separated⟩
    obtain ⟨⟨nonempty, plain⟩, later⟩ := List.forall_mem_cons.mp proper
    obtain ⟨separated, first⟩ := apart.mp separated
    exact ⟨nonempty, plain, ⟨later, separated⟩, first⟩
  · rintro ⟨nonempty, plain, ⟨later, separated⟩, first⟩
    exact ⟨List.forall_mem_cons.mpr ⟨.run nonempty plain, later⟩, apart.mpr ⟨separated, first⟩⟩

/-- The contents are proper if the first node is one that fits in front of the others. -/
theorem First.proper_iff (first : First opening closing contents node others) (tail : List ε) :
    (∀ content ∈ contents, ProperContent opening closing content) ↔
      (∀ content ∈ others, ProperContent opening closing content) ∧
        Fits opening closing node (renderOpen opening closing others ++ tail) := by
  cases first with
  | closed =>
    rw [List.forall_mem_cons]
    exact ⟨fun proper => ⟨proper.2, .closed⟩, fun proper => ⟨properContent_nil, proper.1⟩⟩
  | opened =>
    rw [List.forall_mem_cons, properContent_cons_nested_iff, List.forall_mem_cons,
      List.forall_mem_cons, and_assoc]
    exact ⟨fun proper => ⟨proper, .opened⟩, fun proper => proper.1⟩
  | inner =>
    rw [List.forall_mem_cons, properContent_cons_run_iff, List.forall_mem_cons]
    constructor
    · rintro ⟨⟨nonempty, plain, proper, first⟩, later⟩
      exact ⟨⟨proper, later⟩, .inner nonempty plain ((marked_iff proper).mpr first)⟩
    · rintro ⟨⟨proper, later⟩, fits⟩
      cases fits with
      | inner nonempty plain marked =>
        exact ⟨⟨nonempty, plain, proper, (marked_iff proper).mp marked⟩, later⟩

theorem Fits.written_ne_nil (fits : Fits opening closing node rest) :
    node.written ≠ [] := by
  cases fits with
  | opened => exact List.cons_ne_nil _ _
  | closed => exact List.cons_ne_nil _ _
  | inner nonempty => exact nonempty

theorem exists_first_of_fits {depth : Nat} (fits : Fits opening closing node rest)
    (counted : others.length = node.depthAfter (depth + 1)) :
    ∃ contents, First opening closing contents node others ∧ contents.length = depth + 1 := by
  cases fits with
  | opened =>
    match others, counted with
    | inside :: content :: others, counted =>
      exact ⟨_, .opened, Nat.succ.inj counted⟩
  | closed => exact ⟨_, .closed, congrArg Nat.succ counted⟩
  | inner =>
    match others, counted with
    | content :: others, counted => exact ⟨_, .inner, counted⟩

theorem render_nested (content : List (Region ε)) :
    (nested content).render opening closing = opening :: renderOpen opening closing [content] := by
  simp [render, renderOpen]

theorem trace_nested (content : List (Region ε)) :
    (nested content).trace opening closing =
      .opened opening :: traceOpen opening closing [content] := by
  simp [trace, traceOpen]

/-- Without nodes nothing is open. -/
theorem traceOpen_eq_nil_iff : traceOpen opening closing contents = [] ↔ contents = [] := by
  cases contents with
  | nil => exact iff_of_true rfl rfl
  | cons content contents =>
    obtain ⟨node, others, first⟩ :=
      exists_first opening closing (List.cons_ne_nil content contents)
    rw [first.traceOpen_eq]
    exact iff_of_false (List.cons_ne_nil _ _) (List.cons_ne_nil _ _)

/-- The trace tells the tree. -/
theorem traceOpen_injective : Function.Injective (traceOpen opening closing) := by
  intro contents contents' same
  generalize traced : traceOpen opening closing contents' = nodes at same
  induction nodes generalizing contents contents' with
  | nil => rw [traceOpen_eq_nil_iff.mp same, traceOpen_eq_nil_iff.mp traced]
  | cons node nodes ih =>
    have some : contents ≠ [] := fun empty => by
      rw [traceOpen_eq_nil_iff.mpr empty] at same
      cases same
    have some' : contents' ≠ [] := fun empty => by
      rw [traceOpen_eq_nil_iff.mpr empty] at traced
      cases traced
    obtain ⟨_, others, first⟩ := exists_first opening closing some
    obtain ⟨_, others', first'⟩ := exists_first opening closing some'
    rw [first.traceOpen_eq] at same
    rw [first'.traceOpen_eq] at traced
    obtain ⟨rfl, rfl⟩ := List.cons.inj same
    obtain ⟨rfl, later⟩ := List.cons.inj traced
    obtain rfl := ih rfl later
    exact first.unique first'

end First

section Nodes

variable [DecidableEq ε] {text rest : List ε} {node : Node ε (List ε) ε}

/-- Nothing is read where either marker comes next. -/
def boundary? (opening closing : ε) : Reading ε Unit
  | [] => none
  | head :: tail => if head = opening ∨ head = closing then some ((), head :: tail) else none

/-- The next node inside a region. -/
def piece? (opening closing : ε) : Reading ε (Node ε (List ε) ε)
  | [] => none
  | head :: tail =>
    if head = closing then some (.closed head, tail)
    else if head = opening then some (.opened head, tail)
    else ((boundary? opening closing).upTo (head :: tail)).map
      fun (elements, rest) => (.inner elements, rest)

theorem reads_boundary (opening closing : ε) :
    (Balanced.boundary (Parser.element opening) (Parser.element closing)).Reads
      (boundary? opening closing) := by
  refine ((((Parser.reads_element opening).lookAhead).map _).orElse
    (((Parser.reads_element closing).lookAhead).map _)).congr fun text => ?_
  cases text with
  | nil => rfl
  | cons head tail =>
    by_cases opens : head = opening
    · simp [Reading.satisfy, boundary?, opens]
    · simp [Reading.satisfy, boundary?, opens]

theorem reads_piece (opening closing : ε) :
    (Balanced.piece Parser.any (Parser.element opening) (Parser.element closing)).Reads
      (piece? opening closing) := by
  refine ((((Parser.reads_element closing).map _).orElse
    ((Parser.reads_element opening).map _)).orElse
      ((reads_boundary opening closing).any_manyTill.map _)).congr fun text => ?_
  cases text with
  | nil => rfl
  | cons head tail =>
    by_cases closes : head = closing
    · simp [Reading.satisfy, piece?, closes]
    · by_cases opens : head = opening
      · subst opens
        simp [Reading.satisfy, piece?, closes]
      · simp [Reading.satisfy, piece?, closes, opens]

theorem boundary?_cons_eq_none_iff {head : ε} {tail : List ε} :
    boundary? opening closing (head :: tail) = none ↔ Plain opening closing head := by
  simp [boundary?, Plain]

theorem boundary?_eq_some_iff {found : Unit × List ε} :
    boundary? opening closing text = some found ↔
      Marked opening closing text ∧ ((), text) = found := by
  cases text with
  | nil => simp [boundary?, Marked]
  | cons head tail =>
    have marked : Marked opening closing (head :: tail) ↔ head = opening ∨ head = closing := by
      simp [Marked, Plain, Decidable.or_iff_not_imp_left]
    simp only [boundary?, marked, Option.ite_none_right_eq_some, Option.some.injEq]

/-- A run reaches up to the next marker. -/
theorem upTo_boundary?_eq_some_iff {elements : List ε} :
    (boundary? opening closing).upTo text = some (elements, rest) ↔
      text = elements ++ rest ∧ (∀ element ∈ elements, Plain opening closing element) ∧
        Marked opening closing rest := by
  simp only [Reading.upTo_eq_some_iff, boundary?_eq_some_iff, Prod.mk.injEq, true_and]
  have plain_iff : (∀ count < elements.length,
      boundary? opening closing ((elements ++ rest).drop count) = none) ↔
        ∀ element ∈ elements, Plain opening closing element := by
    rw [List.forall_mem_iff_forall_getElem]
    refine forall₂_congr fun count below => ?_
    rw [List.drop_append_of_le_length (Nat.le_of_lt below), List.drop_eq_getElem_cons below]
    exact boundary?_cons_eq_none_iff
  constructor
  · rintro ⟨before, found, rfl, -, marked, rfl⟩
    exact ⟨rfl, plain_iff.mp before, marked⟩
  · rintro ⟨rfl, plain, marked⟩
    exact ⟨plain_iff.mpr plain, rest, rfl, (), marked, rfl⟩

/-- The next node is the one that stands there and fits. -/
theorem piece?_eq_some_iff (distinct : opening ≠ closing) :
    piece? opening closing text = some (node, rest) ↔
      text = node.written ++ rest ∧ Fits opening closing node rest := by
  constructor
  · intro read
    cases text with
    | nil => cases read
    | cons head tail =>
      dsimp only [piece?] at read
      split at read
      · next closes =>
        cases read
        exact ⟨rfl, closes ▸ .closed⟩
      · split at read
        · next opens =>
          cases read
          exact ⟨rfl, opens ▸ .opened⟩
        · next unclosed unopened =>
          obtain ⟨⟨elements, rest'⟩, run, same⟩ := Option.map_eq_some_iff.mp read
          cases same
          obtain ⟨shape, plain, marked⟩ := upTo_boundary?_eq_some_iff.mp run
          refine ⟨shape, .inner ?_ plain marked⟩
          rintro rfl
          obtain ⟨marker, tail, rfl, marks⟩ := marked
          obtain ⟨rfl, -⟩ := List.cons.inj shape
          exact marks ⟨unopened, unclosed⟩
  · rintro ⟨rfl, fits⟩
    cases fits with
    | opened => simp [piece?, Node.written, distinct]
    | closed => simp [piece?, Node.written]
    | inner nonempty plain marked =>
      rename_i elements
      obtain ⟨head, elements, rfl⟩ := List.exists_cons_of_ne_nil nonempty
      obtain ⟨unopened, unclosed⟩ := plain head (List.mem_cons_self ..)
      have run := upTo_boundary?_eq_some_iff.mpr ⟨rfl, plain, marked⟩
      rw [List.cons_append] at run
      simp only [Node.written, List.cons_append, piece?, unopened, unclosed, if_false, run,
        Option.map_some]

end Nodes

section Parsing

variable [DecidableEq ε] {contents : List (List (Region ε))} {cursor after : Cursor ε}
  {node : Node ε (List ε) ε} {tail : List ε}

/-- Reading goes on behind a node that fits. -/
theorem remainder_of_fits (distinct : opening ≠ closing) (depth : Nat) {rest : List ε}
    (stands : cursor.rest = node.written ++ rest) (fits : Fits opening closing node rest) :
    ∃ after, cursor.Reaches after ∧ after.rest = rest ∧ after.left < cursor.left ∧
      Balanced.remainder .any (.element opening) (.element closing) (depth + 1) cursor =
        (Balanced.remainder .any (.element opening) (.element closing)
          (node.depthAfter (depth + 1)) after).map (node :: ·) := by
  have read := (piece?_eq_some_iff distinct).mpr ⟨stands, fits⟩
  obtain ⟨after, ran, reaches, rfl⟩ := (reads_piece opening closing).success read
  have closer := Cursor.left_lt_of_append stands.symm fits.written_ne_nil
  refine ⟨after, reaches, rfl, closer, ?_⟩
  rw [Balanced.remainder_eq _ _ _ (Nat.succ_ne_zero depth), ran, Outcome.bind_success,
    if_pos (.inl closer)]

/-- The ends of open regions are read as their trace. -/
theorem remainder_renderOpen (distinct : opening ≠ closing)
    (proper : ∀ content ∈ contents, ProperContent opening closing content)
    (stands : cursor.rest = renderOpen opening closing contents ++ tail) :
    ∃ after, cursor.Reaches after ∧ after.rest = tail ∧
      Balanced.remainder .any (.element opening) (.element closing) contents.length cursor =
        .success (traceOpen opening closing contents) after := by
  -- The number of open regions rises and falls, but every node brings the cursor further.
  induction cursor using Cursor.left_induction generalizing contents with
  | step cursor ih =>
    by_cases empty : contents = []
    · subst empty
      exact ⟨cursor, .refl cursor, stands, Balanced.remainder_zero ..⟩
    · obtain ⟨node, others, first⟩ := exists_first opening closing empty
      obtain ⟨proper', fits⟩ := (first.proper_iff tail).mp proper
      rw [first.renderOpen_eq, List.append_assoc] at stands
      obtain ⟨depth, counted⟩ := Nat.exists_eq_succ_of_ne_zero (mt List.length_eq_zero_iff.mp empty)
      obtain ⟨middle, reaches, behind, closer, step⟩ :=
        remainder_of_fits distinct depth stands fits
      obtain ⟨after, further, last, later⟩ := ih middle closer proper' behind
      refine ⟨after, reaches.trans further, last, ?_⟩
      rw [counted, Nat.succ_eq_add_one, step, ← Nat.succ_eq_add_one, ← counted, ← first.length_eq,
        later, Outcome.map_success, first.traceOpen_eq]

/-- Whatever is read are the ends of open regions. -/
theorem exists_of_remainder (distinct : opening ≠ closing) (depth : Nat) (cursor : Cursor ε) :
    (∃ reason, Balanced.remainder .any (.element opening) (.element closing) depth cursor =
      .failure reason) ∨
    ∃ contents after, contents.length = depth ∧
      (∀ content ∈ contents, ProperContent opening closing content) ∧ cursor.Reaches after ∧
      cursor.rest = renderOpen opening closing contents ++ after.rest ∧
      Balanced.remainder .any (.element opening) (.element closing) depth cursor =
        .success (traceOpen opening closing contents) after := by
  induction cursor using Cursor.left_induction generalizing depth with
  | step cursor ih =>
    cases depth with
    | zero => exact .inr ⟨[], cursor, rfl, nofun, .refl cursor, rfl, Balanced.remainder_zero ..⟩
    | succ depth =>
      cases read : piece? opening closing cursor.rest with
      | none =>
        obtain ⟨reason, failed⟩ := (reads_piece opening closing).failure read
        refine .inl ⟨reason, ?_⟩
        rw [Balanced.remainder_eq _ _ _ (Nat.succ_ne_zero depth), failed, Outcome.bind_failure]
      | some found =>
        obtain ⟨node, rest⟩ := found
        obtain ⟨stands, fits⟩ := (piece?_eq_some_iff distinct).mp read
        obtain ⟨middle, reaches, rfl, closer, step⟩ :=
          remainder_of_fits distinct depth stands fits
        rcases ih middle closer (node.depthAfter (depth + 1)) with
          ⟨reason, failed⟩ | ⟨others, after, counted, proper, further, behind, succeeded⟩
        · exact .inl ⟨reason, by rw [step, failed, Outcome.map_failure]⟩
        · -- The node that has been read is put back in front of what has been read behind it.
          obtain ⟨contents, first, counted'⟩ := exists_first_of_fits fits counted
          rw [behind] at stands fits
          refine .inr ⟨contents, after, counted', (first.proper_iff after.rest).mpr ⟨proper, fits⟩,
            reaches.trans further, ?_, ?_⟩
          · rw [stands, first.renderOpen_eq, List.append_assoc]
          · rw [step, succeeded, Outcome.map_success, first.traceOpen_eq]

/-- A tree is read as its trace, whatever stands behind it. -/
theorem outcome_balanced_render (distinct : opening ≠ closing) {content : List (Region ε)}
    (proper : Proper opening closing (.nested content))
    (stands : cursor.rest = (nested content).render opening closing ++ tail) :
    ∃ after, cursor.Reaches after ∧ after.rest = tail ∧
      (Parser.any.balanced (.element opening) (.element closing)).outcome cursor =
        .success ((nested content).trace opening closing) after := by
  rw [render_nested] at stands
  have read : Reading.satisfy (fun found => found == opening) cursor.rest =
      some (opening, renderOpen opening closing [content] ++ tail) := by
    rw [stands]
    simp [Reading.satisfy]
  obtain ⟨middle, ran, reaches, behind⟩ := (Parser.reads_element opening).success read
  obtain ⟨after, further, last, later⟩ := remainder_renderOpen distinct
    (List.forall_mem_singleton.mpr (proper_nested_iff.mp proper)) behind
  refine ⟨after, reaches.trans further, last, ?_⟩
  rw [List.length_singleton] at later
  rw [Parser.outcome_balanced, ran, Outcome.bind_success, later, Outcome.map_success, trace_nested]

/-- Whatever is read is a tree. -/
theorem exists_of_balanced (distinct : opening ≠ closing) (cursor : Cursor ε) :
    (∃ reason, (Parser.any.balanced (.element opening) (.element closing)).outcome cursor =
      .failure reason) ∨
    ∃ content after, Proper opening closing (.nested content) ∧ cursor.Reaches after ∧
      cursor.rest = (nested content).render opening closing ++ after.rest ∧
      (Parser.any.balanced (.element opening) (.element closing)).outcome cursor =
        .success ((nested content).trace opening closing) after := by
  rw [Parser.outcome_balanced]
  cases read : Reading.satisfy (fun found => found == opening) cursor.rest with
  | none =>
    obtain ⟨reason, failed⟩ := (Parser.reads_element opening).failure read
    exact .inl ⟨reason, by rw [failed, Outcome.bind_failure]⟩
  | some found =>
    obtain ⟨marker, rest⟩ := found
    obtain ⟨middle, ran, reaches, rfl⟩ := (Parser.reads_element opening).success read
    obtain ⟨stands, accepted⟩ := Reading.satisfy_eq_some_iff.mp read
    obtain rfl : marker = opening := eq_of_beq accepted
    rw [ran, Outcome.bind_success]
    rcases exists_of_remainder distinct 1 middle with
      ⟨reason, failed⟩ | ⟨contents, after, counted, proper, further, behind, succeeded⟩
    · exact .inl ⟨reason, by rw [failed, Outcome.map_failure]⟩
    · obtain ⟨content, rfl⟩ := List.length_eq_one_iff.mp counted
      refine .inr ⟨content, after, proper_nested_iff.mpr (proper _ (List.mem_singleton_self _)),
        reaches.trans further, ?_, ?_⟩
      · rw [stands, behind, render_nested, List.cons_append]
      · rw [succeeded, Outcome.map_success, trace_nested]

/-- What stands at the beginning of a text is written with one tree at most. -/
theorem eq_of_render_append_eq (distinct : opening ≠ closing) {content content' : List (Region ε)}
    {tail tail' : List ε} (proper : Proper opening closing (.nested content))
    (proper' : Proper opening closing (.nested content'))
    (same : (nested content).render opening closing ++ tail =
      (nested content').render opening closing ++ tail') : content = content' ∧ tail = tail' := by
  -- The parser reads both trees from one place, so they have one trace.
  let cursor := Cursor.start ((nested content).render opening closing ++ tail).toArray
  have stands : cursor.rest = (nested content).render opening closing ++ tail :=
    Cursor.rest_start _
  obtain ⟨after, -, rfl, succeeded⟩ := outcome_balanced_render distinct proper stands
  obtain ⟨after', -, rfl, succeeded'⟩ :=
    outcome_balanced_render distinct proper' (stands.trans same)
  obtain ⟨traced, rfl⟩ := Outcome.success.inj (succeeded.symm.trans succeeded')
  rw [trace_nested, trace_nested] at traced
  have contents := traceOpen_injective (List.cons.inj traced).2
  exact ⟨(List.cons.inj contents).1, rfl⟩

/-- A balanced region between two different elements is read exactly where a tree is written, and
its nodes are the trace of the one tree that is written there. It is not read where no tree
begins, such as where the last marker of a tree is missing. -/
theorem balanced_reads_trees (distinct : opening ≠ closing) :
    (∀ content, Proper opening closing (.nested content) → ∀ (cursor : Cursor ε) (tail : List ε),
      cursor.rest = (nested content).render opening closing ++ tail →
      ∃ after, cursor.Reaches after ∧ after.rest = tail ∧
        (Parser.any.balanced (.element opening) (.element closing)).outcome cursor =
          .success ((nested content).trace opening closing) after) ∧
    (∀ (cursor after : Cursor ε) (nodes : List (Node ε (List ε) ε)),
      (Parser.any.balanced (.element opening) (.element closing)).outcome cursor =
        .success nodes after →
      cursor.Reaches after ∧ ∃ content, nodes = (nested content).trace opening closing ∧
        ∀ other, (Proper opening closing (.nested other) ∧
          (nested other).render opening closing = cursor.upTo after) ↔ other = content) ∧
    (∀ cursor : Cursor ε, (∀ content, Proper opening closing (.nested content) →
        ¬ (nested content).render opening closing <+: cursor.rest) →
      ∃ reason, (Parser.any.balanced (.element opening) (.element closing)).outcome cursor =
        .failure reason) ∧
    (∀ content, Proper opening closing (.nested content) → ∀ cursor : Cursor ε,
      cursor.rest ++ [closing] = (nested content).render opening closing →
      ∃ reason, (Parser.any.balanced (.element opening) (.element closing)).outcome cursor =
        .failure reason) := by
  refine ⟨fun content proper cursor tail => outcome_balanced_render distinct proper, ?_, ?_, ?_⟩
  · intro cursor after nodes succeeded
    rcases exists_of_balanced distinct cursor with
      ⟨reason, failed⟩ | ⟨content, last, proper, reaches, stands, succeeded'⟩
    · cases succeeded.symm.trans failed
    cases succeeded.symm.trans succeeded'
    have consumed : (nested content).render opening closing = cursor.upTo after :=
      List.append_cancel_right (stands.symm.trans reaches.upTo_append_rest.symm)
    refine ⟨reaches, content, rfl, fun other => ⟨fun ⟨proper', same⟩ => ?_, ?_⟩⟩
    · have whole := congrArg (· ++ after.rest) (same.trans consumed.symm)
      exact (eq_of_render_append_eq distinct proper' proper whole).1
    · rintro rfl
      exact ⟨proper, consumed⟩
  · intro cursor absent
    rcases exists_of_balanced distinct cursor with failed | ⟨content, after, proper, -, stands, -⟩
    · exact failed
    · exact absurd ⟨after.rest, stands.symm⟩ (absent content proper)
  · intro content proper cursor missing
    rcases exists_of_balanced distinct cursor with failed | ⟨other, after, proper', -, stands, -⟩
    · exact failed
    · have longer : (nested content).render opening closing ++ [] =
          (nested other).render opening closing ++ (after.rest ++ [closing]) := by
        rw [← missing, stands, List.append_nil, List.append_assoc]
      have nothing := (eq_of_render_append_eq distinct proper proper' longer).2
      exact absurd nothing.symm (List.append_ne_nil_of_right_ne_nil _ (List.cons_ne_nil _ _))

/-- The nodes of a region with two others inside, in front of one that is never closed. -/
theorem balanced_reads_trees_siblings :
    '(' ≠ ')' ∧
      (∃ after, after.rest = ['('] ∧
        (Parser.any.balanced (.element '(') (.element ')')).outcome
          (Cursor.start "((a)()b)(".toList.toArray) =
            .success [.opened '(', .opened '(', .inner ['a'], .closed ')', .opened '(',
              .closed ')', .inner ['b'], .closed ')'] after) ∧
      ∃ reason, (Parser.any.balanced (.element '(') (.element ')')).outcome
        (Cursor.start "((a)()b".toList.toArray) = .failure reason := by
  have distinct : '(' ≠ ')' := by decide
  have proper : Proper '(' ')' (.nested [.nested [.run ['a']], .nested [], .run ['b']]) := by
    have letter {char : Char} (plain : Plain '(' ')' char) :
        ProperContent '(' ')' [.run [char]] :=
      properContent_cons_run_iff.mpr ⟨List.cons_ne_nil _ _, List.forall_mem_singleton.mpr plain,
        properContent_nil, nofun⟩
    have first : ProperContent '(' ')' [.run ['a']] := letter ⟨by decide, by decide⟩
    have last : ProperContent '(' ')' [.run ['b']] := letter ⟨by decide, by decide⟩
    exact proper_nested_iff.mpr (properContent_cons_nested_iff.mpr ⟨first,
      properContent_cons_nested_iff.mpr ⟨properContent_nil, last⟩⟩)
  obtain ⟨reads, -, -, refuses⟩ := balanced_reads_trees distinct
  obtain ⟨after, -, behind, succeeded⟩ :=
    reads _ proper (Cursor.start "((a)()b)(".toList.toArray) ['('] rfl
  exact ⟨distinct, ⟨after, behind, succeeded⟩, refuses _ proper _ rfl⟩

end Parsing

end Region

end DocCoverage
