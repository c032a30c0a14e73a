import DocCoverage.Parser.Delimiter
import DocCoverage.Proofs.Parser.Balanced
import DocCoverage.Proofs.Parser.Reading

/-!
# Balanced regions between fixed sequences

With fixed sequences as its markers, a balanced region is what the scan that only counts finds: it
ends at the same place, and the contents of its nodes are the elements up to there. Only an empty
closing sequence at the end of the input is found by the region alone.
-/

namespace DocCoverage.Delimiter

variable {ε : Type} [DecidableEq ε]

/-- Neither sequence stands at the beginning of the input. -/
def Unmarked (opening closing input : List ε) : Prop :=
  ¬ closing <+: input ∧ ¬ opening <+: input

section Scan

variable {opening closing input : List ε} {depth : Nat}

/-- Where the input has ended, no region is closed any more. -/
theorem rest?_nil : rest? opening closing (depth + 1) [] = none := by
  rw [rest?]

/-- An empty closing sequence is not found where the input has ended. -/
theorem rest?_of_closing (room : closing = [] → input ≠ []) (stands : closing <+: input) :
    rest? opening closing (depth + 1) input =
      rest? opening closing depth (input.drop closing.length) := by
  cases input with
  | nil => exact absurd rfl (room (List.prefix_nil.mp stands))
  | cons head tail => rw [rest?, if_pos (List.isPrefixOf_iff_prefix.mpr stands)]

theorem rest?_of_opening (unclosed : ¬ closing <+: input) (stands : opening <+: input)
    (nonempty : opening ≠ []) :
    rest? opening closing (depth + 1) input =
      rest? opening closing (depth + 2) (input.drop opening.length) := by
  cases input with
  | nil => exact absurd (List.prefix_nil.mp stands) nonempty
  | cons head tail =>
    rw [rest?, if_neg (mt List.isPrefixOf_iff_prefix.mp unclosed),
      if_pos ⟨List.isPrefixOf_iff_prefix.mpr stands, List.length_pos_iff.mpr nonempty⟩]

theorem rest?_of_unmarked {head : ε} {tail : List ε}
    (unmarked : Unmarked opening closing (head :: tail)) :
    rest? opening closing (depth + 1) (head :: tail) = rest? opening closing (depth + 1) tail := by
  rw [rest?, if_neg (mt List.isPrefixOf_iff_prefix.mp unmarked.1),
    if_neg fun stands => unmarked.2 (List.isPrefixOf_iff_prefix.mp stands.1)]

/-- The scan passes over a run in which no marker begins. -/
theorem rest?_of_run {run found : List ε}
    (unmarked : ∀ count < run.length, Unmarked opening closing ((run ++ found).drop count)) :
    rest? opening closing (depth + 1) (run ++ found) = rest? opening closing (depth + 1) found := by
  induction run with
  | nil => rfl
  | cons head tail ih =>
    have here : Unmarked opening closing (head :: (tail ++ found)) :=
      unmarked 0 (Nat.zero_lt_succ _)
    rw [List.cons_append, rest?_of_unmarked here]
    exact ih fun count below => unmarked (count + 1) (Nat.succ_lt_succ below)

/-- The scan finds no end where no marker begins any more. -/
theorem rest?_of_unmarked_all (unmarked : ∀ count, Unmarked opening closing (input.drop count)) :
    rest? opening closing (depth + 1) input = none := by
  induction input with
  | nil => exact rest?_nil
  | cons head tail ih =>
    rw [rest?_of_unmarked (unmarked 0)]
    exact ih fun count => unmarked (count + 1)

end Scan

section Nodes

/-- Nothing is read where either marker begins. -/
def boundaryReading (opening closing : List ε) : Reading ε Unit := fun text =>
  if opening <+: text ∨ closing <+: text then some ((), text) else none

/-- The next node inside a region. -/
def pieceReading (opening closing : List ε) : Reading ε (Node (List ε) (List ε) (List ε)) :=
  fun text =>
    if closing <+: text then some (.closed closing, text.drop closing.length)
    else if opening <+: text then some (.opened opening, text.drop opening.length)
    else ((boundaryReading opening closing).upTo text).map fun (run, rest) => (.inner run, rest)

variable {opening closing : List ε}

theorem boundaryReading_eq_none_iff {text : List ε} :
    boundaryReading opening closing text = none ↔ Unmarked opening closing text := by
  simp [boundaryReading, Unmarked, and_comm]

theorem reads_boundary (opening closing : List ε) :
    (Balanced.boundary (Parser.literal opening) (Parser.literal closing)).Reads
      (boundaryReading opening closing) := by
  refine ((((Parser.reads_literal opening).lookAhead).map _).orElse
    (((Parser.reads_literal closing).lookAhead).map _)).congr fun text => ?_
  by_cases opens : opening <+: text <;> by_cases closes : closing <+: text <;>
    simp [Reading.literal, boundaryReading, List.isPrefixOf_iff_prefix, opens, closes]

theorem reads_piece (opening closing : List ε) :
    (Balanced.piece Parser.any (Parser.literal opening) (Parser.literal closing)).Reads
      (pieceReading opening closing) := by
  refine ((((Parser.reads_literal closing).map _).orElse
    ((Parser.reads_literal opening).map _)).orElse
      ((reads_boundary opening closing).any_manyTill.map _)).congr fun text => ?_
  by_cases closes : closing <+: text <;> by_cases opens : opening <+: text <;>
    simp [Reading.literal, pieceReading, List.isPrefixOf_iff_prefix, opens, closes]

section Piece

variable {text : List ε}

theorem pieceReading_of_closing (closes : closing <+: text) :
    pieceReading opening closing text = some (.closed closing, text.drop closing.length) :=
  if_pos closes

theorem pieceReading_of_opening (unclosed : ¬ closing <+: text) (opens : opening <+: text) :
    pieceReading opening closing text = some (.opened opening, text.drop opening.length) :=
  (if_neg unclosed).trans (if_pos opens)

theorem pieceReading_of_unmarked (unmarked : Unmarked opening closing text) :
    pieceReading opening closing text =
      ((boundaryReading opening closing).upTo text).map fun (run, rest) => (.inner run, rest) :=
  (if_neg unmarked.1).trans (if_neg unmarked.2)

end Piece

/-- The run in front of the next marker is not empty where no marker begins. -/
theorem upTo_boundary_eq_some {text run rest : List ε} (unmarked : Unmarked opening closing text)
    (read : (boundaryReading opening closing).upTo text = some (run, rest)) :
    run ≠ [] ∧ text = run ++ rest ∧
      ∀ count < run.length, Unmarked opening closing ((run ++ rest).drop count) := by
  obtain ⟨before, found, shape, value, stopped⟩ := Reading.upTo_eq_some_iff.mp read
  simp only [boundaryReading, Option.ite_none_right_eq_some, Option.some.injEq, Prod.mk.injEq,
    true_and] at stopped
  obtain ⟨marked, rfl⟩ := stopped
  refine ⟨?_, shape, fun count below => ?_⟩
  · rintro rfl
    obtain rfl : text = found := shape
    exact marked.elim unmarked.2 unmarked.1
  · exact boundaryReading_eq_none_iff.mp (shape ▸ before count below)

end Nodes

section Region

variable {opening closing : List ε} {depth : Nat} {cursor after : Cursor ε}

/-- Reading until `depth` regions are closed ends where the scan ends, and what the nodes hold is
what stands up to there. -/
def Scans (opening closing : List ε) (depth : Nat) (cursor : Cursor ε) : Prop :=
  let ended := Balanced.remainder .any (.literal opening) (.literal closing) depth cursor
  match rest? opening closing depth cursor.rest with
  | some rest => ∃ nodes after, ended = .success nodes after ∧ cursor.Reaches after ∧
      after.rest = rest ∧ nodes.flatMap Node.elements ++ rest = cursor.rest
  | none => ∃ reason, ended = .failure reason

/-- One more node in front of what is read to the same end as the scan. -/
theorem Scans.cons {node : Node (List ε) (List ε) (List ε)}
    (ran : (Balanced.piece .any (.literal opening) (.literal closing)).outcome cursor =
      .success node after)
    (reaches : cursor.Reaches after)
    (advances : after.left < cursor.left ∨
      after.left = cursor.left ∧ node.depthAfter (depth + 1) < depth + 1)
    (content : node.elements ++ after.rest = cursor.rest)
    (same : rest? opening closing (depth + 1) cursor.rest =
      rest? opening closing (node.depthAfter (depth + 1)) after.rest)
    (later : Scans opening closing (node.depthAfter (depth + 1)) after) :
    Scans opening closing (depth + 1) cursor := by
  unfold Scans at later ⊢
  rw [same, Balanced.remainder_eq _ _ _ (Nat.succ_ne_zero depth), ran, Outcome.bind_success,
    if_pos advances]
  cases found : rest? opening closing (node.depthAfter (depth + 1)) after.rest with
  | none =>
    rw [found] at later
    obtain ⟨reason, failed⟩ := later
    exact ⟨reason, by rw [failed, Outcome.map_failure]⟩
  | some rest =>
    rw [found] at later
    obtain ⟨nodes, last, succeeded, further, behind, contents⟩ := later
    refine ⟨node :: nodes, last, by rw [succeeded, Outcome.map_success], reaches.trans further,
      behind, ?_⟩
    rw [List.flatMap_cons, List.append_assoc, contents, content]

section Next

/-- A closing marker is read and passed over. -/
theorem scans_of_closing (room : closing = [] → cursor.rest ≠ []) (closes : closing <+: cursor.rest)
    (later : ∀ after, (after.left < cursor.left ∨ after.left = cursor.left ∧ depth < depth + 1) →
      (closing = [] → after.rest ≠ []) → Scans opening closing depth after) :
    Scans opening closing (depth + 1) cursor := by
  obtain ⟨after, ran, reaches, behind⟩ :=
    (reads_piece opening closing).success (pieceReading_of_closing closes)
  -- An empty closing marker reads nothing, but then there is one region less to close.
  have advances := (Nat.lt_or_eq_of_le reaches.left_le).imp_right
    fun stays => And.intro stays (Nat.lt_succ_self depth)
  refine .cons ran reaches advances ?_ ?_ (later after advances fun empty => ?_)
  · rw [behind]
    exact List.prefix_iff_eq_append.mp closes
  · rw [behind]
    exact rest?_of_closing room closes
  · rw [behind, empty]
    exact room empty

/-- An opening marker is read and passed over, and one region more is to be closed. -/
theorem scans_of_opening (nonempty : opening ≠ []) (unclosed : ¬ closing <+: cursor.rest)
    (opens : opening <+: cursor.rest)
    (later : ∀ after, after.left < cursor.left → Scans opening closing (depth + 2) after) :
    Scans opening closing (depth + 1) cursor := by
  obtain ⟨after, ran, reaches, behind⟩ :=
    (reads_piece opening closing).success (pieceReading_of_opening unclosed opens)
  have content : opening ++ after.rest = cursor.rest := by
    rw [behind]
    exact List.prefix_iff_eq_append.mp opens
  have closer := Cursor.left_lt_of_append content nonempty
  refine .cons ran reaches (.inl closer) content ?_ (later after closer)
  rw [behind]
  exact rest?_of_opening unclosed opens nonempty

/-- Where no marker stands there is a run up to the next one, or no marker any more. -/
theorem scans_of_unmarked (unmarked : Unmarked opening closing cursor.rest)
    (later : ∀ after, after.left < cursor.left → Scans opening closing (depth + 1) after) :
    Scans opening closing (depth + 1) cursor := by
  have next := pieceReading_of_unmarked unmarked
  cases run : (boundaryReading opening closing).upTo cursor.rest with
  | none =>
    rw [run] at next
    obtain ⟨reason, failed⟩ := (reads_piece opening closing).failure next
    have nowhere := Reading.upTo_eq_none_iff.mp run
    unfold Scans
    rw [rest?_of_unmarked_all fun count => boundaryReading_eq_none_iff.mp (nowhere count),
      Balanced.remainder_eq _ _ _ (Nat.succ_ne_zero depth), failed]
    exact ⟨reason, rfl⟩
  | some found =>
    rw [run] at next
    obtain ⟨some_elements, shape, within⟩ := upTo_boundary_eq_some unmarked run
    obtain ⟨after, ran, reaches, behind⟩ := (reads_piece opening closing).success next
    rw [← behind] at shape within
    have closer := Cursor.left_lt_of_append shape.symm some_elements
    refine .cons ran reaches (.inl closer) shape.symm ?_ (later after closer)
    rw [shape]
    exact rest?_of_run within

end Next

/-- The region and the scan part only where an empty closing sequence stands at the end of the
input: the region is closed there, but the scan has ended. -/
theorem scans (nonempty : opening ≠ []) (room : closing = [] → cursor.rest ≠ []) :
    Scans opening closing depth cursor := by
  induction depth, cursor using Balanced.advance_induction with
  | step depth cursor ih =>
    cases depth with
    | zero =>
      unfold Scans
      rw [rest?]
      exact ⟨[], cursor, Balanced.remainder_zero .., .refl cursor, rfl, rfl⟩
    | succ depth =>
      by_cases closes : closing <+: cursor.rest
      · exact scans_of_closing room closes (ih depth)
      -- A closing sequence that does not stand here is not empty.
      have later (after : Cursor ε) (empty : closing = []) : after.rest ≠ [] :=
        absurd (empty ▸ List.nil_prefix) closes
      by_cases opens : opening <+: cursor.rest
      · exact scans_of_opening nonempty closes opens
          fun after closer => ih _ after (.inl closer) (later after)
      · exact scans_of_unmarked ⟨closes, opens⟩
          fun after closer => ih _ after (.inl closer) (later after)

end Region

section Balanced

variable {opening closing tail rest : List ε} {cursor : Cursor ε}

/-- Behind the opening sequence the region is what the loop reads with one region open. -/
theorem outcome_balanced_of_opening (closing : List ε) (shape : cursor.rest = opening ++ tail) :
    ∃ middle, cursor.Reaches middle ∧ middle.rest = tail ∧
      (Parser.any.balanced (.literal opening) (.literal closing)).outcome cursor =
        (Balanced.remainder .any (.literal opening) (.literal closing) 1 middle).map
          (.opened opening :: ·) := by
  have read : Reading.literal opening cursor.rest = some (opening, tail) := by
    rw [shape, Reading.literal_append]
  obtain ⟨middle, ran, reaches, behind⟩ := (Parser.reads_literal opening).success read
  refine ⟨middle, reaches, behind, ?_⟩
  rw [Parser.outcome_balanced, ran, Outcome.bind_success]

/-- The region that the scan finds. -/
theorem balanced_of_rest? (nonempty : opening ≠ []) (room : closing = [] → tail ≠ [])
    (shape : cursor.rest = opening ++ tail) (found : rest? opening closing 1 tail = some rest) :
    ∃ nodes after,
      (Parser.any.balanced (.literal opening) (.literal closing)).outcome cursor =
        .success nodes after ∧ cursor.Reaches after ∧ after.rest = rest ∧
        nodes.flatMap Node.elements = cursor.upTo after := by
  obtain ⟨middle, reaches, rfl, ran⟩ := outcome_balanced_of_opening closing shape
  have later : Scans opening closing 1 middle := scans nonempty room
  unfold Scans at later
  rw [found] at later
  obtain ⟨nodes, after, succeeded, further, rfl, contents⟩ := later
  rw [succeeded, Outcome.map_success] at ran
  refine ⟨_, after, ran, reaches.trans further, rfl, ?_⟩
  have split := (reaches.trans further).upTo_append_rest
  rw [shape, ← contents, ← List.append_assoc] at split
  exact (List.append_cancel_right split).symm

theorem balanced_of_unclosed (nonempty : opening ≠ []) (room : closing = [] → tail ≠ [])
    (shape : cursor.rest = opening ++ tail) (unclosed : rest? opening closing 1 tail = none) :
    ∃ reason,
      (Parser.any.balanced (.literal opening) (.literal closing)).outcome cursor =
        .failure reason := by
  obtain ⟨middle, -, rfl, ran⟩ := outcome_balanced_of_opening closing shape
  have later : Scans opening closing 1 middle := scans nonempty room
  unfold Scans at later
  rw [unclosed] at later
  obtain ⟨reason, failed⟩ := later
  rw [failed, Outcome.map_failure] at ran
  exact ⟨reason, ran⟩

theorem balanced_of_unopened (closing : List ε) (unopened : ¬ opening <+: cursor.rest) :
    ∃ reason,
      (Parser.any.balanced (.literal opening) (.literal closing)).outcome cursor =
        .failure reason := by
  have refused : Reading.literal opening cursor.rest = none :=
    Reading.literal_of_not_prefix unopened
  obtain ⟨reason, failed⟩ := (Parser.reads_literal opening).failure refused
  refine ⟨reason, ?_⟩
  rw [Parser.outcome_balanced, failed, Outcome.bind_failure]

/-- The elements of the region that begins the input, and what stands behind it. -/
def region (opening closing : List ε) : Reading ε (List ε) := fun text =>
  (region? opening closing text).map fun rest => (text.take (text.length - rest.length), rest)

/-- A balanced region between two fixed sequences that are not empty is the one that the scan
finds. -/
theorem reads_balanced (nonempty : opening ≠ []) (ends : closing ≠ []) :
    ((Parser.any.balanced (.literal opening) (.literal closing)).map
      (·.flatMap Node.elements)).Reads (region opening closing) where
  success := by
    intro cursor value rest read
    simp only [region, region?, Option.map_eq_some_iff, Option.ite_none_right_eq_some,
      List.isPrefixOf_iff_prefix, Prod.mk.injEq] at read
    obtain ⟨rest, ⟨opens, found⟩, rfl, rfl⟩ := read
    have shape := (List.prefix_iff_eq_append.mp opens).symm
    obtain ⟨nodes, after, ran, reaches, rfl, contents⟩ :=
      balanced_of_rest? nonempty (absurd · ends) shape found
    refine ⟨after, ?_, reaches, rfl⟩
    rw [Parser.outcome_map, ran, Outcome.map_success, contents, ← reaches.upTo_append_rest,
      List.length_append, Nat.add_sub_cancel, List.take_left]
  failure := by
    intro cursor refused
    simp only [region, region?, Option.map_eq_none_iff, ite_eq_right_iff,
      List.isPrefixOf_iff_prefix] at refused
    rw [Parser.outcome_map]
    by_cases opens : opening <+: cursor.rest
    · have shape := (List.prefix_iff_eq_append.mp opens).symm
      obtain ⟨reason, failed⟩ :=
        balanced_of_unclosed nonempty (absurd · ends) shape (refused opens)
      exact ⟨reason, by rw [failed, Outcome.map_failure]⟩
    · obtain ⟨reason, failed⟩ := balanced_of_unopened closing opens
      exact ⟨reason, by rw [failed, Outcome.map_failure]⟩

end Balanced

end DocCoverage.Delimiter
