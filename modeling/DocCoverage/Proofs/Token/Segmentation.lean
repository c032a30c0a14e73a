import DocCoverage.Proofs.Token.Segments
import DocCoverage.Token.Segmentation

/-!
# Tokenizing is leftmost segmentation

The segments of a text are the segmentation of `Segmented`, in which every token is looked for at
its own place.
-/

namespace DocCoverage.Token

section Cursors

variable {cursor after : Cursor Char} {token : Token}

theorem rest_behindSpaces (cursor : Cursor Char) :
    (behindSpaces cursor).rest = cursor.rest.dropWhile Text.isSpace := by
  rw [behindSpaces, Cursor.rest_advance]
  have split := List.takeWhile_append_dropWhile (p := Text.isSpace) (l := cursor.rest)
  exact (congrArg (List.drop _) split.symm).trans List.drop_left

theorem position_behindSpaces (cursor : Cursor Char) :
    (behindSpaces cursor).position =
      cursor.position + (cursor.rest.takeWhile Text.isSpace).length := by
  apply Cursor.position_advance
  rw [← Cursor.length_rest]
  exact (List.takeWhile_prefix _).length_le

/-- What begins at a cursor is what is read there. -/
theorem begins_iff :
    Begins cursor token after ↔
      cursor.Reaches after ∧ delimited? cursor.rest = some (token, after.rest) := by
  constructor
  · rintro (read | ⟨uncommented, read⟩)
    · obtain ⟨reaches, commented⟩ := reads_anyComment.of_success read
      exact ⟨reaches, by rw [delimited?, commented, Option.some_or]⟩
    · obtain ⟨reaches, literal⟩ := reads_quoted.of_success read
      have none : anyComment? cursor.rest = none := by
        cases commented : anyComment? cursor.rest with
        | none => rfl
        | some found =>
          obtain ⟨last, succeeded, -⟩ := reads_anyComment.success commented
          exact absurd succeeded (uncommented _ _)
      exact ⟨reaches, by rw [delimited?, none, Option.none_or, literal]⟩
  · rintro ⟨reaches, read⟩
    rcases Option.or_eq_some_iff.mp read with commented | ⟨uncommented, literal⟩
    · exact .comment (reads_anyComment.outcome_eq_success_iff.mpr ⟨reaches, commented⟩)
    · have succeeded := reads_quoted.outcome_eq_success_iff.mpr ⟨reaches, literal⟩
      refine .stringLiteral (fun other last commented => ?_) succeeded
      obtain ⟨-, found⟩ := reads_anyComment.of_success commented
      rw [uncommented] at found
      cases found

theorem starts_iff : Starts cursor ↔ delimited? cursor.rest ≠ none := by
  constructor
  · rintro ⟨token, after, begins⟩
    rw [(begins_iff.mp begins).2]
    exact Option.some_ne_none _
  · intro some
    obtain ⟨⟨token, rest⟩, read⟩ := Option.ne_none_iff_exists'.mp some
    obtain ⟨after, -, reaches, rfl⟩ := reads_delimited.success read
    exact ⟨token, after, begins_iff.mpr ⟨reaches, read⟩⟩

theorem not_starts_advance_iff {count : Nat} :
    ¬ Starts (cursor.advance count) ↔ delimited? (cursor.rest.drop count) = none := by
  rw [starts_iff, Cursor.rest_advance, Classical.not_not]

theorem next?_of_begins (begins : Begins (behindSpaces cursor) token after) :
    next? cursor.rest = some (token, after.rest) := by
  obtain ⟨-, read⟩ := begins_iff.mp begins
  rw [rest_behindSpaces] at read
  exact next?_eq_some_iff.mpr (.inl read)

/-- The text up to the nearest place where a token starts is the next token. -/
theorem next?_of_starts {count : Nat}
    (before : ∀ distance < count, ¬ Starts ((behindSpaces cursor).advance distance))
    (here : Starts ((behindSpaces cursor).advance count)) (nonempty : 0 < count) :
    next? cursor.rest = some
      (.text (String.ofList ((behindSpaces cursor).upTo ((behindSpaces cursor).advance count))),
        ((behindSpaces cursor).advance count).rest) := by
  have unstarted : ∀ distance < count,
      delimited? ((cursor.rest.dropWhile Text.isSpace).drop distance) = none := by
    intro distance below
    rw [← rest_behindSpaces]
    exact not_starts_advance_iff.mp (before distance below)
  rw [starts_iff, Cursor.rest_advance, rest_behindSpaces] at here
  rw [Cursor.upTo_advance, Cursor.rest_advance, rest_behindSpaces]
  refine next?_eq_some_iff.mpr (.inr ⟨unstarted 0 nonempty, _, ?_, rfl⟩)
  refine nearest?_eq_some_iff.mpr ⟨(List.take_append_drop ..).symm, here, fun distance below => ?_⟩
  exact unstarted distance (Nat.lt_of_lt_of_le below (List.length_take_le ..))

theorem next?_of_not_starts
    (none : ∀ distance, ¬ Starts ((behindSpaces cursor).advance distance)) :
    next? cursor.rest = .none := by
  apply next?_eq_none_iff.mpr
  intro distance
  rw [← rest_behindSpaces]
  exact not_starts_advance_iff.mp (none distance)

/-- The tokens of a segmentation are the segments of what is left. -/
theorem Segmented.tokens_eq {pieces : List (Token × Span Char)}
    (segmented : Segmented cursor pieces) : pieces.map Prod.fst = segments cursor.rest := by
  induction segmented with
  | delimited begins others ih => rw [segments_of_next? (next?_of_begins begins), ← ih]; rfl
  | text count before here nonempty others ih =>
    rw [segments_of_next? (next?_of_starts before here nonempty), ← ih]
    rfl
  | leftover none some =>
    rw [segments_of_none (next?_of_not_starts none), Token.leftover, if_neg some]
    rfl
  | finished empty =>
    have refused : next? [] = none := by decide
    rw [empty, segments_of_none refused]
    rfl

/-- The tokens in front of a piece lead to the place that the piece is looked for at. -/
theorem Segmented.exists_leads {before after : List (Token × Span Char)} {piece : Token × Span Char}
    (segmented : Segmented cursor (before ++ piece :: after)) :
    ∃ place, cursor.Reaches place ∧ Leads cursor.rest (before.map Prod.fst) place.rest ∧
      Segmented place (piece :: after) := by
  induction before generalizing cursor with
  | nil => exact ⟨cursor, .refl cursor, .nil, segmented⟩
  | cons first before ih =>
    rw [List.cons_append] at segmented
    generalize others : before ++ piece :: after = pieces at segmented
    cases segmented with
    | delimited begins later =>
      subst others
      obtain ⟨place, reaches, leads, here⟩ := ih later
      have skips : cursor.Reaches (behindSpaces cursor) := cursor.reaches_advance _
      exact ⟨place, (skips.trans (begins_iff.mp begins).1).trans reaches,
        .cons (next?_of_begins begins) leads, here⟩
    | text count before starts nonempty later =>
      subst others
      obtain ⟨place, reaches, leads, here⟩ := ih later
      have skips : cursor.Reaches (behindSpaces cursor) := cursor.reaches_advance _
      exact ⟨place, (skips.trans (Cursor.reaches_advance _ _)).trans reaches,
        .cons (next?_of_starts before starts nonempty) leads, here⟩
    | leftover => cases List.append_ne_nil_of_right_ne_nil _ (List.cons_ne_nil _ _) others

/-- Nothing begins at a space, so that spaces can be put in front of a stretch where nothing
begins. -/
theorem undelimited_append {gap input : List Char} (spaces : Text.Spaces gap) {bound : Nat}
    (undelimited : ∀ count < bound, delimited? (input.drop count) = none) :
    ∀ count < gap.length + bound, delimited? ((gap ++ input).drop count) = none := by
  intro count below
  by_cases inGap : count < gap.length
  · rw [List.drop_append_of_le_length (Nat.le_of_lt inGap), List.drop_eq_getElem_cons inGap,
      List.cons_append]
    cases read : delimited? (gap[count] :: (gap.drop (count + 1) ++ input)) with
    | none => rfl
    | some found =>
      have solid := Text.solid_cons_iff.mp (solid_of_delimited? read)
      rw [spaces _ (List.getElem_mem inGap)] at solid
      cases solid
  · obtain ⟨distance, rfl⟩ := Nat.exists_eq_add_of_le (Nat.le_of_not_lt inGap)
    rw [← List.drop_drop, List.drop_left]
    exact undelimited distance (by omega)

/-- What is known of a text in a segmentation: where it stands, that nothing begins inside of it,
and that it reaches up to the next token or to the end. -/
theorem Segmented.text_eq {content : String} {span : Span Char} {after : List (Token × Span Char)}
    (segmented : Segmented cursor ((.text content, span) :: after)) :
    ∃ gap rest, cursor.rest = gap ++ (content.toList ++ rest) ∧ Text.Spaces gap ∧
      span.start = cursor.position + gap.length ∧
      (∀ count < gap.length + content.toList.length,
        delimited? (cursor.rest.drop count) = none) ∧
      (rest = [] ∨ delimited? rest ≠ none) ∧ after.map Prod.fst = segments rest := by
  have split := List.takeWhile_append_dropWhile (p := Text.isSpace) (l := cursor.rest)
  have spaces := Text.spaces_takeWhile cursor.rest
  have solid := rest_behindSpaces cursor
  have start := position_behindSpaces cursor
  generalize cursor.rest.takeWhile Text.isSpace = gap at split spaces start
  generalize cursor.rest.dropWhile Text.isSpace = body at split solid
  generalize same : Token.text content = token at segmented
  cases segmented with
  | delimited begins others =>
    obtain ⟨raw, -, -, marked⟩ := written_of_delimited? (begins_iff.mp begins).2
    rw [← same] at marked
    cases marked
  | text count before here nonempty others =>
    obtain rfl := Token.text.inj same
    rw [Cursor.upTo_advance, solid, String.toList_ofList]
    rw [starts_iff, Cursor.rest_advance, solid] at here
    refine ⟨gap, body.drop count, ?_, spaces, start, ?_, .inr here, ?_⟩
    · rw [List.take_append_drop, split]
    · rw [← split]
      apply undelimited_append spaces
      intro distance below
      have nowhere := before distance (Nat.lt_of_lt_of_le below (List.length_take_le ..))
      rwa [not_starts_advance_iff, solid] at nowhere
    · rw [others.tokens_eq, Cursor.rest_advance, solid]
  | leftover none some =>
    obtain rfl := Token.text.inj same
    rw [String.toList_ofList]
    refine ⟨[], [], by rw [List.append_nil]; rfl, nofun, rfl, ?_, .inl rfl, ?_⟩
    · have nowhere : ∀ count < body.length, delimited? (body.drop count) = .none := by
        intro count below
        rw [← solid]
        exact not_starts_advance_iff.mp (none count)
      rw [← split, List.length_append, List.length_nil, Nat.zero_add]
      exact undelimited_append spaces nowhere
    · rw [segments_of_none (by decide)]
      rfl

/-- Where a text stands in a whole input: behind `front`, which the tokens before it take, and the
spaces `gap`. -/
theorem Segmented.exists_text {input : List Char} {content : String} {span : Span Char}
    {before after : List (Token × Span Char)}
    (segmented : Segmented (Cursor.start input.toArray)
      (before ++ (.text content, span) :: after)) :
    ∃ front gap rest, input = front ++ (gap ++ (content.toList ++ rest)) ∧
      Leads input (before.map Prod.fst) (gap ++ (content.toList ++ rest)) ∧ Text.Spaces gap ∧
      span.start = (front ++ gap).length ∧
      (∀ count < (gap ++ content.toList).length,
        delimited? ((gap ++ (content.toList ++ rest)).drop count) = none) ∧
      (rest = [] ∨ delimited? rest ≠ none) ∧ after.map Prod.fst = segments rest := by
  have begin : (Cursor.start input.toArray).rest = input := Cursor.rest_start _
  obtain ⟨place, reaches, leads, here⟩ := segmented.exists_leads
  obtain ⟨gap, rest, shape, spaces, start, undelimited, ends, others⟩ := here.text_eq
  have split := reaches.upTo_append_rest
  rw [begin, shape] at split leads
  rw [shape, ← List.length_append] at undelimited
  refine ⟨_, gap, rest, split.symm, leads, spaces, ?_, undelimited, ends, others⟩
  have origin : (Cursor.start input.toArray).position = 0 := rfl
  rw [start, List.length_append, reaches.length_upTo, origin, Nat.sub_zero]

/-- The next token is a piece in front of every segmentation of what is left behind it. -/
theorem exists_piece {rest : List Char} (read : next? cursor.rest = some (token, rest)) :
    ∃ span after, cursor.Reaches after ∧ after.rest = rest ∧
      ∀ pieces, Segmented after pieces → Segmented cursor ((token, span) :: pieces) := by
  have solid := rest_behindSpaces cursor
  have skips : cursor.Reaches (behindSpaces cursor) := cursor.reaches_advance _
  rw [next?_eq_some_iff, ← solid] at read
  rcases read with here | ⟨undelimited, run, near, rfl⟩
  · obtain ⟨after, -, reaches, rfl⟩ := reads_delimited.success here
    refine ⟨.between (behindSpaces cursor) after, after, skips.trans reaches, rfl,
      fun pieces others => ?_⟩
    exact .delimited (begins_iff.mpr ⟨reaches, here⟩) others
  · obtain ⟨shape, starts, before⟩ := nearest?_eq_some_iff.mp near
    have behind : ((behindSpaces cursor).advance run.length).rest = rest := by
      rw [Cursor.rest_advance, shape, List.drop_left]
    have content : (behindSpaces cursor).upTo ((behindSpaces cursor).advance run.length) = run := by
      rw [Cursor.upTo_advance, shape, List.take_left]
    have reaches := Cursor.reaches_advance (behindSpaces cursor) run.length
    refine ⟨.between (behindSpaces cursor) ((behindSpaces cursor).advance run.length), _,
      skips.trans reaches, behind, fun pieces others => ?_⟩
    have here : Starts ((behindSpaces cursor).advance run.length) := by
      rw [starts_iff, behind]
      exact starts
    have piece := Segmented.text run.length
      (fun distance below => not_starts_advance_iff.mpr (before distance below)) here
      (List.length_pos_iff.mpr (ne_nil_of_nearest? undelimited near)) others
    rwa [content] at piece

/-- Where nothing begins any more, everything is one last piece. -/
theorem segmented_leftover (read : next? cursor.rest = none) (some : cursor.rest ≠ []) :
    Segmented cursor [(.text (String.ofList cursor.rest),
      ⟨cursor.source, cursor.position, cursor.source.size⟩)] := by
  rw [next?_eq_none_iff, ← rest_behindSpaces] at read
  exact .leftover (fun distance => not_starts_advance_iff.mpr (read distance)) some

/-- Every place has a segmentation. -/
theorem exists_segmented (cursor : Cursor Char) : ∃ pieces, Segmented cursor pieces := by
  induction cursor using Cursor.left_induction with
  | step cursor ih =>
    cases read : next? cursor.rest with
    | none =>
      by_cases empty : cursor.rest = []
      · exact ⟨[], .finished empty⟩
      · exact ⟨_, segmented_leftover read empty⟩
    | some found =>
      obtain ⟨token, rest⟩ := found
      have shorter := length_lt_of_next? read
      obtain ⟨span, after, -, rfl, further⟩ := exists_piece read
      rw [Cursor.length_rest, Cursor.length_rest] at shorter
      obtain ⟨pieces, others⟩ := ih after shorter
      exact ⟨_, further pieces others⟩

end Cursors

/-- Tokenizing always succeeds, and the tokens are those of the leftmost segmentation. -/
theorem tokenize_eq_ok_iff_segmented (input : String) :
    (∃ tokens, tokenize input = .ok tokens) ∧
      ∀ tokens, tokenize input = .ok tokens ↔
        ∃ pieces, Segmented (Cursor.start input.toList.toArray) pieces ∧
          pieces.map Prod.fst = tokens := by
  have start : (Cursor.start input.toList.toArray).rest = input.toList := Cursor.rest_start _
  refine ⟨⟨_, tokenize_eq input⟩, fun tokens => ?_⟩
  constructor
  · intro tokenized
    obtain ⟨pieces, segmented⟩ := exists_segmented (Cursor.start input.toList.toArray)
    refine ⟨pieces, segmented, ?_⟩
    rw [segmented.tokens_eq, start]
    exact Except.ok.inj ((tokenize_eq input).symm.trans tokenized)
  · rintro ⟨pieces, segmented, rfl⟩
    rw [segmented.tokens_eq, start, tokenize_eq]

end DocCoverage.Token
