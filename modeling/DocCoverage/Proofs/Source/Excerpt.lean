import DocCoverage.Proofs.Source.Address
import DocCoverage.Source.Failure

/-!
# The excerpt in a report

A report of a failure shows the line where it arose and up to two lines on either side. The number
of that line is counted by the line feeds in front of the location, and the lines shown are cut out
of the input; what is shown is right because both go by the same lines. The caret stands below the
element at the location, as long as that is part of a line.
-/

namespace DocCoverage

section Lines

variable {ε : Type} [DecidableEq ε] [Element ε]

/-- The first line reaches up to the first line feed. -/
theorem exists_splitLines_eq (run : List ε) :
    ∃ below, splitLines run = run.takeWhile (· != Element.lineFeed) :: below := by
  induction run with
  | nil => exact ⟨[], rfl⟩
  | cons element run ih =>
    unfold splitLines at ih ⊢
    rw [List.splitOn_cons_eq_if_modifyHead]
    by_cases feed : element = Element.lineFeed
    · exact ⟨run.splitOn Element.lineFeed, by simp [feed]⟩
    · obtain ⟨below, split⟩ := ih
      exact ⟨below, by simp [feed, split]⟩

/-- Where the line of a location is found among the lines of the input: behind the lines above it,
and the offset of the location counts the elements of it in front of the location. -/
theorem Location.exists_line (location : Location ε) :
    ∃ above text below start, splitLines location.source.toList = above ++ text :: below ∧
      above.length + 1 = location.address.line ∧ BeginsLine location start ∧
      location.address.offset = location.position - start ∧
      text = (location.source.toList.drop start).takeWhile (· != Element.lineFeed) ∧
      ∀ element, location.source[location.position]? = some element →
        element ≠ Element.lineFeed → text[location.address.offset]? = some element := by
  obtain ⟨above, begun, lined⟩ := exists_lined (location.source.toList.take location.position)
  have position := location.position_of_lined lined
  obtain ⟨below, rest⟩ := exists_splitLines_eq (location.source.toList.drop location.position)
  have split := lined.splitLines_append (location.source.toList.drop location.position)
  rw [List.take_append_drop, rest, List.modifyHead_cons] at split
  have plain : ∀ element ∈ begun, (element != Element.lineFeed) = true :=
    fun element member => bne_iff_ne.mpr (ne_of_mem_of_not_mem member lined.unbroken)
  have behind : location.source.toList.drop (above.flatten.length + above.length) =
      begun ++ location.source.toList.drop location.position := by
    have whole := List.take_append_drop location.position location.source.toList
    rw [← lined.whole, List.append_assoc] at whole
    rw [← length_withFeeds, ← whole, List.drop_left, whole]
  rw [location.address_of_lined lined]
  refine ⟨above, _, below, _, split, rfl, beginsLine_of_lined lined, ?_, ?_, ?_⟩
  · dsimp only
    omega
  · rw [behind, List.takeWhile_append_of_pos plain]
  · intro element here other
    obtain ⟨inside, here⟩ := Array.getElem?_eq_some_iff.mp here
    have none : location.excess = 0 := Nat.sub_eq_zero_of_le (Nat.le_of_lt inside)
    have rest : location.source.toList.drop location.position =
        element :: location.source.toList.drop (location.position + 1) := by
      rw [List.drop_eq_getElem_cons (by simpa using inside), Array.getElem_toList, here]
    have taken : (element != Element.lineFeed) = true := bne_iff_ne.mpr other
    simp [none, rest, taken]

end Lines

namespace Excerpt

/-- A line with its number, from one on. -/
abbrev Numbered := List Char × Nat

/-- The lines of an input with their numbers. -/
def numberedLines (source : List Char) : List Numbered := (splitLines source).zipIdx 1

/-- Whether the line is at most two lines away from the one with the number. -/
def isNear (number : Nat) (line : Numbered) : Bool :=
  decide (line.2 ≤ number + 2 ∧ number ≤ line.2 + 2)

/-- What stands in front of the text of a line, which is a mark and the number of the line. -/
def margin (mark : String) (number : Nat) : String := mark ++ toString number ++ " | "

/-- A line as a report shows it. -/
def row (mark : String) (line : Numbered) : String := margin mark line.2 ++ String.ofList line.1

/-- The row with the caret in a column. -/
def caretRow (column : Nat) : String := String.ofList (List.replicate column ' ') ++ "^--- here"

/-- Whether a row begins with the mark of the line that a report is about. -/
def isMarked (row : String) : Bool := "  > ".toList.isPrefixOf row.toList

/-- The rows show the line of a location, marked and with a caret below, between the lines that are
near. -/
structure Shows (location : Location Char) (rows : List String) (above : List Numbered)
    (line : Numbered) (below : List Numbered) (start column : Nat) : Prop where
  number : line.2 = (location.source.toList.take location.position).count '\n' + 1
  begins : BeginsLine location start
  text : line.1 = (location.source.toList.drop start).takeWhile (· != '\n')
  near : (numberedLines location.source.toList).filter (isNear line.2) = above ++ line :: below
  higher : ∀ other ∈ above, other.2 < line.2
  lower : ∀ other ∈ below, line.2 < other.2
  shown : rows = above.map (row "    ") ++ row "  > " line :: caretRow column ::
    below.map (row "    ")
  marked : rows.countP isMarked = 1
  /-- Both the caret and the element at the location stand as far behind the margin as the location
  is behind the beginning of its line. -/
  place : column = (margin "  > " line.2).length + (location.position - start)
  caret : (caretRow column).toList[column]? = some '^'
  element : ∀ char, location.source[location.position]? = some char → char ≠ '\n' →
    (row "  > " line).toList[column]? = some char

/-- What an excerpt has of one line. -/
def excerptOf (address : Address) (line : Numbered) : List ExcerptLine :=
  if line.2 = address.line then
    [.marked line.2 (String.ofList line.1),
      .caret ((ExcerptLine.markedMargin line.2).length + address.offset)]
  else if line.2 ≤ address.line + 2 ∧ address.line ≤ line.2 + 2 then
    [.plain line.2 (String.ofList line.1)]
  else []

variable {address : Address} {location : Location Char} {line : Numbered} {lines : List Numbered}

theorem excerpt_eq (location : Location Char) :
    location.excerpt = (numberedLines location.source.toList).flatMap
      (excerptOf location.address) := rfl

theorem map_render_excerptOf (here : line.2 = address.line) :
    (excerptOf address line).map ExcerptLine.render =
      [row "  > " line, caretRow ((margin "  > " line.2).length + address.offset)] := by
  rw [excerptOf, if_pos here]
  rfl

/-- Of the lines above or below, an excerpt has those that are near. -/
theorem map_render_flatMap (elsewhere : ∀ line ∈ lines, line.2 ≠ address.line) :
    (lines.flatMap (excerptOf address)).map ExcerptLine.render =
      (lines.filter (isNear address.line)).map (row "    ") := by
  induction lines with
  | nil => rfl
  | cons line lines ih =>
    obtain ⟨other, others⟩ := List.forall_mem_cons.mp elsewhere
    rw [List.flatMap_cons, List.map_append, ih others, excerptOf, if_neg other]
    by_cases near : line.2 ≤ address.line + 2 ∧ address.line ≤ line.2 + 2
    · have shown : isNear address.line line = true := decide_eq_true near
      rw [if_pos near, List.filter_cons_of_pos shown]
      rfl
    · have hidden : ¬ isNear address.line line = true := mt of_decide_eq_true near
      rw [if_neg near, List.filter_cons_of_neg hidden]
      rfl

theorem isMarked_row (line : Numbered) : isMarked (row "  > " line) = true := by
  unfold isMarked row margin
  rw [List.isPrefixOf_iff_prefix]
  simp only [String.toList_append, List.append_assoc]
  exact List.prefix_append ..

/-- Four spaces are not the mark. -/
theorem isMarked_of_spaces {text : String} (spaces : [' ', ' ', ' ', ' '] <+: text.toList) :
    isMarked text = false := by
  have mark : "  > ".toList = [' ', ' ', '>', ' '] := rfl
  obtain ⟨rest, shape⟩ := spaces
  rw [isMarked, ← shape, mark]
  rfl

theorem isMarked_plain (line : Numbered) : isMarked (row "    " line) = false := by
  apply isMarked_of_spaces
  unfold row margin
  simp only [String.toList_append, List.append_assoc]
  exact List.prefix_append ..

theorem isMarked_caretRow {column : Nat} (behind : 4 ≤ column) :
    isMarked (caretRow column) = false := by
  apply isMarked_of_spaces
  obtain ⟨more, rfl⟩ := Nat.exists_eq_add_of_le behind
  rw [caretRow, String.toList_append, String.toList_ofList, ← List.replicate_append_replicate,
    List.append_assoc]
  exact List.prefix_append ..

/-- Only the line between the others is marked. -/
theorem countP_isMarked (above : List Numbered) (line : Numbered) (below : List Numbered)
    {column : Nat} (behind : 4 ≤ column) :
    (above.map (row "    ") ++ row "  > " line :: caretRow column ::
      below.map (row "    ")).countP isMarked = 1 := by
  have plain (lines : List Numbered) : (lines.map (row "    ")).countP isMarked = 0 := by
    rw [List.countP_map, List.countP_eq_zero]
    intro line _ marked
    rw [Function.comp_apply, isMarked_plain] at marked
    cases marked
  rw [List.countP_append, List.countP_cons_of_pos (isMarked_row line),
    List.countP_cons_of_neg (Bool.eq_false_iff.mp (isMarked_caretRow behind)), plain, plain]

theorem getElem?_caretRow (column : Nat) : (caretRow column).toList[column]? = some '^' := by
  rw [caretRow, String.toList_append, String.toList_ofList,
    List.getElem?_append_right (Nat.le_of_eq List.length_replicate), List.length_replicate,
    Nat.sub_self]
  rfl

/-- The element at an offset of a line stands behind the margin in its row. -/
theorem getElem?_row {char : Char} {offset : Nat} (here : line.1[offset]? = some char) :
    (row "  > " line).toList[(margin "  > " line.2).length + offset]? = some char := by
  rw [row, String.toList_append, String.toList_ofList, ← String.length_toList,
    List.getElem?_append_right (Nat.le_add_right ..), Nat.add_sub_cancel_left, here]

/-- The numbered lines of an input, split at the line of a location. -/
structure Splits (location : Location Char) (above : List Numbered) (line : Numbered)
    (below : List Numbered) : Prop where
  whole : numberedLines location.source.toList = above ++ line :: below
  number : line.2 = location.address.line
  higher : ∀ other ∈ above, other.2 < line.2
  lower : ∀ other ∈ below, line.2 < other.2

theorem splits_of_splitLines {above below : List (List Char)} {text : List Char}
    (split : splitLines location.source.toList = above ++ text :: below)
    (number : above.length + 1 = location.address.line) :
    Splits location (above.zipIdx 1) (text, location.address.line)
      (below.zipIdx (above.length + 2)) where
  whole := by
    rw [numberedLines, split, List.zipIdx_append, List.zipIdx_cons, ← number, Nat.add_comm 1]
  number := rfl
  higher line member := by
    have bound := List.snd_lt_add_of_mem_zipIdx member
    dsimp only
    omega
  lower line member := by
    have bound := List.le_snd_of_mem_zipIdx member
    dsimp only
    omega

/-- The rows of an excerpt are the lines that are near, and the caret. -/
theorem Splits.map_render_excerpt {above below : List Numbered}
    (splits : Splits location above line below) :
    location.excerpt.map ExcerptLine.render =
      (above.filter (isNear line.2)).map (row "    ") ++ row "  > " line ::
        caretRow ((margin "  > " line.2).length + location.address.offset) ::
          (below.filter (isNear line.2)).map (row "    ") := by
  obtain ⟨whole, number, higher, lower⟩ := splits
  rw [number] at higher lower ⊢
  rw [excerpt_eq, whole, List.flatMap_append, List.flatMap_cons, List.map_append, List.map_append,
    map_render_flatMap fun other member => Nat.ne_of_lt (higher other member),
    map_render_flatMap fun other member => Nat.ne_of_gt (lower other member),
    map_render_excerptOf number, number]
  rfl

/-- A report is its headline and, behind an empty line, the rows that show the location. -/
theorem report_shows (failure : ParseFailure Char) :
    ∃ rows above line below start column,
      failure.report = failure.headline ++ "\n\n" ++ String.join (rows.map (· ++ "\n")) ∧
        Shows failure.location rows above line below start column := by
  obtain ⟨higher, text, lower, start, split, number, begins, offset, shape, points⟩ :=
    failure.location.exists_line
  have splits := splits_of_splitLines split number
  generalize higher.zipIdx 1 = above, lower.zipIdx (higher.length + 2) = below at splits
  generalize line_eq : (text, failure.location.address.line) = line at splits
  obtain rfl : line.1 = text := congrArg Prod.fst line_eq.symm
  have rows := splits.map_render_excerpt
  have near : isNear line.2 line = true := decide_eq_true (by omega)
  have margined : 4 ≤ (margin "  > " line.2).length := by
    rw [margin, String.length_append, String.length_append]
    have mark : "  > ".length = 4 := rfl
    omega
  rw [offset] at rows points
  refine ⟨failure.location.excerpt.map ExcerptLine.render, above.filter (isNear line.2), line,
    below.filter (isNear line.2), start, _, ?_,
    { number := splits.number.trans failure.location.line_address
      begins := begins
      text := shape
      near := ?_
      higher := fun other member => splits.higher other (List.mem_filter.mp member).1
      lower := fun other member => splits.lower other (List.mem_filter.mp member).1
      shown := rows
      marked := ?_
      place := rfl
      caret := getElem?_caretRow _
      element := fun char here other => getElem?_row (points char here other) }⟩
  · rw [ParseFailure.report, List.map_map]
    rfl
  · rw [splits.whole, List.filter_append, List.filter_cons_of_pos near]
  · rw [rows]
    exact countP_isMarked _ _ _ (Nat.le_trans margined (Nat.le_add_right ..))

/-- The caret stands below the second character of the second line. -/
example : (Location.mk "a\nbc\n".toList.toArray 3).excerpt.map ExcerptLine.render =
    ["    1 | a", "  > 2 | bc", "         ^--- here", "    3 | "] := by cbv

end Excerpt

end DocCoverage
