import DocCoverage.Source.Span

/-!
# Inputs with something in front

Putting elements in front of an input moves every place of it back by as many positions. What is
left to be read from a place stays the same, and so does everything that a cursor tells about the
elements there; only the source and the positions are others.
-/

namespace DocCoverage

variable {ε : Type} (before : Array ε)

/-- The same place behind `before`. -/
def Location.shift (location : Location ε) : Location ε :=
  ⟨before ++ location.source, before.size + location.position⟩

/-- The same failure behind `before`. -/
def ParseFailure.shift (reason : ParseFailure ε) : ParseFailure ε :=
  ⟨reason.cause, reason.location.shift before⟩

/-- The same stretch behind `before`. -/
def Span.shift (span : Span ε) : Span ε :=
  ⟨before ++ span.source, before.size + span.start, before.size + span.stop⟩

namespace Cursor

/-- The same place behind `before`. -/
def shift (cursor : Cursor ε) : Cursor ε where
  source := before ++ cursor.source
  position := before.size + cursor.position
  position_le := by
    rw [Array.size_append]
    exact Nat.add_le_add_left cursor.position_le _

variable (cursor : Cursor ε)

@[simp] theorem source_shift : (cursor.shift before).source = before ++ cursor.source := rfl

@[simp] theorem position_shift :
    (cursor.shift before).position = before.size + cursor.position := rfl

@[simp] theorem rest_shift : (cursor.shift before).rest = cursor.rest := by
  simp [rest, List.drop_append]

@[simp] theorem left_shift : (cursor.shift before).left = cursor.left := by
  rw [← length_rest, rest_shift, length_rest]

@[simp] theorem peek?_shift : (cursor.shift before).peek? = cursor.peek? := by
  rw [peek?_eq_head?, rest_shift, peek?_eq_head?]

@[simp] theorem next_shift : (cursor.shift before).next = cursor.next.shift before := by
  unfold next
  by_cases inside : cursor.position < cursor.source.size
  · simp [inside, shift, Nat.add_assoc]
  · simp [inside]

@[simp] theorem upTo_shift (stop : Cursor ε) :
    (cursor.shift before).upTo (stop.shift before) = cursor.upTo stop := by
  simp only [upTo, Array.toList_extract, List.extract_eq_take_drop, position_shift,
    Nat.add_sub_add_left]
  exact congrArg _ (rest_shift before cursor)

end Cursor

/-- A stretch has the same elements behind `before`. -/
@[simp] theorem Span.slice?_shift (span : Span ε) : (span.shift before).slice? = span.slice? := by
  have behind : (before ++ span.source).toList.drop (before.size + span.start) =
      span.source.toList.drop span.start := by simp [List.drop_append]
  simp only [slice?, shift, Array.size_append, Nat.add_le_add_iff_left, Array.toList_extract,
    List.extract_eq_take_drop, Nat.add_sub_add_left, behind]

end DocCoverage
