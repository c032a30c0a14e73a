import DocCoverage.Source.Failure

/-!
# Cursors

A cursor is a place in an input that parsers read from. It never leaves the input: behind the
last element it stays where it is. Moving a cursor makes a new one, so keeping an old cursor is
all that backtracking needs.

The view of a cursor is `rest`, the elements still to be read; each operation has one lemma that
says what it does to the view.
-/

namespace DocCoverage

/-- A place in an input, at one of its elements or at its end. -/
structure Cursor (ε : Type) where
  source : Array ε
  position : Nat
  position_le : position ≤ source.size
deriving DecidableEq

namespace Cursor

variable {ε : Type}

/-- The cursor at the beginning of an input. -/
def start (source : Array ε) : Cursor ε := ⟨source, 0, Nat.zero_le _⟩

/-- How many elements are still to be read. -/
def left (cursor : Cursor ε) : Nat := cursor.source.size - cursor.position

/-- The elements still to be read. -/
def rest (cursor : Cursor ε) : List ε := cursor.source.toList.drop cursor.position

/-- Whether nothing is left to be read. -/
def atEnd (cursor : Cursor ε) : Bool := cursor.position == cursor.source.size

/-- The element at the cursor. -/
def peek? (cursor : Cursor ε) : Option ε := cursor.source[cursor.position]?

/-- The cursor behind the next element; at the end, the same cursor. -/
def next (cursor : Cursor ε) : Cursor ε :=
  if inside : cursor.position < cursor.source.size then
    ⟨cursor.source, cursor.position + 1, inside⟩
  else cursor

/-- The cursor behind the next `count` elements, or at the end. -/
def advance (cursor : Cursor ε) : Nat → Cursor ε
  | 0 => cursor
  | count + 1 => cursor.next.advance count

/-- The elements between a cursor and a later one of the same input. -/
def upTo (cursor stop : Cursor ε) : List ε :=
  (cursor.source.extract cursor.position stop.position).toList

/-- The location of the cursor. -/
def location (cursor : Cursor ε) : Location ε := ⟨cursor.source, cursor.position⟩

/-- A failure at the cursor. -/
def failure (cursor : Cursor ε) (cause : Cause ε) : ParseFailure ε := ⟨cause, cursor.location⟩

/-- The element at the cursor, or the failure that there is none. -/
def read (cursor : Cursor ε) : Except (ParseFailure ε) ε :=
  match cursor.peek? with
  | some element => .ok element
  | none => .error (cursor.failure .endOfInput)

theorem length_rest (cursor : Cursor ε) : cursor.rest.length = cursor.left := by
  simp [rest, left]

@[simp] theorem rest_start (source : Array ε) : (start source).rest = source.toList := by
  simp [start, rest]

@[simp] theorem source_next (cursor : Cursor ε) : cursor.next.source = cursor.source := by
  unfold next; split <;> rfl

@[simp] theorem source_advance (cursor : Cursor ε) (count : Nat) :
    (cursor.advance count).source = cursor.source := by
  induction count generalizing cursor with
  | zero => rfl
  | succ count ih => simp [advance, ih]

theorem peek?_eq_head? (cursor : Cursor ε) : cursor.peek? = cursor.rest.head? := by
  simp [peek?, rest, List.head?_drop]

theorem peek?_eq_none_iff {cursor : Cursor ε} : cursor.peek? = none ↔ cursor.left = 0 := by
  rw [peek?_eq_head?, List.head?_eq_none_iff, ← List.length_eq_zero_iff, length_rest]

theorem rest_next (cursor : Cursor ε) : cursor.next.rest = cursor.rest.tail := by
  unfold next
  split
  · simp [rest]
  · next outside =>
    have empty : cursor.rest = [] := by
      rw [← List.length_eq_zero_iff, length_rest, left]
      omega
    simp [empty]

theorem rest_of_peek? {cursor : Cursor ε} {element : ε} (seen : cursor.peek? = some element) :
    cursor.rest = element :: cursor.next.rest := by
  rw [peek?_eq_head?] at seen
  obtain ⟨tail, shape⟩ := List.head?_eq_some_iff.mp seen
  rw [rest_next, shape, List.tail_cons]

theorem left_next (cursor : Cursor ε) : cursor.next.left = cursor.left - 1 := by
  rw [← length_rest, ← length_rest, rest_next, List.length_tail]

theorem position_next (cursor : Cursor ε) :
    cursor.next.position = if cursor.left = 0 then cursor.position else cursor.position + 1 := by
  have bound := cursor.position_le
  by_cases inside : cursor.position < cursor.source.size
  · have some_left : cursor.source.size - cursor.position ≠ 0 := by omega
    simp [next, left, inside, some_left]
  · have none_left : cursor.source.size - cursor.position = 0 := by omega
    simp [next, left, inside, none_left]

/-- Induction on how much is left to be read, which is what a loop makes smaller. -/
theorem left_induction {motive : Cursor ε → Prop}
    (step : ∀ cursor, (∀ after, after.left < cursor.left → motive after) → motive cursor)
    (cursor : Cursor ε) : motive cursor :=
  (measure left).wf.induction cursor step

end Cursor

end DocCoverage
