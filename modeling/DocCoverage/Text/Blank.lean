/-!
# Blank characters

Two classes of blank characters. Words of source text are separated by the four layout
characters of `isSpace`. The directives of a log filter are trimmed of everything that Unicode
calls white space, which is `isBlank`.
-/

namespace DocCoverage.Text

/-- Space, tab, line feed and carriage return, and no other character, separate words. -/
def isSpace (char : Char) : Bool :=
  char == ' ' || char == '\t' || char == '\n' || char == '\r'

/-- The characters with the Unicode property `White_Space`. -/
def isBlank (char : Char) : Bool :=
  let code := char.toNat
  (9 ≤ code && code ≤ 13) || code == 0x20 || code == 0x85 || code == 0xA0 || code == 0x1680 ||
    (0x2000 ≤ code && code ≤ 0x200A) || code == 0x2028 || code == 0x2029 || code == 0x202F ||
    code == 0x205F || code == 0x3000

/-- The text without the blanks at its two ends. -/
def trim (text : List Char) : List Char :=
  ((text.dropWhile isBlank).reverse.dropWhile isBlank).reverse

/-- Nothing but separating characters. -/
def Spaces (text : List Char) : Prop := ∀ char ∈ text, isSpace char = true

/-- The text does not begin with a separating character. -/
def Solid (text : List Char) : Prop := ∀ char ∈ text.head?, isSpace char = false

instance : DecidablePred Spaces := fun text => List.decidableBAll (isSpace · = true) text

section Separation

variable {gap text : List Char} {char : Char}

theorem solid_cons_iff : Solid (char :: text) ↔ isSpace char = false := by simp [Solid]

instance : DecidablePred Solid
  | [] => .isTrue nofun
  | _ :: _ => decidable_of_iff _ solid_cons_iff.symm

theorem solid_append_iff {more : List Char} (nonempty : text ≠ []) :
    Solid (text ++ more) ↔ Solid text := by
  cases text with
  | nil => exact absurd rfl nonempty
  | cons head tail => rfl

theorem spaces_takeWhile (text : List Char) : Spaces (text.takeWhile isSpace) :=
  List.all_eq_true.mp List.all_takeWhile

theorem solid_dropWhile (text : List Char) : Solid (text.dropWhile isSpace) := by
  have first := List.head?_dropWhile_not isSpace text
  cases shape : text.dropWhile isSpace with
  | nil => exact nofun
  | cons head tail =>
    rw [shape] at first
    exact solid_cons_iff.mpr first

theorem dropWhile_of_solid (solid : Solid text) : text.dropWhile isSpace = text := by
  cases text with
  | nil => rfl
  | cons head tail =>
    exact List.dropWhile_cons_of_neg (Bool.not_eq_true _ ▸ solid_cons_iff.mp solid)

/-- Skipping the separators in front of a text that does not begin with one is skipping nothing
else. -/
theorem dropWhile_append (spaces : Spaces gap) (solid : Solid text) :
    (gap ++ text).dropWhile isSpace = text := by
  rw [List.dropWhile_append_of_pos spaces, dropWhile_of_solid solid]

/-- The separators that are skipped do not reach into a text that does not begin with one. -/
theorem dropWhile_append_of_solid (solid : Solid text) (front : List Char) :
    (front ++ text).dropWhile isSpace = front.dropWhile isSpace ++ text := by
  rw [List.dropWhile_append]
  split
  · next empty => rw [List.isEmpty_iff.mp empty, dropWhile_of_solid solid, List.nil_append]
  · rfl

end Separation

end DocCoverage.Text
