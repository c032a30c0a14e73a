import DocCoverage.Text.Blank

/-!
# Line ends

A text whose lines end with a line feed, written with a carriage return in front of each of them.
Words that have no part in a line end stand at the same places as before, and what separates words
still does.
-/

namespace DocCoverage.Text

/-- The text with a carriage return in front of every line feed. -/
def crlf : List Char → List Char
  | [] => []
  | char :: text => if char = '\n' then '\r' :: '\n' :: crlf text else char :: crlf text

/-- The text with a carriage return in front of every line feed. -/
def crlfOf (text : String) : String := String.ofList (crlf text.toList)

variable {char : Char} {text word : List Char}

@[simp] theorem crlfOf_ofList (text : List Char) :
    crlfOf (String.ofList text) = String.ofList (crlf text) :=
  congrArg (String.ofList ∘ crlf) String.toList_ofList

@[simp] theorem toList_crlfOf (text : String) : (crlfOf text).toList = crlf text.toList :=
  String.toList_ofList

@[simp] theorem crlf_nil : crlf [] = [] := rfl

@[simp] theorem crlf_feed (text : List Char) :
    crlf ('\n' :: text) = '\r' :: '\n' :: crlf text := rfl

theorem crlf_cons (other : char ≠ '\n') (text : List Char) :
    crlf (char :: text) = char :: crlf text := if_neg other

theorem crlf_append (first second : List Char) :
    crlf (first ++ second) = crlf first ++ crlf second := by
  induction first with
  | nil => rfl
  | cons char first ih =>
    by_cases feed : char = '\n'
    · rw [feed, List.cons_append, crlf_feed, crlf_feed, ih]
      rfl
    · rw [List.cons_append, crlf_cons feed, crlf_cons feed, ih, List.cons_append]

/-- Without line feeds nothing is changed. -/
theorem crlf_of_not_mem (unbroken : '\n' ∉ text) : crlf text = text := by
  induction text with
  | nil => rfl
  | cons char text ih =>
    rw [List.mem_cons, not_or] at unbroken
    rw [crlf_cons (Ne.symm unbroken.1), ih unbroken.2]

theorem crlf_eq_nil_iff : crlf text = [] ↔ text = [] := by
  cases text with
  | nil => exact Iff.rfl
  | cons char text =>
    by_cases feed : char = '\n'
    · rw [feed, crlf_feed]
      exact iff_of_false (List.cons_ne_nil _ _) (List.cons_ne_nil _ _)
    · rw [crlf_cons feed]
      exact iff_of_false (List.cons_ne_nil _ _) (List.cons_ne_nil _ _)

/-- A word that has no part in a line end begins the one text where it begins the other. -/
theorem prefix_crlf_iff (noFeed : '\n' ∉ word) (noReturn : '\r' ∉ word) :
    word <+: crlf text ↔ word <+: text := by
  induction word generalizing text with
  | nil => exact iff_of_true List.nil_prefix List.nil_prefix
  | cons first word ih =>
    rw [List.mem_cons, not_or] at noFeed noReturn
    cases text with
    | nil => exact Iff.rfl
    | cons char text =>
      by_cases feed : char = '\n'
      · rw [feed, crlf_feed, List.cons_prefix_cons, List.cons_prefix_cons]
        exact iff_of_false (fun same => noReturn.1 same.1.symm) fun same => noFeed.1 same.1.symm
      · rw [crlf_cons feed, List.cons_prefix_cons, List.cons_prefix_cons, ih noFeed.2 noReturn.2]

/-- The separators that are skipped are those that were skipped before. -/
theorem dropWhile_crlf (text : List Char) :
    (crlf text).dropWhile isSpace = crlf (text.dropWhile isSpace) := by
  induction text with
  | nil => rfl
  | cons char text ih =>
    by_cases feed : char = '\n'
    · rw [feed, crlf_feed, List.dropWhile_cons_of_pos (by decide),
        List.dropWhile_cons_of_pos (by decide), List.dropWhile_cons_of_pos (by decide), ih]
    · rw [crlf_cons feed]
      by_cases space : isSpace char = true
      · rw [List.dropWhile_cons_of_pos space, List.dropWhile_cons_of_pos space, ih]
      · rw [List.dropWhile_cons_of_neg space, List.dropWhile_cons_of_neg space, crlf_cons feed]

end DocCoverage.Text
