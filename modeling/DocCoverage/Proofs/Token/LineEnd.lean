import DocCoverage.Proofs.Token.Segments
import DocCoverage.Text.LineEnd

/-!
# Tokens do not depend on the line ends

A text without carriage returns has the same tokens when its lines end with a carriage return and a
line feed, apart from the line ends inside of them. Each reading of the recognizers is carried over
to the longer text. Two of them meet the line ends: a line comment takes both characters of one for
its end, and a text is tried at one more place inside of each, where nothing begins.
-/

namespace DocCoverage.Token

open Text (crlf crlfOf crlf_feed crlf_cons crlf_append)

/-- The same token with other line ends in it. -/
def crlf : Token → Token
  | .comment content => .comment (crlfOf content)
  | .stringLiteral content => .stringLiteral (crlfOf content)
  | .text content => .text (crlfOf content)

/-- What is read, and what is left, with other line ends. -/
def carry {α : Type} (change : α → α) : Option (α × List Char) → Option (α × List Char) :=
  Option.map (Prod.map change Text.crlf)

variable {input : List Char}

theorem behind_carry (front : List Char) (read : Option (List Char × List Char)) :
    carry Text.crlf (behind front read) = behind (Text.crlf front) (carry Text.crlf read) := by
  cases read with
  | none => rfl
  | some found => simp [carry, behind, crlf_append]

section Marks

/-- A character that is no line feed stands in front of the same marks as before. -/
theorem closed?_crlf (depth : Nat) (input : List Char) :
    closed? depth (Text.crlf input) = carry Text.crlf (closed? depth input) := by
  fun_induction closed? depth input with
  | case1 input => rw [closed?]; rfl
  | case2 depth => rfl
  | case3 depth rest ih =>
    rw [behind_carry, ← ih]
    rfl
  | case4 depth rest ih =>
    rw [behind_carry, ← ih]
    rfl
  | case5 depth char rest noClose noOpen ih =>
    rw [behind_carry, ← ih]
    by_cases feed : char = '\n'
    · rw [feed, crlf_feed, closed?_cons (absurd · (by decide)) (absurd · (by decide)),
        closed?_cons (absurd · (by decide)) (absurd · (by decide)), behind_behind]
      rfl
    · rw [crlf_cons feed, crlf_cons feed, closed?_cons]
      · rfl
      · intro star
        rw [Text.prefix_crlf_iff (by decide) (by decide)]
        exact not_prefix_of_ne_cons (noClose · star)
      · intro slash
        rw [Text.prefix_crlf_iff (by decide) (by decide)]
        exact not_prefix_of_ne_cons (noOpen · slash)

theorem quotation?_crlf (input : List Char) :
    quotation? (Text.crlf input) = carry Text.crlf (quotation? input) := by
  fun_induction quotation? input with
  | case1 => rfl
  | case2 rest => rfl
  | case3 rest ih =>
    rw [behind_carry, ← ih]
    rfl
  | case4 rest ih =>
    rw [behind_carry, ← ih]
    rfl
  | case5 char rest noQuote noBackslash noEscape ih =>
    rw [behind_carry, ← ih]
    by_cases feed : char = '\n'
    · have plain : quotation? (['\r', '\n'] ++ Text.crlf rest) = _ :=
        quotation?_append_of_plain (by decide) (by decide) (Text.crlf rest)
      rw [feed]
      exact plain
    · rw [crlf_cons feed, crlf_cons feed, quotation?_cons noQuote]
      · rfl
      · intro escape
        rw [Text.prefix_crlf_iff (by decide) (by decide)]
        exact not_prefix_of_ne_cons (noBackslash · escape)
      · intro escape
        rw [Text.prefix_crlf_iff (by decide) (by decide)]
        exact not_prefix_of_ne_cons (noEscape · escape)

/-- A line that ended with a line feed ends with both characters. -/
theorem upTo_lineBreak?_crlf (noReturn : '\r' ∉ input) :
    lineBreak?.upTo (Text.crlf input) = carry Text.crlf (lineBreak?.upTo input) := by
  induction input with
  | nil => rfl
  | cons char rest ih =>
    rw [List.mem_cons, not_or] at noReturn
    by_cases feed : char = '\n'
    · rw [feed]
      rfl
    · have unbroken : Unbroken [char] := unbroken_cons_iff.mpr
        ⟨⟨feed, Ne.symm noReturn.1⟩, by decide⟩
      have goes_on := upTo_lineBreak?_append unbroken rest
      have goes_on' := upTo_lineBreak?_append unbroken (Text.crlf rest)
      rw [List.singleton_append] at goes_on goes_on'
      rw [crlf_cons feed, goes_on', ih noReturn.2, goes_on, behind_carry,
        Text.crlf_of_not_mem unbroken.1]

theorem made_carry {kind : String → Token}
    (commutes : ∀ content, (kind content).crlf = kind (crlfOf content))
    (read : Option (List Char × List Char)) :
    made kind (carry Text.crlf read) = carry crlf (made kind read) := by
  cases read with
  | none => rfl
  | some found => simp [made, carry, commutes, crlfOf]

/-- Comments and string literals stand at the same places as before. -/
theorem delimited?_crlf (noReturn : '\r' ∉ input) :
    delimited? (Text.crlf input) = carry crlf (delimited? input) := by
  cases opening input with
  | line body =>
    have later : '\r' ∉ body := by simpa using noReturn
    have front : Text.crlf ('/' :: '/' :: body) = '/' :: '/' :: Text.crlf body := rfl
    have marks : ['/', '/'] = Text.crlf ['/', '/'] := rfl
    rw [front, delimited?_line, upTo_lineBreak?_crlf later, delimited?_line, marks, ← behind_carry,
      made_carry fun _ => rfl]
    rfl
  | block body =>
    have front : Text.crlf ('/' :: '*' :: body) = '/' :: '*' :: Text.crlf body := rfl
    have marks : ['/', '*'] = Text.crlf ['/', '*'] := rfl
    rw [front, delimited?_block, closed?_crlf, delimited?_block, marks, ← behind_carry,
      made_carry fun _ => rfl]
    rfl
  | quote body =>
    have front : Text.crlf ('"' :: body) = '"' :: Text.crlf body := rfl
    rw [front, delimited?_quote, quotation?_crlf, delimited?_quote, made_carry fun _ => rfl]
  | none noLine noBlock noQuote =>
    rw [delimited?_of_unmarked noLine noBlock noQuote]
    apply delimited?_of_unmarked
    · rwa [Text.prefix_crlf_iff (by decide) (by decide)]
    · rwa [Text.prefix_crlf_iff (by decide) (by decide)]
    · rwa [Text.prefix_crlf_iff (by decide) (by decide)]

end Marks

section UpTo

variable {α : Type} {stop : Reading Char α} {char : Char}

theorem upTo_of_some {value : α} {rest : List Char} (read : stop input = some (value, rest)) :
    stop.upTo input = some ([], rest) := by
  cases input with
  | nil => rw [Reading.upTo, read]; rfl
  | cons char tail => rw [Reading.upTo, read]

theorem upTo_cons_of_none {tail : List Char} (refused : stop (char :: tail) = none) :
    stop.upTo (char :: tail) = behind [char] (stop.upTo tail) := by
  rw [Reading.upTo, refused]
  rfl

/-- What does not stop inside of a line end stops at the same places as before. -/
theorem upTo_crlf (change : α → α)
    (carries : ∀ text, text <:+ input → stop (Text.crlf text) = carry change (stop text))
    (noReturn : ∀ text, stop ('\r' :: text) = none) (noFeed : ∀ text, stop ('\n' :: text) = none) :
    stop.upTo (Text.crlf input) = carry Text.crlf (stop.upTo input) := by
  induction input with
  | nil =>
    have same := carries [] List.suffix_rfl
    cases read : stop [] with
    | none => rw [Text.crlf_nil, Reading.upTo, read]; rfl
    | some found =>
      obtain ⟨value, rest⟩ := found
      rw [read] at same
      rw [upTo_of_some same, upTo_of_some read]
      rfl
  | cons char tail ih =>
    have later := ih fun text suffix => carries text (suffix.trans (List.suffix_cons char tail))
    by_cases feed : char = '\n'
    · rw [feed, crlf_feed, upTo_cons_of_none (noReturn _), upTo_cons_of_none (noFeed _), later,
        upTo_cons_of_none (noFeed _), behind_carry, behind_behind]
      rfl
    · have same := carries (char :: tail) List.suffix_rfl
      cases read : stop (char :: tail) with
      | none =>
        rw [read, crlf_cons feed] at same
        rw [crlf_cons feed, upTo_cons_of_none same, later, upTo_cons_of_none read, behind_carry,
          crlf_cons feed]
        rfl
      | some found =>
        obtain ⟨value, rest⟩ := found
        rw [read] at same
        rw [upTo_of_some same, upTo_of_some read]
        rfl

end UpTo

section Tokens

theorem nearest?_crlf (noReturn : '\r' ∉ input) :
    nearest? (Text.crlf input) = carry Text.crlf (nearest? input) := by
  refine upTo_crlf crlf (fun text suffix => ?_) (fun text => ?_) fun text => ?_
  · rw [delimited?_crlf fun member => noReturn (suffix.mem member)]
    cases delimited? text <;> rfl
  · rw [delimited?_cons_of_plain (by decide) (by decide)]
    rfl
  · rw [delimited?_cons_of_plain (by decide) (by decide)]
    rfl

theorem next?_crlf (noReturn : '\r' ∉ input) :
    next? (Text.crlf input) = carry crlf (next? input) := by
  have later : '\r' ∉ input.dropWhile Text.isSpace :=
    fun member => noReturn ((List.dropWhile_suffix _).mem member)
  unfold next?
  rw [Text.dropWhile_crlf]
  dsimp only
  rw [delimited?_crlf later, nearest?_crlf later, made_carry fun _ => rfl]
  exact Option.map_or.symm

theorem leftover_crlf (input : List Char) :
    leftover (Text.crlf input) = (leftover input).map crlf := by
  unfold leftover
  by_cases empty : input = []
  · rw [empty]
    rfl
  · rw [if_neg empty, if_neg (mt Text.crlf_eq_nil_iff.mp empty)]
    simp [crlf, crlfOf]

/-- The tokens are the same, with other line ends in them. -/
theorem segments_crlf (noReturn : '\r' ∉ input) :
    segments (Text.crlf input) = (segments input).map crlf := by
  induction measured : input.length using Nat.strongRecOn generalizing input with
  | _ length ih =>
    subst measured
    have same := next?_crlf noReturn
    cases read : next? input with
    | none =>
      rw [read] at same
      rw [segments_of_none same, segments_of_none read, leftover_crlf]
    | some found =>
      obtain ⟨token, rest⟩ := found
      rw [read] at same
      have later : '\r' ∉ rest := fun member => noReturn ((suffix_of_next? read).mem member)
      rw [segments_of_next? same, segments_of_next? read, List.map_cons]
      exact congrArg (token.crlf :: ·) (ih rest.length (length_lt_of_next? read) later rfl)

end Tokens

end DocCoverage.Token
