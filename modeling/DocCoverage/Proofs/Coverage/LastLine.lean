import DocCoverage.Proofs.Coverage.Attribution
import DocCoverage.Proofs.Coverage.Position
import DocCoverage.Proofs.Token.LineFeed

/-!
# The last line

Whether a text ends with a line feed makes no difference to its coverage, unless it ends within a
line comment. Such a comment is none until a line break ends it, and what stands in it counts as
code: each bracket in it may end one more declaration.
-/

namespace DocCoverage.Coverage

open Declaration Token

/-- How many functions there are. -/
def total (coverage : Coverage) : Nat := coverage.documented + coverage.undocumented.length

@[simp] theorem total_empty : empty.total = 0 := rfl

@[simp] theorem total_append (first second : Coverage) :
    (first ++ second).total = first.total + second.total := by
  simp only [total, documented_append, undocumented_append, List.length_append]
  omega

@[simp] theorem total_add (credit : Bool) (names : List String) :
    (empty.add credit names).total = names.length := documented_add_undocumented credit names

theorem eq_empty_of_total {coverage : Coverage} (none : coverage.total = 0) :
    coverage = empty := by
  obtain ⟨documented, unnamed⟩ := Nat.add_eq_zero_iff.mp none
  exact Coverage.ext documented (List.length_eq_zero_iff.mp unnamed)

/-- More names in a text add as many functions, whatever the first ones are. -/
theorem exists_add_append (credit : Bool) (names more : List String) :
    ∃ extra, empty.add credit (names ++ more) = empty.add credit names ++ extra ∧
      extra.total = more.length := by
  by_cases settled : credit = true → names ≠ []
  · exact ⟨_, add_append settled, Nat.zero_add _⟩
  · simp only [Classical.not_imp, ne_eq, Classical.not_not] at settled
    obtain ⟨-, rfl⟩ := settled
    exact ⟨_, (empty_append _).symm, total_add credit more⟩

/-- More behind a text can only add functions, at most one for each bracket in it. -/
theorem exists_add_names_append (credit : Bool) (text tail : List Char) :
    ∃ extra, empty.add credit (names (String.ofList (text ++ tail))) =
        empty.add credit (names (String.ofList text)) ++ extra ∧
      extra.total ≤ tail.countP endsName := by
  have leftmost : Leftmost text _ := names_ofList_eq_iff.mp rfl
  obtain ⟨added, longer, bound⟩ := leftmost.exists_append tail
  obtain ⟨extra, split, size⟩ := exists_add_append credit (names (String.ofList text)) added
  rw [names_ofList_eq_iff.mpr longer]
  exact ⟨extra, split, size ▸ bound⟩

section Segments

variable {front input last : List Char} {token : Token}

/-- What a text declares in front of its first comment or string literal, and behind it. -/
theorem contribution_segments_append (clear : Clear front input)
    (read : delimited? input = some (token, last)) (credit : Bool) :
    contribution credit (segments (front ++ input)) =
      empty.add credit (names (String.ofList front)) ++
        contribution token.isDoc (segments last) := by
  have declaresNothing (credit : Bool) : own credit token = empty := by
    obtain ⟨_, -, -, marked⟩ := written_of_delimited? read
    cases token with
    | text content => cases marked
    | comment _ | stringLiteral _ => rfl
  rw [segments_append clear read, contribution_append, contribution_leftover, names_dropWhile,
    contribution, declaresNothing, empty_append]

/-- There is a bracket for each function. -/
theorem total_contribution_le (credit : Bool) (input : List Char) :
    (contribution credit (segments input)).total ≤ input.countP endsName := by
  have named (text : List Char) : (names (String.ofList text)).length ≤ text.countP endsName :=
    (names_ofList_eq_iff.mp rfl).length_le
  induction input using clear_induction generalizing credit with
  | plain input clear =>
    rw [clear.segments_eq, contribution_leftover, total_add]
    exact named input
  | step stretch rest token last clear read ih =>
    have fewer := (suffix_of_delimited? read).sublist.countP_le (p := endsName)
    rw [contribution_segments_append clear read, total_append, total_add, List.countP_append]
    exact Nat.add_le_add (named stretch) (Nat.le_trans (ih token.isDoc) fewer)

/-- What stands behind a stretch in which nothing begins can only add functions, at most one for
each of its brackets. -/
theorem exists_contribution_append (clear : Clear front input) (credit : Bool) :
    ∃ more, contribution credit (segments (front ++ input)) =
        empty.add credit (names (String.ofList front)) ++ more ∧
      more.total ≤ input.countP endsName := by
  rcases clear_or_exists input with clear' | ⟨stretch, rest, token, last, rfl, clear', read⟩
  · have whole : Clear (front ++ input) [] := .append (by rwa [List.append_nil]) clear'
    rw [whole.segments_eq, contribution_leftover]
    exact exists_add_names_append credit front input
  · have whole : Clear (front ++ stretch) rest := .append clear clear'
    obtain ⟨extra, split, bound⟩ := exists_add_names_append credit front stretch
    have later := total_contribution_le token.isDoc last
    have within := (suffix_of_delimited? read).sublist.countP_le (p := endsName)
    rw [← List.append_assoc, contribution_segments_append whole read, split, append_assoc]
    refine ⟨_, rfl, ?_⟩
    rw [total_append, List.countP_append]
    omega

end Segments

/-- The text ends within a line comment: it has the comment at its end, without a line break, and
with one there the comment is the last token. -/
structure EndsWithin (input : String) (fed : List Token) (comment : String) : Prop where
  inside : comment.toList <:+ input.toList
  unended : Unended comment.toList
  last : fed.getLast? = some (.comment comment)

/-- How the coverage of a text, by its tokens, depends on a line feed behind it, with which it has
the tokens `fed`. -/
structure LastLine (input : String) (tokens fed : List Token) : Prop where
  same : (∀ comment, ¬ EndsWithin input fed comment) → check tokens = check fed
  /-- Without a line break behind it a comment is code, which can add functions. -/
  added : ∀ comment, EndsWithin input fed comment →
    ∃ more, check tokens = check fed ++ more ∧ more.total ≤ comment.toList.countP endsName
  /-- Where the comment has no bracket that is no difference either. -/
  bracketless : ∀ comment, EndsWithin input fed comment →
    (∀ char ∈ comment.toList, char ≠ '<' ∧ char ≠ '(') → check tokens = check fed

theorem contribution_lineFeed (left : List Char) (credit : Bool) :
    contribution credit (leftover (left ++ ['\n'])) = contribution credit (leftover left) := by
  rw [contribution_leftover, contribution_leftover, names_append_spaces (by decide)]

/-- A line feed behind a text changes nothing, or takes away what stands in a comment that it
ends. -/
theorem check_of_fed {input : List Char} {fed : List Token} (feeds : Fed input fed) :
    check (segments input) = check fed ∨
      ∃ comment, comment <:+ input ∧ Unended comment ∧
        fed.getLast? = some (.comment (String.ofList comment)) ∧
        ∃ more, check (segments input) = check fed ++ more ∧
          more.total ≤ comment.countP endsName := by
  simp only [check_eq]
  cases feeds with
  | taken => exact .inl rfl
  | kept shared =>
    refine .inl ?_
    rw [shared, contribution_append, contribution_append, contribution_lineFeed]
  | @ended tokens front comment shared inside clear unended =>
    obtain ⟨more, added, bound⟩ := exists_contribution_append clear (creditAfter false tokens)
    have ended (credit : Bool) :
        contribution credit [.comment (String.ofList comment)] = empty := rfl
    refine .inr ⟨comment, inside, unended, by simp, more, ?_, bound⟩
    rw [shared, contribution_append, contribution_append, added, contribution_append,
      contribution_leftover, names_dropWhile, ended, append_empty, append_assoc]

theorem LastLine.of_fed {input : String} {fed : List Token} (feeds : Fed input.toList fed) :
    LastLine input (segments input.toList) fed := by
  have either := check_of_fed feeds
  have added : ∀ comment, EndsWithin input fed comment → ∃ more,
      check (segments input.toList) = check fed ++ more ∧
        more.total ≤ comment.toList.countP endsName := by
    intro comment ends
    rcases either with same | ⟨comment', -, -, last, more, added, bound⟩
    · exact ⟨empty, by rw [same, append_empty], Nat.zero_le _⟩
    · obtain ⟨rfl⟩ := Option.some.inj (ends.last.symm.trans last)
      rw [String.toList_ofList]
      exact ⟨more, added, bound⟩
  refine ⟨fun nowhere => ?_, added, fun comment ends plain => ?_⟩
  · rcases either with same | ⟨comment, inside, unended, last, -⟩
    · exact same
    · rw [← String.toList_ofList (l := comment)] at inside unended
      exact absurd ⟨inside, unended, last⟩ (nowhere _)
  · obtain ⟨more, split, bound⟩ := added comment ends
    have none : comment.toList.countP endsName = 0 := by
      refine List.countP_eq_zero.mpr fun char member => ?_
      rw [endsName_eq_false_iff.mpr (plain char member)]
      exact Bool.false_ne_true
    rw [none, Nat.le_zero] at bound
    rwa [eq_empty_of_total bound, append_empty] at split

/-- A line feed behind a text makes a difference only where the text ends within a line comment. -/
theorem check_lineFeed (input : String) :
    ∃ tokens fed, tokenize input = .ok tokens ∧ tokenize (input ++ "\n") = .ok fed ∧
      LastLine input tokens fed := by
  have feed : (input ++ "\n").toList = input.toList ++ ['\n'] := String.toList_append
  exact ⟨_, _, tokenize_eq input, tokenize_eq _, .of_fed (feed ▸ fed_segments input.toList)⟩

/-- The comment declares a function as long as no line break ends it. -/
theorem check_lineFeed_differs : ¬ ∀ input tokens fed, tokenize input = .ok tokens →
    tokenize (input ++ "\n") = .ok fed → check tokens = check fed := by
  intro same
  have code : segments "// public func f(".toList = [.text "// public func f("] :=
    segments_of_undelimited (by decide)
  have line : delimited? ("// public func f(" ++ "\n").toList =
      some (.comment "// public func f(", []) := by decide
  have ended : segments ("// public func f(" ++ "\n").toList = [.comment "// public func f("] := by
    rw [segments_of_delimited? line, segments_nil]
  have named : names "// public func f(" = ["f"] :=
    names_eq_iff.mpr (.passed (by decide) (.passed (by decide) (.passed (by decide)
      (.found (by decide) .nil))))
  have without : check [.text "// public func f("] = ⟨0, ["f"]⟩ := by
    rw [check_eq, contribution_text, named]
    rfl
  have verdict := same "// public func f(" _ _ (tokenize_eq _) (tokenize_eq _)
  rw [code, ended, without] at verdict
  cases verdict

end DocCoverage.Coverage
