import DocCoverage.Proofs.Coverage.Attribution
import DocCoverage.Proofs.Token.Insertion
import DocCoverage.Proofs.Token.Segmentation

/-!
# Documenting a function

A reported function is fixed by a documentation comment in front of it: one more function is
documented, and the report loses this one entry and no other.
-/

namespace DocCoverage.Coverage

open Declaration Token

/-- The text with a documentation comment on a line of its own at a place. -/
def document (input : String) (place : Nat) : String :=
  String.ofList (input.toList.take place ++ "\n/// d\n".toList ++ input.toList.drop place)

/-- A text can be split in front of a declaration that is reported: the two halves declare what
the whole declares, and a documentation comment in front of the text, if there is one, documents a
function of the first half. -/
structure Reported (before : List Token) (first second : String) : Prop where
  word : "public".toList <+: second.toList
  names_append : names (first ++ second) = names first ++ names second
  some : names second ≠ []
  uncredited : (∀ token ∈ before.getLast?, token.isDoc = false) ∨ names first ≠ []

variable {input first second : String} {front text : List Char} {tokens : List Token}

/-- A comment can be inserted in front of a declaration in a text that ends with a line feed. -/
theorem insertable_of_declaration (word : "public".toList <+: text)
    (ended : ['\n'] <:+ front ++ text) : Insertable text := by
  have someText : 1 ≤ text.length := Nat.le_trans (by decide) word.length_le
  have inText := List.suffix_of_suffix_length_le ended (List.suffix_append front text) someText
  have lines : '\n' ∈ text := inText.subset (List.mem_singleton_self _)
  have letters : "public".toList = ['p', 'u', 'b', 'l', 'i', 'c'] := rfl
  obtain ⟨more, rfl⟩ := word
  rw [letters] at lines ⊢
  exact ⟨Text.solid_cons_iff.mpr (by decide), by simp, by simp, by simp, by simp, lines⟩

/-- The credit of a comment in front of the text is spent on its first half. -/
theorem Reported.settled (reported : Reported tokens first second) :
    creditAfter false tokens = true → names first ≠ [] := by
  intro credited
  rcases reported.uncredited with plain | some
  · unfold creditAfter at credited
    cases before : tokens.getLast? with
    | none =>
      rw [before] at credited
      cases credited
    | some token =>
      have undocumented := plain token before
      rw [before, Option.map_some, Option.getD_some, undocumented] at credited
      cases credited
  · exact some

/-- What the checker makes of a text whose second half is reported, and what it makes of the same
text with a documentation comment between the halves. -/
theorem check_halves {name : String} {later : List String}
    (others : List Token) (reported : Reported tokens first second)
    (named : names second = name :: later)
    (same : names (String.ofList front) = names first) :
    check (tokens ++ .text (first ++ second) :: others) =
        check (tokens ++ [.text first]) ++ (⟨0, name :: later⟩ ++ contribution false others) ∧
      check (tokens ++ (leftover front ++ .comment "/// d" :: .text second :: others)) =
        check (tokens ++ [.text first]) ++ (⟨1, later⟩ ++ contribution false others) := by
  have doc : (Token.comment "/// d").isDoc = true := by decide
  have nothing : contribution false [] = empty := rfl
  constructor
  · simp only [check_eq, contribution_append, contribution_text, reported.names_append, named,
      append_assoc, nothing, empty_append, add_append reported.settled]
  · simp only [check_eq, contribution_append, contribution_text, contribution_comment,
      contribution_leftover, named, same, append_assoc, doc, nothing, empty_append]
    rfl

section Document

variable {pieces before after : List (Token × Span Char)} {span : Span Char}

/-- With the comment inserted, the tokens are the same ones up to the text and behind it. The text
is in two halves, of which the first one is no token of its own if it is only spaces. -/
theorem tokenize_document (word : "public".toList <+: second.toList)
    (ended : ['\n'] <:+ input.toList)
    (segmented : Segmented (Cursor.start input.toList.toArray)
      (before ++ (.text (first ++ second), span) :: after)) :
    ∃ half, names (String.ofList half) = names first ∧
      tokenize (document input (span.start + first.length)) =
        .ok (before.map Prod.fst ++
          (leftover half ++ .comment "/// d" :: .text second :: after.map Prod.fst)) := by
  obtain ⟨front, gap, rest, shape, leads, spaces, start, undelimited, ends, others⟩ :=
    segmented.exists_text
  -- The comment is inserted behind the gap and the first half.
  have halves : gap ++ ((first ++ second).toList ++ rest) =
      gap ++ first.toList ++ (second.toList ++ rest) := by
    simp only [String.toList_append, List.append_assoc]
  have bound : (gap ++ (first ++ second).toList).length =
      (gap ++ first.toList).length + second.toList.length := by
    rw [String.toList_append, ← List.append_assoc, List.length_append]
  rw [halves] at shape leads undelimited
  rw [← List.append_assoc] at shape
  rw [bound] at undelimited
  have position : span.start + first.length = (front ++ (gap ++ first.toList)).length := by
    rw [start, ← String.length_toList, ← List.length_append, List.append_assoc]
  have insertable : Insertable (second.toList ++ rest) :=
    insertable_of_declaration (word.trans (List.prefix_append ..)) (shape ▸ ended)
  have nonempty : second.toList ≠ [] := by
    intro empty
    rw [empty] at word
    exact absurd word (by decide)
  have undelimited' : ∀ count ≤ (gap ++ first.toList).length,
      delimited? ((gap ++ first.toList ++ (second.toList ++ rest)).drop count) = none := by
    intro count within
    have positive := List.length_pos_iff.mpr nonempty
    exact undelimited count (by omega)
  rw [shape] at leads
  obtain ⟨gap', spaces', inserted⟩ := segments_insert insertable leads undelimited'
  have secondHalf : segments (second.toList ++ rest) = .text second :: after.map Prod.fst := by
    have solid := (Text.solid_append_iff nonempty).mp insertable.solid
    rw [segments_append_of_solid nonempty solid (fun count below => ?_) ends, others,
      String.ofList_toList]
    have here := undelimited ((gap ++ first.toList).length + count) (Nat.add_lt_add_left below _)
    rwa [← List.drop_drop, List.drop_left] at here
  have line : "\n/// d\n".toList = '\n' :: docLine := rfl
  refine ⟨(gap ++ first.toList ++ gap').dropWhile Text.isSpace, ?_, ?_⟩
  · rw [names_dropWhile, names_append_spaces spaces', names_spaces_append spaces,
      String.ofList_toList]
  · rw [tokenize_eq, document, String.toList_ofList, shape, position, List.take_left,
      List.drop_left, line, List.append_assoc, inserted, secondHalf]

/-- A comment in front of a reported function documents it, and changes nothing else. -/
theorem check_document (ended : ['\n'] <:+ input.toList)
    (segmented : Segmented (Cursor.start input.toList.toArray) pieces)
    (here : pieces = before ++ (.text (first ++ second), span) :: after)
    (reported : Reported (before.map Prod.fst) first second) :
    tokenize input = .ok (pieces.map Prod.fst) ∧
    ∃ edited name later,
      tokenize (document input (span.start + first.length)) = .ok edited ∧
      (names second).head? = some name ∧
      (check edited).documented = (check (pieces.map Prod.fst)).documented + 1 ∧
      (check (pieces.map Prod.fst)).undocumented =
        (check (before.map Prod.fst ++ [.text first])).undocumented ++ name :: later ∧
      (check edited).undocumented =
        (check (before.map Prod.fst ++ [.text first])).undocumented ++ later := by
  subst here
  have begin : (Cursor.start input.toList.toArray).rest = input.toList := Cursor.rest_start _
  obtain ⟨half, same, edited⟩ := tokenize_document reported.word ended segmented
  obtain ⟨name, later, named⟩ := List.exists_cons_of_ne_nil reported.some
  obtain ⟨old, new⟩ := check_halves (after.map Prod.fst) reported named same
  rw [List.map_append, List.map_cons, old]
  refine ⟨?_, _, name, later ++ (contribution false (after.map Prod.fst)).undocumented, edited,
    ?_, ?_, rfl, ?_⟩
  · rw [tokenize_eq, ← begin, ← segmented.tokens_eq, List.map_append, List.map_cons]
  · rw [named, List.head?_cons]
  · rw [new]
    simp only [documented_append]
    omega
  · rw [new, undocumented_append, undocumented_append]

/-- A comment and a string literal in front that are not finished stay so, and the carriage return
that ends the comment right in front takes in the line feed that is inserted. -/
theorem check_document_behind_return :
    ∃ edited,
      tokenize (document "\"/* //\rpublic func b(public func c(\n" 7) = .ok edited ∧
      check edited = ⟨1, ["c"]⟩ := by
  have begin : (Cursor.start "\"/* //\rpublic func b(public func c(\n".toList.toArray).rest =
      "\"/* //\rpublic func b(public func c(\n".toList := Cursor.rest_start _
  have opening : next? "\"/* //\rpublic func b(public func c(\n".toList =
      some (Token.text "\"/* ", "//\rpublic func b(public func c(\n".toList) := by decide
  have line : next? "//\rpublic func b(public func c(\n".toList =
      some (Token.comment "//", "public func b(public func c(\n".toList) := by decide
  have last : next? "public func b(public func c(\n".toList = none := by decide
  obtain ⟨span, place, reaches, rest, further⟩ :=
    exists_piece ((congrArg next? begin).trans opening)
  obtain ⟨span', place', reaches', rest', further'⟩ :=
    exists_piece ((congrArg next? rest).trans line)
  have leftover := segmented_leftover ((congrArg next? rest').trans last) (rest' ▸ by decide)
  rw [rest', String.ofList_toList] at leftover
  have position : place'.position = 7 := by
    have whole := (reaches.trans reaches').position_add_length
    rw [begin, rest'] at whole
    have size : "\"/* //\rpublic func b(public func c(\n".toList.length = 36 := by decide
    have size' : "public func b(public func c(\n".toList.length = 29 := by decide
    have origin : (Cursor.start "\"/* //\rpublic func b(public func c(\n".toList.toArray).position =
      0 := rfl
    omega
  have unnamed : names "\"/* " = [] := names_of_unmatched (by decide)
  have nameless : names "" = [] := names_of_unmatched (by decide)
  have named : names "public func b(public func c(\n" = ["b", "c"] := by
    have first : match? "public func b(public func c(\n".toList =
        some (['b'], "public func c(\n".toList) := by decide
    have second : match? "public func c(\n".toList = some (['c'], "\n".toList) := by decide
    have none : names "\n" = [] := names_of_unmatched (by decide)
    rw [names_of_match? first, String.ofList_toList, names_of_match? second, String.ofList_toList,
      none]
  have reported : Reported [.text "\"/* ", .comment "//"] "" "public func b(public func c(\n" :=
    ⟨by decide, by rw [nameless]; rfl, by rw [named]; decide, .inl (by decide)⟩
  have old : check [.text "\"/* ", .comment "//", .text "public func b(public func c(\n"] =
      ⟨0, ["b", "c"]⟩ := by
    rw [check_eq, contribution_text, contribution_comment, contribution_text, unnamed, named]
    rfl
  have earlier : check [.text "\"/* ", .comment "//", .text ""] = ⟨0, []⟩ := by
    rw [check_eq, contribution_text, contribution_comment, contribution_text, unnamed, nameless]
    rfl
  obtain ⟨-, edited, name, later, tokenized, -, documented, before, after⟩ :=
    check_document (by decide) (further _ (further' _ leftover))
      (rfl : _ = [(Token.text "\"/* ", span), (Token.comment "//", span')] ++
        (.text ("" ++ "public func b(public func c(\n"), _) :: []) reported
  have one : (check edited).documented = 1 := documented.trans (congrArg (·.documented + 1) old)
  have both : ["b", "c"] = name :: later :=
    (congrArg undocumented old).symm.trans (before.trans
      (congrArg (·.undocumented ++ name :: later) earlier))
  have fewer : (check edited).undocumented = later :=
    after.trans (congrArg (·.undocumented ++ later) earlier)
  obtain ⟨rfl, rfl⟩ := List.cons.inj both
  exact ⟨edited, position ▸ tokenized, Coverage.ext one fewer⟩

end Document

end DocCoverage.Coverage
