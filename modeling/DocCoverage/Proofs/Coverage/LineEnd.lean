import DocCoverage.Proofs.Coverage.Attribution
import DocCoverage.Proofs.Token.LineEnd

/-!
# Coverage does not depend on the line ends

The words of a declaration are followed by spaces, and both characters of a line end are spaces; the
name goes on over them. So the same places of a text declare functions whichever way its lines end,
and the names are the same but for the line ends in them.
-/

namespace DocCoverage

open Text (crlf crlfOf crlf_feed crlf_cons)
open Token (carry)

namespace Declaration

variable {text word : List Char} {found : List String}

theorem afterWord?_append (word : List Char) (char : Char) (rest : List Char) :
    afterWord? word (word ++ char :: rest) =
      if Text.isSpace char then some (rest.dropWhile Text.isSpace) else none := by
  unfold afterWord?
  rw [List.drop_left]
  simp [List.isPrefixOf_iff_prefix]

theorem prefix_of_afterWord? {rest : List Char} (read : afterWord? word text = some rest) :
    word <+: text := by
  obtain ⟨gap, shape, -⟩ := afterWord?_eq_some_iff.mp read
  exact ⟨_, shape.symm⟩

/-- A line end behind a word is one space more. -/
theorem afterWord?_crlf (noFeed : '\n' ∉ word) (noReturn : '\r' ∉ word) (text : List Char) :
    afterWord? word (crlf text) = (afterWord? word text).map crlf := by
  by_cases begins : word <+: text
  · obtain ⟨tail, rfl⟩ := begins
    rw [Text.crlf_append, Text.crlf_of_not_mem noFeed]
    cases tail with
    | nil => simp [afterWord?]
    | cons char rest =>
      rw [afterWord?_append]
      by_cases feed : char = '\n'
      · rw [feed, crlf_feed, afterWord?_append, if_pos (by decide), if_pos (by decide),
          List.dropWhile_cons_of_pos (by decide), Text.dropWhile_crlf, Option.map_some]
      · rw [crlf_cons feed, afterWord?_append, Text.dropWhile_crlf]
        split <;> rfl
  · have refused : afterWord? word text = none :=
      Option.eq_none_iff_forall_ne_some.mpr fun _ read => begins (prefix_of_afterWord? read)
    rw [refused]
    refine Option.eq_none_iff_forall_ne_some.mpr fun _ read => begins ?_
    exact (Text.prefix_crlf_iff noFeed noReturn).mp (prefix_of_afterWord? read)

/-- No line end is a character that ends a name. -/
theorem satisfy_endsName_crlf (text : List Char) :
    Reading.satisfy endsName (crlf text) = carry id (Reading.satisfy endsName text) := by
  cases text with
  | nil => rfl
  | cons char rest =>
    by_cases feed : char = '\n'
    · rw [feed]
      rfl
    · rw [crlf_cons feed, Reading.satisfy, Reading.satisfy]
      split <;> rfl

/-- Declarations stand at the same places as before. -/
theorem match?_crlf (text : List Char) : match? (crlf text) = carry crlf (match? text) := by
  have upTo_crlf (named : List Char) : (Reading.satisfy endsName).upTo (crlf named) =
      carry crlf ((Reading.satisfy endsName).upTo named) :=
    Token.upTo_crlf id (fun text _ => satisfy_endsName_crlf text) (fun _ => rfl) fun _ => rfl
  rw [match?_eq, match?_eq, afterWord?_crlf (by decide) (by decide)]
  cases afterWord? "public".toList text with
  | none => rfl
  | some declared =>
    rw [Option.map_some, Option.bind_some, Option.bind_some,
      afterWord?_crlf (by decide) (by decide)]
    cases afterWord? "func".toList declared with
    | none => rfl
    | some named => exact upTo_crlf named

theorem Leftmost.crlf (leftmost : Leftmost text found) :
    Leftmost (Text.crlf text) (found.map crlfOf) := by
  induction leftmost with
  | nil => exact .nil
  | @found text name rest names matched others ih =>
    have matched' := match?_crlf text
    rw [matched] at matched'
    rw [List.map_cons, Text.crlfOf_ofList]
    exact .found matched' ih
  | @passed char text names unmatched others ih =>
    by_cases feed : char = '\n'
    · -- nothing is declared from inside of a line end either
      rw [feed, crlf_feed]
      exact .passed (match?_of_space (by decide)) (.passed (match?_of_space (by decide)) ih)
    · have unmatched' := match?_crlf (char :: text)
      rw [unmatched, crlf_cons feed] at unmatched'
      rw [crlf_cons feed]
      exact .passed unmatched' ih

/-- The functions are the same, with other line ends in their names. -/
theorem names_crlf (text : String) : names (crlfOf text) = (names text).map crlfOf := by
  rw [names_eq_iff, Text.toList_crlfOf]
  exact (names_eq_iff.mp rfl).crlf

end Declaration

namespace Coverage

/-- The same functions with other line ends in their names. -/
def crlf (coverage : Coverage) : Coverage :=
  ⟨coverage.documented, coverage.undocumented.map crlfOf⟩

theorem crlf_append (first second : Coverage) :
    (first ++ second).crlf = first.crlf ++ second.crlf := by
  ext1
  · rfl
  · exact List.map_append

theorem add_crlf (credit : Bool) (names : List String) :
    empty.add credit (names.map crlfOf) = (empty.add credit names).crlf := by
  cases names with
  | nil => rfl
  | cons name names => cases credit <;> rfl

/-- The marks of a documentation comment have no part in a line end. -/
theorem isDoc_crlf (token : Token) : token.crlf.isDoc = token.isDoc := by
  cases token with
  | comment content =>
    have marks {word : List Char} (noFeed : '\n' ∉ word) (noReturn : '\r' ∉ word) :
        word.isPrefixOf (crlfOf content).toList = word.isPrefixOf content.toList := by
      rw [Bool.eq_iff_iff, List.isPrefixOf_iff_prefix, List.isPrefixOf_iff_prefix,
        Text.toList_crlfOf, Text.prefix_crlf_iff noFeed noReturn]
    simp only [Token.crlf, Token.isDoc]
    rw [marks (by decide) (by decide), marks (by decide) (by decide)]
  | stringLiteral => rfl
  | text => rfl

theorem contribution_crlf (credit : Bool) (tokens : List Token) :
    contribution credit (tokens.map Token.crlf) = (contribution credit tokens).crlf := by
  induction tokens generalizing credit with
  | nil => rfl
  | cons token tokens ih =>
    have same : own credit token.crlf = (own credit token).crlf := by
      cases token with
      | text content => exact (congrArg _ (Declaration.names_crlf content)).trans (add_crlf ..)
      | comment | stringLiteral => rfl
    rw [List.map_cons, contribution, contribution, same, isDoc_crlf, ih, crlf_append]

/-- A source without carriage returns is covered as it is when its lines end with a carriage return
and a line feed: its tokens are the same, with those line ends in them, as many functions are
documented, and the same ones are not. -/
theorem check_crlf (input : String) (noReturn : '\r' ∉ input.toList) :
    ∃ tokens, Token.tokenize input = .ok tokens ∧
      Token.tokenize (crlfOf input) = .ok (tokens.map Token.crlf) ∧
      (check (tokens.map Token.crlf)).documented = (check tokens).documented ∧
      (check (tokens.map Token.crlf)).undocumented = (check tokens).undocumented.map crlfOf := by
  have same : check ((Token.segments input.toList).map Token.crlf) =
      (check (Token.segments input.toList)).crlf := by
    rw [check_eq, check_eq, contribution_crlf]
  refine ⟨Token.segments input.toList, Token.tokenize_eq input, ?_, ?_, ?_⟩
  · rw [Token.tokenize_eq, Text.toList_crlfOf, Token.segments_crlf noReturn]
  · rw [same]
    rfl
  · rw [same]
    rfl

/-- Line ends inside of a name and of a string literal become longer, and the comment in front still
documents the first of the functions. What stands behind the string literal is left over, with a
comment that is not finished. -/
theorem check_crlf_within_name :
    Token.tokenize (crlfOf "/// d\npublic\nfunc a(\"\n\"public func b\nc(/* \n") =
        .ok [.comment "/// d", .text "public\r\nfunc a(", .stringLiteral "\r\n",
          .text "public func b\r\nc(/* \r\n"] ∧
      check [.comment "/// d", .text "public\r\nfunc a(", .stringLiteral "\r\n",
        .text "public func b\r\nc(/* \r\n"] = ⟨1, ["b\r\nc"]⟩ := by
  have split : Token.segments "/// d\npublic\nfunc a(\"\n\"public func b\nc(/* \n".toList =
      [.comment "/// d", .text "public\nfunc a(", .stringLiteral "\n",
        .text "public func b\nc(/* \n"] := by cbv
  have first : Declaration.names "public\nfunc a(" = ["a"] := by
    have matched : Declaration.match? "public\nfunc a(".toList = some (['a'], []) := by decide
    rw [Declaration.names_of_match? matched, Declaration.names_of_unmatched (by decide)]
  have second : Declaration.names "public func b\nc(/* \n" = ["b\nc"] := by
    have matched : Declaration.match? "public func b\nc(/* \n".toList =
        some ("b\nc".toList, "/* \n".toList) := by decide
    rw [Declaration.names_of_match? matched, Declaration.names_of_unmatched (by decide),
      String.ofList_toList]
  have covered : check [.comment "/// d", .text "public\nfunc a(", .stringLiteral "\n",
      .text "public func b\nc(/* \n"] = ⟨1, ["b\nc"]⟩ := by
    rw [check_eq]
    simp only [contribution, own, first, second]
    rfl
  obtain ⟨tokens, tokenized, other, documented, undocumented⟩ :=
    check_crlf "/// d\npublic\nfunc a(\"\n\"public func b\nc(/* \n" (by decide)
  obtain rfl := Except.ok.inj (tokenized.symm.trans (Token.tokenize_eq _))
  rw [split] at other documented undocumented
  rw [covered] at documented undocumented
  exact ⟨other, Coverage.ext documented undocumented⟩

end Coverage

end DocCoverage
