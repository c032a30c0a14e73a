import DocCoverage.Proofs.Parser.Delimiter
import DocCoverage.Token.Written

/-!
# Readings of the token recognizers

What each recognizer does, by recursion on the characters that are left. A line comment runs up
to the nearest line break, a block comment up to where the open ones are all closed, and a string
literal up to the nearest quote that no backslash escapes.
-/

namespace DocCoverage.Token

/-- What was read, with more characters in front of it. -/
def behind (front : List Char) : Option (List Char × List Char) → Option (List Char × List Char) :=
  Option.map fun (run, rest) => (front ++ run, rest)

/-- What was read, made a token. -/
def made (kind : String → Token) : Option (List Char × List Char) → Option (Token × List Char) :=
  Option.map fun (run, rest) => (kind (String.ofList run), rest)

/-- A line break, which counts as a line feed whatever it is. -/
def lineBreak? : Reading Char Char
  | '\n' :: rest => some ('\n', rest)
  | '\r' :: '\n' :: rest => some ('\n', rest)
  | '\r' :: rest => some ('\n', rest)
  | _ => none

/-- Two slashes and what stands in front of the nearest line break. -/
def lineComment? : Reading Char (List Char)
  | '/' :: '/' :: rest => behind ['/', '/'] (lineBreak?.upTo rest)
  | _ => none

/-- What stands up to the place where `depth` open block comments are closed. -/
def closed? : Nat → Reading Char (List Char)
  | 0, input => some ([], input)
  | _ + 1, [] => none
  | depth + 1, '*' :: '/' :: rest => behind ['*', '/'] (closed? depth rest)
  | depth + 1, '/' :: '*' :: rest => behind ['/', '*'] (closed? (depth + 2) rest)
  | depth + 1, char :: rest => behind [char] (closed? (depth + 1) rest)

/-- A block comment with all that are nested inside. -/
def blockComment? : Reading Char (List Char)
  | '/' :: '*' :: rest => behind ['/', '*'] (closed? 1 rest)
  | _ => none

/-- What stands in front of the nearest quote that is not escaped. -/
def quotation? : Reading Char (List Char)
  | [] => none
  | '"' :: rest => some ([], rest)
  | '\\' :: '\\' :: rest => behind ['\\', '\\'] (quotation? rest)
  | '\\' :: '"' :: rest => behind ['\\', '"'] (quotation? rest)
  | char :: rest => behind [char] (quotation? rest)

/-- What stands between a quote and the nearest one that is not escaped. -/
def quoted? : Reading Char (List Char)
  | '"' :: rest => quotation? rest
  | _ => none

/-- A comment of either kind. -/
def anyComment? : Reading Char Token := fun input =>
  made comment ((lineComment? input).or (blockComment? input))

/-- A comment or a string literal. -/
def delimited? : Reading Char Token := fun input =>
  (anyComment? input).or (made stringLiteral (quoted? input))

/-- What stands in front of the nearest comment or string literal, which is not read. -/
def nearest? : Reading Char (List Char) :=
  Reading.upTo fun input => (delimited? input).map fun (token, _) => (token, input)

/-- The next token. -/
def next? : Reading Char Token := fun input =>
  let solid := input.dropWhile Text.isSpace
  (delimited? solid).or (made text (nearest? solid))

theorem map_snd_behind (front : List Char) (read : Option (List Char × List Char)) :
    (behind front read).map Prod.snd = read.map Prod.snd := by
  cases read <;> rfl

theorem behind_eq_some_iff {front run last : List Char}
    {read : Option (List Char × List Char)} :
    behind front read = some (run, last) ↔
      ∃ run', read = some (run', last) ∧ front ++ run' = run := by
  simp [behind, Option.map_eq_some_iff]

theorem behind_nil (read : Option (List Char × List Char)) : behind [] read = read := by
  cases read <;> rfl

theorem behind_behind (front more : List Char) (read : Option (List Char × List Char)) :
    behind front (behind more read) = behind (front ++ more) read := by
  cases read with
  | none => rfl
  | some found => exact congrArg (fun run => some (run, found.2)) (List.append_assoc ..).symm

theorem behind_eq_none_iff {front : List Char} {read : Option (List Char × List Char)} :
    behind front read = none ↔ read = none := Option.map_eq_none_iff

/-- What is read in the same way is read in the same way with more characters in front of it. -/
theorem behind_of_same {front run last last' : List Char}
    {read read' : Option (List Char × List Char)} (found : behind front read = some (run, last))
    (same : ∀ {run'}, read = some (run', last) → read' = some (run', last')) :
    behind front read' = some (run, last') := by
  obtain ⟨run', inner, rfl⟩ := behind_eq_some_iff.mp found
  exact behind_eq_some_iff.mpr ⟨run', same inner, rfl⟩

theorem ne_nil_of_behind {front run last : List Char} {read : Option (List Char × List Char)}
    (nonempty : front ≠ []) (found : behind front read = some (run, last)) : run ≠ [] := by
  obtain ⟨run', -, rfl⟩ := behind_eq_some_iff.mp found
  exact List.append_ne_nil_of_left_ne_nil nonempty run'

/-- What holds of all that was read holds with more characters in front of it. -/
theorem append_of_behind {front run last tail rest : List Char}
    {read : Option (List Char × List Char)} (found : behind front read = some (run, last))
    (later : ∀ {run'}, read = some (run', last) → run' ++ tail = rest) :
    run ++ tail = front ++ rest := by
  obtain ⟨run', read', rfl⟩ := behind_eq_some_iff.mp found
  rw [List.append_assoc, later read']

section Splitting

variable {input run last : List Char}

/-- Reading up to the place where all comments are closed splits the characters there. -/
theorem append_of_closed? {depth : Nat}
    (read : closed? depth input = some (run, last)) : run ++ last = input := by
  fun_induction closed? depth input generalizing run with
  | case1 input =>
    cases read
    rfl
  | case2 depth => cases read
  | case3 depth rest ih => exact append_of_behind read ih
  | case4 depth rest ih => exact append_of_behind read ih
  | case5 depth char rest noClose noOpen ih => exact append_of_behind read ih

/-- A quotation ends with a quote. -/
theorem append_of_quotation? (read : quotation? input = some (run, last)) :
    run ++ '"' :: last = input := by
  fun_induction quotation? input generalizing run with
  | case1 => cases read
  | case2 rest =>
    cases read
    rfl
  | case3 rest ih => exact append_of_behind read ih
  | case4 rest ih => exact append_of_behind read ih
  | case5 char rest noQuote noBackslash noEscape ih => exact append_of_behind read ih

/-- A line break is one of the three that end a line comment. A carriage return is one by itself
only if no line feed stands behind it. -/
theorem lineBreak?_eq_some_iff {char : Char} :
    lineBreak? input = some (char, last) ↔
      char = '\n' ∧ ∃ lineBreak ∈ lineBreaks,
        lineBreak ++ last = input ∧ (lineBreak = ['\r'] → ¬ ['\n'] <+: last) := by
  constructor
  · fun_cases lineBreak? input with
    | case1 rest =>
      rintro ⟨⟩
      exact ⟨rfl, ['\n'], by decide, rfl, (absurd · (by decide))⟩
    | case2 rest =>
      rintro ⟨⟩
      exact ⟨rfl, ['\r', '\n'], by decide, rfl, (absurd · (by decide))⟩
    | case3 rest single =>
      rintro ⟨⟩
      refine ⟨rfl, ['\r'], by decide, rfl, ?_⟩
      rintro - ⟨more, rfl⟩
      exact single more rfl
    | case4 => exact nofun
  · rintro ⟨rfl, lineBreak, member, rfl, single⟩
    simp only [lineBreaks, List.mem_cons, List.not_mem_nil, or_false] at member
    rcases member with rfl | rfl | rfl
    · rfl
    · rfl
    · rw [List.singleton_append, lineBreak?]
      rintro rest rfl
      exact single rfl ⟨rest, rfl⟩

theorem append_of_lineComment? (read : lineComment? input = some (run, last)) :
    ∃ lineBreak ∈ lineBreaks, run ++ (lineBreak ++ last) = input ∧ ['/', '/'] <+: run := by
  revert read
  fun_cases lineComment? input with
  | case1 rest =>
    intro read
    obtain ⟨run', read', rfl⟩ := behind_eq_some_iff.mp read
    obtain ⟨-, found, rfl, char, broken⟩ := Reading.upTo_eq_some_iff.mp read'
    obtain ⟨-, lineBreak, member, rfl, -⟩ := lineBreak?_eq_some_iff.mp broken
    exact ⟨lineBreak, member, rfl, run', rfl⟩
  | case2 => exact nofun

theorem append_of_blockComment? (read : blockComment? input = some (run, last)) :
    run ++ last = input ∧ ['/', '*'] <+: run := by
  revert read
  fun_cases blockComment? input with
  | case1 rest =>
    intro read
    refine ⟨append_of_behind read append_of_closed?, ?_⟩
    obtain ⟨run', -, rfl⟩ := behind_eq_some_iff.mp read
    exact ⟨run', rfl⟩
  | case2 => exact nofun

theorem append_of_quoted? (read : quoted? input = some (run, last)) :
    '"' :: (run ++ '"' :: last) = input := by
  revert read
  fun_cases quoted? input with
  | case1 rest =>
    intro read
    rw [append_of_quotation? read]
  | case2 => exact nofun

theorem made_eq_some_iff {kind : String → Token} {read : Option (List Char × List Char)}
    {token : Token} :
    made kind read = some (token, last) ↔
      ∃ run, read = some (run, last) ∧ kind (String.ofList run) = token := by
  simp [made, Option.map_eq_some_iff]

/-- A comment or string literal is written at the beginning of what it is read from. -/
theorem written_of_delimited? {token : Token} (read : delimited? input = some (token, last)) :
    ∃ raw, Written token raw ∧ raw ++ last = input ∧ token.isText = false := by
  rcases Option.or_eq_some_iff.mp read with commented | ⟨-, literal⟩
  · obtain ⟨run, read', rfl⟩ := made_eq_some_iff.mp commented
    rcases Option.or_eq_some_iff.mp read' with line | ⟨-, block⟩
    · obtain ⟨lineBreak, member, rfl, marked⟩ := append_of_lineComment? line
      rw [← String.toList_ofList (l := run)] at marked
      refine ⟨_, .lineComment marked member, ?_, rfl⟩
      rw [String.toList_ofList, List.append_assoc]
    · obtain ⟨rfl, marked⟩ := append_of_blockComment? block
      rw [← String.toList_ofList (l := run)] at marked
      refine ⟨_, .blockComment marked, ?_, rfl⟩
      rw [String.toList_ofList]
  · obtain ⟨run, read', rfl⟩ := made_eq_some_iff.mp literal
    obtain rfl := append_of_quoted? read'
    refine ⟨_, .stringLiteral, ?_, rfl⟩
    rw [String.toList_ofList, List.cons_append, List.append_assoc]
    rfl

/-- Apart from text, a written token begins with one of its marks, which are no spaces. -/
theorem Written.solid {token : Token} {raw : List Char} (written : Written token raw)
    (marked : token.isText = false) : raw ≠ [] ∧ Text.Solid raw := by
  cases written with
  | lineComment begins ends =>
    obtain ⟨body, shape⟩ := begins
    rw [← shape]
    exact ⟨nofun, Text.solid_cons_iff.mpr (by decide)⟩
  | blockComment begins =>
    obtain ⟨body, shape⟩ := begins
    rw [← shape]
    exact ⟨nofun, Text.solid_cons_iff.mpr (by decide)⟩
  | stringLiteral => exact ⟨nofun, Text.solid_cons_iff.mpr (by decide)⟩
  | text => cases marked

/-- Where a comment or string literal stands there is no space. -/
theorem solid_of_delimited? {token : Token} (read : delimited? input = some (token, last)) :
    Text.Solid input := by
  obtain ⟨raw, written, rfl, marked⟩ := written_of_delimited? read
  obtain ⟨nonempty, solid⟩ := written.solid marked
  exact (Text.solid_append_iff nonempty).mpr solid

end Splitting

section Recognizers

theorem reads_endOfLine : Parser.endOfLine.Reads lineBreak? := by
  refine (((Parser.reads_element '\n').orElse ((Parser.reads_literal ['\r', '\n']).map _)).orElse
    ((Parser.reads_element '\r').map _)).congr fun input => ?_
  fun_cases lineBreak? input with
  | case1 rest => rfl
  | case2 rest => simp [Reading.satisfy, Reading.literal]
  | case3 rest single =>
    rcases rest with _ | ⟨next, tail⟩ <;>
      simp_all [Reading.satisfy, Reading.literal, eq_comm (a := '\n')]
  | case4 input noFeed noReturn =>
    rcases input with _ | ⟨head, tail⟩ <;>
      simp_all [Reading.satisfy, Reading.literal, eq_comm (a := '\r')]

theorem reads_lineComment : lineComment.Reads fun input => made comment (lineComment? input) := by
  refine (((Parser.reads_literal ['/', '/']).both reads_endOfLine.any_manyTill).map _).congr
    fun input => ?_
  fun_cases lineComment? input with
  | case1 rest =>
    have found := Reading.literal_append ['/', '/'] rest
    rw [List.cons_append, List.singleton_append] at found
    simp only [found, made, behind, Option.bind_some, Option.map_map]
    rfl
  | case2 input noSlashes =>
    have absent : ¬ ['/', '/'] <+: input := fun ⟨rest, shape⟩ => noSlashes rest shape.symm
    simp only [Reading.literal_of_not_prefix absent, made, Option.bind_none, Option.map_none]

/-- The scan for the two markers ends where the open comments are closed. -/
theorem rest?_eq (depth : Nat) (input : List Char) :
    Delimiter.rest? ['/', '*'] ['*', '/'] depth input = (closed? depth input).map Prod.snd := by
  fun_induction closed? depth input with
  | case1 input => rw [Delimiter.rest?]; rfl
  | case2 depth => exact Delimiter.rest?_nil
  | case3 depth rest ih =>
    have closes : ['*', '/'] <+: '*' :: '/' :: rest := ⟨rest, rfl⟩
    rw [Nat.succ_eq_add_one, Delimiter.rest?_of_closing (fun _ => List.cons_ne_nil _ _) closes,
      map_snd_behind]
    exact ih
  | case4 depth rest ih =>
    have unclosed : ¬ ['*', '/'] <+: '/' :: '*' :: rest := by simp
    have opens : ['/', '*'] <+: '/' :: '*' :: rest := ⟨rest, rfl⟩
    rw [Nat.succ_eq_add_one, Delimiter.rest?_of_opening unclosed opens (by decide),
      map_snd_behind]
    exact ih
  | case5 depth char rest noClose noOpen ih =>
    have unmarked : Delimiter.Unmarked ['/', '*'] ['*', '/'] (char :: rest) := by
      constructor
      · rintro ⟨last, shape⟩
        obtain ⟨rfl, rfl⟩ := List.cons.inj shape
        exact noClose last rfl rfl
      · rintro ⟨last, shape⟩
        obtain ⟨rfl, rfl⟩ := List.cons.inj shape
        exact noOpen last rfl rfl
    rw [Nat.succ_eq_add_one, Delimiter.rest?_of_unmarked unmarked, map_snd_behind]
    exact ih

theorem region_eq (input : List Char) :
    Delimiter.region ['/', '*'] ['*', '/'] input = blockComment? input := by
  unfold Delimiter.region Delimiter.region?
  fun_cases blockComment? input with
  | case1 rest =>
    have opens : ['/', '*'] <+: '/' :: '*' :: rest := ⟨rest, rfl⟩
    rw [if_pos (List.isPrefixOf_iff_prefix.mpr opens)]
    change (Delimiter.rest? ['/', '*'] ['*', '/'] 1 rest).map _ = _
    rw [rest?_eq]
    cases read : closed? 1 rest with
    | none => rfl
    | some found =>
      obtain ⟨run, last⟩ := found
      obtain rfl := append_of_closed? read
      have shape : '/' :: '*' :: (run ++ last) = ('/' :: '*' :: run) ++ last := rfl
      simp only [Option.map_some, behind]
      rw [shape, List.length_append, Nat.add_sub_cancel, List.take_left]
      rfl
  | case2 input unopened =>
    have absent : ¬ ['/', '*'] <+: input := fun ⟨rest, shape⟩ => unopened rest shape.symm
    rw [if_neg (mt List.isPrefixOf_iff_prefix.mp absent), Option.map_none]

theorem reads_blockComment :
    blockComment.Reads fun input => made comment (blockComment? input) := by
  have nonempty : ['/', '*'] ≠ [] := by decide
  have ends : ['*', '/'] ≠ [] := by decide
  have reads := Delimiter.reads_balanced nonempty ends
  have mapped := reads.map fun run => comment (String.ofList run)
  rw [Parser.map_map] at mapped
  exact mapped.congr fun input => by rw [region_eq]; rfl

theorem reads_anyComment : anyComment.Reads anyComment? := by
  refine (reads_lineComment.orElse reads_blockComment).congr fun input => ?_
  unfold anyComment?
  cases lineComment? input <;> rfl

/-- One piece of a string literal. -/
def stringPiece? : Reading Char (List Char)
  | [] => none
  | '\\' :: '\\' :: rest => some (['\\', '\\'], rest)
  | '\\' :: '"' :: rest => some (['\\', '"'], rest)
  | char :: rest => some ([char], rest)

theorem reads_stringPiece : stringPiece.Reads stringPiece? := by
  unfold stringPiece
  rw [Parser.slice_any]
  refine (((Parser.reads_literal ['\\', '\\']).orElse (Parser.reads_literal ['\\', '"'])).orElse
    (Parser.reads_any.map _)).congr fun input => ?_
  fun_cases stringPiece? input with
  | case1 => rfl
  | case2 rest => simp [Reading.literal]
  | case3 rest => simp [Reading.literal]
  | case4 char rest noBackslash noQuote =>
    have absent : ¬ ['\\', '\\'] <+: char :: rest := by
      rintro ⟨last, shape⟩
      obtain ⟨rfl, rfl⟩ := List.cons.inj shape
      exact noBackslash last rfl rfl
    have absent' : ¬ ['\\', '"'] <+: char :: rest := by
      rintro ⟨last, shape⟩
      obtain ⟨rfl, rfl⟩ := List.cons.inj shape
      exact noQuote last rfl rfl
    rw [Reading.literal_of_not_prefix absent, Reading.literal_of_not_prefix absent']
    rfl

/-- The pieces up to a quote that is one of its own are what stands before it. -/
theorem quotation?_eq (input : List Char) :
    (stringPiece?.manyTill (Reading.satisfy fun found => found == '"') input).map
      (fun (pieces, rest) => (pieces.flatten, rest)) = quotation? input := by
  fun_induction quotation? input with
  | case1 => rw [Reading.manyTill_of_none rfl rfl]; rfl
  | case2 rest => rw [Reading.manyTill_of_end rfl]; rfl
  | case3 rest ih =>
    rw [Reading.manyTill_of_some rfl rfl (by simp only [List.length_cons]; omega), ← ih]
    simp only [behind, Option.map_map]
    rfl
  | case4 rest ih =>
    rw [Reading.manyTill_of_some rfl rfl (by simp only [List.length_cons]; omega), ← ih]
    simp only [behind, Option.map_map]
    rfl
  | case5 char rest noQuote noBackslash noEscape ih =>
    have unended : Reading.satisfy (fun found => found == '"') (char :: rest) = none := by
      simpa [Reading.satisfy] using noQuote
    have read : stringPiece? (char :: rest) = some ([char], rest) := by
      rw [stringPiece?]
      · exact noBackslash
      · exact noEscape
    rw [Reading.manyTill_of_some unended read (Nat.lt_succ_self _), ← ih]
    simp only [behind, Option.map_map]
    rfl

theorem reads_quoted : quoted.Reads fun input => made stringLiteral (quoted? input) := by
  refine (((Parser.reads_element '"').andThen
    (reads_stringPiece.manyTill (Parser.reads_element '"'))).map _).congr fun input => ?_
  fun_cases quoted? input with
  | case1 rest =>
    have read : Reading.satisfy (fun found => found == '"') ('"' :: rest) = some ('"', rest) := rfl
    rw [read, Option.bind_some, ← quotation?_eq, made, Option.map_map]
    rfl
  | case2 input unquoted =>
    have refused : Reading.satisfy (fun found => found == '"') input = none := by
      rcases input with _ | ⟨head, tail⟩
      · rfl
      · simpa [Reading.satisfy] using unquoted tail
    rw [refused]
    rfl

theorem reads_delimited : delimited.Reads delimited? :=
  reads_anyComment.orElse reads_quoted

theorem reads_plainText : plainText.Reads fun input => made text (nearest? input) :=
  reads_delimited.lookAhead.any_manyTill.map _

theorem reads_skipSpaces :
    Parser.skipSpaces.Reads fun input => some ((), input.dropWhile Text.isSpace) :=
  (Parser.reads_satisfy Text.isSpace).skipMany.congr fun input => by rw [Reading.many_satisfy]

theorem reads_anyToken : anyToken.Reads next? :=
  (reads_skipSpaces.andThen (reads_delimited.orElse reads_plainText)).congr fun _ => rfl

end Recognizers

end DocCoverage.Token
