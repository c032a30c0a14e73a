import Mathlib.Data.List.Chain
import DocCoverage.Proofs.Token.Segments

/-!
# Tokenizing undoes rendering

Tokens that are written one right behind the other are read back as they were, if no two texts
stand side by side. Each token ends where its own mark says, so that nothing has to be known of
what stands behind it; only a text ends where the next token begins.
-/

namespace DocCoverage.Token

section Escapes

variable {front before content more : List Char}

/-- Backslashes in front of a text only count if the text is nothing but backslashes. -/
theorem trailingEscapes_append (front before : List Char) :
    trailingEscapes (front ++ before) =
      if trailingEscapes before = before.length then before.length + trailingEscapes front
      else trailingEscapes before := by
  unfold trailingEscapes
  rw [List.reverse_append, List.takeWhile_append, List.length_reverse]
  split
  · rw [List.length_append, List.length_reverse]
  · rfl

/-- What ends with another character adds no backslashes. -/
theorem trailingEscapes_append_of_eq_zero (none : trailingEscapes front = 0)
    (before : List Char) : trailingEscapes (front ++ before) = trailingEscapes before := by
  rw [trailingEscapes_append, none]
  split
  · next all => exact all.symm
  · rfl

theorem trailingEscapes_singleton {char : Char} (unescaping : char ≠ '\\') :
    trailingEscapes [char] = 0 := by
  simp [trailingEscapes, unescaping]

/-- Two backslashes do not change whether the number behind them is odd. -/
theorem trailingEscapes_pair_mod (before : List Char) :
    trailingEscapes ('\\' :: '\\' :: before) % 2 = trailingEscapes before % 2 := by
  have two : trailingEscapes ['\\', '\\'] = 2 := by decide
  change trailingEscapes (['\\', '\\'] ++ before) % 2 = _
  rw [trailingEscapes_append, two]
  split <;> omega

/-- A backslash in front of another character is not at the end of any text. -/
theorem trailingEscapes_backslash_cons {next : Char} (unescaping : next ≠ '\\')
    (before : List Char) :
    trailingEscapes ('\\' :: next :: before) = trailingEscapes (next :: before) := by
  have none : trailingEscapes [next] = 0 := trailingEscapes_singleton unescaping
  have none' : trailingEscapes ['\\', next] = 0 := by simp [trailingEscapes, unescaping]
  have shorter := trailingEscapes_append_of_eq_zero none before
  have longer := trailingEscapes_append_of_eq_zero none' before
  exact longer.trans shorter.symm

/-- A text stays escaped without some characters in front of it that do not change whether the
number of backslashes behind them is odd. -/
theorem Escaped.of_append (front : List Char) (escaped : Escaped (front ++ content))
    (same : ∀ before, before ++ ['"'] <+: content ∨ before = content →
      trailingEscapes (front ++ before) % 2 = trailingEscapes before % 2) : Escaped content where
  quotes before after shape := by
    have quote : before ++ ['"'] <+: content := ⟨after, by rw [shape, List.append_assoc]; rfl⟩
    rw [← same before (.inl quote)]
    exact escaped.quotes (front ++ before) after (by rw [shape, List.append_assoc])
  ends := by
    rw [← same content (.inr rfl)]
    exact escaped.ends

/-- A backslash in front of a character that it does not escape counts for nothing. -/
theorem Escaped.of_backslash_cons {next : Char} (escaped : Escaped ('\\' :: next :: content))
    (noBackslash : next ≠ '\\') (noQuote : next ≠ '"') : Escaped (next :: content) := by
  refine escaped.of_append ['\\'] fun before place => ?_
  obtain ⟨before, rfl⟩ : ∃ tail, before = next :: tail := by
    rcases place with quote | rfl
    · cases before with
      | nil =>
        obtain ⟨rest, shape⟩ := quote
        exact absurd (List.cons.inj shape).1.symm noQuote
      | cons head before =>
        obtain ⟨rest, shape⟩ := quote
        exact ⟨before, by rw [(List.cons.inj shape).1]⟩
    · exact ⟨content, rfl⟩
  exact congrArg (· % 2) (trailingEscapes_backslash_cons noBackslash before)

/-- The quote behind an escaped text is the first one that is not escaped. -/
theorem quotation?_of_escaped (escaped : Escaped content) (more : List Char) :
    quotation? (content ++ '"' :: more) = some (content, more) := by
  fun_induction quotation? content with
  | case1 => rfl
  | case2 rest => exact absurd (escaped.quotes [] rest rfl) (by decide)
  | case3 rest ih =>
    have escaped' : Escaped rest := escaped.of_append ['\\', '\\'] fun before _ =>
      trailingEscapes_pair_mod before
    change behind ['\\', '\\'] (quotation? (rest ++ '"' :: more)) = _
    rw [ih escaped']
    rfl
  | case4 rest ih =>
    have none : trailingEscapes ['\\', '"'] = 0 := by decide
    have escaped' : Escaped rest := escaped.of_append ['\\', '"'] fun before _ => by
      rw [trailingEscapes_append_of_eq_zero none]
    change behind ['\\', '"'] (quotation? (rest ++ '"' :: more)) = _
    rw [ih escaped']
    rfl
  | case5 char rest noQuote noBackslash noEscape ih =>
    -- A single backslash is not the last character, which would escape the quote behind the text.
    have nonempty : char = '\\' → rest ≠ [] := by
      rintro rfl rfl
      exact absurd escaped.ends (by decide)
    have escaped' : Escaped rest := by
      by_cases backslash : char = '\\'
      · obtain ⟨next, rest, rfl⟩ := List.exists_cons_of_ne_nil (nonempty backslash)
        subst backslash
        refine escaped.of_backslash_cons ?_ ?_
        · rintro rfl
          exact noBackslash rest rfl rfl
        · rintro rfl
          exact noEscape rest rfl rfl
      · exact escaped.of_append [char] fun before _ => by
          rw [trailingEscapes_append_of_eq_zero (trailingEscapes_singleton backslash)]
    rw [List.cons_append, quotation?_cons noQuote, ih escaped']
    · rfl
    · exact fun backslash => not_singleton_prefix_append
        (not_prefix_of_ne_cons (noBackslash · backslash)) (absurd · (nonempty backslash))
    · exact fun backslash => not_singleton_prefix_append
        (not_prefix_of_ne_cons (noEscape · backslash)) (absurd · (nonempty backslash))

end Escapes

section Render

variable {token : Token} {tokens : List Token}

/-- Apart from text, a rendered token is read whatever stands behind it. -/
theorem delimited?_render (renderable : Renderable token) (marked : token.isText = false)
    (more : List Char) : delimited? (render token ++ more) = some (token, more) := by
  cases renderable with
  | @comment content whole =>
    rcases wholeComment_iff.mp whole with ⟨body, shape, unbroken⟩ | block
    · have broken : lineBreak?.upTo ('\n' :: more) = some ([], more) := rfl
      have rendered : render (.comment content) ++ more = '/' :: '/' :: (body ++ '\n' :: more) := by
        simp [render, shape]
      rw [rendered, delimited?_line, upTo_lineBreak?_append unbroken, broken]
      simp only [behind, made, Option.map_some, List.append_nil, List.cons_append, List.nil_append,
        ← shape, String.ofList_toList]
    · have rendered : render (.comment content) = content.toList := by
        obtain ⟨-, rest, shape⟩ := append_of_blockComment? block
        simp [render, ← shape]
      rw [rendered, delimited?_append_of_blockComment? block, String.ofList_toList]
      rfl
  | @stringLiteral content escaped =>
    have rendered : render (.stringLiteral content) ++ more =
        '"' :: (content.toList ++ '"' :: more) := by simp [render]
    rw [rendered, delimited?_quote, quotation?_of_escaped escaped]
    simp only [made, Option.map_some, String.ofList_toList]
  | text => cases marked

theorem segments_render (renderable : ∀ token ∈ tokens, Renderable token)
    (apart : tokens.IsChain fun first second => ¬ (first.isText = true ∧ second.isText = true)) :
    segments (tokens.flatMap render) = tokens := by
  induction tokens with
  | nil =>
    have none : next? [] = .none := by decide
    exact segments_of_none none
  | cons token tokens ih =>
    obtain ⟨here, later⟩ := List.forall_mem_cons.mp renderable
    obtain ⟨apart, apart'⟩ := List.isChain_cons.mp apart
    have others := ih later apart'
    rw [List.flatMap_cons]
    cases marked : token.isText with
    | false => rw [segments_of_delimited? (delimited?_render here marked _), others]
    | true =>
      cases here with
      | comment => cases marked
      | stringLiteral => cases marked
      | @text content nonempty solid calm =>
        have written : content.toList ≠ [] := by rwa [ne_eq, String.toList_eq_nil_iff]
        -- The text ends where the next token begins, which is no text.
        have ends : tokens.flatMap render = [] ∨ delimited? (tokens.flatMap render) ≠ none := by
          cases tokens with
          | nil => exact .inl rfl
          | cons next tokens =>
            have marked : next.isText = false :=
              Bool.eq_false_iff.mpr fun plain => apart next rfl ⟨rfl, plain⟩
            rw [List.flatMap_cons, delimited?_render (later next (List.mem_cons_self ..)) marked]
            exact .inr (Option.some_ne_none _)
        change segments (content.toList ++ tokens.flatMap render) = _
        rw [segments_append_of_solid written solid
          (fun _ below => calm.delimited?_drop _ below) ends, others, String.ofList_toList]

/-- Tokenizing what tokens are rendered as gives the same tokens again. -/
theorem tokenize_render (tokens : List Token) (renderable : ∀ token ∈ tokens, Renderable token)
    (apart : tokens.IsChain fun first second => ¬ (first.isText = true ∧ second.isText = true)) :
    tokenize (String.ofList (tokens.flatMap render)) = .ok tokens := by
  rw [tokenize_eq, String.toList_ofList, segments_render renderable apart]

/-- Marks inside of tokens do not end them, and tokens do not run into each other. -/
theorem tokenize_render_marks :
    tokenize "x = /* \" /* // */ */\"// \\\\\\\"\"// /* \"\ny" =
      .ok [.text "x = ", .comment "/* \" /* // */ */", .stringLiteral "// \\\\\\\"",
        .comment "// /* \"", .text "y"] := by
  have first : Renderable (.text "x = ") := .text (by decide) (by decide) (by decide)
  have block : Renderable (.comment "/* \" /* // */ */") :=
    .comment (wholeComment_iff.mpr (.inr (by decide)))
  have quoted : Renderable (.stringLiteral "// \\\\\\\"") := .stringLiteral (by decide)
  have line : Renderable (.comment "// /* \"") := .comment (.line (by decide))
  have last : Renderable (.text "y") := .text (by decide) (by decide) (by decide)
  have tokenized := tokenize_render [.text "x = ", .comment "/* \" /* // */ */",
    .stringLiteral "// \\\\\\\"", .comment "// /* \"", .text "y"]
    (by simp [first, block, quoted, line, last]) (by simp [isText])
  exact tokenized

end Render

end DocCoverage.Token
