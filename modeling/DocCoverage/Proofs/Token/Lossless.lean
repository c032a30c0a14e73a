import DocCoverage.Proofs.Token.Segmentation

/-!
# Tokenizing loses nothing

The tokens of a text, each written in one of its ways and with the spaces in front of it, are the
text again. Only the last token can be a text that begins with spaces, and texts never stand side
by side, so that each text reaches as far as it can.
-/

namespace DocCoverage.Token

variable {input rest : List Char} {token : Token}

theorem Written.text_ofList {run : List Char} : Written (.text (String.ofList run)) run := by
  have written : Written (.text (String.ofList run)) (String.ofList run).toList := .text
  rwa [String.toList_ofList] at written

theorem text_ofList_ne {run : List Char} (nonempty : run ≠ []) :
    Token.text (String.ofList run) ≠ .text "" := by
  intro same
  have empty := congrArg String.toList (Token.text.inj same)
  rw [String.toList_ofList] at empty
  exact nonempty empty

/-- The next token is a part of the text, and not one that begins with a space. -/
theorem exists_part (read : next? input = some (token, rest)) :
    ∃ part : Part, part.token = token ∧ part.whole ++ rest = input ∧ part.Faithful ∧
      Text.Solid part.raw := by
  have split := List.takeWhile_append_dropWhile (p := Text.isSpace) (l := input)
  have spaces := Text.spaces_takeWhile input
  rcases next?_eq_some_iff.mp read with here | ⟨undelimited, run, near, rfl⟩
  · obtain ⟨raw, written, shape, marked⟩ := written_of_delimited? here
    refine ⟨⟨input.takeWhile Text.isSpace, token, raw⟩, rfl, ?_, ⟨spaces, written, ?_⟩,
      (written.solid marked).2⟩
    · rw [Part.whole, List.append_assoc, shape, split]
    · rintro rfl
      cases marked
  · have nonempty := ne_nil_of_nearest? undelimited near
    have shape := (nearest?_eq_some_iff.mp near).1
    have solid := Text.solid_dropWhile input
    rw [shape, Text.solid_append_iff nonempty] at solid
    refine ⟨⟨input.takeWhile Text.isSpace, .text (String.ofList run), run⟩, rfl, ?_,
      ⟨spaces, .text_ofList, text_ofList_ne nonempty⟩, solid⟩
    rw [Part.whole, List.append_assoc, ← shape, split]

/-- Behind a text stands a comment or a string literal. -/
theorem not_isText_of_next? {tokens : List Token} {next : Token}
    (read : next? input = some (token, rest)) (plain : token.isText = true)
    (first : segments rest = next :: tokens) : next.isText = false := by
  rcases next?_eq_some_iff.mp read with here | ⟨-, run, near, rfl⟩
  · obtain ⟨raw, -, -, marked⟩ := written_of_delimited? here
    rw [marked] at plain
    cases plain
  · obtain ⟨⟨found, last⟩, here⟩ := Option.ne_none_iff_exists'.mp (nearest?_eq_some_iff.mp near).2.1
    obtain ⟨raw, -, -, marked⟩ := written_of_delimited? here
    rw [segments_of_delimited? here] at first
    cases first
    exact marked

/-- The next token in front of the parts of what is left behind it. -/
theorem Decomposes.cons {part : Part} {parts : List Part}
    (read : next? input = some (part.token, rest)) (shape : part.whole ++ rest = input)
    (faithful : part.Faithful) (solid : Text.Solid part.raw)
    (tokens : parts.map Part.token = segments rest) (others : Decomposes parts rest) :
    Decomposes (part :: parts) input where
  whole := by rw [List.flatMap_cons, others.whole, shape]
  faithful := by
    intro found member
    rcases List.mem_cons.mp member with rfl | member
    · exact faithful
    · exact others.faithful found member
  apart := by
    intro before first second after same
    cases before with
    | nil =>
      obtain ⟨rfl, rfl⟩ := List.cons.inj same
      rintro ⟨plain, plain'⟩
      have marked := not_isText_of_next? read plain tokens.symm
      rw [marked] at plain'
      cases plain'
    | cons head before => exact others.apart before first second after (List.cons.inj same).2
  solid := by
    intro before found after same indented
    cases before with
    | nil =>
      obtain ⟨rfl, rfl⟩ := List.cons.inj same
      exact absurd solid indented
    | cons head before => exact others.solid before found after (List.cons.inj same).2 indented

/-- What is left over is one text, with the spaces that it may begin with. -/
theorem Decomposes.leftover (nonempty : input ≠ []) :
    Decomposes [⟨[], .text (String.ofList input), input⟩] input where
  whole := by simp [Part.whole]
  faithful := by
    intro part member
    obtain rfl := List.mem_singleton.mp member
    exact ⟨nofun, .text_ofList, text_ofList_ne nonempty⟩
  apart := by
    intro before first second after same
    have count := congrArg List.length same
    simp only [List.length_append, List.length_cons, List.length_nil] at count
    omega
  solid := by
    intro before part after same _
    obtain ⟨rfl, same⟩ | ⟨rest, rfl, same⟩ := List.cons_eq_append_iff.mp same
    · obtain ⟨rfl, rfl⟩ := List.cons.inj same
      exact ⟨rfl, rfl, rfl⟩
    · have count := congrArg List.length same
      simp only [List.length_append, List.length_cons, List.length_nil] at count
      omega

/-- Every text is made up of its segments. -/
theorem exists_decomposition (input : List Char) :
    ∃ parts, parts.map Part.token = segments input ∧ Decomposes parts input := by
  induction measured : input.length using Nat.strongRecOn generalizing input with
  | _ length ih =>
    subst measured
    cases read : next? input with
    | none =>
      rw [segments_of_none read]
      by_cases empty : input = []
      · subst empty
        exact ⟨[], rfl, rfl, nofun, by simp, by simp⟩
      · exact ⟨_, by rw [Token.leftover, if_neg empty]; rfl, .leftover empty⟩
    | some found =>
      obtain ⟨token, rest⟩ := found
      obtain ⟨part, rfl, shape, faithful, solid⟩ := exists_part read
      obtain ⟨parts, tokens, others⟩ := ih rest.length (length_lt_of_next? read) rest rfl
      exact ⟨part :: parts, by rw [segments_of_next? read, ← tokens]; rfl,
        .cons read shape faithful solid tokens others⟩

/-- Tokenizing loses nothing and doubles nothing. -/
theorem tokenize_decomposes (input : String) :
    ∃ parts : List Part, tokenize input = .ok (parts.map Part.token) ∧
      Decomposes parts input.toList := by
  obtain ⟨parts, tokens, decomposes⟩ := exists_decomposition input.toList
  exact ⟨parts, by rw [tokenize_eq, tokens], decomposes⟩

end DocCoverage.Token
