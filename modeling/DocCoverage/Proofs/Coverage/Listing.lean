import DocCoverage.Coverage.Listing
import DocCoverage.Proofs.Coverage.Attribution
import DocCoverage.Proofs.Coverage.Names
import DocCoverage.Proofs.Token.Segments

/-!
# The coverage of a listing

A function of a listing is documented exactly if the comment of its own is a documentation
comment. Functions without a comment are part of the text behind an earlier comment, where they
come after the function that the comment belongs to.
-/

namespace DocCoverage

namespace Declaration

/-- The text declares `found`, whatever stands behind it. -/
def Settled (text : List Char) (found : List String) : Prop :=
  ∀ more others, Leftmost more others → Leftmost (text ++ more) (found ++ others)

section Settled

variable {text more gap : List Char} {found others : List String}

theorem Settled.leftmost (settled : Settled text found) : Leftmost text found := by
  have whole := settled [] [] .nil
  rwa [List.append_nil, List.append_nil] at whole

theorem Settled.append (first : Settled text found) (second : Settled more others) :
    Settled (text ++ more) (found ++ others) := by
  intro last names leftmost
  rw [List.append_assoc, List.append_assoc]
  exact first _ _ (second _ _ leftmost)

theorem settled_of_spaces (spaces : Text.Spaces gap) : Settled gap [] :=
  fun _ _ leftmost => leftmost.spaces_append spaces

/-- A word that goes on behind a text is in the text up to a character that it does not have. -/
theorem prefix_of_prefix_append_cons {word : List Char} {char : Char}
    (stands : word <+: text ++ char :: more) (absent : char ∉ word) : word <+: text := by
  rcases List.prefix_or_prefix_of_prefix stands (List.prefix_append text _) with short | long
  · exact short
  obtain ⟨rest, rfl⟩ := long
  cases rest with
  | nil => exact ⟨[], by simp⟩
  | cons next rest =>
    obtain ⟨last, shape⟩ := stands
    rw [List.append_assoc, List.append_cancel_left_eq] at shape
    have inWord : char ∈ next :: rest := (List.cons.inj shape).1 ▸ List.mem_cons_self ..
    exact absurd (List.mem_append_right text inWord) absent

/-- A text without the first word of a declaration, up to the end of a line, declares nothing. -/
theorem settled_of_absent (absent : ¬ "public".toList <:+: text) : Settled (text ++ ['\n']) [] := by
  intro more others leftmost
  have line : Leftmost ('\n' :: more) others := .passed (match?_of_space (by decide)) leftmost
  rw [List.append_assoc]
  refine Leftmost.unmatched_append (fun count below => ?_) line
  rw [Option.eq_none_iff_forall_ne_some]
  intro found matched
  have stands := prefix_of_match? matched
  rw [List.drop_append_of_le_length (Nat.le_of_lt below)] at stands
  have inside := prefix_of_prefix_append_cons stands (by decide)
  exact absent (inside.isInfix.trans (List.drop_suffix count text).isInfix)

end Settled

end Declaration

namespace Listed

open Coverage Declaration Token

variable {listed : Listed} {listing : List Listed} {front : List Char}

theorem WellFormed.calm (wellFormed : listed.WellFormed) : Calm listed.declaration := by
  have keywords : Calm "public func ".toList := by decide
  have bracket : Calm ['('] := by decide
  have line : Calm ['\n'] := by decide
  exact keywords.append (wellFormed.name.2.2.append (bracket.append (wellFormed.rest.append line)))

/-- A well-formed declaration declares the one function. -/
theorem WellFormed.settled (wellFormed : listed.WellFormed) :
    Settled listed.declaration [listed.name] := by
  intro more others leftmost
  have others' := settled_of_absent wellFormed.undeclaring more others leftmost
  have plain : ∀ char ∈ listed.name.toList, endsName char = false := by
    intro char member
    obtain ⟨noAngle, noBracket, -⟩ := wellFormed.name
    have angle := ne_of_mem_of_not_mem member noAngle
    have bracket := ne_of_mem_of_not_mem member noBracket
    simp [endsName, angle, bracket]
  have space : Text.Spaces [' '] := by decide
  have ends : endsName '(' = true := by decide
  have shape : listed.declaration ++ more = "public".toList ++ ([' '] ++ ("func".toList ++ ([' '] ++
      (listed.name.toList ++ '(' :: (listed.rest.toList ++ ['\n'] ++ more))))) := by
    unfold declaration
    simp
  have declares : Declares (listed.declaration ++ more) listed.name.toList
      (listed.rest.toList ++ ['\n'] ++ more) := by
    rw [shape]
    exact .intro space (by decide) space (by decide) wellFormed.solid plain ends
  have found := Leftmost.found (match?_eq_some_iff.mpr declares) others'
  rwa [String.ofList_toList] at found

/-- A comment that stands in full at the beginning of a line is read, and perhaps the line feed
behind it. -/
theorem delimited?_of_wholeComment {content : List Char} (whole : WholeComment content) :
    ∃ gap, Text.Spaces gap ∧ Calm gap ∧ ∀ more, delimited? (content ++ '\n' :: more) =
      some (.comment (String.ofList content), gap ++ more) := by
  rcases wholeComment_iff.mp whole with ⟨body, rfl, unbroken⟩ | block
  · refine ⟨[], by decide, by decide, fun more => ?_⟩
    have broken : lineBreak?.upTo ('\n' :: more) = some ([], more) := rfl
    rw [List.cons_append, List.cons_append, delimited?_line, upTo_lineBreak?_append unbroken,
      broken]
    simp [behind, made]
  · exact ⟨['\n'], by decide, by decide, fun more => delimited?_append_of_blockComment? block _⟩

/-- What a listing adds where it stands behind other functions. -/
def coverage (listing : List Listed) : Coverage :=
  ⟨listing.countP isDocumented, (listing.filter (!·.isDocumented)).map name⟩

theorem coverage_cons (listed : Listed) (listing : List Listed) :
    coverage (listed :: listing) =
      empty.add listed.isDocumented [listed.name] ++ coverage listing := by
  cases documented : listed.isDocumented with
  | true =>
    ext1
    · simp [coverage, documented, empty, add, Nat.add_comm]
    · simp [coverage, documented, empty, add]
  | false =>
    ext1
    · simp [coverage, documented, empty, add]
    · simp [coverage, documented, empty, add]

/-- A listing behind a text without marks. The text must not leave the credit of a comment to the
first function of the listing. -/
theorem contribution_listing {found : List String} {credit : Bool} (calm : Calm front)
    (settled : Settled front found) (used : credit = true → found ≠ [])
    (wellFormed : ∀ listed ∈ listing, listed.WellFormed) :
    contribution credit (segments (front ++ listing.flatMap render)) =
      empty.add credit found ++ coverage listing := by
  induction listing generalizing front found credit with
  | nil =>
    rw [List.flatMap_nil, List.append_nil, calm.segments_eq, contribution_leftover,
      names_ofList_eq_iff.mpr settled.leftmost]
    exact (append_empty _).symm
  | cons listed listing ih =>
    obtain ⟨here, later⟩ := List.forall_mem_cons.mp wellFormed
    rw [List.flatMap_cons, coverage_cons, render]
    cases commented : listed.comment with
    | none =>
      have undocumented : listed.isDocumented = false := by rw [isDocumented, commented]; rfl
      have heading : listed.heading = [] := by rw [Listed.heading, commented]
      have used' : credit = true → found ++ [listed.name] ≠ [] :=
        fun _ => List.append_ne_nil_of_right_ne_nil _ (List.cons_ne_nil _ _)
      have merged := ih (calm.append here.calm) (settled.append here.settled) used' later
      rw [heading, List.nil_append, ← List.append_assoc, merged, add_append used, undocumented,
        append_assoc]
      rfl
    | some comment =>
      have documented : listed.isDocumented = (Token.comment comment).isDoc := by
        rw [isDocumented, commented]
        rfl
      obtain ⟨gap, spaces, calmGap, read⟩ :=
        delimited?_of_wholeComment (here.comment comment commented)
      have heading : listed.heading ++ listed.declaration ++ listing.flatMap render =
          comment.toList ++ '\n' :: (listed.declaration ++ listing.flatMap render) := by
        simp [Listed.heading, commented]
      have first : listed.isDocumented = true → [listed.name] ≠ [] :=
        fun _ => List.cons_ne_nil _ _
      have behind := ih (calmGap.append here.calm) ((settled_of_spaces spaces).append here.settled)
        first later
      rw [heading, segments_append (fun _ below => calm.delimited?_drop _ below) (read _),
        contribution_append, contribution_leftover, names_dropWhile,
        names_ofList_eq_iff.mpr settled.leftmost, contribution_comment, String.ofList_toList,
        ← documented, ← List.append_assoc, behind]
      rfl

/-- The checker is right about every listing: it reports the functions that have no documentation
comment of their own, in order and with repetitions, and counts the others. -/
theorem check_listing (listing : List Listed)
    (wellFormed : ∀ listed ∈ listing, listed.WellFormed) :
    ∃ tokens, tokenize (source listing) = .ok tokens ∧
      check tokens =
        ⟨listing.countP isDocumented, (listing.filter (!·.isDocumented)).map name⟩ := by
  refine ⟨_, tokenize_eq _, ?_⟩
  have calm : Calm [] := by decide
  have settled : Settled [] [] := settled_of_spaces (by decide)
  have unused : false = true → ([] : List String) ≠ [] := nofun
  rw [check_eq, source, String.toList_ofList]
  exact (contribution_listing calm settled unused wellFormed).trans (empty_append _)

/-- Marks and declarations inside of comments count for nothing, and the credit of a comment is
given just once. -/
theorem check_listing_nested :
    ∃ tokens,
      tokenize (source [⟨some "/** \"a /* // public func b( */ */", "first", "a: T)"⟩,
        ⟨none, "second", ")"⟩, ⟨some "//* /*", "second", "\n)"⟩, ⟨some "///", "", ")"⟩]) =
          .ok tokens ∧
      check tokens = ⟨2, ["second", "second"]⟩ := by
  have block : WholeComment "/** \"a /* // public func b( */ */".toList :=
    wholeComment_iff.mpr (.inr (by decide))
  have line : WholeComment "//* /*".toList := .line (by decide)
  have doc : WholeComment "///".toList := .line (by decide)
  have short {text : String} (few : text.toList.length < 6) : ¬ "public".toList <:+: text.toList :=
    fun inside => Nat.not_le_of_lt few inside.length_le
  have commented {comment name rest : String} (whole : WholeComment comment.toList)
      (others : WellFormed ⟨none, name, rest⟩) : WellFormed ⟨some comment, name, rest⟩ :=
    { others with comment := fun _ same => Option.some.inj same ▸ whole }
  have first : WellFormed ⟨none, "first", "a: T)"⟩ :=
    ⟨by simp, by decide, by decide, by decide, short (by decide)⟩
  have second : WellFormed ⟨none, "second", ")"⟩ :=
    ⟨by simp, by decide, by decide, by decide, short (by decide)⟩
  have third : WellFormed ⟨none, "second", "\n)"⟩ :=
    ⟨by simp, by decide, by decide, by decide, short (by decide)⟩
  have fourth : WellFormed ⟨none, "", ")"⟩ :=
    ⟨by simp, by decide, by decide, by decide, short (by decide)⟩
  obtain ⟨tokens, tokenized, checked⟩ := check_listing
    [⟨some "/** \"a /* // public func b( */ */", "first", "a: T)"⟩, ⟨none, "second", ")"⟩,
      ⟨some "//* /*", "second", "\n)"⟩, ⟨some "///", "", ")"⟩]
    (List.forall_mem_cons.mpr ⟨commented block first, List.forall_mem_cons.mpr ⟨second,
      List.forall_mem_cons.mpr ⟨commented line third, List.forall_mem_singleton.mpr
        (commented doc fourth)⟩⟩⟩)
  exact ⟨tokens, tokenized, checked.trans (by decide +kernel)⟩

end Listed

end DocCoverage
