import DocCoverage.Proofs.Parser.Confinement
import DocCoverage.Proofs.Token.Reading

/-!
# Balanced regions are found by scanning

Between two fixed sequences, a balanced region ends where one pass from left to right has closed
everything that it has opened, and its nodes hold what stands up to there. Where the input ends
before that, the region fails at the end of the input: nothing but that stops a run of elements.

The two part in one case. An empty closing sequence stands behind the last element, too, where the
pass has ended: an opening sequence that ends the input is then a region of its own.
-/

namespace DocCoverage

variable {ε α β : Type}

/-- Where the outcome is a failure, it points behind the last element of the input. -/
def Outcome.FailsAtEnd (cursor : Cursor ε) (outcome : Outcome ε α) : Prop :=
  ∀ reason, outcome = .failure reason → reason.location = ⟨cursor.source, cursor.source.size⟩

namespace Outcome

variable {cursor : Cursor ε}

theorem failsAtEnd_success {value : α} {after : Cursor ε} :
    FailsAtEnd cursor (.success value after) := by
  intro _ same
  cases same

theorem failsAtEnd_diverged : FailsAtEnd cursor (.diverged : Outcome ε α) := by
  intro _ same
  cases same

theorem FailsAtEnd.of_reaches {after : Cursor ε} {outcome : Outcome ε α}
    (reaches : cursor.Reaches after) (ends : FailsAtEnd after outcome) :
    FailsAtEnd cursor outcome := by
  intro reason failed
  rw [ends reason failed, reaches.1]

theorem FailsAtEnd.bind {first : Outcome ε α} {next : α → Cursor ε → Outcome ε β}
    (ends : FailsAtEnd cursor first)
    (later : ∀ value after, first = .success value after → FailsAtEnd cursor (next value after)) :
    FailsAtEnd cursor (first.bind next) := by
  cases first with
  | success value after => exact later value after rfl
  | failure reason =>
    intro _ same
    cases same
    exact ends reason rfl
  | diverged => exact failsAtEnd_diverged

theorem FailsAtEnd.map {outcome : Outcome ε α} (ends : FailsAtEnd cursor outcome)
    (transform : α → β) : FailsAtEnd cursor (outcome.map transform) :=
  ends.bind fun _ _ _ => failsAtEnd_success

theorem FailsAtEnd.orElse {first second : Outcome ε α} (ends : FailsAtEnd cursor second) :
    FailsAtEnd cursor (first.orElse second) := by
  cases first with
  | success value after => exact failsAtEnd_success
  | failure reason => exact ends
  | diverged => exact failsAtEnd_diverged

end Outcome

namespace Parser

theorem any_failsAtEnd (cursor : Cursor ε) : (any.outcome cursor).FailsAtEnd cursor := by
  intro reason failed
  have bound := cursor.position_le
  unfold Parser.outcome any satisfy at failed
  dsimp only at failed
  split at failed
  · cases failed
  · next unseen =>
    obtain rfl := Outcome.failure.inj failed
    have nothing := Cursor.peek?_eq_none_iff.mp unseen
    have ends : cursor.position = cursor.source.size := by
      rw [Cursor.left] at nothing
      omega
    exact congrArg (Location.mk cursor.source) ends

/-- Where something can be read there is no failure. -/
theorem Reads.failsAtEnd {parser : Parser ε α} {reading : Reading ε α}
    (reads : parser.Reads reading) {cursor : Cursor ε} (read : reading cursor.rest ≠ none) :
    (parser.outcome cursor).FailsAtEnd cursor := by
  obtain ⟨found, here⟩ := Option.ne_none_iff_exists'.mp read
  obtain ⟨after, succeeded, -⟩ := reads.success here
  rw [succeeded]
  exact Outcome.failsAtEnd_success

/-- Behind what can be read there is only the failure of what comes next. -/
theorem Reads.bind_failsAtEnd {first : Parser ε α} {reading : Reading ε α}
    (reads : first.Reads reading) {next : α → Parser ε β} {cursor : Cursor ε}
    (read : reading cursor.rest ≠ none)
    (ends : ∀ value middle, ((next value).outcome middle).FailsAtEnd middle) :
    ((first.bind next).outcome cursor).FailsAtEnd cursor := by
  rw [outcome_bind]
  refine (reads.failsAtEnd read).bind fun value middle ran => ?_
  exact (ends value middle).of_reaches (reads.forward cursor value middle ran)

/-- A repetition up to an end that only its parser cuts short fails where its parser does. -/
theorem manyTill_failsAtEnd {parser : Parser ε α}
    (ends : ∀ cursor, (parser.outcome cursor).FailsAtEnd cursor) (forward : parser.Forward)
    (consuming : parser.Consuming) (stop : Parser ε β) (cursor : Cursor ε) :
    ((parser.manyTill stop).outcome cursor).FailsAtEnd cursor := by
  induction cursor using Cursor.left_induction with
  | step cursor ih =>
    rw [outcome_manyTill]
    split
    · exact Outcome.failsAtEnd_success
    · exact Outcome.failsAtEnd_diverged
    · refine (ends cursor).bind fun value after read => ?_
      have closer := consuming cursor value after read
      rw [if_pos closer]
      exact ((ih after closer).of_reaches (forward cursor value after read)).map _

/-- A run of any elements is cut short only by the end of the input, whatever it runs up to. -/
theorem any_manyTill_failsAtEnd (stop : Parser ε β) (cursor : Cursor ε) :
    ((any.manyTill stop).outcome cursor).FailsAtEnd cursor :=
  manyTill_failsAtEnd any_failsAtEnd forward_any (consuming_satisfy _) stop cursor

end Parser

namespace Balanced

variable {ο κ : Type} {opening : Parser ε ο} {closing : Parser ε κ}

/-- Behind its opening marker, a region of any elements fails only at the end of the input. -/
theorem remainder_failsAtEnd (opens : opening.Forward) (closes : closing.Forward) (depth : Nat)
    (cursor : Cursor ε) :
    (remainder .any opening closing depth cursor).FailsAtEnd cursor := by
  have moves := forward_piece Parser.forward_any opens closes
  induction depth, cursor using advance_induction with
  | step depth cursor ih =>
    by_cases closed : depth = 0
    · rw [closed, remainder_zero]
      exact Outcome.failsAtEnd_success
    have next : ((piece .any opening closing).outcome cursor).FailsAtEnd cursor := by
      unfold piece
      rw [Parser.outcome_orElse, Parser.outcome_map _ (Parser.manyTill _ _)]
      exact .orElse ((Parser.any_manyTill_failsAtEnd _ cursor).map _)
    rw [remainder_eq _ _ _ closed]
    refine next.bind fun node after read => ?_
    split
    · next advances =>
      exact ((ih _ after advances).of_reaches (moves cursor node after read)).map _
    · exact Outcome.failsAtEnd_diverged

end Balanced

namespace Delimiter

section Balanced

variable [DecidableEq ε] {opening closing tail : List ε} {cursor : Cursor ε}

/-- Where the scan does not come to an end, the region fails at the end of the input. -/
theorem balanced_of_rest?_eq_none (nonempty : opening ≠ []) (room : closing = [] → tail ≠ [])
    (shape : cursor.rest = opening ++ tail) (unclosed : rest? opening closing 1 tail = none) :
    ∃ reason,
      (Parser.any.balanced (.literal opening) (.literal closing)).outcome cursor =
        .failure reason ∧ reason.location = ⟨cursor.source, cursor.source.size⟩ := by
  obtain ⟨reason, failed⟩ := balanced_of_unclosed nonempty room shape unclosed
  obtain ⟨middle, reaches, -, ran⟩ := outcome_balanced_of_opening closing shape
  have later := Outcome.map_eq_failure_iff.mp (ran.symm.trans failed)
  have ends := Balanced.remainder_failsAtEnd (Parser.forward_literal opening)
    (Parser.forward_literal closing) 1 middle
  exact ⟨reason, failed, ends.of_reaches reaches reason later⟩

/-- An empty closing sequence closes a region as soon as it is opened, even at the end. -/
theorem balanced_of_empty (stands : opening <+: cursor.rest) :
    (Parser.any.balanced (.literal opening) (.literal [])).outcome cursor =
      .success [.opened opening, .closed []] (cursor.advance opening.length) := by
  have next (place : Cursor ε) :
      (Balanced.piece .any (.literal opening) (.literal [])).outcome place =
        .success (.closed []) place := by
    unfold Balanced.piece
    rw [Parser.outcome_orElse, Parser.outcome_orElse, Parser.outcome_map,
      Parser.outcome_literal_of_isPrefix List.nil_prefix]
    rfl
  rw [Parser.outcome_balanced, Parser.outcome_literal_of_isPrefix stands, Outcome.bind_success,
    Balanced.remainder_eq _ _ _ Nat.one_ne_zero, next, Outcome.bind_success,
    if_pos (.inr ⟨rfl, Nat.zero_lt_one⟩)]
  change ((Balanced.remainder _ _ _ 0 _).map _).map _ = _
  rw [Balanced.remainder_zero]
  rfl

end Balanced

section Scanned

variable [DecidableEq ε] {opening closing : List ε} {cursor : Cursor ε}

omit [DecidableEq ε] in
/-- Something is left behind an opening sequence that does not end the input. -/
theorem room_behind {tail : List ε} (room : closing = [] → cursor.rest ≠ opening)
    (shape : cursor.rest = opening ++ tail) : closing = [] → tail ≠ [] := by
  rintro empty rfl
  exact room empty (shape.trans (List.append_nil _))

/-- Reading a region ends like the scan. -/
structure Scanned (opening closing : List ε) (cursor : Cursor ε)
    (ended : Outcome ε (List (Node (List ε) (List ε) (List ε)))) : Prop where
  unopened : ¬ opening <+: cursor.rest → ∃ reason, ended = .failure reason
  closed : ∀ tail rest, cursor.rest = opening ++ tail →
    (rest? opening closing 1 tail = some rest ↔
      ∃ nodes after, ended = .success nodes after ∧ after.rest = rest)
  unclosed : ∀ tail, cursor.rest = opening ++ tail → rest? opening closing 1 tail = none →
    ∃ reason, ended = .failure reason ∧ reason.location = ⟨cursor.source, cursor.source.size⟩
  contents : ∀ nodes after, ended = .success nodes after →
    cursor.Reaches after ∧ nodes.flatMap Node.elements = cursor.upTo after

/-- Where the opening sequence does not end the input, or the closing one is not empty, what is read
is what the scan has found. -/
theorem rest?_of_balanced (nonempty : opening ≠ []) (room : closing = [] → cursor.rest ≠ opening)
    {nodes : List (Node (List ε) (List ε) (List ε))} {after : Cursor ε}
    (ran : (Parser.any.balanced (.literal opening) (.literal closing)).outcome cursor =
      .success nodes after) :
    ∃ tail, cursor.rest = opening ++ tail ∧ rest? opening closing 1 tail = some after.rest ∧
      cursor.Reaches after ∧ nodes.flatMap Node.elements = cursor.upTo after := by
  by_cases opens : opening <+: cursor.rest
  · obtain ⟨tail, shape⟩ := opens
    have behind := room_behind room shape.symm
    cases scanned : rest? opening closing 1 tail with
    | some rest =>
      obtain ⟨nodes', after', ran', reaches, rfl, contents⟩ :=
        balanced_of_rest? nonempty behind shape.symm scanned
      cases ran.symm.trans ran'
      exact ⟨tail, shape.symm, scanned, reaches, contents⟩
    | none =>
      obtain ⟨reason, failed, -⟩ := balanced_of_rest?_eq_none nonempty behind shape.symm scanned
      cases ran.symm.trans failed
  · obtain ⟨reason, failed⟩ := balanced_of_unopened closing opens
    cases ran.symm.trans failed

theorem scanned_balanced (nonempty : opening ≠ []) (room : closing = [] → cursor.rest ≠ opening) :
    Scanned opening closing cursor
      ((Parser.any.balanced (.literal opening) (.literal closing)).outcome cursor) where
  unopened := balanced_of_unopened closing
  closed := by
    intro tail rest shape
    constructor
    · intro found
      obtain ⟨nodes, after, ran, -, behind, -⟩ :=
        balanced_of_rest? nonempty (room_behind room shape) shape found
      exact ⟨nodes, after, ran, behind⟩
    · rintro ⟨nodes, after, ran, rfl⟩
      obtain ⟨tail', shape', found, -⟩ := rest?_of_balanced nonempty room ran
      obtain rfl := List.append_cancel_left (shape.symm.trans shape')
      exact found
  unclosed tail shape := balanced_of_rest?_eq_none nonempty (room_behind room shape) shape
  contents := by
    intro nodes after ran
    obtain ⟨tail, -, -, reaches, contents⟩ := rest?_of_balanced nonempty room ran
    exact ⟨reaches, contents⟩

/-- Where the opening sequence is all that is left, the scan has come to the end of the input with
one region open, but an empty closing sequence still closes that region. -/
theorem balanced_of_rest_eq (left : cursor.rest = opening) :
    ∃ after,
      (Parser.any.balanced (.literal opening) (.literal [])).outcome cursor =
        .success [.opened opening, .closed []] after ∧
      cursor.Reaches after ∧ after.rest = [] ∧ cursor.upTo after = opening := by
  refine ⟨_, balanced_of_empty (left ▸ List.prefix_rfl), cursor.reaches_advance _, ?_, ?_⟩
  · rw [Cursor.rest_advance, left, List.drop_length]
  · rw [Cursor.upTo_advance, left, List.take_length]

end Scanned

/-- A block comment is the stretch up to the place where the scan for its two markers has closed
everything. -/
theorem blockComment_eq_success_iff {cursor after : Cursor Char} {token : Token} :
    Token.blockComment.outcome cursor = .success token after ↔
      cursor.Reaches after ∧ region? ['/', '*'] ['*', '/'] cursor.rest = some after.rest ∧
        token = .comment (String.ofList (cursor.upTo after)) := by
  have nonempty : ['/', '*'] ≠ [] := by decide
  have ends : ['*', '/'] ≠ [] := by decide
  have scanned : Scanned ['/', '*'] ['*', '/'] cursor _ := scanned_balanced nonempty (absurd · ends)
  unfold Token.blockComment
  rw [Parser.outcome_map]
  unfold region?
  simp only [Option.ite_none_right_eq_some, List.isPrefixOf_iff_prefix]
  constructor
  · intro succeeded
    obtain ⟨nodes, ran, rfl⟩ := Outcome.map_eq_success_iff.mp succeeded
    obtain ⟨reaches, contents⟩ := scanned.contents nodes after ran
    by_cases opens : ['/', '*'] <+: cursor.rest
    · obtain ⟨tail, shape⟩ := opens
      have found := (scanned.closed tail after.rest shape.symm).mpr ⟨nodes, after, ran, rfl⟩
      rw [← shape, List.drop_left, found, contents]
      exact ⟨reaches, ⟨List.prefix_append .., rfl⟩, rfl⟩
    · obtain ⟨reason, failed⟩ := scanned.unopened opens
      cases ran.symm.trans failed
  · rintro ⟨reaches, ⟨⟨tail, shape⟩, found⟩, rfl⟩
    rw [← shape, List.drop_left] at found
    obtain ⟨nodes, last, ran, behind⟩ := (scanned.closed tail after.rest shape.symm).mp found
    obtain ⟨reaches', contents⟩ := scanned.contents nodes last ran
    obtain rfl := Cursor.eq_of_rest_eq (reaches'.1.trans reaches.1.symm) behind
    rw [ran, Outcome.map_success, contents]

/-- Between any two fixed sequences, of which the opening one is not empty, reading a balanced
region is scanning for them, and a block comment is the stretch that is scanned. There is one
exception: with an empty closing sequence, an opening sequence that ends the input is a region,
although the scan has come to the end before it could close it. -/
theorem balanced_scans :
    (∀ {ε : Type} [DecidableEq ε] {opening : List ε}, opening ≠ [] →
      ∀ (closing : List ε) (cursor : Cursor ε),
        ((closing = [] → cursor.rest ≠ opening) → Scanned opening closing cursor
          ((Parser.any.balanced (.literal opening) (.literal closing)).outcome cursor)) ∧
        (closing = [] → cursor.rest = opening → ∃ after,
          (Parser.any.balanced (.literal opening) (.literal closing)).outcome cursor =
            .success [.opened opening, .closed []] after ∧
          cursor.Reaches after ∧ after.rest = [] ∧ cursor.upTo after = opening)) ∧
      ∀ {cursor after : Cursor Char} {token : Token},
        Token.blockComment.outcome cursor = .success token after ↔
          cursor.Reaches after ∧ region? ['/', '*'] ['*', '/'] cursor.rest = some after.rest ∧
            token = .comment (String.ofList (cursor.upTo after)) := by
  refine ⟨fun nonempty closing cursor => ⟨scanned_balanced nonempty, ?_⟩,
    blockComment_eq_success_iff⟩
  rintro rfl left
  exact balanced_of_rest_eq left

/-- Where the markers overlap, what comes first counts: the second slash belongs to an opening
marker, and the two stars to one marker each. A closing sequence that is empty is found even behind
the last character. -/
theorem balanced_scans_overlapping :
    let cursor := Cursor.start "/*/**/*/;".toList.toArray
    let last := Cursor.start "(".toList.toArray
    ['/', '*'] ≠ [] ∧ rest? ['/', '*'] ['*', '/'] 1 "/**/*/;".toList = some [';'] ∧
      (∃ nodes after,
        (Parser.any.balanced (.literal ['/', '*']) (.literal ['*', '/'])).outcome cursor =
          .success nodes after ∧ after.rest = [';'] ∧
            nodes.flatMap Node.elements = cursor.upTo after) ∧
      last.rest = ['('] ∧
      ∃ after, (Parser.any.balanced (.literal ['(']) (.literal [])).outcome last =
        .success [.opened ['('], .closed []] after ∧ after.rest = [] := by
  intro cursor last
  have nonempty : ['/', '*'] ≠ [] := by decide
  have ends : ['*', '/'] ≠ [] := by decide
  have found : rest? ['/', '*'] ['*', '/'] 1 "/**/*/;".toList = some [';'] := by cbv
  have scanned := (balanced_scans.1 nonempty ['*', '/'] cursor).1 (absurd · ends)
  obtain ⟨nodes, after, ran, behind⟩ := (scanned.closed _ _ rfl).mp found
  have single : last.rest = ['('] := rfl
  obtain ⟨closed, succeeded, -, empty, -⟩ :=
    (balanced_scans.1 (by decide : ['('] ≠ []) [] last).2 rfl single
  exact ⟨nonempty, found, ⟨nodes, after, ran, behind, (scanned.contents nodes after ran).2⟩,
    single, closed, succeeded, empty⟩

/-- The scan has not closed a region that is opened at the very end, and an empty closing sequence
is found there nevertheless. -/
theorem scanned_fails_at_end :
    let cursor := Cursor.start "(".toList.toArray
    let region := Parser.any.balanced (.literal ['(']) (.literal [])
    rest? ['('] [] 1 [] = none ∧
      region.outcome cursor = .success [.opened ['('], .closed []] cursor.next ∧
      ¬ Scanned ['('] [] cursor (region.outcome cursor) := by
  intro cursor region
  have ended : rest? ['('] [] 1 [] = none := rest?_nil
  have succeeded : region.outcome cursor = .success [.opened ['('], .closed []] cursor.next :=
    balanced_of_empty (List.prefix_rfl : ['('] <+: ['('])
  refine ⟨ended, succeeded, fun scanned => ?_⟩
  obtain ⟨reason, failed, -⟩ := scanned.unclosed [] rfl ended
  cases succeeded.symm.trans failed

end Delimiter

end DocCoverage
