import Mathlib.Data.List.Perm.Subperm
import DocCoverage.Grammar.Entry
import DocCoverage.Proofs.Grammar.Confinement
import DocCoverage.Proofs.Parser.Ending
import DocCoverage.Proofs.Token.Reading

/-!
# Rules without left recursion end

A grammar ends at a place where all the rules that it may enter there end, if all rules end wherever
less is left. The rules that are open at one place without anything read in between are all
different, so that there are at most as many of them as rules in the table; and with every element
that is read they begin anew. That is the bound on the references that `Rules.run` follows.
-/

namespace DocCoverage

variable {ε κ : Type}

section Recognizers

theorem Recognizer.ending (recognizer : Recognizer ε) :
    (recognizer.parser : Parser ε (Value ε κ)).Ending := by
  cases recognizer with
  | space => exact ((Parser.reads_satisfy _).map _).ending
  | skipSpaces => exact (Token.reads_skipSpaces.map _).ending
  | endOfLine => exact (Token.reads_endOfLine.map _).ending
  | lineComment => exact (Token.reads_lineComment.map _).ending
  | blockComment => exact (Token.reads_blockComment.map _).ending
  | comment => exact (Token.reads_anyComment.map _).ending
  | stringLiteral => exact (Token.reads_quoted.map _).ending
  | text => exact (Token.reads_plainText.map _).ending

end Recognizers

variable [DecidableEq ε] [Element ε] {rules : Rules ε κ} {depth : Nat}

namespace Grammar

theorem forward (rules : Rules ε κ) (depth : Nat) (grammar : Grammar ε κ) :
    (grammar.parser (rules.parser depth)).Forward :=
  (grammar.built (rules.built depth)).forward

/-- What may not be empty reads something wherever it succeeds. -/
theorem consuming_of_not_mayBeEmpty {grammar : Grammar ε κ}
    (reads : ¬ grammar.MayBeEmpty rules) (depth : Nat) :
    (grammar.parser (rules.parser depth)).Consuming := by
  intro cursor value after succeeded
  have reaches := grammar.forward rules depth cursor value after succeeded
  have bound := reaches.left_le
  have moved : after.left ≠ cursor.left := by
    intro same
    obtain rfl := reaches.eq_of_left_eq same
    exact reads ⟨depth, after, value, after, succeeded, rfl⟩
  omega

theorem not_mayBeEmpty_of_consuming {grammar : Grammar ε κ}
    (consuming : ∀ depth, (grammar.parser (rules.parser depth)).Consuming) :
    ¬ grammar.MayBeEmpty rules := by
  rintro ⟨depth, cursor, value, after, succeeded, same⟩
  have closer := consuming depth cursor value after succeeded
  have sameSource := (grammar.forward rules depth cursor value after succeeded).1
  rw [Cursor.left, Cursor.left, sameSource, same] at closer
  exact Nat.lt_irrefl _ closer

theorem not_mayBeEmpty_element (expected : ε) :
    ¬ (Grammar.element expected : Grammar ε κ).MayBeEmpty rules :=
  not_mayBeEmpty_of_consuming fun _ => (Parser.consuming_satisfy _).map _

theorem not_mayBeEmpty_literal {expected : List ε} (nonempty : expected ≠ []) :
    ¬ (Grammar.literal expected : Grammar ε κ).MayBeEmpty rules :=
  not_mayBeEmpty_of_consuming fun _ => (Parser.consuming_literal nonempty).map _

/-- What comes second in a sequence is entered where the first part has read nothing. -/
theorem mayBeEmpty_of_left_eq {grammar : Grammar ε κ} {cursor after : Cursor ε} {value : Value ε κ}
    (succeeded : (grammar.parser (rules.parser depth)).outcome cursor = .success value after)
    (same : after.left = cursor.left) : grammar.MayBeEmpty rules ∧ after = cursor := by
  obtain rfl := (grammar.forward rules depth cursor value after succeeded).eq_of_left_eq same
  exact ⟨⟨depth, after, value, after, succeeded, rfl⟩, rfl⟩

/-- The rules that the grammar may enter at the cursor end there, and all rules end further on. -/
structure Supported (rules : Rules ε κ) (depth : Nat) (cursor : Cursor ε) (grammar : Grammar ε κ) :
    Prop where
  here : ∀ name, grammar.Enters rules name → (rules.parser depth name).EndsAt cursor
  later : ∀ name, (rules.parser depth name).EndsBehind cursor

section Supported

variable {whole inner first second : Grammar ε κ} {cursor after : Cursor ε}

/-- A part that is run at the cursor itself. -/
theorem Supported.part (supported : whole.Supported rules depth cursor)
    (enters : ∀ {name}, inner.Enters rules name → whole.Enters rules name) :
    inner.Supported rules depth cursor :=
  ⟨fun name inside => supported.here name (enters inside), supported.later⟩

/-- A part that is run where less is left. -/
theorem Supported.behind (supported : whole.Supported rules depth cursor)
    (closer : after.left < cursor.left) : inner.Supported rules depth after :=
  ⟨fun name _ => supported.later name after closer, fun name => (supported.later name).of_lt closer⟩

/-- A part that is run behind the first one. -/
theorem Supported.next (supported : whole.Supported rules depth cursor) {value : Value ε κ}
    (ran : (first.parser (rules.parser depth)).outcome cursor = .success value after)
    (enters : first.MayBeEmpty rules → ∀ {name}, second.Enters rules name →
      whole.Enters rules name) : second.Supported rules depth after := by
  have bound := (first.forward rules depth cursor value after ran).left_le
  rcases Nat.lt_or_eq_of_le bound with closer | same
  · exact supported.behind closer
  · obtain ⟨empty, rfl⟩ := mayBeEmpty_of_left_eq ran same
    exact supported.part (enters empty)

end Supported

theorem endsAt {grammar : Grammar ε κ} (opens : grammar.OpeningsRead rules) {cursor : Cursor ε}
    (supported : grammar.Supported rules depth cursor) :
    (grammar.parser (rules.parser depth)).EndsAt cursor := by
  induction grammar generalizing cursor with
  | pure payload => exact nofun
  | any => exact (Parser.reads_any.map _).ending cursor
  | element expected => exact ((Parser.reads_element expected).map _).ending cursor
  | satisfy predicate => exact ((Parser.reads_satisfy _).map _).ending cursor
  | literal expected => exact ((Parser.reads_literal expected).map _).ending cursor
  | take count => exact .map (Parser.ending_take count cursor) _
  | recognize recognizer => exact recognizer.ending cursor
  | map body mapping inside => exact (inside opens (supported.part .map)).map _
  | orElse first second one two =>
    exact (one opens.1 (supported.part .orElseFirst)).orElse
      (two opens.2 (supported.part .orElseSecond))
  | both first second one two =>
    refine .map (.bind (one opens.1 (supported.part .bothFirst)) fun value after ran => ?_) _
    exact (two opens.2 (supported.next ran fun empty => .bothSecond empty)).map _
  | andThen first second one two =>
    refine .bind (one opens.1 (supported.part .andThenFirst)) fun value after ran => ?_
    exact two opens.2 (supported.next ran fun empty => .andThenSecond empty)
  | followedBy first second one two =>
    refine .bind (one opens.1 (supported.part .followedByFirst)) fun value after ran => ?_
    exact (two opens.2 (supported.next ran fun empty => .followedBySecond empty)).map _
  | apply first second combination one two =>
    refine .bind ((one opens.1 (supported.part .applyFirst)).map _) fun value after ran => ?_
    rw [Parser.outcome_map] at ran
    obtain ⟨found, ran, -⟩ := Outcome.map_eq_success_iff.mp ran
    exact (two opens.2 (supported.next ran fun empty => .applySecond empty)).map _
  | bind first next one two =>
    refine .bind (one opens.1 (supported.part .bindFirst)) fun value after ran => ?_
    exact two value.flatten (opens.2 _) (supported.next ran fun empty => .bindNext empty)
  | lookAhead body inside => exact (inside opens (supported.part .lookAhead)).lookAhead
  | withSpan body inside => exact (inside opens (supported.part .withSpan)).withSpan.map _
  | many body inside =>
    refine .map (.many (inside opens (supported.part .many)) fun after closer => ?_) _
    exact inside opens (supported.behind closer)
  | many1 body inside =>
    refine .map (.many1 (inside opens (supported.part .many1)) fun after closer => ?_) _
    exact inside opens (supported.behind closer)
  | skipMany body inside =>
    refine .map (.skipMany (inside opens (supported.part .skipMany)) fun after closer => ?_) _
    exact inside opens (supported.behind closer)
  | skipMany1 body inside =>
    refine .map (.skipMany1 (inside opens (supported.part .skipMany1)) fun after closer => ?_) _
    exact inside opens (supported.behind closer)
  | manyTill body stop inside ends =>
    refine .map (.manyTill (inside opens.1 (supported.part .manyTillBody))
      (ends opens.2 (supported.part .manyTillStop)) (fun after closer => ?_)
      fun after closer => ?_) _
    · exact inside opens.1 (supported.behind closer)
    · exact ends opens.2 (supported.behind closer)
  | balanced inner opening closing inside begins closes =>
    -- All that is run behind the opening marker is run where less is left.
    obtain ⟨reads, innerOpens, openingOpens, closingOpens⟩ := opens
    have consuming := consuming_of_not_mayBeEmpty reads depth
    refine .map (.balanced (begins openingOpens (supported.part .balanced)) (fun after closer => ?_)
      (fun after closer => ?_) (fun after closer => ?_) (inner.forward rules depth)
      (opening.forward rules depth) consuming (closing.forward rules depth)) _
    · exact inside innerOpens (supported.behind closer)
    · exact begins openingOpens (supported.behind closer)
    · exact closes closingOpens (supported.behind closer)
  | lazy body inside => exact inside opens (supported.part .lazy)
  | ref name => exact supported.here name .ref

end Grammar

namespace Rules

/-- The opening markers of all rules read something. -/
def OpeningsRead (rules : Rules ε κ) : Prop :=
  ∀ name body, rules.find? name = some body → body.OpeningsRead rules

/-- The rules that are open at one place, the latest first, when `name` is entered: each of them
may come to `name` before anything has been read. -/
structure Open (rules : Rules ε κ) (names : List String) (name : String) : Prop where
  distinct : names.Nodup
  leads : ∀ other ∈ names, Relation.TransGen rules.Enters other name

section Open

variable {names : List String} {name : String}

/-- At the beginning no rule is open. -/
theorem Open.nil (rules : Rules ε κ) (name : String) : rules.Open [] name where
  distinct := List.nodup_nil
  leads := List.forall_mem_nil _

omit [DecidableEq ε] [Element ε] in
theorem mem_of_find? {body : Grammar ε κ} (found : rules.find? name = some body) :
    name ∈ rules.map Prod.fst := by
  obtain ⟨front, back, shape, -⟩ := List.lookup_eq_some_iff.mp found
  simp [shape]

/-- A rule from which another one is entered is a rule of the table. -/
theorem mem_of_transGen {other : String} (leads : Relation.TransGen rules.Enters other name) :
    other ∈ rules.map Prod.fst := by
  obtain ⟨next, ⟨body, found, -⟩, -⟩ := Relation.TransGen.head'_iff.mp leads
  exact mem_of_find? found

theorem Open.not_mem (acyclic : ¬ rules.LeftRecursive) (opened : rules.Open names name) :
    name ∉ names :=
  fun member => acyclic ⟨name, opened.leads name member⟩

/-- There are fewer open rules than rules in the table. -/
theorem Open.length_lt (acyclic : ¬ rules.LeftRecursive) (opened : rules.Open names name)
    {body : Grammar ε κ} (found : rules.find? name = some body) :
    names.length < rules.length := by
  have distinct : (name :: names).Nodup :=
    List.nodup_cons.mpr ⟨opened.not_mem acyclic, opened.distinct⟩
  have known : name :: names ⊆ rules.map Prod.fst :=
    List.cons_subset.mpr ⟨mem_of_find? found,
      fun other member => mem_of_transGen (opened.leads other member)⟩
  have bound := (distinct.subperm known).length_le
  rw [List.length_cons, List.length_map] at bound
  omega

/-- Entering the next rule from the body of the last one. -/
theorem Open.cons (acyclic : ¬ rules.LeftRecursive) (opened : rules.Open names name)
    {body : Grammar ε κ} (found : rules.find? name = some body) {next : String}
    (enters : body.Enters rules next) : rules.Open (name :: names) next where
  distinct := List.nodup_cons.mpr ⟨opened.not_mem acyclic, opened.distinct⟩
  leads := by
    have step : rules.Enters name next := ⟨body, found, enters⟩
    intro other member
    rcases List.mem_cons.mp member with rfl | member
    · exact .single step
    · exact (opened.leads other member).tail step

end Open

/-- A rule ends with as many references as there are rules, for every place from the cursor on,
less those that are open. -/
theorem endsAt_of_open (acyclic : ¬ rules.LeftRecursive) (opens : rules.OpeningsRead)
    (cursor : Cursor ε) (names : List String) (name : String) (opened : rules.Open names name)
    (enough : rules.length * cursor.left + (rules.length - names.length) < depth) :
    (rules.parser depth name).EndsAt cursor := by
  induction cursor using Cursor.left_induction generalizing depth names name with
  | step cursor further =>
  induction depth generalizing names name with
  | zero => exact absurd enough (Nat.not_lt_zero _)
  | succ depth ih =>
    rw [parser]
    split
    · next body found =>
      have fewer := opened.length_lt acyclic found
      refine body.endsAt (opens name body found)
        ⟨fun next enters => ?_, fun next after closer => ?_⟩
      · refine ih _ _ (opened.cons acyclic found enters) ?_
        rw [List.length_cons]
        omega
      · refine further after closer [] next (.nil rules next) ?_
        have bound := Nat.mul_le_mul_left rules.length closer
        rw [Nat.mul_succ] at bound
        rw [List.length_nil]
        omega
    · intro diverged
      cases diverged

/-- Every rule ends within the bound on the references. -/
theorem endsAt_of_depthAt_le (acyclic : ¬ rules.LeftRecursive) (opens : rules.OpeningsRead)
    (cursor : Cursor ε) (enough : rules.depthAt cursor ≤ depth) (name : String) :
    (rules.parser depth name).EndsAt cursor := by
  refine endsAt_of_open acyclic opens cursor [] name (.nil rules name) ?_
  unfold depthAt at enough
  rw [Nat.mul_succ] at enough
  rw [List.length_nil]
  omega

omit [DecidableEq ε] [Element ε] in
theorem depthAt_le_of_lt {cursor after : Cursor ε} (closer : after.left < cursor.left) :
    rules.depthAt after ≤ rules.depthAt cursor := by
  have bound := Nat.mul_le_mul_left rules.length (Nat.succ_le_succ (Nat.le_of_lt closer))
  exact Nat.succ_le_succ bound

end Rules

/-- Where no rule comes back to itself before anything has been read, and no opening marker is
empty, every grammar ends at every cursor. -/
theorem Rules.run_ends (acyclic : ¬ rules.LeftRecursive) (opens : rules.OpeningsRead)
    {grammar : Grammar ε κ} (start : grammar.OpeningsRead rules) (cursor : Cursor ε) :
    (∃ value after, (rules.run grammar cursor).outcome = .success value after) ∨
      ∃ reason, (rules.run grammar cursor).outcome = .failure reason := by
  have ends : (grammar.parser (rules.parser (rules.depthAt cursor))).EndsAt cursor :=
    grammar.endsAt start
      ⟨fun name _ => endsAt_of_depthAt_le acyclic opens cursor (Nat.le_refl _) name,
        fun name after closer =>
          endsAt_of_depthAt_le acyclic opens after (depthAt_le_of_lt closer) name⟩
  cases ended : (rules.run grammar cursor).outcome with
  | success value after => exact .inl ⟨value, after, rfl⟩
  | failure reason => exact .inr ⟨reason, rfl⟩
  | diverged => exact absurd ended ends

/-- Behind a bracket, a rule that may be empty repeats itself, and a region of such nests may be
closed by nothing at all: neither keeps a parse from ending. -/
theorem Rules.run_ends_nests :
    let nest : Grammar Char Unit :=
      .orElse (.followedBy (.andThen (.element '(') (.many (.ref "nest"))) (.element ')'))
        (.pure ())
    let rules : Rules Char Unit := [("nest", nest)]
    let region : Grammar Char Unit := .balanced (.ref "nest") (.literal ['<', '<']) (.pure ())
    ¬ rules.LeftRecursive ∧ rules.OpeningsRead ∧ region.OpeningsRead rules ∧
      ∀ cursor, (∃ value after, (rules.run region cursor).outcome = .success value after) ∨
        ∃ reason, (rules.run region cursor).outcome = .failure reason := by
  intro nest rules region
  have found {name : String} {body : Grammar Char Unit} (known : rules.find? name = some body) :
      body = nest := by
    obtain ⟨front, back, shape, -⟩ := List.lookup_eq_some_iff.mp known
    have member : (name, body) ∈ rules :=
      shape ▸ List.mem_append_right front (List.mem_cons_self ..)
    exact congrArg Prod.snd (List.mem_singleton.mp member)
  have acyclic : ¬ rules.LeftRecursive := by
    rintro ⟨name, cycle⟩
    obtain ⟨next, ⟨body, known, enters⟩, -⟩ := Relation.TransGen.head'_iff.mp cycle
    rw [found known] at enters
    simp only [nest] at enters
    cases enters with
    | orElseFirst inside =>
      cases inside with
      | followedByFirst inside =>
        cases inside with
        | andThenFirst inside => cases inside
        | andThenSecond empty => exact Grammar.not_mayBeEmpty_element _ empty
      | followedBySecond empty inside => cases inside
    | orElseSecond inside => cases inside
  have opens : rules.OpeningsRead := by
    intro name body known
    rw [found known]
    exact ⟨⟨⟨trivial, trivial⟩, trivial⟩, trivial⟩
  have start : region.OpeningsRead rules :=
    ⟨Grammar.not_mayBeEmpty_literal (by decide), trivial, trivial, trivial⟩
  exact ⟨acyclic, opens, start, Rules.run_ends acyclic opens start⟩

end DocCoverage
