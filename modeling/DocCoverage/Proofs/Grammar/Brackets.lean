import DocCoverage.Grammar.Recursion
import DocCoverage.Parser.Recursive
import DocCoverage.Proofs.Parser.Reading

/-!
# A rule for nested brackets

The rule reads a pair of brackets around itself, or else nothing, and counts the pairs. It is there
as a parser that refers to itself, and as a rule of a grammar that wraps its value once for each
pair. It reads all opening brackets that stand in a row together with as many closing ones. Where
there are not as many, the levels inside have already succeeded when a closing bracket is missing,
and all of that is given up again: the rule reads nothing.
-/

namespace DocCoverage

/-- How many opening brackets the text begins with. -/
def openings (text : List Char) : Nat := (text.takeWhile (· == '(')).length

/-- How many closing brackets stand behind the opening ones that the text begins with. -/
def closings (text : List Char) : Nat :=
  ((text.dropWhile (· == '(')).takeWhile (· == ')')).length

section Counting

variable {text : List Char}

theorem openings_of_ne (other : text.head? ≠ some '(') : openings text = 0 := by
  cases text with
  | nil => rfl
  | cons head tail =>
    have refused : (head == '(') = false := by simpa using other
    simp [openings, refused]

theorem openings_cons (text : List Char) : openings ('(' :: text) = openings text + 1 := by
  simp [openings]

theorem closings_cons (text : List Char) : closings ('(' :: text) = closings text := by
  simp [closings]

theorem drop_openings (text : List Char) :
    text.drop (openings text) = text.dropWhile (· == '(') := by
  have split := List.takeWhile_append_dropWhile (p := (· == '(')) (l := text)
  exact (congrArg (List.drop _) split.symm).trans List.drop_left

theorem openings_add_closings_le (text : List Char) :
    openings text + closings text ≤ text.length := by
  have behind := (List.takeWhile_prefix (· == ')') (l := text.dropWhile (· == '('))).length_le
  have split := List.takeWhile_append_dropWhile (p := (· == '(')) (l := text)
  have whole := congrArg List.length split
  rw [List.length_append] at whole
  unfold openings closings
  omega

/-- Behind some of the marks in front, one more stands as long as there is one. -/
theorem head?_drop_eq_iff {mark : Char} {count : Nat}
    (within : count ≤ (text.takeWhile (· == mark)).length) :
    (text.drop count).head? = some mark ↔ count < (text.takeWhile (· == mark)).length := by
  induction text generalizing count with
  | nil => simp
  | cons head tail ih =>
    cases accepted : head == mark with
    | true =>
      cases count with
      | zero => simp [eq_of_beq accepted]
      | succ count =>
        simp only [List.takeWhile_cons, accepted, if_true, List.length_cons] at within ⊢
        rw [List.drop_succ_cons, ih (Nat.le_of_succ_le_succ within)]
        exact Nat.succ_lt_succ_iff.symm
    | false =>
      simp only [List.takeWhile_cons, accepted, Bool.false_eq_true, if_false,
        List.length_nil] at within ⊢
      obtain rfl := Nat.le_zero.mp within
      simpa using accepted

/-- Behind the opening brackets and as many closing ones, a closing one stands if there is one
more. -/
theorem head?_drop_brackets_iff (enough : openings text ≤ closings text) :
    (text.drop (2 * openings text)).head? = some ')' ↔ openings text < closings text := by
  rw [Nat.two_mul, ← List.drop_drop, drop_openings]
  exact head?_drop_eq_iff enough

end Counting

namespace Parser

variable {α β γ : Type}

/-- The parser reads the mark where it stands, and fails where it does not. -/
structure Marks (parser : Parser Char β) (mark : Char) : Prop where
  reads {cursor : Cursor Char} (stands : cursor.rest.head? = some mark) :
    ∃ value, parser.outcome cursor = .success value cursor.next
  fails {cursor : Cursor Char} (other : cursor.rest.head? ≠ some mark) : parser.FailsAt cursor

theorem marks_element (mark : Char) : (element mark).Marks mark where
  reads := by
    intro cursor stands
    rw [← Cursor.peek?_eq_head?] at stands
    exact ⟨mark, by simp [Parser.outcome, element, satisfy, stands, Attempt.success]⟩
  fails := by
    intro cursor other
    refine (reads_element mark).failure ?_
    cases shape : cursor.rest with
    | nil => rfl
    | cons head tail => simpa [Reading.satisfy, shape] using other

theorem Marks.map {parser : Parser Char β} {mark : Char} (marks : parser.Marks mark)
    (transform : β → γ) : (parser.map transform).Marks mark where
  reads := by
    intro cursor stands
    obtain ⟨value, read⟩ := marks.reads stands
    exact ⟨transform value, by rw [outcome_map, read, Outcome.map_success]⟩
  fails other := failsAt_map_iff.mpr (marks.fails other)

/-- A pair of brackets around what `inner` reads, or else nothing. -/
def layer (opening : Parser Char β) (closing : Parser Char γ) (wrap : α → α) (base : α)
    (inner : Parser Char α) : Parser Char α :=
  (((opening.andThen (Parser.lazy fun _ => inner)).followedBy closing).map wrap).orElse
    (Parser.pure base)

/-- The outcome by the numbers of brackets: a value for the number of opening ones. -/
def counted (value : Nat → α) (cursor : Cursor Char) : Outcome Char α :=
  if openings cursor.rest ≤ closings cursor.rest then
    .success (value (openings cursor.rest)) (cursor.advance (2 * openings cursor.rest))
  else .success (value 0) cursor

section Counted

variable {opening : Parser Char β} {closing : Parser Char γ} {wrap : α → α} {value : Nat → α}

/-- One level counts the brackets if the level inside does. -/
theorem outcome_layer (opens : opening.Marks '(') (closes : closing.Marks ')')
    (wraps : ∀ count, wrap (value count) = value (count + 1)) {inner : Parser Char α}
    {cursor : Cursor Char}
    (further : cursor.rest.head? = some '(' →
      inner.outcome cursor.next = counted value cursor.next) :
    (layer opening closing wrap (value 0) inner).outcome cursor = counted value cursor := by
  rw [layer, outcome_orElse, outcome_map, followedBy, outcome_bind, andThen, outcome_bind, lazy_eq,
    outcome_pure]
  by_cases stands : cursor.rest.head? = some '('
  · obtain ⟨marker, opened⟩ := opens.reads stands
    obtain ⟨text, shape⟩ := List.head?_eq_some_iff.mp stands
    have behind : cursor.next.rest = text := by rw [Cursor.rest_next, shape, List.tail_cons]
    have oneMore : openings cursor.rest = openings cursor.next.rest + 1 := by
      rw [shape, behind, openings_cons]
    have same : closings cursor.rest = closings cursor.next.rest := by
      rw [shape, behind, closings_cons]
    rw [opened, Outcome.bind_success, further stands, counted, counted, oneMore, same]
    by_cases enough : openings cursor.next.rest ≤ closings cursor.next.rest
    · rw [if_pos enough, Outcome.bind_success, outcome_map]
      have closed_iff := head?_drop_brackets_iff enough
      rw [← Cursor.rest_advance] at closed_iff
      by_cases closed : openings cursor.next.rest < closings cursor.next.rest
      · obtain ⟨marker, read⟩ := closes.reads (closed_iff.mpr closed)
        have place := Cursor.advance_advance cursor.next (2 * openings cursor.next.rest) 1
        rw [read, if_pos (Nat.succ_le_of_lt closed), Outcome.map_success, Outcome.map_success,
          Outcome.orElse_success, wraps]
        exact congrArg _ place
      · -- The level inside has used up the closing brackets, and there is none left for this one.
        obtain ⟨reason, failed⟩ := closes.fails (mt closed_iff.mp closed)
        rw [failed, if_neg (mt Nat.lt_of_succ_le closed)]
        rfl
    · -- The level inside has read nothing, so that another opening bracket stands here.
      have unclosed : cursor.next.rest.head? ≠ some ')' := by
        intro closed
        refine enough ?_
        rw [openings_of_ne (by rw [closed]; decide)]
        exact Nat.zero_le _
      obtain ⟨reason, failed⟩ := closes.fails unclosed
      rw [if_neg enough, Outcome.bind_success, outcome_map, failed,
        if_neg (mt Nat.le_of_succ_le enough)]
      rfl
  · obtain ⟨reason, failed⟩ := opens.fails stands
    rw [failed, counted, openings_of_ne stands, if_pos (Nat.zero_le _)]
    rfl

/-- As deep as there are elements left, the levels count the brackets. -/
theorem outcome_level (value : Nat → α) (level : Nat → Parser Char α) (opens : opening.Marks '(')
    (closes : closing.Marks ')') (wraps : ∀ count, wrap (value count) = value (count + 1))
    (unrolls : ∀ depth, level (depth + 1) = layer opening closing wrap (value 0) (level depth))
    {depth : Nat} {cursor : Cursor Char} (deep : cursor.left < depth) :
    (level depth).outcome cursor = counted value cursor := by
  induction depth generalizing cursor with
  | zero => exact absurd deep (Nat.not_lt_zero _)
  | succ depth ih =>
    rw [unrolls]
    refine outcome_layer opens closes wraps fun stands => ih ?_
    have nonempty : cursor.left ≠ 0 := by
      rw [← Cursor.length_rest]
      intro empty
      rw [List.length_eq_zero_iff.mp empty] at stands
      cases stands
    rw [Cursor.left_next]
    omega

end Counted

theorem guarded_layer {opening : Parser Char β} (opens : opening.Consuming)
    (closing : Parser Char γ) (wrap : α → α) (base : α) :
    Guarded (layer opening closing wrap base) := by
  intro first second cursor same
  have inside := opens.andThen_run_congr same
  unfold layer orElse Parser.map followedBy Parser.bind
  dsimp only [lazy_eq]
  rw [inside]

/-- One level of the rule that counts the levels. -/
def nestingLayer (inner : Parser Char Nat) : Parser Char Nat :=
  layer (element '(') (element ')') (· + 1) 0 inner

/-- The rule as a parser that refers to itself: how deep the brackets are nested. -/
def nestingDepth : Parser Char Nat := recursive nestingLayer

theorem nestingDepth_eq : nestingDepth = nestingLayer nestingDepth :=
  Guarded.recursive_eq (guarded_layer (consuming_satisfy _) _ _ _)

theorem outcome_nestingDepth (cursor : Cursor Char) :
    nestingDepth.outcome cursor = counted id cursor :=
  outcome_level id (unrolled nestingLayer) (marks_element _) (marks_element _) (fun _ => rfl)
    (fun _ => rfl) (Nat.lt_succ_self cursor.left)

end Parser

namespace Grammar

variable {κ : Type}

/-- The rule in a table of rules, under the given name. -/
def brackets (name : String) (payload : κ) : Grammar Char κ :=
  .orElse
    (.map (.followedBy (.andThen (.element '(') (.ref name)) (.element ')')) .wrap)
    (.pure payload)

end Grammar

/-- A constant in as many wrappings. -/
def Value.wrappings {κ : Type} (payload : κ) : Nat → Value Char κ
  | 0 => .constant payload
  | pairs + 1 => .wrapped (wrappings payload pairs)

section Rules

variable {κ : Type}

/-- Each reference to the rule is one more level of it. -/
theorem Rules.parser_brackets {rules : Rules Char κ} {name : String} {payload : κ}
    (found : rules.find? name = some (.brackets name payload)) (depth : Nat) :
    rules.parser (depth + 1) name =
      Parser.layer ((Parser.element '(').map (Value.element : Char → Value Char κ))
        ((Parser.element ')').map (Value.element : Char → Value Char κ)) .wrapped
        (.constant payload) (rules.parser depth name) := by
  rw [Rules.parser, found]
  rfl

theorem Rules.lt_depthAt {rules : Rules Char κ} {name : String} {body : Grammar Char κ}
    (found : rules.find? name = some body) (cursor : Cursor Char) :
    cursor.left < rules.depthAt cursor := by
  have nonempty : 1 ≤ rules.length := by
    cases rules with
    | nil => cases found
    | cons rule others => exact Nat.succ_le_succ (Nat.zero_le _)
  have enough := Nat.mul_le_mul_right (cursor.left + 1) nonempty
  unfold Rules.depthAt
  omega

end Rules

/-- The outcome is a success with the value for the number of opening brackets, behind as many
closing ones, or else, where these are too few, with the value for none and behind nothing. -/
structure Outcome.Counts {α : Type} (value : Nat → α) (cursor : Cursor Char)
    (outcome : Outcome Char α) : Prop where
  balanced : openings cursor.rest ≤ closings cursor.rest → ∃ after,
    outcome = .success (value (openings cursor.rest)) after ∧ after.source = cursor.source ∧
      after.position = cursor.position + 2 * openings cursor.rest
  unbalanced : closings cursor.rest < openings cursor.rest → outcome = .success (value 0) cursor

theorem Parser.counts_counted {α : Type} (value : Nat → α) (cursor : Cursor Char) :
    (Parser.counted value cursor).Counts value cursor where
  balanced enough := by
    have within := openings_add_closings_le cursor.rest
    rw [Cursor.length_rest] at within
    exact ⟨_, if_pos enough, Cursor.source_advance .., Cursor.position_advance (by omega)⟩
  unbalanced few := if_neg (Nat.not_le_of_lt few)

/-- The rule counts nested brackets, both as a parser that refers to itself and as a rule of a
grammar, whatever else the table of rules may hold. -/
theorem brackets_count :
    Parser.nestingDepth = Parser.nestingLayer Parser.nestingDepth ∧
      (∀ cursor, (Parser.nestingDepth.outcome cursor).Counts id cursor) ∧
      ∀ {κ : Type} (rules : Rules Char κ) (name : String) (payload : κ),
        rules.find? name = some (.brackets name payload) → ∀ cursor,
          (rules.run (.ref name) cursor).outcome.Counts (Value.wrappings payload) cursor := by
  refine ⟨Parser.nestingDepth_eq, fun cursor => ?_, fun rules name payload found cursor => ?_⟩
  · rw [Parser.outcome_nestingDepth]
    exact Parser.counts_counted id cursor
  · have ran : (rules.run (.ref name) cursor).outcome =
        Parser.counted (Value.wrappings payload) cursor :=
      Parser.outcome_level (Value.wrappings payload) (rules.parser · name)
        ((Parser.marks_element _).map _) ((Parser.marks_element _).map _) (fun _ => rfl)
        (Rules.parser_brackets found) (Rules.lt_depthAt found cursor)
    rw [ran]
    exact Parser.counts_counted _ cursor

/-- Behind two pairs of brackets a letter is left. Where a closing bracket is missing, the inner
pair is given up together with the outer one. -/
theorem brackets_count_unclosed :
    let rules : Rules Char Unit := [("letter", .any), ("nest", .brackets "nest" ())]
    let closed := Cursor.start "(())x".toList.toArray
    let unclosed := Cursor.start "(()".toList.toArray
    rules.find? "nest" = some (.brackets "nest" ()) ∧
      (∃ after, (rules.run (.ref "nest") closed).outcome =
        .success (.wrapped (.wrapped (.constant ()))) after ∧ after.position = 4) ∧
      (rules.run (.ref "nest") unclosed).outcome = .success (.constant ()) unclosed ∧
      Parser.nestingDepth.outcome unclosed = .success 0 unclosed := by
  intro rules closed unclosed
  have found : rules.find? "nest" = some (.brackets "nest" ()) := rfl
  have fewer : closings unclosed.rest < openings unclosed.rest := by decide
  obtain ⟨-, counts, countsRule⟩ := brackets_count
  obtain ⟨after, ran, -, place⟩ :=
    (countsRule rules "nest" () found closed).balanced (by decide)
  exact ⟨found, ⟨after, ran, place⟩, (countsRule rules "nest" () found unclosed).unbalanced fewer,
    (counts unclosed).unbalanced fewer⟩

end DocCoverage
