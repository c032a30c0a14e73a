import DocCoverage.Coverage.Check
import DocCoverage.Proofs.Coverage.Names
import DocCoverage.Proofs.Token.Segments

/-!
# Each text is attributed by itself

The coverage of a list of tokens is put together from what each text declares. All that a text
takes from the tokens around it is whether the one right before it is a documentation comment. So
what is documented and what is not can be said index by index, without going through the list.
-/

namespace DocCoverage.Coverage

attribute [ext] Coverage

/-- The functions of one list of tokens and then those of another. -/
def append (first second : Coverage) : Coverage :=
  ⟨first.documented + second.documented, first.undocumented ++ second.undocumented⟩

instance : Append Coverage := ⟨append⟩

/-- What a token adds; `credit` says whether a documentation comment stands right before it. -/
def own (credit : Bool) : Token → Coverage
  | .text content => empty.add credit (Declaration.names content)
  | .comment _ | .stringLiteral _ => empty

/-- What a list of tokens adds. -/
def contribution (credit : Bool) : List Token → Coverage
  | [] => empty
  | token :: tokens => own credit token ++ contribution token.isDoc tokens

/-- Whether the last of the tokens is a documentation comment, or, without tokens, what stands in
front of them. -/
def creditAfter (credit : Bool) (tokens : List Token) : Bool :=
  (tokens.getLast?.map Token.isDoc).getD credit

section Append

variable (first second third : Coverage)

@[simp] theorem documented_append :
    (first ++ second).documented = first.documented + second.documented := rfl

@[simp] theorem undocumented_append :
    (first ++ second).undocumented = first.undocumented ++ second.undocumented := rfl

@[simp] theorem empty_append : empty ++ first = first := by
  ext1
  · exact Nat.zero_add _
  · exact List.nil_append _

@[simp] theorem append_empty : first ++ empty = first := by
  ext1
  · rfl
  · exact List.append_nil _

theorem append_assoc : first ++ second ++ third = first ++ (second ++ third) := by
  ext1
  · exact Nat.add_assoc ..
  · exact List.append_assoc ..

end Append

section Names

variable {credit : Bool} {names more : List String} {name : String}

theorem add_eq_append (coverage : Coverage) (credit : Bool) (names : List String) :
    coverage.add credit names = coverage ++ empty.add credit names := by
  cases names with
  | nil => exact (append_empty _).symm
  | cons name names =>
    cases credit with
    | true =>
      ext1
      · exact congrArg (coverage.documented + ·) (Nat.zero_add 1).symm
      · exact congrArg (coverage.undocumented ++ ·) (List.nil_append names).symm
    | false => rfl

/-- Without a documentation comment in front no function is documented. -/
theorem add_false (names : List String) : empty.add false names = ⟨0, names⟩ := by
  cases names <;> rfl

/-- Only the first of the names can be documented. -/
theorem add_append (settled : credit = true → names ≠ []) :
    empty.add credit (names ++ more) = empty.add credit names ++ ⟨0, more⟩ := by
  cases credit with
  | false =>
    rw [add_false, add_false]
    rfl
  | true =>
    obtain ⟨name, names, rfl⟩ := List.exists_cons_of_ne_nil (settled rfl)
    rfl

end Names

/-- Going on over more tokens adds what they contribute. -/
theorem value_scan (coverage : Coverage) (credit : Bool) (tokens : List Token) :
    (scan coverage credit tokens).value = coverage ++ contribution credit tokens := by
  induction tokens generalizing coverage credit with
  | nil => exact (append_empty coverage).symm
  | cons token tokens ih =>
    cases token with
    | comment content =>
      rw [scan, ih]
      exact congrArg (coverage ++ ·) (empty_append _).symm
    | stringLiteral content =>
      rw [scan, ih]
      exact congrArg (coverage ++ ·) (empty_append _).symm
    | text content =>
      rw [scan, Log.Logged.value_bind, ih]
      change coverage.add credit (Declaration.names content) ++ _ = _
      rw [add_eq_append, append_assoc]
      rfl

/-- At the beginning there is no documentation comment to count on. -/
theorem check_eq (tokens : List Token) : check tokens = contribution false tokens := by
  unfold check checkLogged
  rw [Log.Logged.value_bind, Log.Logged.value_bind]
  exact (value_scan empty false tokens).trans (empty_append _)

theorem contribution_text (credit : Bool) (content : String) (tokens : List Token) :
    contribution credit (.text content :: tokens) =
      empty.add credit (Declaration.names content) ++ contribution false tokens := rfl

theorem contribution_comment (credit : Bool) (content : String) (tokens : List Token) :
    contribution credit (.comment content :: tokens) =
      contribution (Token.comment content).isDoc tokens := empty_append _

theorem creditAfter_cons (credit : Bool) (token : Token) (tokens : List Token) :
    creditAfter credit (token :: tokens) = creditAfter token.isDoc tokens := by
  unfold creditAfter
  cases tokens with
  | nil => rfl
  | cons next tokens =>
    rw [List.getLast?_cons_cons, List.getLast?_eq_some_getLast (List.cons_ne_nil _ _)]
    rfl

theorem contribution_append (credit : Bool) (first second : List Token) :
    contribution credit (first ++ second) =
      contribution credit first ++ contribution (creditAfter credit first) second := by
  induction first generalizing credit with
  | nil => exact (empty_append _).symm
  | cons token tokens ih =>
    rw [List.cons_append, contribution, ih, creditAfter_cons, contribution, append_assoc]

theorem contribution_leftover (credit : Bool) (text : List Char) :
    contribution credit (Token.leftover text) =
      empty.add credit (Declaration.names (String.ofList text)) := by
  unfold Token.leftover
  split
  · next blank =>
    rw [blank, Declaration.names_ofList_eq_iff.mpr .nil]
    rfl
  · exact append_empty _

section Index

/-- The public functions that a token declares. -/
def declared : Token → List String
  | .text content => Declaration.names content
  | .comment _ | .stringLiteral _ => []

/-- The public functions that the token at an index declares. -/
def declaredAt (tokens : List Token) (index : Nat) : List String :=
  (tokens[index]?.map declared).getD []

/-- Whether a documentation comment stands right before the token at an index; `credit` says it of
the first token. -/
def creditAt (credit : Bool) (tokens : List Token) : Nat → Bool
  | 0 => credit
  | index + 1 => tokens[index]?.any Token.isDoc

/-- What is left of the names when the first one is documented if `credit` says so. -/
def remaining (credit : Bool) (names : List String) : List String :=
  if credit then names.tail else names

variable {credit : Bool} {token : Token} {tokens : List Token}

theorem creditAt_cons (index : Nat) :
    creditAt credit (token :: tokens) (index + 1) = creditAt token.isDoc tokens index := by
  cases index <;> rfl

theorem own_eq (credit : Bool) (token : Token) :
    own credit token = empty.add credit (declared token) := by
  cases token <;> rfl

theorem undocumented_add (credit : Bool) (names : List String) :
    (empty.add credit names).undocumented = remaining credit names := by
  cases names <;> cases credit <;> rfl

theorem documented_add (credit : Bool) (names : List String) :
    (empty.add credit names).documented = if credit && !names.isEmpty then 1 else 0 := by
  cases names <;> cases credit <;> rfl

/-- Every function is either documented or not. -/
theorem documented_add_undocumented (credit : Bool) (names : List String) :
    (empty.add credit names).documented + (empty.add credit names).undocumented.length =
      names.length := by
  cases names with
  | nil => rfl
  | cons name names =>
    cases credit with
    | true => exact Nat.add_comm ..
    | false => exact Nat.zero_add _

theorem undocumented_contribution (credit : Bool) (tokens : List Token) :
    (contribution credit tokens).undocumented = (List.range tokens.length).flatMap fun index =>
      remaining (creditAt credit tokens index) (declaredAt tokens index) := by
  induction tokens generalizing credit with
  | nil => rfl
  | cons token tokens ih =>
    rw [contribution, undocumented_append, own_eq, undocumented_add, ih, List.length_cons,
      List.range_succ_eq_map, List.flatMap_cons, List.flatMap_map]
    simp only [creditAt_cons]
    rfl

theorem documented_contribution (credit : Bool) (tokens : List Token) :
    (contribution credit tokens).documented = (List.range tokens.length).countP fun index =>
      creditAt credit tokens index && !(declaredAt tokens index).isEmpty := by
  induction tokens generalizing credit with
  | nil => rfl
  | cons token tokens ih =>
    rw [contribution, documented_append, own_eq, documented_add, ih, List.length_cons,
      List.range_succ_eq_map, List.countP_cons, List.countP_map, Nat.add_comm]
    simp only [Function.comp_def, creditAt_cons]
    rfl

theorem documented_add_contribution (credit : Bool) (tokens : List Token) :
    (contribution credit tokens).documented + (contribution credit tokens).undocumented.length =
      (tokens.flatMap declared).length := by
  induction tokens generalizing credit with
  | nil => rfl
  | cons token tokens ih =>
    have here := documented_add_undocumented credit (declared token)
    have later := ih token.isDoc
    rw [contribution, own_eq, documented_append, undocumented_append, List.length_append,
      List.flatMap_cons, List.length_append]
    omega

/-- What the coverage of a list of tokens is, index by index. -/
structure Attributes (tokens : List Token) (coverage : Coverage) : Prop where
  /-- The names of each text in order, without the first one where a documentation comment stands
  right before the text. -/
  undocumented : coverage.undocumented = (List.range tokens.length).flatMap fun index =>
    remaining (creditAt false tokens index) (declaredAt tokens index)
  /-- The texts that have names and a documentation comment right before them. -/
  documented : coverage.documented = (List.range tokens.length).countP fun index =>
    creditAt false tokens index && !(declaredAt tokens index).isEmpty
  /-- No function is left out or counted twice. -/
  total : coverage.documented + coverage.undocumented.length = (tokens.flatMap declared).length
  /-- More tokens add what they have, unless a documentation comment stands right before them. -/
  append : (∀ last ∈ tokens.getLast?, last.isDoc = false) → ∀ more,
    check (tokens ++ more) = coverage ++ check more

theorem check_attributes (tokens : List Token) : Attributes tokens (check tokens) where
  undocumented := by rw [check_eq, undocumented_contribution]
  documented := by rw [check_eq, documented_contribution]
  total := by rw [check_eq, documented_add_contribution]
  append uncredited more := by
    have apart : creditAfter false tokens = false := by
      unfold creditAfter
      cases last : tokens.getLast? with
      | none => rfl
      | some token => exact uncredited token last
    simp only [check_eq, contribution_append, apart]

/-- The comment documents the function of the text behind it, and not the one of the next text. -/
theorem check_attributes_adjacent :
    check [.comment "/// a", .text "public func a(", .text "public func b("] = ⟨1, ["b"]⟩ := by
  have first : Declaration.names "public func a(" = ["a"] :=
    Declaration.names_eq_iff.mpr (.found (by decide) .nil)
  have second : Declaration.names "public func b(" = ["b"] :=
    Declaration.names_eq_iff.mpr (.found (by decide) .nil)
  have apart := (check_attributes [.comment "/// a", .text "public func a("]).append (by decide)
    [.text "public func b("]
  refine apart.trans ?_
  simp only [check_eq, contribution, own, first, second]
  rfl

end Index

end DocCoverage.Coverage
