import DocCoverage.Proofs.Coverage.Names

/-!
# Declarations by position

The names of a text, said by the places in it. From a place on, the nearest declaration is taken,
wherever it begins, and the next one is looked for right behind the bracket that ends its name.
Nothing depends on what stands in front of a declaration: neither a letter nor a space there makes a
difference.
-/

namespace DocCoverage.Declaration

open Text (Solid)

section Positions

variable {text name rest : List Char} {found : List String} {index first last : Nat}

/-- A declaration of `name` begins at the place `first` of the text, and the place `last` is the one
right behind the bracket that ends its name. -/
structure MatchesAt (text : List Char) (first : Nat) (name : List Char) (last : Nat) : Prop where
  within : last ≤ text.length
  declares : Declares (text.drop first) name (text.drop last)

/-- The names that are found from a place on: the nearest declaration that does not begin before it,
and then those from the place behind that declaration on. -/
inductive ScansFrom (text : List Char) : Nat → List String → Prop where
  | found {index first last : Nat} {name : List Char} {names : List String}
      (behind : index ≤ first)
      (nearest : ∀ place, index ≤ place → place < first → ∀ name last,
        ¬ MatchesAt text place name last)
      (matched : MatchesAt text first name last) (later : ScansFrom text last names) :
      ScansFrom text index (String.ofList name :: names)
  | finished {index : Nat}
      (none : ∀ place, index ≤ place → ∀ name last, ¬ MatchesAt text place name last) :
      ScansFrom text index []

/-- What stands behind a declaration ends the text. -/
theorem Declares.suffix (declares : Declares text name rest) : rest <:+ text := by
  obtain ⟨_, _, _, _, _, _, _⟩ := declares
  simp only [List.append_cons _ _ rest, ← List.append_assoc]
  exact List.suffix_append _ rest

theorem Declares.exists_matchesAt (declares : Declares (text.drop first) name rest) :
    ∃ last, rest = text.drop last ∧ MatchesAt text first name last := by
  have ends : rest <:+ text := declares.suffix.trans (List.drop_suffix first text)
  have shape := List.suffix_iff_eq_drop.mp ends
  refine ⟨_, shape, Nat.sub_le .., ?_⟩
  rwa [← shape]

theorem match?_drop_eq_none_iff :
    match? (text.drop first) = none ↔ ∀ name last, ¬ MatchesAt text first name last := by
  rw [match?_eq_none_iff]
  constructor
  · exact fun undeclared name last matched => undeclared name _ matched.declares
  · intro unmatched name rest declares
    obtain ⟨last, -, matched⟩ := declares.exists_matchesAt
    exact unmatched name last matched

/-- Places where nothing begins can be passed over. -/
theorem Leftmost.of_unmatched (behind : index ≤ first)
    (unmatched : ∀ place, index ≤ place → place < first → match? (text.drop place) = none)
    (leftmost : Leftmost (text.drop first) found) : Leftmost (text.drop index) found := by
  induction behind with
  | refl => exact leftmost
  | @step first behind ih =>
    have here := unmatched first behind (Nat.lt_succ_self first)
    refine ih (fun place after before => unmatched place after (Nat.lt_succ_of_lt before)) ?_
    rw [← List.tail_drop] at leftmost
    cases shape : text.drop first with
    | nil =>
      rw [shape] at leftmost
      exact leftmost
    | cons char rest =>
      rw [shape] at leftmost here
      exact .passed here leftmost

theorem ScansFrom.leftmost (scans : ScansFrom text index found) :
    Leftmost (text.drop index) found := by
  induction scans with
  | found behind nearest matched later ih =>
    refine .of_unmatched behind (fun place after before => ?_)
      (.found (match?_eq_some_iff.mpr matched.declares) ih)
    exact match?_drop_eq_none_iff.mpr (nearest place after before)
  | @finished index none =>
    refine .of_unmatched (Nat.le_add_right index text.length) (fun place after _ => ?_) ?_
    · exact match?_drop_eq_none_iff.mpr (none place after)
    · rw [List.drop_of_length_le (Nat.le_add_left ..)]
      exact .nil

/-- A scan that finds nothing at its first place goes on behind it. -/
theorem ScansFrom.of_unmatched (unmatched : match? (text.drop index) = none)
    (scans : ScansFrom text (index + 1) found) : ScansFrom text index found := by
  have here := match?_drop_eq_none_iff.mp unmatched
  cases scans with
  | found behind nearest matched later =>
    refine .found (Nat.le_of_succ_le behind) (fun place after before => ?_) matched later
    rcases Nat.eq_or_lt_of_le after with rfl | further
    · exact here
    · exact nearest place further before
  | finished none =>
    refine .finished fun place after => ?_
    rcases Nat.eq_or_lt_of_le after with rfl | further
    · exact here
    · exact none place further

theorem Leftmost.scansFrom (leftmost : Leftmost rest found) (shape : text.drop index = rest) :
    ScansFrom text index found := by
  induction leftmost generalizing index with
  | nil =>
    refine .finished fun place after => match?_drop_eq_none_iff.mp ?_
    rw [List.drop_of_length_le (Nat.le_trans (List.drop_eq_nil_iff.mp shape) after)]
    rfl
  | found matched others ih =>
    subst shape
    obtain ⟨last, rfl, here⟩ := (match?_eq_some_iff.mp matched).exists_matchesAt
    refine .found (Nat.le_refl index) (fun place after before => ?_) here (ih rfl)
    exact absurd after (Nat.not_le_of_lt before)
  | passed unmatched others ih =>
    refine .of_unmatched (shape ▸ unmatched) (ih ?_)
    rw [← List.tail_drop, shape, List.tail_cons]

/-- Scanning from place to place is taking the leftmost declarations. -/
theorem scansFrom_iff : ScansFrom text index found ↔ Leftmost (text.drop index) found :=
  ⟨ScansFrom.leftmost, fun leftmost => leftmost.scansFrom rfl⟩

/-- What stands in front of a declaration does not matter. -/
theorem matchesAt_append_iff (front : List Char) :
    MatchesAt (front ++ text) (front.length + first) name (front.length + last) ↔
      MatchesAt text first name last := by
  constructor
  · rintro ⟨within, declares⟩
    rw [List.length_append, Nat.add_le_add_iff_left] at within
    rw [List.drop_length_add_append, List.drop_length_add_append] at declares
    exact ⟨within, declares⟩
  · rintro ⟨within, declares⟩
    refine ⟨?_, ?_⟩
    · rw [List.length_append]
      exact Nat.add_le_add_left within front.length
    · rwa [List.drop_length_add_append, List.drop_length_add_append]

end Positions

section Bare

variable {text : List Char}

/-- The declaration of a public function, without the spaces that may stand in front of it. -/
def bareFunction : Parser Char String :=
  ((keyword "public").andThen ((keyword "func").andThen
    (Parser.any.manyTill (Parser.satisfy endsName)))).map String.ofList

/-- Declarations and characters in between, where no spaces are skipped in front of a
declaration. -/
def bareScanner : Parser Char (List (Option String)) :=
  ((bareFunction.map some).orElse (Parser.any.map fun _ => none)).many

/-- What the scanner does at a place where it skips no spaces. -/
def bareFound? : Reading Char (Option String) := fun text =>
  ((match? text).map fun (name, rest) => (some (String.ofList name), rest)).or
    ((Reading.satisfy (fun _ => true) text).map fun (_, rest) => (none, rest))

theorem reads_bareFunction : bareFunction.Reads fun text =>
    (match? text).map fun (name, rest) => (String.ofList name, rest) := by
  refine (((reads_keyword "public").andThen ((reads_keyword "func").andThen
    (Parser.reads_satisfy endsName).any_manyTill)).map _).congr fun text => ?_
  rw [match?_eq]
  simp only [Option.bind_map, Function.comp_def]

theorem reads_bareScanner :
    bareScanner.Reads fun text => some (Reading.many bareFound? text) := by
  refine ((reads_bareFunction.map some).orElse (Parser.reads_any.map _)).many.congr fun text => ?_
  unfold bareFound?
  simp only [Option.map_map, Function.comp_def]

theorem picks_bareFound? (text : List Char) : Picks bareFound? text := by
  cases matched : match? text with
  | some found =>
    refine .found (List.nil_append text) (List.forall_mem_nil _) matched ?_
    simp [bareFound?, matched]
  | none =>
    cases text with
    | nil => exact .nil rfl
    | cons char rest => exact .passed matched (by simp [bareFound?, matched, Reading.satisfy])

/-- Skipping the spaces in front of a declaration makes no difference to the names. -/
theorem exists_bareScanner (text : String) :
    ∃ found after,
      bareScanner.outcome (Cursor.start text.toList.toArray) = .success found after ∧
        found.filterMap id = names text := by
  have start : (Cursor.start text.toList.toArray).rest = text.toList := Cursor.rest_start _
  obtain ⟨after, succeeded, -, -⟩ :=
    reads_bareScanner.success (congrArg (fun text => some (Reading.many bareFound? text)) start)
  have leftmost := leftmost_many_of_picks picks_bareFound? text.toList
  exact ⟨_, after, succeeded, (names_eq_iff.mpr leftmost).symm⟩

end Bare

section Names

variable {text name rest : List Char} {found : List String}

theorem endsName_eq_false_iff {char : Char} : endsName char = false ↔ char ≠ '<' ∧ char ≠ '(' := by
  simp only [endsName, Bool.or_eq_false_iff, beq_eq_false_iff_ne]

theorem Declares.solid (declares : Declares text name rest) : Solid name := by
  cases declares
  assumption

theorem Declares.plain (declares : Declares text name rest) :
    ∀ char ∈ name, endsName char = false := by
  cases declares
  assumption

/-- Each of the names is the name of a declaration. -/
theorem Leftmost.exists_declares {taken : String} (leftmost : Leftmost text found)
    (member : taken ∈ found) : ∃ text rest, Declares text taken.toList rest := by
  induction leftmost with
  | nil => cases member
  | found matched others ih =>
    rcases List.mem_cons.mp member with rfl | later
    · rw [String.toList_ofList]
      exact ⟨_, _, match?_eq_some_iff.mp matched⟩
    · exact ih later
  | passed unmatched others ih => exact ih member

/-- The names of a text, by the places in it. -/
structure NamedByPlace (text : String) : Prop where
  scans : ∀ found, names text = found ↔ ScansFrom text.toList 0 found
  /-- Skipping the spaces in front of a declaration makes no difference. -/
  unskipped : ∃ found after,
    bareScanner.outcome (Cursor.start text.toList.toArray) = .success found after ∧
      found.filterMap id = names text
  /-- A declaration may begin behind anything, also in the middle of a word. -/
  anywhere : ∀ (front name : List Char) (first last : Nat),
    MatchesAt (front ++ text.toList) (front.length + first) name (front.length + last) ↔
      MatchesAt text.toList first name last
  /-- A declaration without a bracket behind it is none, and those in front of it stay. -/
  unended : ∀ tail : List Char, (∀ char ∈ tail, char ≠ '<' ∧ char ≠ '(') →
    names (String.ofList (text.toList ++ tail)) = names text
  solid : ∀ name ∈ names text, Solid name.toList
  bracketless : ∀ name ∈ names text, ∀ char ∈ name.toList, char ≠ '<' ∧ char ≠ '('

theorem names_by_place (text : String) : NamedByPlace text where
  scans found := by
    rw [names_eq_iff, scansFrom_iff, List.drop_zero]
  unskipped := exists_bareScanner text
  anywhere front name first last := matchesAt_append_iff front
  unended tail plain := by
    have named : names (String.ofList (text.toList ++ tail)) = names (String.ofList text.toList) :=
      names_append_plain fun char member => endsName_eq_false_iff.mpr (plain char member)
    rwa [String.ofList_toList] at named
  solid name member := by
    obtain ⟨_, _, declares⟩ := (names_eq_iff.mp rfl).exists_declares member
    exact declares.solid
  bracketless name member char inside := by
    obtain ⟨_, _, declares⟩ := (names_eq_iff.mp rfl).exists_declares member
    exact endsName_eq_false_iff.mp (declares.plain char inside)

/-- The first word of the one function is the end of a longer word, and the other function has no
bracket behind its name. -/
theorem names_by_place_within_word : names "xpublic func a(\npublic func b" = ["a"] := by
  have unended := (names_by_place "xpublic func a(").unended "\npublic func b".toList (by simp)
  refine unended.trans (names_eq_iff.mpr ?_)
  exact .passed (by decide) (.found (by decide) .nil)

end Names

end DocCoverage.Declaration
