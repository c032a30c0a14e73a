import DocCoverage.Coverage.Leftmost
import DocCoverage.Proofs.Parser.Reading

/-!
# Names are the leftmost declarations

The names of a text are found by trying a declaration at every place. `Declares` says how a
declaration is written, `match?` recognizes exactly what is written so, and the names are those of
the leftmost matches. What stands around a text matters little: spaces in front of it or behind it
declare nothing.
-/

namespace DocCoverage.Declaration

open Text (Spaces Solid)

/-- The text begins with a declaration of `name`, and `rest` stands behind it. -/
inductive Declares : (text name rest : List Char) → Prop where
  | intro {gap gap' name rest : List Char} {bracket : Char}
      (spaces : Spaces gap) (some : gap ≠ []) (spaces' : Spaces gap') (some' : gap' ≠ [])
      (solid : Solid name) (plain : ∀ char ∈ name, endsName char = false)
      (ends : endsName bracket = true) :
      Declares ("public".toList ++ (gap ++ ("func".toList ++ (gap' ++ (name ++ bracket :: rest)))))
        name rest

section Match

variable {word text name rest : List Char}

/-- A word and the spaces behind it, all of them. -/
theorem afterWord?_eq_some_iff :
    afterWord? word text = some rest ↔
      ∃ gap, text = word ++ (gap ++ rest) ∧ Spaces gap ∧ gap ≠ [] ∧ Solid rest := by
  unfold afterWord?
  constructor
  · intro read
    split at read
    · next space tail shape =>
      simp only [Option.ite_none_right_eq_some, List.isPrefixOf_iff_prefix, Option.some.injEq]
        at read
      obtain ⟨⟨begins, spaced⟩, rfl⟩ := read
      have spaces : Spaces (space :: tail.takeWhile Text.isSpace) :=
        List.forall_mem_cons.mpr ⟨spaced, Text.spaces_takeWhile tail⟩
      refine ⟨_, ?_, spaces, List.cons_ne_nil _ _, Text.solid_dropWhile tail⟩
      rw [List.cons_append, List.takeWhile_append_dropWhile, ← shape]
      exact (List.prefix_iff_eq_append.mp begins).symm
    · cases read
  · rintro ⟨gap, rfl, spaces, some, solid⟩
    obtain ⟨space, gap, rfl⟩ := List.exists_cons_of_ne_nil some
    obtain ⟨spaced, spaces⟩ := List.forall_mem_cons.mp spaces
    rw [List.drop_left, List.cons_append]
    dsimp only
    rw [if_pos ⟨List.isPrefixOf_iff_prefix.mpr (List.prefix_append ..), spaced⟩,
      Text.dropWhile_append spaces solid]

/-- A declaration is two words and a name that ends with a bracket. -/
theorem match?_eq (text : List Char) :
    match? text = (afterWord? "public".toList text).bind fun declared =>
      (afterWord? "func".toList declared).bind (Reading.satisfy endsName).upTo := by
  unfold match?
  simp only [Option.bind_eq_bind]
  congr 1
  funext declared
  congr 1
  funext named
  rw [Reading.upTo_satisfy]
  cases named.dropWhile (!endsName ·) <;> rfl

/-- The brackets that end a name are no spaces. -/
theorem isSpace_of_endsName {char : Char} (ends : endsName char = true) :
    Text.isSpace char = false := by
  simp only [endsName, Bool.or_eq_true, beq_iff_eq] at ends
  rcases ends with rfl | rfl <;> decide

theorem endsName_of_isSpace {char : Char} (space : Text.isSpace char = true) :
    endsName char = false := by
  rw [Bool.eq_false_iff]
  intro ends
  rw [isSpace_of_endsName ends] at space
  cases space

theorem match?_eq_some_iff : match? text = some (name, rest) ↔ Declares text name rest := by
  rw [match?_eq]
  simp only [Option.bind_eq_some_iff, afterWord?_eq_some_iff, Reading.upTo_satisfy_eq_some_iff]
  constructor
  · rintro ⟨declared, ⟨gap, rfl, spaces, some, -⟩, named, ⟨gap', rfl, spaces', some', solid⟩,
      bracket, rfl, plain, ends⟩
    refine .intro spaces some spaces' some' ?_ plain ends
    cases name with
    | nil =>
      intro _ member
      cases member
    | cons => exact solid
  · rintro (@⟨gap, gap', _, _, bracket, spaces, some, spaces', some', solid, plain, ends⟩)
    have solid' : Solid (name ++ bracket :: rest) := by
      cases name with
      | nil => exact Text.solid_cons_iff.mpr (isSpace_of_endsName ends)
      | cons => exact solid
    have word : "func".toList = ['f', 'u', 'n', 'c'] := rfl
    refine ⟨_, ⟨_, rfl, spaces, some, ?_⟩, _, ⟨_, rfl, spaces', some', solid'⟩, bracket, rfl, plain,
      ends⟩
    rw [word]
    exact Text.solid_cons_iff.mpr (by decide)

theorem match?_eq_none_iff : match? text = none ↔ ∀ name rest, ¬ Declares text name rest := by
  rw [Option.eq_none_iff_forall_ne_some, Prod.forall]
  exact forall₂_congr fun _ _ => not_congr match?_eq_some_iff

/-- What stands behind the name is free. -/
theorem Declares.append (declares : Declares text name rest) (more : List Char) :
    Declares (text ++ more) name (rest ++ more) := by
  obtain ⟨spaces, some, spaces', some', solid, plain, ends⟩ := declares
  simp only [List.append_assoc, List.cons_append]
  exact .intro spaces some spaces' some' solid plain ends

/-- A declaration ends with the first bracket in it. -/
theorem Declares.exists_bracket (declares : Declares text name rest) :
    ∃ front bracket, text = front ++ bracket :: rest ∧ (∀ char ∈ front, endsName char = false) ∧
      endsName bracket = true ∧ ∀ other, Declares (front ++ bracket :: other) name other := by
  obtain @⟨gap, gap', _, _, bracket, spaces, some, spaces', some', solid, plain, ends⟩ := declares
  refine ⟨"public".toList ++ (gap ++ ("func".toList ++ (gap' ++ name))), bracket, ?_, ?_, ends, ?_⟩
  · simp only [List.append_assoc]
  · have letters : (∀ char ∈ "public".toList, endsName char = false) ∧
        ∀ char ∈ "func".toList, endsName char = false := by simp [endsName]
    simp only [List.forall_mem_append]
    exact ⟨letters.1, fun char member => endsName_of_isSpace (spaces char member), letters.2,
      fun char member => endsName_of_isSpace (spaces' char member), plain⟩
  · intro other
    simp only [List.append_assoc]
    exact .intro spaces some spaces' some' solid plain ends

/-- A declaration with more behind the text is one of the text, or has its bracket there and none in
the text. -/
theorem Declares.of_append {tail : List Char} (declares : Declares (text ++ tail) name rest) :
    (∃ rest', Declares text name rest') ∨ (∀ char ∈ text, endsName char = false) ∧
      ∃ front bracket, tail = front ++ bracket :: rest ∧ endsName bracket = true := by
  obtain ⟨front, bracket, shape, plain, ends, free⟩ := declares.exists_bracket
  rcases List.append_eq_append_iff.mp shape with ⟨more, rfl, inTail⟩ | ⟨more, rfl, behind⟩
  · exact .inr ⟨(List.forall_mem_append.mp plain).1, more, bracket, inTail, ends⟩
  · rcases List.cons_eq_append_iff.mp behind with ⟨rfl, inTail⟩ | ⟨rest', rfl, -⟩
    · rw [List.append_nil]
      exact .inr ⟨plain, [], bracket, inTail, ends⟩
    · exact .inl ⟨rest', free rest'⟩

/-- A declaration ends with a bracket, so that none goes on into a text without one. -/
theorem Declares.of_append_plain {tail : List Char} (plain : ∀ char ∈ tail, endsName char = false)
    (declares : Declares (text ++ tail) name rest) : ∃ rest', Declares text name rest' := by
  rcases declares.of_append with here | ⟨-, front, bracket, rfl, ends⟩
  · exact here
  · have bracketless := plain bracket (List.mem_append_right front (List.mem_cons_self ..))
    rw [ends] at bracketless
    cases bracketless

theorem match?_of_plain (plain : ∀ char ∈ text, endsName char = false) : match? text = none := by
  refine match?_eq_none_iff.mpr fun name rest declares => ?_
  have longer : Declares ([] ++ text) name rest := declares
  obtain ⟨rest', nothing⟩ := longer.of_append_plain plain
  cases match?_eq_some_iff.mpr nothing

/-- A declaration begins with its first word. -/
theorem prefix_of_match? {found : List Char × List Char} (matched : match? text = some found) :
    "public".toList <+: text := by
  obtain ⟨name, rest⟩ := found
  obtain ⟨_, _, _, _, _, _, _⟩ := match?_eq_some_iff.mp matched
  exact List.prefix_append ..

theorem length_lt_of_match? (matched : match? text = some (name, rest)) :
    rest.length < text.length := by
  obtain ⟨_, _, _, _, _, _, _⟩ := match?_eq_some_iff.mp matched
  simp only [List.length_append, List.length_cons]
  omega

end Match

section Scanner

theorem reads_keyword (word : String) : (keyword word).Reads fun text =>
    (afterWord? word.toList text).map fun rest => ((), rest) := by
  refine ((Parser.reads_literal word.toList).andThen
    ((Parser.reads_satisfy Text.isSpace).andThen
      (Parser.reads_satisfy Text.isSpace).skipMany)).congr fun text => ?_
  unfold Reading.literal afterWord?
  cases text.drop word.toList.length with
  | nil => split <;> rfl
  | cons space rest =>
    by_cases begins : word.toList.isPrefixOf text = true
    · by_cases spaced : Text.isSpace space = true
      · simp [begins, spaced, Reading.satisfy, Reading.many_satisfy]
      · simp [begins, spaced, Reading.satisfy]
    · simp [begins]

theorem reads_publicFunction : publicFunction.Reads fun text =>
    (match? (text.dropWhile Text.isSpace)).map fun (name, rest) => (String.ofList name, rest) := by
  refine ((((Parser.reads_satisfy Text.isSpace).skipMany).andThen ((reads_keyword "public").andThen
    ((reads_keyword "func").andThen
      (Parser.reads_satisfy endsName).any_manyTill))).map _).congr fun text => ?_
  rw [match?_eq]
  simp only [Reading.many_satisfy, Option.bind_some, Option.bind_map, Function.comp_def]

/-- What the scanner does at a place. -/
def found? : Reading Char (Option String) := fun text =>
  ((match? (text.dropWhile Text.isSpace)).map fun (name, rest) =>
    (some (String.ofList name), rest)).or
      ((Reading.satisfy (fun _ => true) text).map fun (_, rest) => (none, rest))

theorem reads_scanner : scanner.Reads fun text => some (Reading.many found? text) := by
  refine ((reads_publicFunction.map some).orElse (Parser.reads_any.map _)).many.congr fun text => ?_
  unfold found?
  simp only [Option.map_map, Function.comp_def]

theorem names_eq (text : String) :
    names text = (Reading.many found? text.toList).1.filterMap id := by
  have start : (Cursor.start text.toList.toArray).rest = text.toList := Cursor.rest_start _
  obtain ⟨after, succeeded, -, -⟩ :=
    reads_scanner.success (congrArg (fun text => some (Reading.many found? text)) start)
  have ran : (scanner.run (Cursor.start text.toList.toArray)).outcome =
      .success (Reading.many found? text.toList).1 after := succeeded
  unfold names namesLogged
  simp only [Log.Logged.value_bind, Log.Logged.ofAttempt, ran]
  rfl

end Scanner

section Leftmost

variable {text more : List Char} {found others : List String}

/-- A text has only one list of leftmost declarations. -/
theorem Leftmost.unique (one : Leftmost text found) (two : Leftmost text others) :
    found = others := by
  induction one generalizing others with
  | nil =>
    cases two with
    | nil => rfl
    | found matched => cases matched
  | found matched rest ih =>
    cases two with
    | nil => cases matched
    | found matched' rest' =>
      obtain ⟨rfl, rfl⟩ := Prod.mk.inj (Option.some.inj (matched.symm.trans matched'))
      rw [ih rest']
    | passed unmatched' =>
      rw [matched] at unmatched'
      cases unmatched'
  | passed unmatched rest ih =>
    cases two with
    | found matched' =>
      rw [unmatched] at matched'
      cases matched'
    | passed unmatched' rest' => exact ih rest'

/-- No declaration begins with a space. -/
theorem match?_of_space {space : Char} (spaced : Text.isSpace space = true) :
    match? (space :: text) = none := by
  apply Option.eq_none_iff_forall_ne_some.mpr
  intro found matched
  obtain ⟨more, shape⟩ := prefix_of_match? matched
  have letter : 'p' = space := (List.cons.inj shape).1
  rw [← letter] at spaced
  exact absurd spaced (by decide)

/-- Spaces in front of a text declare nothing. -/
theorem Leftmost.spaces_append {gap : List Char} (spaces : Spaces gap)
    (leftmost : Leftmost text found) : Leftmost (gap ++ text) found := by
  induction gap with
  | nil => exact leftmost
  | cons space gap ih =>
    obtain ⟨spaced, spaces⟩ := List.forall_mem_cons.mp spaces
    exact .passed (match?_of_space spaced) (ih spaces)

/-- What a reading that looks for declarations does at a text: it takes the declaration that
stands there, or behind spaces, and passes over a character where there is none. -/
inductive Picks (read : Reading Char (Option String)) : List Char → Prop where
  | nil (refused : read [] = none) : Picks read []
  | found {text gap behind name rest : List Char} (shape : gap ++ behind = text)
      (spaces : Spaces gap) (matched : match? behind = some (name, rest))
      (taken : read text = some (some (String.ofList name), rest)) : Picks read text
  | passed {char : Char} {text : List Char} (unmatched : match? (char :: text) = none)
      (taken : read (char :: text) = some (none, text)) : Picks read (char :: text)

theorem leftmost_many_of_picks {read : Reading Char (Option String)}
    (picks : ∀ text, Picks read text) (text : List Char) :
    Leftmost text ((Reading.many read text).1.filterMap id) := by
  induction measured : text.length using Nat.strongRecOn generalizing text with
  | _ length ih =>
    subst measured
    cases picks text with
    | nil refused =>
      rw [Reading.many_of_none refused]
      exact .nil
    | @found _ gap behind _ rest shape spaces matched taken =>
      have shorter : rest.length < text.length :=
        Nat.lt_of_lt_of_le (length_lt_of_match? matched) (shape ▸ List.suffix_append ..).length_le
      have leftmost := Leftmost.found matched (ih rest.length shorter rest rfl)
      rw [Reading.many_of_some taken shorter, ← shape]
      exact leftmost.spaces_append spaces
    | @passed char behind unmatched taken =>
      have shorter : behind.length < (char :: behind).length := Nat.lt_succ_self _
      rw [Reading.many_of_some taken shorter]
      exact .passed unmatched (ih behind.length shorter behind rfl)

theorem picks_found? (text : List Char) : Picks found? text := by
  cases matched : match? (text.dropWhile Text.isSpace) with
  | some found =>
    refine .found List.takeWhile_append_dropWhile (Text.spaces_takeWhile text) matched ?_
    simp [found?, matched]
  | none =>
    cases text with
    | nil => exact .nil (by rw [found?, matched]; rfl)
    | cons char rest =>
      refine .passed ?_ (by simp [found?, matched, Reading.satisfy])
      by_cases spaced : Text.isSpace char = true
      · exact match?_of_space spaced
      · rwa [Text.dropWhile_of_solid (Text.solid_cons_iff.mpr (Bool.not_eq_true _ ▸ spaced))]
          at matched

theorem leftmost_many (text : List Char) :
    Leftmost text ((Reading.many found? text).1.filterMap id) :=
  leftmost_many_of_picks picks_found? text

/-- The names of a text are those of its leftmost declarations. -/
theorem names_eq_iff {text : String} : names text = found ↔ Leftmost text.toList found := by
  rw [names_eq]
  constructor
  · rintro rfl
    exact leftmost_many text.toList
  · exact (leftmost_many text.toList).unique

theorem names_ofList_eq_iff : names (String.ofList text) = found ↔ Leftmost text found := by
  rw [names_eq_iff, String.toList_ofList]

/-- Without a bracket nothing is declared. -/
theorem Leftmost.of_plain (plain : ∀ char ∈ text, endsName char = false) : Leftmost text [] := by
  induction text with
  | nil => exact .nil
  | cons char text ih =>
    exact .passed (match?_of_plain plain) (ih (List.forall_mem_cons.mp plain).2)

/-- A text without a bracket declares nothing behind another one. -/
theorem Leftmost.append_plain {tail : List Char} (plain : ∀ char ∈ tail, endsName char = false)
    (leftmost : Leftmost text found) : Leftmost (text ++ tail) found := by
  induction leftmost with
  | nil => exact .of_plain plain
  | found matched others ih =>
    have declares := (match?_eq_some_iff.mp matched).append tail
    exact .found (match?_eq_some_iff.mpr declares) ih
  | passed unmatched others ih =>
    refine .passed ?_ ih
    refine match?_eq_none_iff.mpr fun name rest declares => ?_
    have longer : Declares (_ :: _ ++ tail) name rest := declares
    obtain ⟨rest', shorter⟩ := longer.of_append_plain plain
    exact match?_eq_none_iff.mp unmatched name rest' shorter

theorem names_spaces_append {gap : List Char} (spaces : Spaces gap) :
    names (String.ofList (gap ++ text)) = names (String.ofList text) :=
  names_ofList_eq_iff.mpr ((names_ofList_eq_iff.mp rfl).spaces_append spaces)

theorem names_dropWhile (text : List Char) :
    names (String.ofList (text.dropWhile Text.isSpace)) = names (String.ofList text) := by
  rw [← names_spaces_append (Text.spaces_takeWhile text), List.takeWhile_append_dropWhile]

theorem names_append_plain {tail : List Char} (plain : ∀ char ∈ tail, endsName char = false) :
    names (String.ofList (text ++ tail)) = names (String.ofList text) :=
  names_ofList_eq_iff.mpr ((names_ofList_eq_iff.mp rfl).append_plain plain)

/-- Spaces behind a text declare nothing. -/
theorem names_append_spaces {gap : List Char} (spaces : Spaces gap) :
    names (String.ofList (text ++ gap)) = names (String.ofList text) :=
  names_append_plain fun char member => endsName_of_isSpace (spaces char member)

/-- There is a bracket for each name. -/
theorem Leftmost.length_le (leftmost : Leftmost text found) :
    found.length ≤ text.countP endsName := by
  induction leftmost with
  | nil => exact Nat.le_refl _
  | found matched others ih =>
    obtain ⟨front, bracket, rfl, -, ends, -⟩ := (match?_eq_some_iff.mp matched).exists_bracket
    rw [List.countP_append, List.countP_cons_of_pos ends, List.length_cons]
    omega
  | passed unmatched others ih =>
    rw [List.countP_cons]
    omega

/-- With more behind a text the names stay, and each one that is added has its bracket there. -/
theorem Leftmost.exists_append (leftmost : Leftmost text found) (tail : List Char) :
    ∃ added, Leftmost (text ++ tail) (found ++ added) ∧ added.length ≤ tail.countP endsName := by
  induction leftmost with
  | nil =>
    have leftmost : Leftmost tail _ := names_ofList_eq_iff.mp rfl
    exact ⟨_, leftmost, leftmost.length_le⟩
  | found matched others ih =>
    obtain ⟨added, leftmost, bound⟩ := ih
    have declares := (match?_eq_some_iff.mp matched).append tail
    exact ⟨added, .found (match?_eq_some_iff.mpr declares) leftmost, bound⟩
  | @passed char text found unmatched others ih =>
    cases matched : match? (char :: text ++ tail) with
    | none =>
      obtain ⟨added, leftmost, bound⟩ := ih
      exact ⟨added, .passed matched leftmost, bound⟩
    | some declared =>
      obtain ⟨name, rest⟩ := declared
      rcases (match?_eq_some_iff.mp matched).of_append with ⟨rest', here⟩ | ⟨plain, behind⟩
      · exact absurd here (match?_eq_none_iff.mp unmatched name rest')
      · obtain ⟨front, bracket, rfl, ends⟩ := behind
        obtain rfl := (Leftmost.passed unmatched others).unique (.of_plain plain)
        have leftmost : Leftmost rest _ := names_ofList_eq_iff.mp rfl
        have bound := leftmost.length_le
        refine ⟨_, .found matched leftmost, ?_⟩
        rw [List.countP_append, List.countP_cons_of_pos ends, List.length_cons]
        omega

/-- Nothing is declared from a stretch where nowhere a declaration begins. -/
theorem Leftmost.unmatched_append {stretch : List Char}
    (unmatched : ∀ count < stretch.length, match? ((stretch ++ text).drop count) = none)
    (leftmost : Leftmost text found) : Leftmost (stretch ++ text) found := by
  induction stretch with
  | nil => exact leftmost
  | cons char stretch ih =>
    refine .passed (unmatched 0 (Nat.zero_lt_succ _)) (ih fun count below => ?_)
    exact unmatched (count + 1) (Nat.succ_lt_succ below)

theorem names_of_match? {text : String} {name rest : List Char}
    (matched : match? text.toList = some (name, rest)) :
    names text = String.ofList name :: names (String.ofList rest) :=
  names_eq_iff.mpr (.found matched (names_ofList_eq_iff.mp rfl))

theorem names_of_unmatched {text : String}
    (unmatched : ∀ count < text.toList.length, match? (text.toList.drop count) = none) :
    names text = [] := by
  have leftmost : Leftmost (text.toList ++ []) [] :=
    .unmatched_append (by rwa [List.append_nil]) .nil
  rw [List.append_nil] at leftmost
  exact names_eq_iff.mpr leftmost

end Leftmost

end DocCoverage.Declaration
