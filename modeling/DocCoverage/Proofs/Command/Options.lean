import DocCoverage.Command.Obtained
import Mathlib.Data.List.TakeDrop

/-!
# What arguments ask for

Arguments that are read to their end are a sequence of options, each of them one argument or two.
What has been asked for in the end is what the single options ask for, so that it can be seen from
the arguments without reading them in order.
-/

namespace DocCoverage.Command

namespace Options

/-- One option, as it is written, and the options with it. -/
inductive Adds : Options → List String → Options → Prop where
  | stdin {options : Options} : Adds options ["--stdin"] { options with stdin := true }
  | showInput {options : Options} :
      Adds options ["--show-input"] { options with showInput := true }
  | verbose {options : Options} :
      Adds options ["--verbose"] { options with verbosity := options.verbosity + 1 }
  | letters {options : Options} (count : Nat) :
      Adds options [String.ofList ('-' :: List.replicate (count + 1) 'v')]
        { options with verbosity := options.verbosity + (count + 1) }
  | against {options : Options} {revision : String} (first : options.against = none)
      (value : isValue revision = true) :
      Adds options ["--against", revision] { options with against := some revision }
  | assigned {options : Options} {revision : String} (first : options.against = none) :
      Adds options ["--against=" ++ revision] { options with against := some revision }

/-- Arguments that are options up to the end, and all options together. -/
inductive Reads : Options → List String → Options → Prop where
  | nil {options : Options} : Reads options [] options
  | dashes {options : Options} : Reads options ["--"] options
  | add {options next last : Options} {written arguments : List String}
      (adds : Adds options written next) (others : Reads next arguments last) :
      Reads options (written ++ arguments) last

section Read

variable {options next last : Options} {arguments : List String}

theorem adds_of_readShort {letters : List Char} {read : Options}
    (go : options.readShort letters = .ok (.go read)) :
    letters = List.replicate letters.length 'v' ∧
      read = { options with verbosity := options.verbosity + letters.length } := by
  fun_induction readShort options letters with
  | case1 options =>
    obtain rfl := Reading.go.inj (Except.ok.inj go)
    exact ⟨rfl, rfl⟩
  | case2 options letters ih =>
    obtain ⟨same, rfl⟩ := ih go
    refine ⟨congrArg ('v' :: ·) same, ?_⟩
    simp only [List.length_cons, Options.mk.injEq, true_and]
    omega
  | _ => cases go

theorem adds_of_readFlag {name : String} (go : options.readFlag name = .ok (.go next)) :
    Adds options ["--" ++ name] next := by
  unfold readFlag at go
  split at go
  · split at go
    · cases go
    · obtain rfl := Reading.go.inj (Except.ok.inj go)
      exact .stdin
  · split at go
    · cases go
    · obtain rfl := Reading.go.inj (Except.ok.inj go)
      exact .showInput
  · obtain rfl := Reading.go.inj (Except.ok.inj go)
    exact .verbose
  · cases go
  · cases go
  · cases go

/-- The options that end the reading ask for no check. -/
theorem readShort_ne_check (letters : List Char) :
    options.readShort letters ≠ .ok (.stop (.check last)) := by
  fun_induction readShort options letters with
  | case2 options letters ih => exact ih
  | _ => nofun

theorem readFlag_ne_check (name : String) :
    options.readFlag name ≠ .ok (.stop (.check last)) := by
  unfold readFlag
  split
  · split <;> nofun
  · split <;> nofun
  · nofun
  · nofun
  · nofun
  · nofun

theorem adds_of_takeAgainst {revision : String}
    (taken : options.takeAgainst revision = .ok next) :
    options.against = none ∧ next = { options with against := some revision } := by
  unfold takeAgainst at taken
  split at taken
  · cases taken
  · next first => exact ⟨first, (Except.ok.inj taken).symm⟩

/-- A long option is its name, or its name, an equals sign and its value. -/
theorem eq_of_span {argument : String} {long name rest : List Char}
    (shape : argument.toList = '-' :: '-' :: long)
    (spanned : long.span (· != '=') = (name, rest)) :
    argument = "--" ++ String.ofList name ++ String.ofList rest ∧
      ∀ char ∈ rest.head?, char = '=' := by
  rw [List.span_eq_takeWhile_dropWhile] at spanned
  obtain ⟨rfl, rfl⟩ := Prod.mk.inj spanned
  constructor
  · rw [← String.toList_inj, shape]
    simp
  · intro char first
    have last := List.head?_dropWhile_not (· != '=') long
    rw [Option.mem_def.mp first] at last
    simpa using last

theorem eq_of_finish (finished : options.finish = .ok (.check last)) : options = last := by
  unfold finish at finished
  split at finished
  · cases finished
  · exact Request.check.inj (Except.ok.inj finished)

/-- Arguments that are read to the end are options, one after the other. -/
theorem reads_of_read (read : options.read arguments = .ok (.check last)) :
    Reads options arguments last := by
  fun_induction options.read arguments with
  | case1 options =>
    obtain rfl := eq_of_finish read
    exact .nil
  | case2 options argument shape =>
    obtain rfl := eq_of_finish read
    obtain rfl : argument = "--" := String.toList_inj.mp shape
    exact .dashes
  | case5 options argument long proper shape name spanned name' named revision arguments value next
      taken ih =>
    obtain ⟨first, rfl⟩ := adds_of_takeAgainst taken
    obtain ⟨written, -⟩ := eq_of_span shape spanned
    change String.ofList name = "against" at named
    rw [named] at written
    subst written
    exact .add (.against first value) (ih read)
  | case8 options argument arguments long proper shape name spanned name' unnamed next go ih =>
    obtain ⟨written, -⟩ := eq_of_span shape spanned
    rw [String.ofList_nil, String.append_empty] at written
    subst written
    exact .add (adds_of_readFlag go) (ih read)
  | case9 options argument arguments long proper shape name spanned name' unnamed request stop =>
    rw [Except.ok.inj read] at stop
    exact absurd stop (readFlag_ne_check _)
  | case11 options argument arguments long proper shape name head value spanned name' named next
      taken ih =>
    obtain ⟨first, rfl⟩ := adds_of_takeAgainst taken
    obtain ⟨written, equals⟩ := eq_of_span shape spanned
    obtain rfl := equals head rfl
    change String.ofList name = "against" at named
    have joined : "--" ++ "against" ++ String.ofList ('=' :: value) =
        "--against=" ++ String.ofList value := by
      rw [← String.toList_inj]
      simp
    rw [named, joined] at written
    subst written
    exact .add (.assigned first) (ih read)
  | case15 options argument arguments letter letters proper short shape next go ih =>
    obtain ⟨same, rfl⟩ := adds_of_readShort go
    have written : argument = String.ofList ('-' :: List.replicate (letters.length + 1) 'v') := by
      rw [← String.toList_inj, shape, String.toList_ofList]
      exact congrArg ('-' :: ·) same
    subst written
    exact .add (.letters letters.length) (ih read)
  | case16 options argument arguments letter letters proper short shape request stop =>
    rw [Except.ok.inj read] at stop
    exact absurd stop (readShort_ne_check _)
  | _ => cases read

end Read

section Asked

variable {options next last : Options} {written arguments : List String}
variable {argument revision : String}

/-- A dash and letters are no long option. -/
theorem ne_letters (long : ['-', '-'] <+: argument.toList) (count : Nat) :
    argument ≠ String.ofList ('-' :: List.replicate (count + 1) 'v') := by
  rintro rfl
  rw [String.toList_ofList, List.replicate_succ, List.cons_prefix_cons,
    List.cons_prefix_cons] at long
  exact absurd long.2.1 (by decide)

/-- No long option is the value of another one. -/
theorem ne_of_isValue (long : ['-', '-'] <+: argument.toList) (value : isValue revision = true) :
    argument ≠ revision := by
  rintro rfl
  obtain ⟨more, shape⟩ := long
  unfold isValue at value
  rw [Bool.or_eq_true, beq_iff_eq, ← String.toList_inj, ← shape] at value
  rcases value with lone | undashed
  · cases lone
  · cases undashed

theorem assigned_begins (revision : String) :
    "--against=".toList <+: ("--against=" ++ revision).toList := by
  rw [String.toList_append]
  exact List.prefix_append ..

theorem dashes_assigned (revision : String) :
    ['-', '-'] <+: ("--against=" ++ revision).toList :=
  (by decide : ['-', '-'] <+: "--against=".toList).trans (assigned_begins revision)

theorem ne_assigned (other : ¬ "--against=".toList <+: argument.toList) (revision : String) :
    argument ≠ "--against=" ++ revision := by
  rintro rfl
  exact other (assigned_begins revision)

theorem not_mem_against (long : ['-', '-'] <+: argument.toList) (other : argument ≠ "--against")
    (value : isValue revision = true) : argument ∉ ["--against", revision] :=
  List.not_mem_cons_of_ne_of_not_mem other (mt List.mem_singleton.mp (ne_of_isValue long value))

theorem Adds.stdin_iff (adds : Adds options written next) :
    next.stdin = true ↔ options.stdin = true ∨ "--stdin" ∈ written := by
  cases adds with
  | stdin => exact iff_of_true rfl (.inr (List.mem_singleton_self _))
  | showInput | verbose => exact (or_iff_left (by decide)).symm
  | letters count =>
    exact (or_iff_left (mt List.mem_singleton.mp (ne_letters (by decide) count))).symm
  | against first value => exact (or_iff_left (not_mem_against (by decide) (by decide) value)).symm
  | assigned first =>
    exact (or_iff_left (mt List.mem_singleton.mp (ne_assigned (by decide) _))).symm

theorem Adds.showInput_iff (adds : Adds options written next) :
    next.showInput = true ↔ options.showInput = true ∨ "--show-input" ∈ written := by
  cases adds with
  | showInput => exact iff_of_true rfl (.inr (List.mem_singleton_self _))
  | stdin | verbose => exact (or_iff_left (by decide)).symm
  | letters count =>
    exact (or_iff_left (mt List.mem_singleton.mp (ne_letters (by decide) count))).symm
  | against first value => exact (or_iff_left (not_mem_against (by decide) (by decide) value)).symm
  | assigned first =>
    exact (or_iff_left (mt List.mem_singleton.mp (ne_assigned (by decide) _))).symm

theorem names_cons_iff (other : "--against" ≠ argument)
    (unassigned : argument ≠ "--against=" ++ revision) :
    NamesRevision (argument :: arguments) revision ↔ NamesRevision arguments revision := by
  unfold NamesRevision
  rw [List.mem_cons, List.infix_cons_iff, List.cons_prefix_cons]
  simp only [other, unassigned.symm, false_and, false_or]

theorem not_names_nil : ¬ NamesRevision [] revision := by
  simp [NamesRevision]

theorem names_against_iff {given : String} :
    NamesRevision ("--against" :: given :: arguments) revision ↔
      given = revision ∨ NamesRevision (given :: arguments) revision := by
  have unassigned : "--against=" ++ revision ≠ "--against" := (ne_assigned (by decide) _).symm
  unfold NamesRevision
  rw [List.mem_cons, List.infix_cons_iff, List.cons_prefix_cons, List.cons_prefix_cons]
  simp only [unassigned, false_or, List.nil_prefix, true_and, and_true, eq_comm (a := revision)]
  exact or_left_comm

theorem names_assigned_iff {given : String} :
    NamesRevision (("--against=" ++ given) :: arguments) revision ↔
      given = revision ∨ NamesRevision arguments revision := by
  have other : "--against" ≠ "--against=" ++ given := ne_assigned (by decide) _
  have same : "--against=" ++ revision = "--against=" ++ given ↔ given = revision := by
    rw [← String.toList_inj, String.toList_append, String.toList_append, List.append_cancel_left_eq,
      String.toList_inj, eq_comm]
  unfold NamesRevision
  rw [List.mem_cons, same, List.infix_cons_iff, List.cons_prefix_cons]
  simp only [other, false_and, false_or]
  exact or_assoc

/-- An option names the revision that it changes the options by, if it does. -/
theorem Adds.against_iff (adds : Adds options written next) :
    next.against = some revision ∨ NamesRevision arguments revision ↔
      options.against = some revision ∨ NamesRevision (written ++ arguments) revision := by
  cases adds with
  | stdin | showInput | verbose =>
    exact or_congr_right (names_cons_iff (by decide) (ne_assigned (by decide) _)).symm
  | letters count =>
    refine or_congr_right (names_cons_iff (ne_letters (by decide) count) (Ne.symm ?_)).symm
    exact ne_letters (dashes_assigned _) count
  | @against given first value =>
    have alone : NamesRevision (given :: arguments) revision ↔ NamesRevision arguments revision :=
      names_cons_iff (ne_of_isValue (by decide) value)
        (ne_of_isValue (dashes_assigned _) value).symm
    rw [List.cons_append, List.singleton_append, names_against_iff, alone, first]
    simp
  | @assigned given first =>
    rw [List.singleton_append, names_assigned_iff, first]
    simp

/-- Standard input is used exactly if it is asked for. -/
theorem Reads.stdin_iff (reads : Reads options arguments last) :
    last.stdin = true ↔ options.stdin = true ∨ "--stdin" ∈ arguments := by
  induction reads with
  | nil => simp
  | dashes => exact (or_iff_left (by decide)).symm
  | add adds others ih => rw [ih, adds.stdin_iff, List.mem_append, or_assoc]

theorem Reads.showInput_iff (reads : Reads options arguments last) :
    last.showInput = true ↔ options.showInput = true ∨ "--show-input" ∈ arguments := by
  induction reads with
  | nil => simp
  | dashes => exact (or_iff_left (by decide)).symm
  | add adds others ih => rw [ih, adds.showInput_iff, List.mem_append, or_assoc]

theorem Reads.against_iff (reads : Reads options arguments last) (revision : String) :
    last.against = some revision ↔
      options.against = some revision ∨ NamesRevision arguments revision := by
  induction reads with
  | nil => exact (or_iff_left not_names_nil).symm
  | dashes =>
    refine (or_iff_left ?_).symm
    rw [names_cons_iff (by decide) (ne_assigned (by decide) _)]
    exact not_names_nil
  | add adds others ih => rw [ih, adds.against_iff]

/-- What has been read from all arguments is what they ask for. -/
theorem means_of_ofArguments (accepted : Request.ofArguments arguments = .ok (.check options)) :
    options.Means arguments where
  stdin_iff := by simpa [Options.default] using (reads_of_read accepted).stdin_iff
  showInput_iff := by simpa [Options.default] using (reads_of_read accepted).showInput_iff
  against_iff revision := by
    simpa [Options.default] using (reads_of_read accepted).against_iff revision

end Asked

end Options

end DocCoverage.Command
