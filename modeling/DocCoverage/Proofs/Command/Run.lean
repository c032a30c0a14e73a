import DocCoverage.Proofs.Command.Options
import DocCoverage.Proofs.Coverage.Attribution
import DocCoverage.Proofs.Text.Utf8

/-!
# The verdict of the command

The command exits with zero only if it has checked a text and found every function documented. What
it prints and how it exits depends on nothing but that text and on whether it is to be shown: not on
where the text comes from, and not on what is logged.
-/

namespace DocCoverage

open Git (Effect Program Status)

namespace Git

theorem Status.isSuccess_iff {status : Status} :
    status.isSuccess = true ↔ status = .exited 0 := by
  cases status with
  | exited code => simp [isSuccess]
  | killed => exact iff_of_false nofun nofun

/-- A difference is a text exactly if what the program prints are the bytes of that text. -/
theorem Program.diff_eq_ok_iff {program : Program} {command text : String} :
    program.diff command = .ok text ↔ program.output? = some (Text.Utf8.encode text) := by
  unfold diff output?
  by_cases success : program.difference = .exited 0
  · rw [if_pos (Status.isSuccess_iff.mpr success), if_pos success, Option.some.injEq,
      eq_comm (b := Text.Utf8.encode text), ← Text.Utf8.decode_eq_ok_iff]
    cases Text.Utf8.decode program.printed <;> simp
  · rw [if_neg (mt Status.isSuccess_iff.mp success), if_neg success]
    exact iff_of_false nofun nofun

end Git

namespace Command

variable {options : Options} {environment : Environment} {text : String}

theorem isComplete_iff {coverage : Coverage} :
    coverage.isComplete = true ↔ coverage.undocumented = [] := List.isEmpty_iff

/-- A text is checked as its tokens are. -/
theorem value_coverage {tokens : List Token} (tokenized : Token.tokenize text = .ok tokens) :
    (coverage text).value = .ok (Coverage.check tokens) := by
  unfold Token.tokenize at tokenized
  unfold coverage
  rw [Log.Logged.value_bind, tokenized]
  rfl

section Input

variable {arguments : List String} {calls : List (List String)} {bytes : Option (List UInt8)}

theorem input_of_stdin (asked : options.stdin = true) :
    (options.input environment).calls = [] ∧
      ∀ text, (options.input environment).result = .ok text ↔
        some environment.stdin = some (Text.Utf8.encode text) := by
  unfold Options.input
  rw [if_pos asked]
  constructor
  · cases Text.Utf8.decode environment.stdin <;> rfl
  · intro text
    rw [Option.some.injEq, eq_comm (b := Text.Utf8.encode text), ← Text.Utf8.decode_eq_ok_iff]
    cases Text.Utf8.decode environment.stdin <;> simp

theorem input_of_missing (unasked : ¬ options.stdin = true) (absent : environment.git = none) :
    (options.input environment).calls = [] ∧
      ∀ text, (options.input environment).result ≠ .ok text := by
  unfold Options.input Options.base
  rw [if_neg unasked, absent]
  cases options.against <;> exact ⟨rfl, nofun⟩

/-- The text is the difference to the base, if git can tell it. -/
theorem input_of_base {git : Program} {base : String} (unasked : ¬ options.stdin = true)
    (present : environment.git = some git)
    (based : (options.base (some git)).calls = calls ∧
      (options.base (some git)).result = .ok base) :
    (options.input environment).calls = calls ++ [Git.diffArguments base] ∧
      ∀ text, (options.input environment).result = .ok text ↔
        git.output? = some (Text.Utf8.encode text) := by
  have printed (text : String) : (git.diff (" ".intercalate (Git.diffArguments base)) = .ok text) ↔
      git.output? = some (Text.Utf8.encode text) := Git.Program.diff_eq_ok_iff
  have result : (Git.stagedDiff (some git) base).result =
      git.diff (" ".intercalate (Git.diffArguments base)) := rfl
  have started : (Git.stagedDiff (some git) base).calls = [Git.diffArguments base] := rfl
  unfold Options.input
  rw [if_neg unasked, present, Effect.calls_bind, Effect.result_bind, based.1, based.2]
  dsimp only
  rw [Effect.calls_bind, Effect.result_bind, result, started]
  constructor
  · cases git.diff (" ".intercalate (Git.diffArguments base)) <;> rfl
  · intro text
    rw [← printed text]
    cases git.diff (" ".intercalate (Git.diffArguments base)) <;> simp

theorem base_of_against {revision : String} (given : options.against = some revision)
    (git : Option Program) :
    (options.base git).calls = [] ∧ (options.base git).result = .ok revision := by
  unfold Options.base
  rw [given]
  exact ⟨rfl, rfl⟩

theorem base_of_revision (ungiven : options.against = none) (git : Program) :
    (options.base (some git)).calls = [Git.revisionArguments] ∧
      (options.base (some git)).result =
        .ok (if git.revision.isSuccess then "HEAD" else Git.emptyTree) := by
  unfold Options.base
  rw [ungiven]
  exact ⟨rfl, rfl⟩

/-- The input is the text of those bytes, and git is started with just those argument lists. -/
theorem input_of_obtains (means : options.Means arguments)
    (obtains : Obtains arguments environment calls bytes) :
    (options.input environment).calls = calls ∧
      ∀ text, (options.input environment).result = .ok text ↔
        bytes = some (Text.Utf8.encode text) := by
  have ungiven (unnamed : ∀ revision, ¬ NamesRevision arguments revision) :
      options.against = none :=
    Option.eq_none_iff_forall_ne_some.mpr fun revision =>
      mt (means.against_iff revision).mp (unnamed revision)
  cases obtains with
  | stdin asked => exact input_of_stdin (means.stdin_iff.mpr asked)
  | missing unasked absent =>
    obtain ⟨calls, failed⟩ := input_of_missing (mt means.stdin_iff.mp unasked) absent
    exact ⟨calls, fun text => iff_of_false (failed text) nofun⟩
  | against unasked present named =>
    exact input_of_base (mt means.stdin_iff.mp unasked) present
      (base_of_against ((means.against_iff _).mpr named) _)
  | @head git unasked present unnamed found =>
    have based := base_of_revision (ungiven unnamed) git
    rw [if_pos (Git.Status.isSuccess_iff.mpr found)] at based
    exact input_of_base (mt means.stdin_iff.mp unasked) present based
  | @emptyTree git unasked present unnamed unfound =>
    have based := base_of_revision (ungiven unnamed) git
    rw [if_neg (mt Git.Status.isSuccess_iff.mp unfound)] at based
    exact input_of_base (mt means.stdin_iff.mp unasked) present based

/-- There is always one way in which the text is obtained or not. -/
theorem exists_obtains (arguments : List String) (environment : Environment) :
    ∃ calls bytes, Obtains arguments environment calls bytes := by
  by_cases asked : "--stdin" ∈ arguments
  · exact ⟨_, _, .stdin asked⟩
  · cases present : environment.git with
    | none => exact ⟨_, _, .missing asked present⟩
    | some git =>
      by_cases named : ∃ revision, NamesRevision arguments revision
      · obtain ⟨revision, named⟩ := named
        exact ⟨_, _, .against asked present named⟩
      · have unnamed := not_exists.mp named
        by_cases found : git.revision = .exited 0
        · exact ⟨_, _, .head asked present unnamed found⟩
        · exact ⟨_, _, .emptyTree asked present unnamed found⟩

end Input

section Run

variable {tokens : List Token} {arguments : List String}

/-- Whatever comes of it, git has been started for the text and for nothing else. -/
theorem calls_run (options : Options) (environment : Environment) :
    (run options environment).calls = (options.input environment).calls := by
  unfold run
  dsimp only
  split
  · rfl
  · split <;> rfl

theorem run_of_error {failure : Failure}
    (failed : (options.input environment).result = .error failure) :
    (run options environment).code = 1 ∧ (run options environment).stdout = "" := by
  unfold run
  dsimp only
  rw [failed]
  exact ⟨rfl, rfl⟩

theorem run_of_ok (obtained : (options.input environment).result = .ok text)
    (tokenized : Token.tokenize text = .ok tokens) :
    (run options environment).code = (if (Coverage.check tokens).isComplete then 0 else 1) ∧
      (run options environment).stdout =
        shown options text ++ complaint (Coverage.check tokens) := by
  unfold run
  dsimp only
  rw [obtained]
  dsimp only
  rw [value_coverage tokenized]
  exact ⟨rfl, rfl⟩

/-- The verdict depends on the arguments only through what they mean, however they are read. -/
theorem executeWith_of_obtains {ε : Type} {parse : List String → Except ε Request}
    {calls : List (List String)} {bytes : Option (List UInt8)}
    (accepted : parse arguments = .ok (.check options)) (means : options.Means arguments)
    (obtains : Obtains arguments environment calls bytes) :
    (executeWith parse arguments environment).calls = calls ∧
      ((∀ text, bytes ≠ some (Text.Utf8.encode text)) →
        (executeWith parse arguments environment).code = 1 ∧
        (executeWith parse arguments environment).stdout = "") ∧
      ∀ text, bytes = some (Text.Utf8.encode text) →
        ∃ tokens, Token.tokenize text = .ok tokens ∧
          (executeWith parse arguments environment).stdout =
            (if "--show-input" ∈ arguments then text ++ "\n" else "") ++
              (if (Coverage.check tokens).undocumented = [] then ""
                else "The following functions are undocumented: " ++
                  ", ".intercalate (Coverage.check tokens).undocumented ++ "\n") ∧
          (executeWith parse arguments environment).code =
            if (Coverage.check tokens).undocumented = [] then 0 else 1 := by
  have run_eq : executeWith parse arguments environment = run options environment := by
    unfold executeWith
    rw [accepted]
  rw [run_eq]
  obtain ⟨started, decoded⟩ := input_of_obtains means obtains
  refine ⟨(calls_run options environment).trans started, fun undecoded => ?_,
    fun text encoded => ?_⟩
  · cases result : (options.input environment).result with
    | error failure => exact run_of_error result
    | ok text => exact absurd ((decoded text).mp result) (undecoded text)
  · have tokenized := Token.tokenize_eq text
    obtain ⟨code, stdout⟩ := run_of_ok ((decoded text).mpr encoded) tokenized
    refine ⟨_, tokenized, ?_, ?_⟩
    · rw [stdout, complaint, shown]
      simp only [means.showInput_iff, isComplete_iff]
    · rw [code]
      simp only [isComplete_iff]

/-- The command fails closed: without a text to check it exits with one and prints nothing.
Otherwise it prints the text, if that is asked for, and the names of the functions that are not
documented, and exits with zero only if there are none. Neither where the text comes from nor what
is logged makes a difference. -/
theorem execute_of_obtains (accepted : Request.ofArguments arguments = .ok (.check options))
    (environment : Environment) :
    (∃ calls bytes, Obtains arguments environment calls bytes) ∧
      ∀ calls bytes, Obtains arguments environment calls bytes →
        (execute arguments environment).calls = calls ∧
        ((∀ text, bytes ≠ some (Text.Utf8.encode text)) →
          (execute arguments environment).code = 1 ∧
          (execute arguments environment).stdout = "") ∧
        ∀ text, bytes = some (Text.Utf8.encode text) →
          ∃ tokens, Token.tokenize text = .ok tokens ∧
            (execute arguments environment).stdout =
              (if "--show-input" ∈ arguments then text ++ "\n" else "") ++
                (if (Coverage.check tokens).undocumented = [] then ""
                  else "The following functions are undocumented: " ++
                    ", ".intercalate (Coverage.check tokens).undocumented ++ "\n") ∧
            (execute arguments environment).code =
              if (Coverage.check tokens).undocumented = [] then 0 else 1 := by
  have means := Options.means_of_ofArguments accepted
  exact ⟨exists_obtains arguments environment, fun calls bytes obtains =>
    executeWith_of_obtains accepted means obtains⟩

/-- Git is killed when it is asked for a commit. The changes are compared with the empty tree; they
are shown and complained about even if nothing is to be logged, but not if a character at their end
is cut off. -/
theorem execute_of_obtains_uncommitted :
    (execute ["-v", "--show-input"]
        ⟨[], some ⟨.killed, .exited 0, Text.Utf8.encode "public func é("⟩, some "off"⟩).calls =
      [["rev-parse", "--verify", "HEAD"], ["diff", "--cached", Git.emptyTree, "--"]] ∧
    (execute ["-v", "--show-input"]
        ⟨[], some ⟨.killed, .exited 0, Text.Utf8.encode "public func é("⟩, some "off"⟩).stdout =
      "public func é(\nThe following functions are undocumented: é\n" ∧
    (execute ["-v", "--show-input"]
        ⟨[], some ⟨.killed, .exited 0, Text.Utf8.encode "public func é("⟩, some "off"⟩).code = 1 ∧
    (execute ["-v", "--show-input"]
        ⟨[], some ⟨.killed, .exited 0, [0xC3]⟩, some "off"⟩).stdout = "" ∧
    (execute ["-v", "--show-input"]
        ⟨[], some ⟨.killed, .exited 0, [0xC3]⟩, some "off"⟩).code = 1 := by
  have accepted : Request.ofArguments ["-v", "--show-input"] =
      .ok (.check ⟨false, none, true, 1⟩) := by cbv
  have unnamed (revision : String) : ¬ NamesRevision ["-v", "--show-input"] revision := by
    rw [Options.names_cons_iff (by decide) (Options.ne_assigned (by decide) _),
      Options.names_cons_iff (by decide) (Options.ne_assigned (by decide) _)]
    exact Options.not_names_nil
  have split : Token.segments "public func é(".toList = [.text "public func é("] := by cbv
  have covered : Coverage.check [.text "public func é("] = ⟨0, ["é"]⟩ := by
    have matched : Declaration.match? "public func é(".toList = some (['é'], []) := by decide
    rw [Coverage.check_eq, Coverage.contribution_text, Declaration.names_of_match? matched,
      Declaration.names_of_unmatched (by decide)]
    rfl
  obtain ⟨-, whole⟩ := execute_of_obtains accepted
    ⟨[], some ⟨.killed, .exited 0, Text.Utf8.encode "public func é("⟩, some "off"⟩
  obtain ⟨calls, -, checked⟩ := whole _ _ (.emptyTree (by decide) rfl unnamed (by decide))
  obtain ⟨tokens, tokenized, stdout, code⟩ := checked "public func é(" (if_pos rfl)
  obtain rfl := Except.ok.inj (tokenized.symm.trans (Token.tokenize_eq _))
  rw [split, covered] at stdout code
  obtain ⟨-, cut⟩ := execute_of_obtains accepted ⟨[], some ⟨.killed, .exited 0, [0xC3]⟩, some "off"⟩
  obtain ⟨-, undecoded, -⟩ := cut _ _ (.emptyTree (by decide) rfl unnamed (by decide))
  obtain ⟨code', stdout'⟩ := undecoded fun text encoded => by
    have spelled : Text.Utf8.encode text = [0xC3] :=
      (Option.some.inj ((if_pos rfl).symm.trans encoded)).symm
    have refused : Text.Utf8.decode [0xC3] = .error (.incomplete 0) := by cbv
    rw [Text.Utf8.decode_eq_ok_iff.mpr spelled] at refused
    cases refused
  exact ⟨calls, stdout, code, stdout', code'⟩

end Run

end Command

end DocCoverage
