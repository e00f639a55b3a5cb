import LoxLang.Proofs.Command.Dispatch
import LoxLang.Proofs.Session.Interactive
import LoxLang.Proofs.Session.Safety

/-!
# The commands agree on scripts

Three commands look at a script. One runs it in a session, one prints its statements and one prints
its tokens, and each finds out for itself what is wrong with it. They agree: the first two refuse
the same scripts with the same complaints and print nothing, and the third refuses those with which
something is wrong before they are parsed. What a script that is not refused ends with tells whether
it raised a runtime error.

Both sides are compared with `Session.complaints`, all that the scanner and the parser have to say
about a source.
-/

namespace LoxLang

open Session (complaints Compiles)

namespace CommandLine

variable {environment : Environment} {config : Config} {path source : Text}
  {statements : List Stmt}

/-- How executing the statements of a script ends. -/
def execution (environment : Environment) (statements : List Stmt) :
    EStateM.Result Failure Machine Unit :=
  Stmt.executeAll environment.budget statements ⟨.global .empty, environment.sink, #[], #[]⟩

/-- If the script compiles, its execution is stopped neither by the budget nor by the output. -/
def Completes (environment : Environment) (config : Config) (source : Text) : Prop :=
  ∀ statements, Compiles config.maxDepth source statements →
    Execution.failure? (execution environment statements) ≠ some .budgetSpent ∧
      Execution.failure? (execution environment statements) ≠ some .outputClosed

/-- The script compiles and its execution ends in a runtime error. -/
def Raises (environment : Environment) (config : Config) (source : Text) : Prop :=
  ∃ statements error, Compiles config.maxDepth source statements ∧
    Execution.failure? (execution environment statements) = some (.runtime error)

/-- What is shown of all the complaints about a script. -/
def complaintText (environment : Environment) (config : Config) (source : Text) : Text :=
  (complaints config.maxDepth source).flatMap (consoleOf environment config).diagnosticLine

section Session

theorem sessionOf_part {α : Type} (part : Session → α)
    (logs : ∀ session message fields, part (Session.log session message fields) = part session)
    (environment : Environment) (config : Config) :
    part (sessionOf environment config) =
      part (.new config.maxDepth config.parseCacheSize environment.budget
        (consoleOf environment config) environment.sink) := by
  simp only [sessionOf]
  split
  · rfl
  · exact logs _ _ _

theorem sessionOf_sound (environment : Environment) (config : Config) :
    (sessionOf environment config).Sound config.maxDepth :=
  (sessionOf_part (Session.Sound config.maxDepth) (fun _ _ _ => rfl) environment config).mpr
    (Session.new_sound ..)

/-- The session of a script when the script has been read. -/
def opened (environment : Environment) (config : Config) (path source : Text) : Session :=
  (sessionOf environment config).log "running file"
    [("path", path), ("bytes", Text.ofNat source.length)]

theorem opened_part {α : Type} (part : Session → α)
    (logs : ∀ session message fields, part (Session.log session message fields) = part session)
    (environment : Environment) (config : Config) (path source : Text) :
    part (opened environment config path source) =
      part (.new config.maxDepth config.parseCacheSize environment.budget
        (consoleOf environment config) environment.sink) :=
  (logs _ _ _).trans (sessionOf_part part logs environment config)

theorem opened_ran (environment : Environment) (config : Config) (path source : Text) :
    Session.Ran (opened environment config path source) source
      ((opened environment config path source).run source) := by
  have sound : (opened environment config path source).Sound config.maxDepth :=
    sessionOf_sound environment config
  exact Session.run_ran sound.self source

@[simp]
theorem opened_limit : (opened environment config path source).limit = config.maxDepth :=
  (sessionOf_sound environment config).1

@[simp]
theorem opened_console :
    (opened environment config path source).console = consoleOf environment config :=
  opened_part (·.console) (fun _ _ _ => rfl) ..

@[simp]
theorem opened_output : (opened environment config path source).output = [] :=
  opened_part Session.output Session.output_log ..

@[simp]
theorem opened_shown : (opened environment config path source).shown = [] :=
  opened_part Session.shown Session.shown_log ..

@[simp]
theorem opened_performance :
    (opened environment config path source).performance statements =
      execution environment statements :=
  opened_part (·.performance statements) (fun _ _ _ => rfl) ..

theorem streamsOf_quiet (quiet : config.isLogged = false) (session : Session) :
    streamsOf config session = ⟨session.sink, session.output, session.shown⟩ := by
  have console : errorsOf config = Event.console := by
    funext event
    simp [errorsOf, quiet]
  simp [streamsOf, Session.output, Session.shown, console]

end Session

section Judgements

/-- The end of a script, from how running it ended. -/
def scriptOutcome (config : Config) (result : Session × Option Failure) : Outcome :=
  match result.2 with
  | none => (streamsOf config result.1).finish result.1.exitStatus
  | some failure => (streamsOf config result.1).fail (.other failure.message)

theorem printTree_of_complaints (bad : complaints config.maxDepth source ≠ []) :
    printTree environment config source =
      ⟨.badData, [], complaintText environment config source⟩ := by
  simp only [printTree]
  split
  · rfl
  · exact if_pos bad

theorem printTree_of_compiles (compiles : Compiles config.maxDepth source statements) :
    (printTree environment config source).status = .ok := by
  simp only [printTree, compiles.1, compiles.2]
  split
  · contradiction
  · split <;> rfl

theorem printTokens_status :
    (printTokens environment config source).status =
      if (scan source).diagnostics = [] then .ok else .badData :=
  rfl

theorem printTokens_errors :
    (printTokens environment config source).errors =
      (scan source).diagnostics.flatMap (consoleOf environment config).diagnosticLine := by
  simp only [printTokens, Streams.finish, Streams.writeAll]
  split <;> rfl

variable (readable : environment.files.read path = .ok source)
include readable

theorem runScript_eq :
    runScript environment config path =
      scriptOutcome config ((opened environment config path source).run source) := by
  simp only [runScript, Session.runFile, readable]
  rw [← opened]
  rcases (opened environment config path source).run source with ⟨session, failure⟩
  cases failure <;> rfl

theorem runScript_of_complaints (quiet : config.isLogged = false)
    (bad : complaints config.maxDepth source ≠ []) :
    runScript environment config path =
      ⟨.badData, [], complaintText environment config source⟩ := by
  have ran := opened_ran environment config path source
  have silent : (opened environment config path source).raised source = none :=
    Session.raised_of_complaints (by simpa using bad)
  rw [runScript_eq readable]
  generalize (opened environment config path source).run source = result at ran
  have marked : result.1.console.hadError = true := by simp [ran.hadError, bad]
  rcases ran.blocked marked with ⟨output, _, _, returned⟩
  have shown : result.1.shown = complaintText environment config source := by
    simp [ran.shown, silent, complaintText]
  simp [scriptOutcome, returned, streamsOf_quiet quiet, output, shown, Session.exitStatus, marked,
    Streams.finish]

/-- A script that compiles is executed, and how that ends shows in the status. -/
theorem runScript_of_compiles (compiles : Compiles config.maxDepth source statements) :
    (runScript environment config path).status =
      if Execution.failure? (execution environment statements) = none then .ok else .software := by
  have ran := opened_ran environment config path source
  rw [runScript_eq readable]
  generalize (opened environment config path source).run source = result at ran
  have unmarked : result.1.console.hadError = false := by
    simp [ran.hadError, compiles.complaints, consoleOf, Console.new]
  rcases ran.executed unmarked with ⟨same, outcome, _, _, raised, returned⟩
  rw [opened_limit, compiles.2] at outcome
  cases outcome
  have mark := ran.hadRuntimeError
  rw [raised, opened_console] at mark
  simp only [opened_performance] at mark returned
  generalize Execution.failure? (execution environment statements) = failure at mark returned ⊢
  cases failure with
  | none =>
      have ends : result.2 = none := returned
      simp [scriptOutcome, ends, Streams.finish, Session.exitStatus, unmarked, mark, consoleOf,
        Console.new]
  | some failure =>
      cases failure with
      | runtime error =>
          have ends : result.2 = none := returned
          simp [scriptOutcome, ends, Streams.finish, Session.exitStatus, unmarked, mark,
            Failure.runtime?]
      | internal | outputClosed | budgetSpent =>
          simp only [scriptOutcome, returned]
          rfl

omit readable in
/-- A script that compiles and completes fails with a runtime error if at all. -/
theorem raises_iff (completes : Completes environment config source)
    (compiles : Compiles config.maxDepth source statements) :
    Raises environment config source ↔
      Execution.failure? (execution environment statements) ≠ none := by
  constructor
  · rintro ⟨others, error, othersCompile, raised⟩
    have same := compiles.2.symm.trans othersCompile.2
    cases same
    simp [raised]
  · intro fails
    rcases Option.ne_none_iff_exists'.mp fails with ⟨failure, failed⟩
    have silent : (parse config.maxDepth (scan source).tokens).diagnostics = [] := by
      rw [compiles.2]
    rcases parse_failsOnly silent with ⟨stmts, returned, safe⟩
    rw [compiles.2] at returned
    cases returned
    cases ran : execution environment statements with
    | ok done machine =>
        rw [ran] at failed
        cases failed
    | error other machine =>
        rw [ran] at failed
        cases failed
        have expected := safe environment.budget _ _ _ ran
        cases failure with
        | runtime error => exact ⟨statements, error, compiles, by rw [ran]; rfl⟩
        | internal cause => exact expected.elim
        | outputClosed => exact ((completes statements compiles).2 (by rw [ran]; rfl)).elim
        | budgetSpent => exact ((completes statements compiles).1 (by rw [ran]; rfl)).elim

theorem runScript_status_number (quiet : config.isLogged = false)
    (completes : Completes environment config source) :
    ((runScript environment config path).status.number = 65 ↔
        complaints config.maxDepth source ≠ []) ∧
      ((runScript environment config path).status.number = 70 ↔
        Raises environment config source) ∧
      ((runScript environment config path).status.number = 0 ↔
        complaints config.maxDepth source = [] ∧ ¬Raises environment config source) := by
  by_cases silent : complaints config.maxDepth source = []
  · rcases Session.exists_compiles silent with ⟨statements, compiles⟩
    rw [runScript_of_compiles readable compiles, raises_iff completes compiles]
    split <;> simp_all [ExitStatus.number]
  · have spared : ¬Raises environment config source := by
      rintro ⟨statements, _, compiles, _⟩
      exact silent compiles.complaints
    rw [runScript_of_complaints readable quiet silent]
    simp [silent, spared, ExitStatus.number]

end Judgements

/-- A command that takes a script is performed on the script with the configuration in effect. -/
theorem perform_script {options : List Text} (isOptions : Options options)
    (plain : looksLikeFlag path = false)
    (configured : (overridesOf options).config environment.files = .ok config)
    (readable : environment.files.read path = .ok source) (input : Text) :
    perform environment (options ++ [("run" : Text), path]) input =
        runScript environment config path ∧
      perform environment (options ++ [("ast" : Text), path]) input =
        printTree environment config source ∧
      perform environment (options ++ [("tokens" : Text), path]) input =
        printTokens environment config source := by
  have run := @plan_command environment _ .run "run" isOptions (by decide) (by decide) [path]
  have ast := @plan_command environment _ .ast "ast" isOptions (by decide) (by decide) [path]
  have tokens :=
    @plan_command environment _ .tokens "tokens" isOptions (by decide) (by decide) [path]
  rw [planWithFlags_singleton _ plain] at run ast tokens
  simp [perform, run, ast, tokens, planCommand, withScript, withConfig, configured, withSource,
    readable]

/-- The commands agree on scripts, whatever the options, the output and the configuration, as long
as that does not ask for the log to be shown. Printing the statements and running fail with the same
complaints about the same scripts and print nothing then. Printing the tokens fails if there are
complaints before parsing, which come first among the others. If the execution is not stopped from
outside, running fails exactly if there are complaints or a runtime error. -/
theorem scripts_judged_alike (environment : Environment) (options : List Text)
    (path source input : Text) (config : Config) (isOptions : Options options)
    (plain : looksLikeFlag path = false)
    (configured : (overridesOf options).config environment.files = .ok config)
    (quiet : config.isLogged = false) (readable : environment.files.read path = .ok source) :
    let run := perform environment (options ++ [("run" : Text), path]) input
    let ast := perform environment (options ++ [("ast" : Text), path]) input
    let tokens := perform environment (options ++ [("tokens" : Text), path]) input
    (ast.status.number = 65 ↔ run.status.number = 65) ∧
      (run.status.number = 65 → run.output = [] ∧ ast.output = [] ∧ ast.errors = run.errors) ∧
      (tokens.status.number = 65 ↔ (scan source).diagnostics ≠ []) ∧
      (tokens.status.number = 65 →
        run.status.number = 65 ∧ ast.status.number = 65 ∧
          tokens.errors <+: run.errors ∧ tokens.errors <+: ast.errors) ∧
      (Completes environment config source →
        (run.status.number = 65 ↔ complaints config.maxDepth source ≠ []) ∧
        (run.status.number = 70 ↔ Raises environment config source) ∧
        (run.status.number = 0 ↔
          complaints config.maxDepth source = [] ∧ ¬Raises environment config source)) := by
  rcases perform_script isOptions plain configured readable input with ⟨run, ast, tokens⟩
  simp only [run, ast, tokens]
  have tokensIff : (printTokens environment config source).status.number = 65 ↔
      (scan source).diagnostics ≠ [] := by
    rw [printTokens_status]
    split <;> simp_all [ExitStatus.number]
  have verdicts := runScript_status_number readable quiet
  by_cases silent : complaints config.maxDepth source = []
  · rcases Session.exists_compiles silent with ⟨statements, compiles⟩
    have runNot : (runScript environment config path).status.number ≠ 65 := by
      rw [runScript_of_compiles readable compiles]
      split <;> decide
    have astNot : (printTree environment config source).status.number ≠ 65 := by
      rw [printTree_of_compiles compiles]
      decide
    have tokensNot : (printTokens environment config source).status.number ≠ 65 := by
      rw [ne_eq, tokensIff, not_not]
      exact compiles.1
    exact ⟨⟨fun is => (astNot is).elim, fun is => (runNot is).elim⟩, fun is => (runNot is).elim,
      tokensIff, fun is => (tokensNot is).elim, verdicts⟩
  · have begins : (printTokens environment config source).errors <+:
        complaintText environment config source := by
      rw [printTokens_errors, complaintText, complaints, List.flatMap_append]
      exact List.prefix_append _ _
    refine ⟨?_, ?_, tokensIff, ?_, verdicts⟩
    · rw [runScript_of_complaints readable quiet silent, printTree_of_complaints silent]
    · rw [runScript_of_complaints readable quiet silent, printTree_of_complaints silent]
      exact fun _ => ⟨rfl, rfl, rfl⟩
    · rw [runScript_of_complaints readable quiet silent, printTree_of_complaints silent]
      exact fun _ => ⟨rfl, rfl, begins, begins⟩

/-- A script that compiles under the limit of the options and negates nil. -/
theorem scripts_judged_alike_negation :
    let files := (FileTree.ofFiles "/home" [("s.lox", "print -nil;")]).toFileSystem
    let environment : Environment := ⟨files, .unlimited, 1, false⟩
    let options : List Text := ["--max-depth", "3"]
    let path : Text := "s.lox"
    Options options ∧ Completes environment { maxDepth := 3 } "print -nil;" ∧
      (perform environment (options ++ [("run" : Text), path]) []).status.number = 70 ∧
      (perform environment (options ++ [("ast" : Text), path]) []).status.number ≠ 65 := by
  intro files environment options path
  have isOptions : Options options := ⟨by decide, by decide, by decide, by decide, by decide⟩
  have configured : (overridesOf options).config files = .ok { maxDepth := 3 } := by decide +kernel
  have readable : files.read path = .ok "print -nil;" := by decide +kernel
  have compiles : Compiles 3 "print -nil;"
      [.print (.unary ⟨.minus, "-", .nil, 1⟩ (.literal .nil))] := by
    refine ⟨by decide +kernel, parse_complete ?_ ?_ (by decide +kernel)⟩
    · exact ⟨⟨by decide, trivial, by decide⟩, trivial⟩
    · rw [Parse.Within]
      decide
  have raised : Execution.failure? (execution environment
      [.print (.unary ⟨.minus, "-", .nil, 1⟩ (.literal .nil))]) =
        some (.runtime ⟨⟨.minus, "-", .nil, 1⟩, .operandNotNumber⟩) := by
    decide +kernel
  have completes : Completes environment { maxDepth := 3 } "print -nil;" := by
    intro statements others
    have same := compiles.2.symm.trans others.2
    cases same
    rw [raised]
    decide
  rcases scripts_judged_alike environment options path "print -nil;" [] { maxDepth := 3 } isOptions
    (by decide) configured (by decide +kernel) readable with ⟨alike, _, _, _, verdicts⟩
  have failed := (verdicts completes).2.1.mpr ⟨_, _, compiles, raised⟩
  refine ⟨isOptions, completes, failed, ?_⟩
  rw [ne_eq, alike, failed]
  decide

end CommandLine

end LoxLang
