import LoxLang.Proofs.Execute.Simulation
import LoxLang.Proofs.Scan.Lines
import LoxLang.Proofs.Session.Safety
import LoxLang.Proofs.Session.Verdict

/-!
# A program in two parts

Two sources that compile can be put together with a line end between them. The whole compiles to the
statements of the first part followed by those of the second, which stand on lines further down, and
running it does what running one part after the other does. If the first part ends in a runtime
error, the whole does what the first part does.

The parts are scanned apart because a line end outside a string separates pieces. They are parsed
apart because the parser accepts exactly the spellings of well-formed statements within the limit,
and such spellings can be put together; an `if` that ends the first part has no `else` to find,
since nothing that compiles begins with one. They are executed apart because statements leave the
machine outside all blocks, as a new run finds it but for what was printed.
-/

namespace LoxLang

section Parsing

variable {limit : Int} {tokens others : List Token} {stmts more : List Stmt}
  {change : Token → Token}

theorem parse_append (kinds : ∀ token : Token, (change token).kind = token.kind)
    (payloads : ∀ token : Token, (change token).literal = token.literal)
    (parsed : parse limit tokens = ⟨.ok stmts, []⟩)
    (othersParsed : parse limit others = ⟨.ok more, []⟩) :
    parse limit (tokens.takeWhile (·.kind ≠ .eof) ++ others.map change) =
      ⟨.ok (stmts ++ more.map (Stmt.relocate change)), []⟩ := by
  have reads := readsBody_of_parse parsed
  have othersRead := readsBody_of_parse othersParsed
  apply parse_complete
  · have moved := othersRead.formed.relocate kinds
    rw [Stmt.allWellFormed_iff, List.forall_mem_append]
    exact ⟨Stmt.allWellFormed_iff.mp reads.formed, Stmt.allWellFormed_iff.mp moved⟩
  · rw [Stmt.nestingAll_append, Stmt.nestingAll_relocate]
    simpa using reads.within.both othersRead.within
  · have before : ∀ token ∈ tokens.takeWhile (·.kind ≠ .eof),
        decide (token.kind ≠ .eof) = true := by
      intro token mem
      simpa using List.mem_takeWhile_imp mem
    have moved : (others.map change).takeWhile (·.kind ≠ .eof) =
        (others.takeWhile (·.kind ≠ .eof)).map change := by
      simp [List.takeWhile_map, Function.comp_def, kinds]
    have spelled : ∀ token : Token, (change token).atom = token.atom.relocate change :=
      fun token => token.atom_change (kinds token) (payloads token)
    rw [List.takeWhile_append_of_pos before, moved, List.map_append, reads.atoms,
      Stmt.atomsAll_eq_flatMap (stmts ++ _), List.flatMap_append, ← Stmt.atomsAll_eq_flatMap,
      ← Stmt.atomsAll_eq_flatMap, Stmt.atomsAll_relocate, ← othersRead.atoms]
    simp [Function.comp_def, spelled]

end Parsing

/-- The simulation between runs on the same scopes and an output that never fails. -/
def Simulation.identical : Simulation fun _ => True where
  scopes level left right := left = right ∧ left.depth = level
  sinks left right := left = right ∧ left = .unlimited
  find?_eq := by
    rintro level left _ name ⟨rfl, _⟩ _
    rfl
  assign? := by
    rintro level left _ name value ⟨rfl, deep⟩ _
    cases assigned : left.assign? name value with
    | none => exact .none
    | some after => exact .some ⟨rfl, (Scopes.depth_of_assign? assigned).trans deep⟩
  define := by
    rintro level left _ name value ⟨rfl, deep⟩ _
    exact ⟨rfl, deep⟩
  push := by
    rintro level left _ ⟨rfl, deep⟩
    exact ⟨rfl, congrArg (· + 1) deep⟩
  pop := by
    rintro level left _ ⟨rfl, deep⟩
    rcases Scopes.eq_within_of_depth_eq deep with ⟨outer, inner, rfl, shallower⟩
    exact ⟨rfl, shallower⟩
  write? := by
    rintro left _ ⟨rfl, rfl⟩
    exact .some ⟨rfl, rfl⟩

theorem Paired.ended {related : Machine → Machine → Prop} {counterpart : Failure → Failure}
    {left right : EStateM.Result Failure Machine Unit}
    (paired : Paired related counterpart left right) :
    related (Execution.last left) (Execution.last right) ∧
      Execution.failure? right = (Execution.failure? left).map counterpart := by
  cases paired with
  | ok value states => exact ⟨states, rfl⟩
  | error failure states => exact ⟨states, rfl⟩

theorem Stmt.executeAll_append (budget : Nat) (stmts others : List Stmt) :
    executeAll budget (stmts ++ others) =
      (executeAll budget stmts >>= fun _ => executeAll budget others) := by
  induction stmts with
  | nil => rfl
  | cons first rest ih => rw [List.cons_append, executeAll, executeAll, ih, bind_assoc]

/-- The runtime error that many lines further down. -/
def RuntimeError.later (lines : Nat) (error : RuntimeError) : RuntimeError :=
  ⟨error.token.later lines, error.fault⟩

theorem Failure.runtime?_relocate (lines : Nat) (failure : Failure) :
    (failure.relocate (Token.later lines)).runtime? =
      failure.runtime?.map (RuntimeError.later lines) := by
  cases failure <;> rfl

namespace Session

variable {session : Session} {limit : Int} {source first second : Text}
  {stmts others : List Stmt}

theorem Compiles.append (compiles : Compiles limit first stmts)
    (othersCompile : Compiles limit second others) :
    Compiles limit (first ++ Byte.newline :: second)
      (stmts ++ others.map (Stmt.relocate (Token.later (1 + first.newlines)))) := by
  have closed : ∀ diagnostic ∈ (scan first).diagnostics,
      diagnostic.fault ≠ .unterminatedString := by
    simp [compiles.1]
  constructor
  · rw [scan_diagnostics_append_newline closed, compiles.1, othersCompile.1]
    rfl
  · rw [scan_tokens_append_newline closed, ← scan_tokens_takeWhile]
    exact parse_append (fun _ => rfl) (fun _ => rfl) compiles.2 othersCompile.2

/-- Statements leave an output that never fails as it is, and the machine outside all blocks. -/
theorem performance_related (unlimited : session.sink = .unlimited) (stmts : List Stmt) :
    Machine.Related .identical #[] 0 (Execution.last (session.performance stmts))
      (Execution.last (session.performance stmts)) := by
  have start : Machine.Related .identical #[] 0
      ⟨.global session.globals, session.sink, #[], #[]⟩
      ⟨.global session.globals, session.sink, #[], #[]⟩ :=
    ⟨⟨rfl, rfl⟩, ⟨rfl, unlimited⟩, rfl⟩
  have ended : Paired (Machine.Related .identical #[] 0) id (session.performance stmts)
      (session.performance stmts) :=
    Stmt.executeAll_matches_self session.budget stmts (fun _ _ => trivial) 0 _ _ start
  exact ended.ended.1

section Executed

variable (sound : session.Sound session.limit) (unmarked : session.console.hadError = false)
  (compiles : Compiles session.limit source stmts)
include sound unmarked compiles

/-- What compiles and neither raises an error nor runs forever leaves the machine outside all
blocks. -/
theorem performance_ok (unlimited : session.sink = .unlimited)
    (silent : session.raised source = none) (ends : (session.run source).2 ≠ some .budgetSpent) :
    ∃ machine, session.performance stmts = .ok () machine ∧
      machine.scopes = .global machine.scopes.innermost ∧ machine.sink = .unlimited := by
  have states := performance_related unlimited stmts
  have returned := run_returned sound unmarked compiles
  rw [raised_of_compiles unmarked compiles] at silent
  cases ran : session.performance stmts with
  | ok done machine =>
      rw [ran] at states
      exact ⟨machine, rfl, Scopes.eq_global_of_depth_eq_zero states.scopes.2, states.sink.2⟩
  | error failure machine =>
      rw [ran] at states returned silent
      have parseSilent : (parse session.limit (scan source).tokens).diagnostics = [] := by
        rw [compiles.2]
      rcases parse_failsOnly parseSilent with ⟨same, outcome, safe⟩
      rw [compiles.2] at outcome
      cases outcome
      have expected := safe session.budget _ _ _ ran
      cases failure with
      | runtime error => cases silent
      | internal cause => exact expected.elim
      | outputClosed =>
          have working : machine.sink = .unlimited := states.sink.2
          simp only [Failure.Expected, working] at expected
          cases expected
      | budgetSpent => exact (ends returned).elim

end Executed

theorem performance_append_of_ok {machine : Machine}
    (ran : session.performance stmts = .ok () machine) (others : List Stmt) :
    session.performance (stmts ++ others) = Stmt.executeAll session.budget others machine := by
  rw [performance] at ran
  rw [performance, Stmt.executeAll_append]
  simp only [Bind.bind, EStateM.bind, ran]

/-- Executing the second part on the session that has executed the first, and executing its moved
statements where those of the first have ended, is the same but for the lines. -/
theorem performance_append_paired {machine : Machine} (sound : session.Sound session.limit)
    (unmarked : session.console.hadError = false) (compiles : Compiles session.limit first stmts)
    (others : List Stmt) (change : Token → Token)
    (ran : session.performance stmts = .ok () machine)
    (outside : machine.scopes = .global machine.scopes.innermost)
    (unlimited : machine.sink = .unlimited)
    (kinds : ∀ token, (change token).kind = token.kind)
    (lexemes : ∀ token, (change token).lexeme = token.lexeme) :
    Paired (Machine.Related .identical machine.printed 0) (Failure.relocate change)
      ((session.run first).1.performance others)
      (session.performance (stmts ++ others.map (Stmt.relocate change))) := by
  rw [performance_append_of_ok ran, ← Stmt.relocateAll_eq_map, performance,
    run_budget sound unmarked compiles, run_globals sound unmarked compiles,
    run_sink sound unmarked compiles, ran]
  apply Stmt.executeAll_matches kinds lexemes others (fun _ _ => trivial) 0
  exact ⟨⟨outside.symm, rfl⟩, ⟨rfl, unlimited⟩, by simp⟩

theorem performance_append_of_error {failure : Failure} {machine : Machine}
    (ran : session.performance stmts = .error failure machine) (others : List Stmt) :
    session.performance (stmts ++ others) = session.performance stmts := by
  rw [performance] at ran
  rw [performance, performance, Stmt.executeAll_append]
  simp only [Bind.bind, EStateM.bind, ran]

theorem execute_eq_of_performance_eq
    (same : session.performance stmts = session.performance others) :
    session.execute stmts = session.execute others := by
  rw [performance, performance] at same
  rw [execute, execute, same]

/-- The end of running two parts as one is that of running the second part after the first, but that
a runtime error is further down. -/
structure Continues (session between : Session) (lines : Nat) (joined second : Text) : Prop where
  output : (session.run joined).1.output = (between.run second).1.output
  globals : (session.run joined).1.globals = (between.run second).1.globals
  console : (session.run joined).1.console = (between.run second).1.console
  returned : (session.run joined).2 = (between.run second).2
  raised : session.raised joined = (between.raised second).map (RuntimeError.later lines)
  shownApart : (between.run second).1.shown = between.shown ++ (between.raised second).elim []
    fun error => session.console.runtimeLine error.message error.token.line
  shown : (session.run joined).1.shown = between.shown ++ (between.raised second).elim []
    fun error => session.console.runtimeLine error.message (error.token.line + lines)

section Parts

variable (sound : session.Sound session.limit) (unmarked : session.console.hadError = false)
  (compiles : Compiles session.limit first stmts)
  (othersCompile : Compiles session.limit second others)
include sound unmarked compiles othersCompile

theorem run_continues (unlimited : session.sink = .unlimited)
    (ends : (session.run first).2 ≠ some .budgetSpent) (silent : session.raised first = none) :
    Continues session (session.run first).1 (1 + first.newlines) (first ++ Byte.newline :: second)
      second := by
  rcases performance_ok sound unmarked compiles unlimited silent ends with
    ⟨machine, ran, outside, stillUnlimited⟩
  have paired := performance_append_paired sound unmarked compiles others
    (Token.later (1 + first.newlines)) ran outside stillUnlimited (fun _ => rfl) (fun _ => rfl)
  have wholeCompiles := compiles.append othersCompile
  have betweenConsole : (session.run first).1.console = session.console := by
    rw [run_console sound unmarked compiles, silent]
    simp
  have betweenShown : (session.run first).1.shown = session.shown := by
    rw [run_shown sound unmarked compiles, silent]
    simp
  have betweenOutput := run_output sound unmarked compiles
  rw [ran] at betweenOutput
  have betweenSound := (run_sound sound first).self
  have betweenCompiles : Compiles (session.run first).1.limit second others := by
    rw [(run_sound sound first).1]
    exact othersCompile
  generalize (session.run first).1 = between at *
  have betweenUnmarked : between.console.hadError = false := by
    rw [betweenConsole, unmarked]
  rcases paired.ended with ⟨states, failures⟩
  have raises : session.raised (first ++ Byte.newline :: second) =
      (between.raised second).map (RuntimeError.later (1 + first.newlines)) := by
    rw [raised_of_compiles unmarked wholeCompiles, failures,
      raised_of_compiles betweenUnmarked betweenCompiles]
    cases Execution.failure? (between.performance others) with
    | none => rfl
    | some failure => exact failure.runtime?_relocate _
  constructor
  · rw [run_output sound unmarked wholeCompiles,
      run_output betweenSound betweenUnmarked betweenCompiles, betweenOutput, Machine.written,
      states.printed]
    simp [Machine.written, Execution.last]
  · rw [run_globals sound unmarked wholeCompiles,
      run_globals betweenSound betweenUnmarked betweenCompiles, states.scopes.1]
  · rw [run_console sound unmarked wholeCompiles,
      run_console betweenSound betweenUnmarked betweenCompiles, betweenConsole, raises,
      Option.isSome_map]
  · rw [run_returned sound unmarked wholeCompiles,
      run_returned betweenSound betweenUnmarked betweenCompiles, failures]
    cases Execution.failure? (between.performance others) with
    | none => rfl
    | some failure => cases failure <;> rfl
  · exact raises
  · rw [run_shown betweenSound betweenUnmarked betweenCompiles, betweenConsole]
  · rw [run_shown sound unmarked wholeCompiles, raises, betweenShown]
    cases between.raised second <;> rfl

theorem run_append_alike (raises : session.raised first ≠ none) :
    Alike (session.run (first ++ Byte.newline :: second)) (session.run first) := by
  have wholeRuns := run_executed sound unmarked (compiles.append othersCompile)
  have firstRuns := run_executed sound unmarked compiles
  rw [raised_of_compiles unmarked compiles] at raises
  cases ran : session.performance stmts with
  | ok done machine =>
      rw [ran] at raises
      exact (raises rfl).elim
  | error failure machine =>
      rw [execute_eq_of_performance_eq (performance_append_of_error ran _)] at wholeRuns
      apply wholeRuns.trans
      apply Alike.trans _ firstRuns.symm
      exact concluded_alike ⟨rfl, rfl⟩

end Parts

/-- Putting two sources together that compile, with a line end between them, changes nothing. The
session may be any that comes of a new one, or indeed any whose cache is right. -/
theorem run_split (sound : session.Sound session.limit)
    (unmarked : session.console.hadError = false) (unlimited : session.sink = .unlimited)
    (compiles : Compiles session.limit first stmts)
    (othersCompile : Compiles session.limit second others)
    (ends : (session.run first).2 ≠ some .budgetSpent) :
    let joined := first ++ Byte.newline :: second
    let lines := 1 + first.newlines
    Compiles session.limit joined (stmts ++ others.map (Stmt.relocate (Token.later lines))) ∧
      (session.raised first = none →
        Continues session (session.run first).1 lines joined second) ∧
      (session.raised first ≠ none → Alike (session.run joined) (session.run first)) :=
  ⟨compiles.append othersCompile,
    run_continues sound unmarked compiles othersCompile unlimited ends,
    run_append_alike sound unmarked compiles othersCompile⟩

/-- The first part ends in an `if` that could take an `else`; the second part raises an error. -/
theorem run_split_negation :
    let session := new 0 0 1 (.new false) .unlimited
    let first : Text := "var x;\nif (x) print x;"
    let second : Text := "print -x;"
    session.raised first = none ∧ ((session.run first).1.raised second).isSome = true ∧
      Continues session (session.run first).1 2 (first ++ Byte.newline :: second) second := by
  intro session first second
  have compiles : Compiles session.limit first
      [.declare ⟨.identifier, "x", .nil, 1⟩ none,
       .ifThen (.name ⟨.identifier, "x", .nil, 2⟩)
         (.print (.name ⟨.identifier, "x", .nil, 2⟩))] := by
    refine ⟨by decide +kernel,
      parse_complete ?_ (Parse.Within.of_nonpos (Int.le_refl 0)) (by decide +kernel)⟩
    exact ⟨rfl, ⟨rfl, rfl, rfl⟩, trivial⟩
  have othersCompile : Compiles session.limit second
      [.print (.unary ⟨.minus, "-", .nil, 1⟩ (.name ⟨.identifier, "x", .nil, 1⟩))] := by
    refine ⟨by decide +kernel,
      parse_complete ?_ (Parse.Within.of_nonpos (Int.le_refl 0)) (by decide +kernel)⟩
    exact ⟨⟨by decide, rfl, by decide⟩, trivial⟩
  have silent : session.raised first = none := by decide +kernel
  have ends : (session.run first).2 ≠ some .budgetSpent := by decide +kernel
  refine ⟨silent, by decide +kernel, ?_⟩
  exact (run_split (new_sound ..) rfl rfl compiles othersCompile ends).2.1 silent

end Session

end LoxLang
