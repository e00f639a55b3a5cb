import LoxLang.Proofs.Parse.Soundness
import LoxLang.Proofs.Session.Transparency
import Mathlib.Data.List.Induction

/-!
# What a run does, and how a session ends

A run of a source that meets a complaint, its own or an earlier one, shows the complaints about the
source and does nothing else. Any other run executes the statements of its source once, on the
globals as they are. Either way the marks of the console say what has happened since the session
began: the first whether there was a complaint since the last reset, the second whether any executed
source ended in a runtime error. The exit status reads off these two facts.

Runs are described for the session without its cache; `run_alike_performed` carries that over to the
session as it is. A history is a list of steps, each with the files it finds.
-/

namespace LoxLang

namespace Execution

/-- The machine that an execution leaves. -/
def last : EStateM.Result Failure Machine Unit → Machine
  | .ok _ machine | .error _ machine => machine

/-- The failure in which an execution ends, if it ends in one. -/
def failure? : EStateM.Result Failure Machine Unit → Option Failure
  | .ok _ _ => none
  | .error failure _ => some failure

end Execution

/-- What was printed, each text on a line of its own. -/
def Machine.written (machine : Machine) : Text :=
  machine.printed.toList.flatMap (· ++ [Byte.newline])

/-- The runtime error that a failure is, if it is one. -/
def Failure.runtime? : Failure → Option RuntimeError
  | runtime error => some error
  | internal _ | outputClosed | budgetSpent => none

namespace Session

variable {session : Session} {limit : Int} {source : Text} {statements : List Stmt}

/-- How executing statements on the globals of the session ends. -/
def performance (session : Session) (statements : List Stmt) :
    EStateM.Result Failure Machine Unit :=
  Stmt.executeAll session.budget statements ⟨.global session.globals, session.sink, #[], #[]⟩

/-- The runtime error that running a source ends in. There is none unless the source is executed. -/
def raised (session : Session) (source : Text) : Option RuntimeError :=
  if session.console.hadError || !(complaints session.limit source).isEmpty then none
  else
    match (parse session.limit (scan source).tokens).outcome with
    | .error _ => none
    | .ok statements => (Execution.failure? (session.performance statements)).bind Failure.runtime?

/-- What running a source comes to. -/
structure Ran (session : Session) (source : Text) (result : Session × Option Failure) : Prop where
  shown : result.1.shown =
    session.shown ++ (complaints session.limit source).flatMap session.console.diagnosticLine ++
      (session.raised source).elim [] fun error =>
        session.console.runtimeLine error.message error.token.line
  hadError : result.1.console.hadError =
    (session.console.hadError || !(complaints session.limit source).isEmpty)
  hadRuntimeError : result.1.console.hadRuntimeError =
    (session.console.hadRuntimeError || (session.raised source).isSome)
  blocked : result.1.console.hadError = true →
    result.1.output = session.output ∧ result.1.globals = session.globals ∧
      result.1.console.hadRuntimeError = session.console.hadRuntimeError ∧ result.2 = none
  executed : result.1.console.hadError = false →
    ∃ statements, (parse session.limit (scan source).tokens).outcome = .ok statements ∧
      result.1.output =
        session.output ++ (Execution.last (session.performance statements)).written ∧
      result.1.globals = (Execution.last (session.performance statements)).scopes.innermost ∧
      session.raised source =
        (Execution.failure? (session.performance statements)).bind Failure.runtime? ∧
      result.2 = (Execution.failure? (session.performance statements)).filter (·.runtime?.isNone)

theorem run_alike_performed (sound : session.Sound limit) (source : Text) :
    Alike (session.run source)
      (performed (session.reportAll (complaints limit source),
        (parse limit (scan source).tokens).outcome.toOption)) := by
  have compiled := compile_compiled sound source
  rw [run_eq_performed]
  apply performed_alike
  exact ⟨compiled.effect.trans (bare_reportAll _ _).symm, compiled.statements⟩

theorem shown_emit (session : Session) (event : Event) :
    (session.emit event).shown = session.shown ++ event.console := by
  simp [shown, emit]

theorem output_emit (session : Session) (event : Event) :
    (session.emit event).output = session.output ++ event.output := by
  simp [output, emit]

theorem reportAll_shown (session : Session) (diagnostics : List Diagnostic) :
    (session.reportAll diagnostics).shown =
      session.shown ++ diagnostics.flatMap session.console.diagnosticLine := by
  induction diagnostics generalizing session with
  | nil => simp [reportAll]
  | cons diagnostic diagnostics ih =>
      have first : (session.report diagnostic).shown =
          session.shown ++ session.console.diagnosticLine diagnostic := shown_emit session _
      have rest := ih (session.report diagnostic)
      rw [first, List.append_assoc] at rest
      exact rest

theorem output_report (session : Session) (diagnostic : Diagnostic) :
    (session.report diagnostic).output = session.output :=
  (output_emit session _).trans (List.append_nil _)

theorem output_reportRuntime (session : Session) (error : RuntimeError) :
    (session.reportRuntime error).output = session.output :=
  (output_emit session _).trans (List.append_nil _)

theorem output_log (session : Session) (message : Text) (fields : List (Text × Text)) :
    (session.log message fields).output = session.output :=
  (output_emit session _).trans (List.append_nil _)

theorem shown_log (session : Session) (message : Text) (fields : List (Text × Text)) :
    (session.log message fields).shown = session.shown :=
  (shown_emit session _).trans (List.append_nil _)

theorem run_blocked (sound : session.Sound session.limit)
    (blocked : (session.console.hadError || !(complaints session.limit source).isEmpty) = true) :
    Alike (session.run source)
      (session.reportAll (complaints session.limit source), none) := by
  have marked := (reportAll_hadError session (complaints session.limit source)).trans blocked
  have alike := run_alike_performed sound source
  cases parsed : (parse session.limit (scan source).tokens).outcome.toOption with
  | none =>
      rw [parsed] at alike
      exact alike
  | some statements =>
      rw [parsed] at alike
      simpa only [performed, if_pos marked] using alike

theorem ran_of_blocked (sound : session.Sound session.limit)
    (blocked : (session.console.hadError || !(complaints session.limit source).isEmpty) = true) :
    Ran session source (session.run source) := by
  have alike := run_blocked sound blocked
  have silent : session.raised source = none := by
    rw [raised, if_pos blocked]
  have marks : (session.run source).1.console.hadError =
      (session.console.hadError || !(complaints session.limit source).isEmpty) :=
    (congrArg (·.console.hadError) alike.1).trans (reportAll_hadError session _)
  have runtimeMark : (session.run source).1.console.hadRuntimeError =
      session.console.hadRuntimeError :=
    (congrArg (·.console.hadRuntimeError) alike.1).trans
      (reportAll_keeps (·.console.hadRuntimeError) (fun _ _ => rfl) session _)
  have sameGlobals : (session.run source).1.globals = session.globals :=
    (congrArg (·.globals) alike.1).trans
      (reportAll_keeps (·.globals) (fun _ _ => rfl) session _)
  constructor
  · rw [alike.shown_eq, reportAll_shown, silent]
    simp
  · exact marks
  · simp [runtimeMark, silent]
  · intro _
    exact ⟨alike.output_eq.trans (reportAll_keeps output output_report _ _), sameGlobals,
      runtimeMark, alike.2⟩
  · intro unmarked
    rw [marks, blocked] at unmarked
    cases unmarked

theorem execute_shown (session : Session) (statements : List Stmt) :
    (session.execute statements).1.shown = session.shown := by
  simp [execute, shown, List.flatMap_map, Event.console]

theorem execute_output (session : Session) (statements : List Stmt) :
    (session.execute statements).1.output =
      session.output ++ (Execution.last (session.performance statements)).written := by
  simp only [execute, performance]
  cases Stmt.executeAll session.budget statements _ <;>
    simp [output, List.flatMap_map, Event.output, Execution.last, Machine.written]

theorem execute_globals (session : Session) (statements : List Stmt) :
    (session.execute statements).1.globals =
      (Execution.last (session.performance statements)).scopes.innermost := by
  simp only [execute, performance]
  cases Stmt.executeAll session.budget statements _ <;> rfl

theorem execute_sink (session : Session) (statements : List Stmt) :
    (session.execute statements).1.sink =
      (Execution.last (session.performance statements)).sink := by
  simp only [execute, performance]
  cases Stmt.executeAll session.budget statements _ <;> rfl

theorem execute_returned (session : Session) (statements : List Stmt) :
    (session.execute statements).2 = Execution.failure? (session.performance statements) := by
  simp only [execute, performance]
  cases Stmt.executeAll session.budget statements _ <;> rfl

/-- What follows the execution shows the runtime error, if there is one. -/
theorem concluded_shown (count : Nat) (result : Session × Option Failure) :
    (concluded count result).1.shown = result.1.shown ++
      (result.2.bind Failure.runtime?).elim [] fun error =>
        result.1.console.runtimeLine error.message error.token.line := by
  rcases result with ⟨after, failure⟩
  cases failure with
  | none => simp [concluded, shown_log]
  | some failure =>
      cases failure with
      | runtime error => exact (shown_emit _ _).trans (congrArg (· ++ _) (shown_log _ _ _))
      | internal | outputClosed | budgetSpent => simp [concluded, shown_log, Failure.runtime?]

theorem concluded_keeps {α : Type} (part : Session → α)
    (logs : ∀ session message fields, part (log session message fields) = part session)
    (reports : ∀ session error, part (reportRuntime session error) = part session)
    (count : Nat) (result : Session × Option Failure) :
    part (concluded count result).1 = part result.1 := by
  rcases result with ⟨after, failure⟩
  cases failure with
  | none => exact logs _ _ _
  | some failure =>
      cases failure with
      | runtime error => exact (reports _ _).trans (logs _ _ _)
      | internal | outputClosed | budgetSpent => exact logs _ _ _

theorem concluded_console (count : Nat) (result : Session × Option Failure) :
    (concluded count result).1.console = { result.1.console with
      hadRuntimeError :=
        result.1.console.hadRuntimeError || (result.2.bind Failure.runtime?).isSome } := by
  rcases result with ⟨after, failure⟩
  cases failure with
  | none => simp [concluded, log, emit]
  | some failure =>
      cases failure <;>
        simp [concluded, log, emit, reportRuntime, Console.afterRuntimeError, Failure.runtime?]

theorem concluded_returned (count : Nat) (result : Session × Option Failure) :
    (concluded count result).2 = result.2.filter (·.runtime?.isNone) := by
  rcases result with ⟨after, failure⟩
  cases failure with
  | none => rfl
  | some failure => cases failure <;> rfl

theorem raised_of_compiles (unmarked : session.console.hadError = false)
    (compiles : Compiles session.limit source statements) :
    session.raised source =
      (Execution.failure? (session.performance statements)).bind Failure.runtime? := by
  simp [raised, unmarked, compiles.complaints, compiles.2]

theorem exists_compiles (silent : complaints limit source = []) :
    ∃ statements, Compiles limit source statements := by
  rcases List.append_eq_nil_iff.mp silent with ⟨scanSilent, parseSilent⟩
  rcases parse_sound parseSilent with ⟨statements, returned, _⟩
  refine ⟨statements, scanSilent, ?_⟩
  rw [← parseSilent, ← returned]

theorem run_executed (sound : session.Sound session.limit)
    (unmarked : session.console.hadError = false)
    (compiles : Compiles session.limit source statements) :
    Alike (session.run source) (concluded statements.length (session.execute statements)) := by
  have alike := run_alike_performed sound source
  rw [compiles.complaints, compiles.2] at alike
  simpa [performed, reportAll, unmarked, Except.toOption] using alike

section Executed

variable (sound : session.Sound session.limit) (unmarked : session.console.hadError = false)
  (compiles : Compiles session.limit source statements)
include sound unmarked compiles

theorem run_part {α : Type} (part : Session → α)
    (bares : ∀ session, part (bare session) = part session)
    (logs : ∀ session message fields, part (log session message fields) = part session)
    (reports : ∀ session error, part (reportRuntime session error) = part session) :
    part (session.run source).1 = part (session.execute statements).1 := by
  have alike := run_executed sound unmarked compiles
  rw [← bares, alike.1, bares, concluded_keeps part logs reports]

theorem run_output :
    (session.run source).1.output =
      session.output ++ (Execution.last (session.performance statements)).written :=
  (run_part sound unmarked compiles output output_bare output_log output_reportRuntime).trans
    (execute_output session statements)

theorem run_shown :
    (session.run source).1.shown = session.shown ++ (session.raised source).elim []
      fun error => session.console.runtimeLine error.message error.token.line := by
  have alike := run_executed sound unmarked compiles
  rw [alike.shown_eq, concluded_shown, execute_shown, execute_returned,
    raised_of_compiles unmarked compiles]
  rfl

theorem run_globals :
    (session.run source).1.globals =
      (Execution.last (session.performance statements)).scopes.innermost :=
  (run_part sound unmarked compiles (·.globals) (fun _ => rfl) (fun _ _ _ => rfl)
    (fun _ _ => rfl)).trans (execute_globals session statements)

theorem run_sink :
    (session.run source).1.sink = (Execution.last (session.performance statements)).sink :=
  (run_part sound unmarked compiles (·.sink) (fun _ => rfl) (fun _ _ _ => rfl)
    (fun _ _ => rfl)).trans (execute_sink session statements)

theorem run_budget : (session.run source).1.budget = session.budget :=
  run_part sound unmarked compiles (·.budget) (fun _ => rfl) (fun _ _ _ => rfl) (fun _ _ => rfl)

theorem run_console :
    (session.run source).1.console = { session.console with
      hadRuntimeError := session.console.hadRuntimeError || (session.raised source).isSome } := by
  have alike := run_executed sound unmarked compiles
  have sameConsole : (session.run source).1.console =
      (concluded statements.length (session.execute statements)).1.console :=
    congrArg (·.console) alike.1
  rw [sameConsole, concluded_console, execute_returned, raised_of_compiles unmarked compiles]
  rfl

theorem run_returned :
    (session.run source).2 =
      (Execution.failure? (session.performance statements)).filter (·.runtime?.isNone) := by
  have alike := run_executed sound unmarked compiles
  rw [alike.2, concluded_returned, execute_returned]

theorem ran_of_compiles : Ran session source (session.run source) := by
  have console := run_console sound unmarked compiles
  have silent := compiles.complaints
  constructor
  · simp [run_shown sound unmarked compiles, silent]
  · simp [console, silent]
  · rw [console]
  · intro marked
    rw [console] at marked
    simp [unmarked] at marked
  · intro _
    exact ⟨statements, by rw [compiles.2], run_output sound unmarked compiles,
      run_globals sound unmarked compiles, raised_of_compiles unmarked compiles,
      run_returned sound unmarked compiles⟩

end Executed

theorem run_ran (sound : session.Sound session.limit) (source : Text) :
    Ran session source (session.run source) := by
  by_cases blocked :
      (session.console.hadError || !(complaints session.limit source).isEmpty) = true
  · exact ran_of_blocked sound blocked
  · simp only [Bool.or_eq_true, not_or, Bool.not_eq_true, Bool.not_eq_false', List.isEmpty_iff]
      at blocked
    rcases exists_compiles blocked.2 with ⟨statements, compiles⟩
    exact ran_of_compiles sound blocked.1 compiles

/-- The source that a step runs, if it comes to running one. -/
def Step.source? (files : FileSystem) : Step → Option Text
  | run source | runLine source => some source
  | runFile path => (files.read path).toOption
  | reset => none

/-- Whether the mark of diagnostics is clear after a step whatever came before. -/
def Step.resets : Step → Bool
  | runLine _ | reset => true
  | run _ | runFile _ => false

theorem after_hadError (sound : session.Sound limit) (files : FileSystem) (step : Step) :
    (session.after files step).1.console.hadError = true ↔
      step.resets = false ∧ (session.console.hadError = true ∨
        ∃ source, step.source? files = some source ∧ complaints limit source ≠ []) := by
  rcases sound with ⟨rfl, holds⟩
  cases step with
  | run source =>
      have marks := (run_ran ⟨rfl, holds⟩ source).hadError
      simp [after, Step.resets, Step.source?, marks]
  | runLine line => simp [after, runLine, Step.resets, reset, Console.reset, log, emit]
  | runFile path =>
      simp only [after, runFile, Step.resets, Step.source?]
      cases files.read path with
      | error error => simp [Except.toOption]
      | ok source =>
          have marks : ∀ message fields,
              ((session.log message fields).run source).1.console.hadError =
                (session.console.hadError || !(complaints session.limit source).isEmpty) :=
            fun message fields =>
              (@run_ran (session.log message fields) ⟨rfl, holds⟩ source).hadError
          simp [marks, Except.toOption]
  | reset => simp [after, Step.resets, reset, Console.reset]

theorem after_hadRuntimeError (sound : session.Sound limit) (files : FileSystem) (step : Step) :
    (session.after files step).1.console.hadRuntimeError = true ↔
      session.console.hadRuntimeError = true ∨
        ∃ source, step.source? files = some source ∧ (session.raised source).isSome = true := by
  rcases sound with ⟨rfl, holds⟩
  cases step with
  | run source | runLine source =>
      have marks := (run_ran ⟨rfl, holds⟩ source).hadRuntimeError
      simp [after, runLine, Step.source?, reset, Console.reset, log, emit, marks]
  | runFile path =>
      simp only [after, runFile, Step.source?]
      cases files.read path with
      | error error => simp [Except.toOption]
      | ok source =>
          have marks : ∀ message fields,
              ((session.log message fields).run source).1.console.hadRuntimeError =
                (session.console.hadRuntimeError || (session.raised source).isSome) :=
            fun message fields =>
              (@run_ran (session.log message fields) ⟨rfl, holds⟩ source).hadRuntimeError
          simp [marks, Except.toOption]
  | reset => simp [after, Step.source?, reset, Console.reset]

/-- The session after a history. -/
def afterHistory (session : Session) (history : List (FileSystem × Step)) : Session :=
  history.foldl (fun session move => (session.after move.1 move.2).1) session

theorem afterHistory_concat (session : Session) (history : List (FileSystem × Step))
    (files : FileSystem) (step : Step) :
    session.afterHistory (history ++ [(files, step)]) =
      ((session.afterHistory history).after files step).1 := by
  simp [afterHistory]

theorem afterHistory_sound (sound : session.Sound limit) (history : List (FileSystem × Step)) :
    (session.afterHistory history).Sound limit := by
  induction history generalizing session with
  | nil => exact sound
  | cons move history ih => exact ih (after_sound sound move.1 move.2)

/-- In the history there was a complaint about a source, and no reset at that step or later. -/
def Complained (limit : Int) (history : List (FileSystem × Step)) : Prop :=
  ∃ before move later, history = before ++ move :: later ∧
    (∃ source, move.2.source? move.1 = some source ∧ complaints limit source ≠ []) ∧
      ∀ other ∈ move :: later, other.2.resets = false

/-- In the history, which begins with the given session, a source that was executed ended in a
runtime error. -/
def Failed (start : Session) (history : List (FileSystem × Step)) : Prop :=
  ∃ before move later, history = before ++ move :: later ∧
    ∃ source, move.2.source? move.1 = some source ∧
      ((start.afterHistory before).raised source).isSome = true

/-- A place in a list with one element more is the new one or a place in the list. -/
theorem exists_place_concat_iff {α : Type} {holds : List α → α → List α → Prop} {elements : List α}
    {added : α} :
    (∃ before element later, elements ++ [added] = before ++ element :: later ∧
        holds before element later) ↔
      holds elements added [] ∨
        ∃ before element later, elements = before ++ element :: later ∧
          holds before element (later ++ [added]) := by
  constructor
  · rintro ⟨before, element, later, split, holdsThere⟩
    rcases List.eq_nil_or_concat later with rfl | ⟨initial, final, rfl⟩
    · have parts := List.append_inj' split rfl
      rcases parts with ⟨rfl, same⟩
      cases same
      exact Or.inl holdsThere
    · have parts : elements = before ++ element :: initial ∧ [added] = [final] := by
        apply List.append_inj'
        · simpa using split
        · rfl
      rcases parts with ⟨rfl, same⟩
      cases same
      exact Or.inr ⟨before, element, initial, rfl, by simpa using holdsThere⟩
  · rintro (holdsThere | ⟨before, element, later, rfl, holdsThere⟩)
    · exact ⟨elements, added, [], rfl, holdsThere⟩
    · exact ⟨before, element, later ++ [added], by simp, holdsThere⟩

theorem complained_concat_iff {history : List (FileSystem × Step)} {files : FileSystem}
    {step : Step} :
    Complained limit (history ++ [(files, step)]) ↔
      step.resets = false ∧ (Complained limit history ∨
        ∃ source, step.source? files = some source ∧ complaints limit source ≠ []) := by
  rw [Complained, exists_place_concat_iff]
  constructor
  · rintro (⟨complaint, kept⟩ | ⟨before, move, later, split, complaint, kept⟩)
    · exact ⟨kept (files, step) (by simp), Or.inr complaint⟩
    · refine ⟨kept (files, step) (by simp), Or.inl ⟨before, move, later, split, complaint, ?_⟩⟩
      intro other mem
      apply kept
      rw [← List.cons_append]
      exact List.mem_append_left _ mem
  · rintro ⟨keeps, ⟨before, move, later, split, complaint, kept⟩ | complaint⟩
    · refine Or.inr ⟨before, move, later, split, complaint, ?_⟩
      intro other mem
      rw [← List.cons_append, List.mem_append, List.mem_singleton] at mem
      rcases mem with mem | rfl
      · exact kept other mem
      · exact keeps
    · refine Or.inl ⟨complaint, ?_⟩
      intro other mem
      rw [List.mem_singleton] at mem
      rw [mem]
      exact keeps

theorem failed_concat_iff {start : Session} {history : List (FileSystem × Step)}
    {files : FileSystem} {step : Step} :
    Failed start (history ++ [(files, step)]) ↔
      Failed start history ∨
        ∃ source, step.source? files = some source ∧
          ((start.afterHistory history).raised source).isSome = true := by
  rw [Failed, exists_place_concat_iff, or_comm]
  rfl

theorem afterHistory_hadError (sound : session.Sound limit)
    (fresh : session.console.hadError = false) (history : List (FileSystem × Step)) :
    (session.afterHistory history).console.hadError = true ↔ Complained limit history := by
  induction history using List.reverseRecOn with
  | nil => simp [afterHistory, Complained, fresh]
  | append_singleton history move ih =>
      rcases move with ⟨files, step⟩
      rw [afterHistory_concat, after_hadError (afterHistory_sound sound history), ih,
        complained_concat_iff]

theorem afterHistory_hadRuntimeError (sound : session.Sound limit)
    (fresh : session.console.hadRuntimeError = false) (history : List (FileSystem × Step)) :
    (session.afterHistory history).console.hadRuntimeError = true ↔ Failed session history := by
  induction history using List.reverseRecOn with
  | nil => simp [afterHistory, Failed, fresh]
  | append_singleton history move ih =>
      rcases move with ⟨files, step⟩
      rw [afterHistory_concat, after_hadRuntimeError (afterHistory_sound sound history), ih,
        failed_concat_iff]

theorem exitStatus_number_iff (session : Session) :
    (session.exitStatus.number = 65 ↔ session.console.hadError = true) ∧
      (session.exitStatus.number = 70 ↔
        ¬session.console.hadError = true ∧ session.console.hadRuntimeError = true) ∧
      (session.exitStatus.number = 0 ↔
        ¬session.console.hadError = true ∧ ¬session.console.hadRuntimeError = true) := by
  rw [exitStatus]
  cases session.console.hadError <;> cases session.console.hadRuntimeError <;> decide

/-- After any history, a run does what `Ran` says of it, and the exit status is 65 if there was a
complaint since the last reset, else 70 if there ever was a runtime error, and else 0. -/
theorem afterHistory_truthful (limit size : Int) (budget : Nat) (colored : Bool) (sink : Sink)
    (history : List (FileSystem × Step)) :
    let start := new limit size budget (.new colored) sink
    let session := start.afterHistory history
    session.limit = limit ∧ (∀ source, Ran session source (session.run source)) ∧
      (session.exitStatus.number = 65 ↔ Complained limit history) ∧
      (session.exitStatus.number = 70 ↔ ¬Complained limit history ∧ Failed start history) ∧
      (session.exitStatus.number = 0 ↔ ¬Complained limit history ∧ ¬Failed start history) := by
  intro start session
  have startSound : start.Sound limit := new_sound ..
  have sound : session.Sound limit := afterHistory_sound startSound history
  have marks : session.console.hadError = true ↔ Complained limit history :=
    afterHistory_hadError startSound rfl history
  have runtimeMarks : session.console.hadRuntimeError = true ↔ Failed start history :=
    afterHistory_hadRuntimeError startSound rfl history
  rw [← marks, ← runtimeMarks]
  exact ⟨sound.1, run_ran sound.self, session.exitStatus_number_iff⟩

end Session

end LoxLang
