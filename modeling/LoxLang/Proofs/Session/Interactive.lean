import LoxLang.Proofs.Session.Verdict

/-!
# Lines of an interactive session

A line is executed if nothing is wrong with it and no complaint stands against an earlier source. A
line takes complaints about itself back when it has run, so among lines alone no line stands in the
way of another. A source that was run as a whole does: its complaints are taken back only after the
line that comes next, which is then not executed, whatever it is.

That a line was executed can be read off the log, which has a record of each execution. Lines that
are complained about leave nothing behind but what the console and the log show of them, so they can
be left out. Sessions that differ in no more than that are compared by `Akin`.
-/

namespace LoxLang

/-- Whether an event is the record of an execution. -/
def Event.isExecution : Event → Bool
  | logged record => record.message = "interpreted"
  | printed _ | reported _ => false

/-- What is written on the console for a diagnostic or a runtime error. -/
def Console.written (console : Console) : Diagnostic ⊕ RuntimeError → Text
  | .inl diagnostic => console.diagnosticLine diagnostic
  | .inr error => console.runtimeLine error.message error.token.line

theorem Console.written_eq {left right : Console} (same : left.colored = right.colored) :
    left.written = right.written := by
  funext shown
  cases shown <;> simp only [written, diagnosticLine, runtimeLine, line, same]

namespace Session

variable {session left right : Session} {limit : Int} {line : Text}

section Execution

/-- How many executions the log has a record of. -/
def executions (session : Session) : Nat := session.events.toList.countP Event.isExecution

/-- Running the line executes it. -/
def Executes (session : Session) (line : Text) : Prop :=
  session.executions < (session.runLine line).1.executions

theorem executions_emit (session : Session) (event : Event) :
    (session.emit event).executions =
      session.executions + if event.isExecution then 1 else 0 := by
  simp [executions, emit, List.countP_append, List.countP_cons]

theorem executions_log {message : Text} (other : message ≠ "interpreted")
    (session : Session) (fields : List (Text × Text)) :
    (session.log message fields).executions = session.executions := by
  rw [log, executions_emit]
  simp [Event.isExecution, other]

theorem executions_reportAll (session : Session) (diagnostics : List Diagnostic) :
    (session.reportAll diagnostics).executions = session.executions :=
  reportAll_keeps executions (fun session _ => executions_emit session _) session diagnostics

theorem executions_compileAnew (session : Session) (source : Text) :
    (session.compileAnew source).1.executions = session.executions := by
  have scanned : ∀ fields, ((session.reportAll (scan source).diagnostics).log "scanned"
      fields).executions = session.executions := by
    intro fields
    rw [executions_log (by decide), executions_reportAll]
  simp only [compileAnew]
  split
  · rw [executions_log (by decide), executions_reportAll, scanned]
  · split
    · rw [executions_log (by decide), executions_reportAll, scanned]
    · exact (executions_log (by decide) _ _).trans ((executions_reportAll _ _).trans (scanned _))

theorem executions_compile (session : Session) (source : Text) :
    (session.compile source).1.executions = session.executions := by
  rw [compile]
  split
  · exact executions_log (by decide) session _
  · exact executions_compileAnew session source

theorem executions_execute (session : Session) (statements : List Stmt) :
    (session.execute statements).1.executions = session.executions := by
  have other : ("enter block" : Text) ≠ "interpreted" := by decide
  simp only [execute, executions, Array.toList_append, Array.toList_map, List.countP_append,
    List.countP_map]
  simp [Function.comp_def, Event.isExecution, other]

theorem executions_concluded (count : Nat) (result : Session × Option Failure) :
    (concluded count result).1.executions = result.1.executions + 1 := by
  have logged : ∀ fields, (result.1.log "interpreted" fields).executions =
      result.1.executions + 1 := by
    intro fields
    rw [log, executions_emit]
    rfl
  rcases result with ⟨after, failure⟩
  cases failure with
  | none => exact logged _
  | some failure =>
      cases failure with
      | runtime error => exact (executions_emit _ _).trans (logged _)
      | internal | outputClosed | budgetSpent => exact logged _

/-- A run executes its source once if nothing stands against it, and else not at all. -/
theorem executions_run (sound : session.Sound session.limit) (source : Text) :
    (session.run source).1.executions = session.executions +
      if session.console.hadError = false ∧ complaints session.limit source = [] then 1 else 0 := by
  have compiled := compile_compiled sound source
  have same := executions_compile session source
  have marks : (session.compile source).1.console.hadError =
      (session.console.hadError || !(complaints session.limit source).isEmpty) :=
    (congrArg (·.console.hadError) compiled.effect).trans (reportAll_hadError session.bare _)
  rw [run_eq_performed]
  generalize session.compile source = result at compiled same marks
  rcases result with ⟨after, outcome⟩
  simp only at same marks
  cases outcome with
  | none =>
      -- A source without complaints is parsed to the end.
      have blocked :
          ¬(session.console.hadError = false ∧ complaints session.limit source = []) := by
        rintro ⟨_, silent⟩
        rcases exists_compiles silent with ⟨statements, compiles⟩
        have found := compiled.statements
        rw [compiles.2] at found
        cases found
      rw [if_neg blocked]
      exact same
  | some statements =>
      rw [performed, marks]
      split
      · rename_i blocked
        rw [if_neg (by rintro ⟨unmarked, silent⟩; simp [unmarked, silent] at blocked)]
        exact same
      · rename_i free
        rw [if_pos (by simpa using free), executions_concluded, executions_execute, same]

theorem executes_iff (sound : session.Sound session.limit) (line : Text) :
    session.Executes line ↔
      session.console.hadError = false ∧ complaints session.limit line = [] := by
  have logged : (session.runLine line).1.executions = (session.run line).1.executions :=
    executions_log (by decide) _ _
  rw [Executes, logged, executions_run sound]
  split
  · simp_all
  · simp_all

theorem reset_of_unmarked (unmarked : session.console.hadError = false) :
    session.reset = session := by
  rcases session with ⟨_, _, ⟨colored, hadError, hadRuntimeError⟩, _, _, _, _⟩
  cases unmarked
  rfl

theorem not_complained_runLine (limit : Int) (history : List (FileSystem × Step))
    (files : FileSystem) (line : Text) :
    ¬Complained limit (history ++ [(files, .runLine line)]) := by
  rw [complained_concat_iff]
  rintro ⟨keeps, _⟩
  cases keeps

/-- After any history a line is executed exactly if nothing is wrong with it and there was no
complaint since the last reset. A session that is reset first executes it exactly if nothing is
wrong with it, and without such a complaint the two are the same. With one the line prints nothing
and changes no global, and only complaints about it are shown. After a line there is none. -/
theorem runLine_executes_iff (limit size : Int) (budget : Nat) (colored : Bool) (sink : Sink)
    (history : List (FileSystem × Step)) (line : Text) :
    let session := (new limit size budget (.new colored) sink).afterHistory history
    (session.Executes line ↔ ¬Complained limit history ∧ complaints limit line = []) ∧
      (session.reset.Executes line ↔ complaints limit line = []) ∧
      (¬Complained limit history → session.runLine line = session.reset.runLine line) ∧
      (Complained limit history →
        (session.runLine line).1.output = session.output ∧
        (session.runLine line).1.globals = session.globals ∧
        (session.runLine line).1.shown = session.shown ++
          (complaints limit line).flatMap session.console.diagnosticLine ∧
        (session.runLine line).1.console.hadRuntimeError = session.console.hadRuntimeError ∧
        (session.runLine line).2 = none) ∧
      ∀ files, ¬Complained limit (history ++ [(files, .runLine line)]) := by
  intro session
  have sound : session.Sound limit := afterHistory_sound (new_sound ..) history
  have marks : session.console.hadError = true ↔ Complained limit history :=
    afterHistory_hadError (new_sound ..) rfl history
  have unmarks : session.console.hadError = false ↔ ¬Complained limit history := by
    rw [← marks, Bool.not_eq_true]
  have resetSound : session.reset.Sound session.reset.limit := sound.self
  rw [← sound.1] at unmarks marks ⊢
  refine ⟨?_, ?_, ?_, ?_, fun files => not_complained_runLine _ history files line⟩
  · rw [executes_iff sound.self, unmarks]
  · rw [executes_iff resetSound]
    exact ⟨And.right, fun silent => ⟨rfl, silent⟩⟩
  · intro calm
    rw [reset_of_unmarked (unmarks.mpr calm)]
  · intro complained
    have ran := run_ran sound.self line
    have isMarked := marks.mpr complained
    have marked : (session.run line).1.console.hadError = true := by
      rw [ran.hadError, isMarked, Bool.true_or]
    have notRaised : session.raised line = none := by simp [raised, isMarked]
    have shownOnly := ran.shown
    rw [notRaised, Option.elim_none, List.append_nil] at shownOnly
    rcases ran.blocked marked with ⟨sameOutput, sameGlobals, sameMark, none⟩
    exact ⟨(output_log _ _ _).trans sameOutput, sameGlobals, (shown_log _ _ _).trans shownOnly,
      sameMark, none⟩

/-- The first line of a session is executed if nothing is wrong with it. -/
theorem runLine_executes_iff_print :
    let session := new 512 128 1 (.new false) .unlimited
    ¬Complained 512 [] ∧ session.Executes "print 1;" ∧
      session.runLine "print 1;" = session.reset.runLine "print 1;" := by
  intro session
  have iff := runLine_executes_iff 512 128 1 false .unlimited [] "print 1;"
  have calm : ¬Complained 512 [] := by
    rintro ⟨before, move, later, split, _⟩
    simp at split
  exact ⟨calm, iff.1.mpr ⟨calm, by decide +kernel⟩, iff.2.2.1 calm⟩

/-- A source that does not compile keeps the next line from being executed, though nothing is wrong
with the line. -/
theorem runLine_blocked_by_run :
    let files : FileSystem := ⟨"/", fun _ => .error .notFound⟩
    let session := (new 512 128 1 (.new false) .unlimited).afterHistory [(files, .run "(")]
    complaints 512 "print 1;" = [] ∧ ¬session.Executes "print 1;" ∧
      session.reset.Executes "print 1;" := by
  intro files session
  have sound : session.Sound 512 := afterHistory_sound (new_sound ..) _
  have silent : complaints 512 "print 1;" = [] := by decide +kernel
  have marked : session.console.hadError = true := by
    rw [afterHistory_hadError (new_sound ..) rfl]
    exact ⟨[], (files, .run "("), [], rfl, ⟨"(", rfl, by decide +kernel⟩, by simp [Step.resets]⟩
  have resetSound : session.reset.Sound session.reset.limit := sound.self
  refine ⟨silent, ?_, ?_⟩
  · rw [executes_iff sound.self, marked]
    simp
  · rw [executes_iff resetSound]
    exact ⟨rfl, (congrArg (complaints · _) sound.1).trans silent⟩

end Execution

section Erasure

/-- The session after lines one after the other. -/
def runLines (session : Session) (lines : List Text) : Session :=
  lines.foldl (fun session line => (session.runLine line).1) session

/-- What the console shows for lines: the complaints about each and the runtime error it ends in. -/
def told (session : Session) : List Text → List (Diagnostic ⊕ RuntimeError)
  | [] => []
  | line :: lines =>
    (complaints session.limit line).map .inl ++ (session.raised line).toList.map .inr ++
      told (session.runLine line).1 lines

/-- Sessions that differ only in their caches and in what the console and the log have shown. -/
structure Akin (left right : Session) : Prop where
  limit : left.limit = right.limit
  budget : left.budget = right.budget
  console : left.console = right.console
  globals : left.globals = right.globals
  sink : left.sink = right.sink
  output : left.output = right.output

theorem Akin.performance_eq (akin : Akin left right) (statements : List Stmt) :
    left.performance statements = right.performance statements := by
  rw [performance, performance, akin.budget, akin.globals, akin.sink]

theorem Akin.raised_eq (akin : Akin left right) (line : Text) :
    left.raised line = right.raised line := by
  simp only [raised, akin.console, akin.limit, akin.performance_eq]

theorem Akin.trans {middle : Session} (first : Akin left middle) (second : Akin middle right) :
    Akin left right where
  limit := first.limit.trans second.limit
  budget := first.budget.trans second.budget
  console := first.console.trans second.console
  globals := first.globals.trans second.globals
  sink := first.sink.trans second.sink
  output := first.output.trans second.output

theorem raised_of_complaints (bad : complaints session.limit line ≠ []) :
    session.raised line = none := by
  simp [raised, bad]

/-- A line with complaints changes nothing of a session that has none. -/
theorem runLine_akin_self (sound : session.Sound session.limit)
    (unmarked : session.console.hadError = false) (bad : complaints session.limit line ≠ []) :
    Akin (session.runLine line).1 session := by
  have blocked : (session.console.hadError || !(complaints session.limit line).isEmpty) = true := by
    simp [bad]
  have alike := run_blocked sound blocked
  have kept : ∀ {α : Type} (part : Session → α), (∀ session, part (bare session) = part session) →
      (∀ session diagnostic, part (report session diagnostic) = part session) →
      part (session.run line).1 = part session := by
    intro α part bares reports
    rw [← bares, alike.1, bares, reportAll_keeps part reports]
  exact {
    limit := kept (·.limit) (fun _ => rfl) (fun _ _ => rfl)
    budget := kept (·.budget) (fun _ => rfl) (fun _ _ => rfl)
    console := (kept (·.console.reset) (fun _ => rfl) (fun _ _ => rfl)).trans
      (congrArg Session.console (reset_of_unmarked unmarked))
    globals := kept (·.globals) (fun _ => rfl) (fun _ _ => rfl)
    sink := kept (·.sink) (fun _ => rfl) (fun _ _ => rfl)
    output := (output_log _ _ _).trans (kept Session.output output_bare output_report) }

/-- A line without complaints does the same to sessions that are akin. -/
theorem runLine_akin (akin : Akin left right) (leftSound : left.Sound limit)
    (rightSound : right.Sound limit) (unmarked : left.console.hadError = false)
    (silent : complaints limit line = []) :
    Akin (left.runLine line).1 (right.runLine line).1 := by
  rcases exists_compiles silent with ⟨statements, compiles⟩
  have leftCompiles : Compiles left.limit line statements := leftSound.1 ▸ compiles
  have rightCompiles : Compiles right.limit line statements := rightSound.1 ▸ compiles
  have rightUnmarked : right.console.hadError = false := akin.console ▸ unmarked
  have sameConsole : (left.run line).1.console = (right.run line).1.console := by
    rw [run_console leftSound.self unmarked leftCompiles,
      run_console rightSound.self rightUnmarked rightCompiles, akin.console, akin.raised_eq]
  have same := akin.performance_eq statements
  constructor
  · exact (run_sound leftSound line).1.trans (run_sound rightSound line).1.symm
  · exact (run_budget leftSound.self unmarked leftCompiles).trans
      (akin.budget.trans (run_budget rightSound.self rightUnmarked rightCompiles).symm)
  · exact congrArg Console.reset sameConsole
  · exact (run_globals leftSound.self unmarked leftCompiles).trans
      (same ▸ (run_globals rightSound.self rightUnmarked rightCompiles).symm)
  · exact (run_sink leftSound.self unmarked leftCompiles).trans
      (same ▸ (run_sink rightSound.self rightUnmarked rightCompiles).symm)
  · refine (output_log _ _ _).trans (Eq.trans ?_ (output_log _ _ _).symm)
    have leftOutput := run_output leftSound.self unmarked leftCompiles
    have rightOutput := run_output rightSound.self rightUnmarked rightCompiles
    rw [akin.output, same] at leftOutput
    exact leftOutput.trans rightOutput.symm

theorem runLine_sound (sound : session.Sound limit) (line : Text) :
    (session.runLine line).1.Sound limit :=
  @run_sound session limit sound line

/-- The lines without complaints. -/
def flawless (limit : Int) (lines : List Text) : List Text :=
  lines.filter fun line => (complaints limit line).isEmpty

/-- Leaving out the lines with complaints leaves out their complaints and nothing else. -/
theorem runLines_flawless (lines : List Text) (akin : Akin left right)
    (leftSound : left.Sound limit) (rightSound : right.Sound limit)
    (unmarked : left.console.hadError = false) :
    Akin (left.runLines lines) (right.runLines (flawless limit lines)) ∧
      right.told (flawless limit lines) = (left.told lines).filter Sum.isRight := by
  induction lines generalizing left right with
  | nil => exact ⟨akin, rfl⟩
  | cons line lines ih =>
      have leftLimit := leftSound.1
      have rightLimit := rightSound.1
      by_cases silent : complaints limit line = []
      · have next := ih (runLine_akin akin leftSound rightSound unmarked silent)
          (runLine_sound leftSound line) (runLine_sound rightSound line) rfl
        rw [flawless, List.filter_cons_of_pos (by simp [silent])]
        refine ⟨next.1, ?_⟩
        rw [told, told, leftLimit, rightLimit, silent, ← akin.raised_eq]
        simp only [List.map_nil, List.nil_append, List.filter_append, ← next.2]
        cases left.raised line <;> rfl
      · have bad : complaints left.limit line ≠ [] := by rwa [leftLimit]
        have next := ih ((runLine_akin_self leftSound.self unmarked bad).trans akin)
          (runLine_sound leftSound line) rightSound rfl
        rw [flawless, List.filter_cons_of_neg (by simp [silent])]
        refine ⟨next.1, ?_⟩
        have dropped : ((complaints left.limit line).map
            (Sum.inl : Diagnostic → Diagnostic ⊕ RuntimeError)).filter Sum.isRight = [] := by simp
        rw [told, raised_of_complaints bad]
        simp only [Option.toList_none, List.map_nil, List.append_nil, List.filter_append, dropped,
          List.nil_append]
        exact next.2

theorem run_colored (sound : session.Sound session.limit) (line : Text) :
    (session.run line).1.console.colored = session.console.colored := by
  by_cases blocked : (session.console.hadError || !(complaints session.limit line).isEmpty) = true
  · exact (congrArg (·.console.colored) (run_blocked sound blocked).1).trans
      (reportAll_keeps (·.console.colored) (fun _ _ => rfl) session _)
  · simp only [Bool.or_eq_true, not_or, Bool.not_eq_true, Bool.not_eq_false', List.isEmpty_iff]
      at blocked
    rcases exists_compiles blocked.2 with ⟨statements, compiles⟩
    rw [run_console sound blocked.1 compiles]

/-- What is told of lines is what the console shows. -/
theorem runLines_shown (lines : List Text) (sound : session.Sound limit) :
    (session.runLines lines).shown =
      session.shown ++ (session.told lines).flatMap session.console.written := by
  induction lines generalizing session with
  | nil => exact (List.append_nil _).symm
  | cons line lines ih =>
      have next := ih (runLine_sound sound line)
      have first : (session.runLine line).1.shown = session.shown ++
          ((complaints session.limit line).flatMap session.console.diagnosticLine ++
            (session.raised line).elim [] fun error =>
              session.console.runtimeLine error.message error.token.line) := by
        rw [← List.append_assoc, ← (run_ran sound.self line).shown]
        exact shown_log _ _ _
      have sameColor : (session.runLine line).1.console.written = session.console.written :=
        Console.written_eq (run_colored sound.self line)
      have split : session.runLines (line :: lines) = (session.runLine line).1.runLines lines := rfl
      rw [split, next, first, sameColor, told, List.flatMap_append, List.flatMap_append]
      cases session.raised line <;> simp [List.flatMap_map, Console.written]

/-- Lines with complaints can be left out. From any session against which no complaint stands, the
lines without complaints alone print the same, leave the same globals and the same marks, and of
what the console shows for all the lines they show the runtime errors. -/
theorem runLines_erase_complaints (limit size : Int) (budget : Nat) (colored : Bool) (sink : Sink)
    (history : List (FileSystem × Step)) (lines : List Text) :
    let session := (new limit size budget (.new colored) sink).afterHistory history
    session.console.hadError = false →
      (session.runLines (flawless limit lines)).output = (session.runLines lines).output ∧
      (session.runLines (flawless limit lines)).globals = (session.runLines lines).globals ∧
      (session.runLines (flawless limit lines)).console = (session.runLines lines).console ∧
      session.told (flawless limit lines) = (session.told lines).filter Sum.isRight ∧
      ∀ others, (session.runLines others).shown =
        session.shown ++ (session.told others).flatMap session.console.written := by
  intro session unmarked
  have sound : session.Sound limit := afterHistory_sound (new_sound ..) history
  have akin : Akin session session := ⟨rfl, rfl, rfl, rfl, rfl, rfl⟩
  rcases runLines_flawless lines akin sound sound unmarked with ⟨ran, sameErrors⟩
  exact ⟨ran.output.symm, ran.globals.symm, ran.console.symm, sameErrors,
    fun others => runLines_shown others sound⟩

/-- Between two lines that print, one that does not compile and one that raises an error: the first
of these can be left out. -/
theorem runLines_erase_complaints_paren :
    let session := new 512 128 4 (.new false) .unlimited
    let lines : List Text := ["print 1;", "(", "print -nil;", "print 2;"]
    let others : List Text := ["print 1;", "print -nil;", "print 2;"]
    session.console.hadError = false ∧ flawless 512 lines = others ∧
      (session.runLines others).output = (session.runLines lines).output := by
  intro session lines others
  have kept : flawless 512 lines = others := by decide +kernel
  have erased := runLines_erase_complaints 512 128 4 false .unlimited [] lines rfl
  rw [kept] at erased
  exact ⟨rfl, kept, erased.1⟩

end Erasure

end Session

end LoxLang
