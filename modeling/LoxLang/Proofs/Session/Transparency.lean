import LoxLang.Proofs.Session.Run

/-!
# The cache changes nothing

What a session shows to the outside does not depend on the size of its cache. Two sessions are
compared by what is left of them without the cache and the log: if that is the same before a step,
it is the same after it.
-/

namespace LoxLang

theorem Event.flatMap_filter {channel : Event → Text}
    (silent : ∀ record, channel (logged record) = []) (events : List Event) :
    (events.filter (!·.isLogged)).flatMap channel = events.flatMap channel := by
  induction events with
  | nil => rfl
  | cons event events ih =>
      cases event with
      | logged record => simp [silent, ih]
      | printed text | reported text => simp [ih]

namespace Session

variable {left right : Session} {limit : Int}

/-- All that a session has written to the output. -/
def output (session : Session) : Text := session.events.toList.flatMap Event.output

/-- All that a session has shown on the console. -/
def shown (session : Session) : Text := session.events.toList.flatMap Event.console

theorem output_bare (session : Session) : session.bare.output = session.output := by
  simpa [output, bare] using Event.flatMap_filter (fun _ => rfl) session.events.toList

theorem shown_bare (session : Session) : session.bare.shown = session.shown := by
  simpa [shown, bare] using Event.flatMap_filter (fun _ => rfl) session.events.toList

/-- Two outcomes that look the same from outside. -/
def Alike {α : Type} (left right : Session × α) : Prop :=
  left.1.bare = right.1.bare ∧ left.2 = right.2

theorem Alike.symm {α : Type} {left right : Session × α} (alike : Alike left right) :
    Alike right left :=
  ⟨alike.1.symm, alike.2.symm⟩

theorem Alike.trans {α : Type} {left middle right : Session × α} (first : Alike left middle)
    (second : Alike middle right) : Alike left right :=
  ⟨first.1.trans second.1, first.2.trans second.2⟩

theorem Alike.output_eq {α : Type} {left right : Session × α} (alike : Alike left right) :
    left.1.output = right.1.output := by
  rw [← output_bare left.1, alike.1, output_bare]

theorem Alike.shown_eq {α : Type} {left right : Session × α} (alike : Alike left right) :
    left.1.shown = right.1.shown := by
  rw [← shown_bare left.1, alike.1, shown_bare]

theorem compile_alike (same : left.bare = right.bare) (leftSound : left.Sound limit)
    (rightSound : right.Sound limit) (source : Text) :
    Alike (left.compile source) (right.compile source) := by
  have leftCompiled := compile_compiled leftSound source
  have rightCompiled := compile_compiled rightSound source
  constructor
  · rw [leftCompiled.effect, rightCompiled.effect, same]
  · rw [leftCompiled.statements, rightCompiled.statements]

theorem execute_alike (same : left.bare = right.bare) (statements : List Stmt) :
    Alike (left.execute statements) (right.execute statements) := by
  have sameGlobals : left.globals = right.globals := congrArg (·.globals) same
  have sameSink : left.sink = right.sink := congrArg (·.sink) same
  have sameBudget : left.budget = right.budget := congrArg (·.budget) same
  simp only [execute, sameGlobals, sameSink, sameBudget]
  constructor
  · simp only [bare, mk.injEq] at same
    simp [bare, same]
  · rfl

theorem concluded_alike {count otherCount : Nat} {first second : Session × Option Failure}
    (alike : Alike first second) : Alike (concluded count first) (concluded otherCount second) := by
  rcases first with ⟨left, failure⟩
  rcases second with ⟨right, _⟩
  rcases alike with ⟨same, rfl⟩
  simp only at same
  cases failure with
  | none => exact ⟨by simp only [concluded, bare_log, same], rfl⟩
  | some failure =>
      cases failure <;> exact ⟨by simp only [concluded, bare_reportRuntime, bare_log, same], rfl⟩

theorem performed_alike {first second : Session × Option (List Stmt)}
    (alike : Alike first second) : Alike (performed first) (performed second) := by
  rcases first with ⟨left, outcome⟩
  rcases second with ⟨right, _⟩
  rcases alike with ⟨same, rfl⟩
  have sameMark : left.console.hadError = right.console.hadError :=
    congrArg (·.console.hadError) same
  cases outcome with
  | none => exact ⟨same, rfl⟩
  | some statements =>
      simp only [performed, sameMark]
      split
      · exact ⟨same, rfl⟩
      · exact concluded_alike (execute_alike same statements)

theorem run_alike (same : left.bare = right.bare) (leftSound : left.Sound limit)
    (rightSound : right.Sound limit) (source : Text) :
    Alike (left.run source) (right.run source) := by
  rw [run_eq_performed, run_eq_performed]
  exact performed_alike (compile_alike same leftSound rightSound source)

theorem reset_alike (same : left.bare = right.bare) : left.reset.bare = right.reset.bare := by
  simp only [bare, mk.injEq] at same
  simp [bare, reset, same]

theorem runLine_alike (same : left.bare = right.bare) (leftSound : left.Sound limit)
    (rightSound : right.Sound limit) (line : Text) :
    Alike (left.runLine line) (right.runLine line) := by
  have ran := run_alike same leftSound rightSound line
  constructor
  · calc (left.runLine line).1.bare
      _ = (left.run line).1.reset.bare := bare_log _ _ _
      _ = (right.run line).1.reset.bare := reset_alike ran.1
      _ = (right.runLine line).1.bare := (bare_log _ _ _).symm
  · exact ran.2

theorem runFile_alike (same : left.bare = right.bare) (leftSound : left.Sound limit)
    (rightSound : right.Sound limit) (files : FileSystem) (path : Text) :
    Alike (left.runFile files path) (right.runFile files path) := by
  rw [runFile, runFile]
  cases files.read path with
  | error error => exact ⟨same, rfl⟩
  | ok source =>
      have ran : ∀ message fields,
          Alike ((left.log message fields).run source) ((right.log message fields).run source) := by
        intro message fields
        refine @run_alike (left.log _ _) (right.log _ _) limit ?_ leftSound rightSound source
        rw [bare_log, bare_log, same]
      exact ⟨(ran _ _).1, congrArg (Option.map FileFailure.failed) (ran _ _).2⟩

theorem after_alike (same : left.bare = right.bare) (leftSound : left.Sound limit)
    (rightSound : right.Sound limit) (files : FileSystem) (step : Step) :
    Alike (left.after files step) (right.after files step) := by
  cases step with
  | run source =>
      have ran := run_alike same leftSound rightSound source
      exact ⟨ran.1, congrArg (Option.map FileFailure.failed) ran.2⟩
  | runLine line =>
      have ran := runLine_alike same leftSound rightSound line
      exact ⟨ran.1, congrArg (Option.map FileFailure.failed) ran.2⟩
  | runFile path => exact runFile_alike same leftSound rightSound files path
  | reset => exact ⟨reset_alike same, rfl⟩

/-- What can be seen of a session after a step. -/
structure Sight where
  output : Text
  shown : Text
  failure : Option FileFailure
  hadError : Bool
  hadRuntimeError : Bool
  status : ExitStatus
  globals : Bindings Value

/-- What is seen when a step has ended. -/
def sight (result : Session × Option FileFailure) : Sight where
  output := result.1.output
  shown := result.1.shown
  failure := result.2
  hadError := result.1.console.hadError
  hadRuntimeError := result.1.console.hadRuntimeError
  status := result.1.exitStatus
  globals := result.1.globals

theorem sight_of_alike {first second : Session × Option FileFailure} (alike : Alike first second) :
    sight first = sight second := by
  have sameConsole : first.1.console = second.1.console := congrArg (·.console) alike.1
  have sameGlobals : first.1.globals = second.1.globals := congrArg (·.globals) alike.1
  simp only [sight, exitStatus, ← output_bare first.1, ← shown_bare first.1, alike.1, output_bare,
    shown_bare, alike.2, sameConsole, sameGlobals]

/-- What is seen after each of the steps. -/
def sights (files : FileSystem) : Session → List Step → List Sight
  | _, [] => []
  | session, step :: steps =>
    sight (session.after files step) :: sights files (session.after files step).1 steps

theorem sights_of_bare_eq (files : FileSystem) (steps : List Step) (same : left.bare = right.bare)
    (leftSound : left.Sound limit) (rightSound : right.Sound limit) :
    left.sights files steps = right.sights files steps := by
  induction steps generalizing left right with
  | nil => rfl
  | cons step steps ih =>
      have alike := after_alike same leftSound rightSound files step
      rw [sights, sights, sight_of_alike alike,
        ih alike.1 (after_sound leftSound files step) (after_sound rightSound files step)]

/-- Sessions that differ in the size of their caches show the same after each step. -/
theorem sights_eq_of_cacheSize (limit size otherSize : Int) (budget : Nat) (console : Console)
    (sink : Sink) (files : FileSystem) (steps : List Step) :
    (new limit size budget console sink).sights files steps =
      (new limit otherSize budget console sink).sights files steps :=
  sights_of_bare_eq files steps rfl (new_sound ..) (new_sound ..)

end Session

end LoxLang
