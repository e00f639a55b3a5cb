import LoxLang.Session

/-!
# Runs of a session

Compiling a source has the same effect whether or not the cache is of help. The invariant is that
the cache holds only sources that compile without a complaint, each with the statements it compiles
to. It holds of a new session and is kept by every step. Effects are compared on what is left of a
session without the cache and the log, which is `Session.bare`.
-/

namespace LoxLang

namespace Cache

variable {α : Type} {cache : Cache α} {right : Text → α → Prop} {source : Text} {content : α}

/-- Every entry of the cache is right. -/
def Holds (cache : Cache α) (right : Text → α → Prop) : Prop :=
  ∀ entry ∈ cache.entries, right entry.1 entry.2

theorem holds_new (size : Int) : (new size : Cache α).Holds right := by
  simp [Holds, new]

theorem Holds.of_find? (holds : cache.Holds right) (found : cache.find? source = some content) :
    right source content := by
  rw [find?, List.lookup_eq_some_iff] at found
  rcases found with ⟨before, after, entries, _⟩
  exact holds (source, content) (by simp [entries])

theorem Holds.use (holds : cache.Holds right) (isRight : right source content) :
    (cache.use source content).Holds right := by
  intro entry mem
  rcases List.mem_cons.mp (List.mem_of_mem_take mem) with rfl | mem
  · exact isRight
  · exact holds entry (List.mem_filter.mp mem).1

end Cache

/-- Whether an event concerns the log only. -/
def Event.isLogged : Event → Bool
  | logged _ => true
  | printed _ | reported _ => false

@[simp]
theorem Event.isLogged_logged (record : Log.Record) : (logged record).isLogged = true := rfl

@[simp]
theorem Event.isLogged_printed (text : Text) : (printed text).isLogged = false := rfl

@[simp]
theorem Event.isLogged_reported (text : Text) : (reported text).isLogged = false := rfl

namespace Session

variable {session : Session} {limit : Int}

/-- The session without its cache and its log. -/
def bare (session : Session) : Session :=
  { session with cache := .new 0, events := session.events.filter (!·.isLogged) }

theorem bare_log (session : Session) (message : Text) (fields : List (Text × Text)) :
    (session.log message fields).bare = session.bare := by
  simp [log, emit, bare]

theorem bare_report (session : Session) (diagnostic : Diagnostic) :
    (session.report diagnostic).bare = session.bare.report diagnostic := by
  simp [report, emit, bare]

theorem bare_reportAll (session : Session) (diagnostics : List Diagnostic) :
    (session.reportAll diagnostics).bare = session.bare.reportAll diagnostics := by
  induction diagnostics generalizing session with
  | nil => rfl
  | cons diagnostic diagnostics ih =>
      calc (session.reportAll (diagnostic :: diagnostics)).bare
        _ = ((session.report diagnostic).reportAll diagnostics).bare := rfl
        _ = (session.report diagnostic).bare.reportAll diagnostics := ih _
        _ = session.bare.reportAll (diagnostic :: diagnostics) := by rw [bare_report]; rfl

theorem bare_reportRuntime (session : Session) (error : RuntimeError) :
    (session.reportRuntime error).bare = session.bare.reportRuntime error := by
  simp [reportRuntime, emit, bare]

theorem reportAll_keeps {α : Type} (part : Session → α)
    (kept : ∀ session diagnostic, part (report session diagnostic) = part session)
    (session : Session) (diagnostics : List Diagnostic) :
    part (session.reportAll diagnostics) = part session := by
  induction diagnostics generalizing session with
  | nil => rfl
  | cons diagnostic diagnostics ih => exact (ih (session.report diagnostic)).trans (kept _ _)

theorem reportAll_limit (session : Session) (diagnostics : List Diagnostic) :
    (session.reportAll diagnostics).limit = session.limit :=
  reportAll_keeps (·.limit) (fun _ _ => rfl) session diagnostics

theorem reportAll_cache (session : Session) (diagnostics : List Diagnostic) :
    (session.reportAll diagnostics).cache = session.cache :=
  reportAll_keeps (·.cache) (fun _ _ => rfl) session diagnostics

theorem reportAll_hadError (session : Session) (diagnostics : List Diagnostic) :
    (session.reportAll diagnostics).console.hadError =
      (session.console.hadError || !diagnostics.isEmpty) := by
  induction diagnostics generalizing session with
  | nil => simp [reportAll]
  | cons diagnostic diagnostics ih =>
      calc (session.reportAll (diagnostic :: diagnostics)).console.hadError
        _ = ((session.report diagnostic).reportAll diagnostics).console.hadError := rfl
        _ = (true || !diagnostics.isEmpty) := ih _
        _ = (session.console.hadError || !(diagnostic :: diagnostics).isEmpty) := by simp

theorem reportAll_append (session : Session) (first second : List Diagnostic) :
    session.reportAll (first ++ second) = (session.reportAll first).reportAll second := by
  simp [reportAll]

/-- The source compiles to the statements without any complaint. -/
def Compiles (limit : Int) (source : Text) (statements : List Stmt) : Prop :=
  (scan source).diagnostics = [] ∧ parse limit (scan source).tokens = ⟨.ok statements, []⟩

/-- The complaints about a source. -/
def complaints (limit : Int) (source : Text) : List Diagnostic :=
  (scan source).diagnostics ++ (parse limit (scan source).tokens).diagnostics

/-- The session has the nesting limit, and its cache holds only what compiling would give. -/
def Sound (limit : Int) (session : Session) : Prop :=
  session.limit = limit ∧ session.cache.Holds (Compiles limit)

theorem Sound.self (sound : session.Sound limit) : session.Sound session.limit := by
  rcases sound with ⟨rfl, holds⟩
  exact ⟨rfl, holds⟩

theorem new_sound (limit size : Int) (budget : Nat) (console : Console) (sink : Sink) :
    (new limit size budget console sink).Sound limit :=
  ⟨rfl, Cache.holds_new size⟩

/-- What compiling a source comes to, whether or not the cache is of help. -/
structure Compiled (limit : Int) (session : Session) (source : Text)
    (result : Session × Option (List Stmt)) : Prop where
  effect : result.1.bare = session.bare.reportAll (complaints limit source)
  statements : result.2 = (parse limit (scan source).tokens).outcome.toOption
  sound : result.1.Sound limit

theorem complaints_eq_nil {after : Session} {source : Text}
    (effect : after.bare = session.bare.reportAll (complaints limit source))
    (unmarked : after.console.hadError = false) : complaints limit source = [] := by
  have marks : after.console.hadError =
      (session.console.hadError || !(complaints limit source).isEmpty) :=
    (congrArg (·.console.hadError) effect).trans (reportAll_hadError _ _)
  simp only [unmarked, Bool.false_eq, Bool.or_eq_false_iff, Bool.not_eq_false',
    List.isEmpty_iff] at marks
  exact marks.2

theorem Compiles.complaints {limit : Int} {source : Text} {statements : List Stmt}
    (compiles : Compiles limit source statements) : complaints limit source = [] := by
  simp [Session.complaints, compiles.1, compiles.2]

theorem compileAnew_compiled (sound : session.Sound limit) (source : Text) :
    Compiled limit session source (session.compileAnew source) := by
  have scannedLimit : ∀ message fields,
      ((session.reportAll (scan source).diagnostics).log message fields).limit = limit :=
    fun _ _ => (reportAll_limit _ _).trans sound.1
  simp only [compileAnew, scannedLimit]
  generalize parsed : parse limit (scan source).tokens = result
  rcases result with ⟨outcome, diagnostics⟩
  -- The session when everything has been reported, and only records follow.
  generalize told : Session.reportAll (Session.log _ _ _) diagnostics = after
  have afterEffect : after.bare = session.bare.reportAll (complaints limit source) := by
    rw [← told, bare_reportAll, bare_log, bare_reportAll, ← reportAll_append, complaints, parsed]
  have afterLimit : after.limit = limit := by
    rw [← told, reportAll_limit, scannedLimit]
  have afterCache : after.cache = session.cache := by
    rw [← told, reportAll_cache]
    exact reportAll_cache _ _
  have afterSound : after.Sound limit := ⟨afterLimit, afterCache ▸ sound.2⟩
  cases outcome with
  | error halt => exact ⟨(bare_log _ _ _).trans afterEffect, by rw [parsed]; rfl, afterSound⟩
  | ok statements =>
      dsimp only
      split
      · exact ⟨(bare_log _ _ _).trans afterEffect, by rw [parsed]; rfl, afterSound⟩
      · rename_i unmarked
        refine ⟨(bare_log _ _ _).trans afterEffect, by rw [parsed]; rfl, afterLimit, ?_⟩
        have unmarkedAfter : after.console.hadError = false :=
          Bool.eq_false_iff.mpr fun marked => unmarked (Bool.or_eq_true_iff.mpr (Or.inr marked))
        have silent := complaints_eq_nil afterEffect unmarkedAfter
        simp only [complaints, parsed, List.append_eq_nil_iff] at silent
        rcases silent with ⟨scanSilent, rfl⟩
        exact afterSound.2.use ⟨scanSilent, parsed⟩

theorem compile_compiled (sound : session.Sound limit) (source : Text) :
    Compiled limit session source (session.compile source) := by
  rw [compile]
  cases found : session.cache.find? source with
  | none => exact compileAnew_compiled sound source
  | some statements =>
      have compiles := sound.2.of_find? found
      refine ⟨?_, ?_, sound.1, sound.2.use compiles⟩
      · rw [compiles.complaints]
        exact bare_log session _ _
      · rw [compiles.2]
        rfl

theorem execute_sound (sound : session.Sound limit) (statements : List Stmt) :
    (session.execute statements).1.Sound limit := sound

/-- The end of a run, from how the execution of its statements ended. -/
def concluded (count : Nat) : Session × Option Failure → Session × Option Failure
  | (session, some (.runtime error)) =>
    ((session.log "interpreted" [("statements", Text.ofNat count)]).reportRuntime error, none)
  | (session, failure) => (session.log "interpreted" [("statements", Text.ofNat count)], failure)

/-- The rest of a run, from how compiling its source ended. -/
def performed : Session × Option (List Stmt) → Session × Option Failure
  | (session, none) => (session, none)
  | (session, some statements) =>
    if session.console.hadError then (session, none)
    else concluded statements.length (session.execute statements)

theorem run_eq_performed (session : Session) (source : Text) :
    session.run source = performed (session.compile source) := by
  rw [run]
  rcases session.compile source with ⟨after, outcome⟩
  cases outcome with
  | none => rfl
  | some statements =>
      dsimp only [performed]
      split
      · rfl
      · rcases after.execute statements with ⟨last, failure⟩
        cases failure with
        | none => rfl
        | some failure => cases failure <;> rfl

theorem concluded_sound {count : Nat} {result : Session × Option Failure}
    (sound : result.1.Sound limit) : (concluded count result).1.Sound limit := by
  rcases result with ⟨session, failure⟩
  cases failure with
  | none => exact sound
  | some failure => cases failure <;> exact sound

theorem performed_sound {result : Session × Option (List Stmt)} (sound : result.1.Sound limit) :
    (performed result).1.Sound limit := by
  rcases result with ⟨session, outcome⟩
  cases outcome with
  | none => exact sound
  | some statements =>
      dsimp only [performed]
      split
      · exact sound
      · exact concluded_sound (execute_sound sound statements)

theorem run_sound (sound : session.Sound limit) (source : Text) :
    (session.run source).1.Sound limit := by
  rw [run_eq_performed]
  exact performed_sound (compile_compiled sound source).sound

theorem runFile_sound (sound : session.Sound limit) (files : FileSystem) (path : Text) :
    (session.runFile files path).1.Sound limit := by
  rw [runFile]
  cases files.read path with
  | error error => exact sound
  | ok source => exact @run_sound (session.log _ _) limit sound source

/-- What can be asked of a session. -/
inductive Step where
  | run (source : Text)
  | runLine (line : Text)
  | runFile (path : Text)
  | reset
deriving DecidableEq, Repr

/-- The session after a step, and the failure that is returned. -/
def after (files : FileSystem) (session : Session) : Step → Session × Option FileFailure
  | .run source => ((session.run source).1, (session.run source).2.map .failed)
  | .runLine line => ((session.runLine line).1, (session.runLine line).2.map .failed)
  | .runFile path => session.runFile files path
  | .reset => (session.reset, none)

theorem after_sound (sound : session.Sound limit) (files : FileSystem) (step : Step) :
    (session.after files step).1.Sound limit := by
  cases step with
  | run source => exact run_sound sound source
  | runLine line => exact @run_sound session limit sound line
  | runFile path => exact runFile_sound sound files path
  | reset => exact sound

/-- The session after steps one after the other. -/
def afterAll (files : FileSystem) (session : Session) (steps : List Step) : Session :=
  steps.foldl (fun session step => (session.after files step).1) session

theorem afterAll_sound (sound : session.Sound limit) (files : FileSystem) (steps : List Step) :
    (session.afterAll files steps).Sound limit := by
  induction steps generalizing session with
  | nil => exact sound
  | cons step steps ih => exact ih (after_sound sound files step)

/-- The session comes of a new one with the nesting limit by steps. -/
def Reachable (limit : Int) (session : Session) : Prop :=
  ∃ size budget console sink files steps,
    session = (new limit size budget console sink).afterAll files steps

theorem Reachable.sound (reachable : session.Reachable limit) : session.Sound limit := by
  rcases reachable with ⟨size, budget, console, sink, files, steps, rfl⟩
  exact afterAll_sound (new_sound ..) files steps

end Session

end LoxLang
