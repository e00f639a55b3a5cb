import LoxLang.Proofs.Execute.Truncation
import LoxLang.Proofs.Parse.Completeness
import LoxLang.Proofs.Session.Verdict

/-!
# Sessions on an output that breaks

What a broken output does to a run is that the run stops there: what was printed is a prefix of
what the same program prints elsewhere, and the statement that found the output broken is the last
one that was begun. A session returns such a failure to its caller. It is not an error of the
program, so the console neither shows it nor remembers it.
-/

namespace LoxLang

namespace Session

variable {session : Session} {source : Text} {statements : List Stmt} {last : Machine}

/-- What running a source comes to whose execution finds the output closed. -/
structure OutputClosed (session : Session) (last : Machine) (result : Session × Option Failure) :
    Prop where
  returned : result.2 = some .outputClosed
  console : result.1.console = session.console
  shown : result.1.shown = session.shown
  output : result.1.output = session.output ++ last.written
  globals : result.1.globals = last.scopes.innermost

theorem run_outputClosed (sound : session.Sound session.limit)
    (unmarked : session.console.hadError = false)
    (compiles : Compiles session.limit source statements)
    (closed : session.performance statements = .error .outputClosed last) :
    OutputClosed session last (session.run source) := by
  have unraised : session.raised source = none := by
    rw [raised_of_compiles unmarked compiles, closed]
    rfl
  constructor
  · rw [run_returned sound unmarked compiles, closed]
    rfl
  · rw [run_console sound unmarked compiles, unraised, Option.isSome_none, Bool.or_false]
  · rw [run_shown sound unmarked compiles, unraised]
    exact List.append_nil _
  · rw [run_output sound unmarked compiles, closed]
    rfl
  · rw [run_globals sound unmarked compiles, closed]
    rfl

end Session

/-- An output that takes only so many texts cuts what is printed to that many, and changes nothing
else. If they suffice, the run is the one on an output that never fails. If they do not, the run
fails in the print statement of the first text that is not taken, after the same statements as in
the other run, and no statement is begun after it. A session that runs into this returns the failure
and has no runtime error to show. -/
theorem broken_output_cuts (budget room : Nat) (stmts : List Stmt) (scopes : Scopes) :
    let start (sink : Sink) : Machine := ⟨scopes, sink, #[], #[]⟩
    let run (sink : Sink) := Stmt.executeAll budget stmts (start sink)
    let begun (sink : Sink) := (Stmt.tracedAll budget stmts).visits (start sink)
    let texts := (final (run .unlimited)).printed.toList
    (texts.length ≤ room →
      run ⟨some room⟩ = Execution.limited room (run .unlimited) ∧
        begun ⟨some room⟩ = (begun .unlimited).map (Visit.limited room)) ∧
    (room < texts.length → ∃ last before value machine later shown evaluated,
      run ⟨some room⟩ = .error .outputClosed last ∧
        last.printed.toList = texts.take room ∧
        last.scopes.toList <:+ evaluated.toList ∧
        begun .unlimited = before ++ ⟨.print value, machine⟩ :: later ∧
        begun ⟨some room⟩ =
          (before ++ [(⟨.print value, machine⟩ : Visit)]).map (Visit.limited room) ∧
        value.evaluate machine.scopes = .ok shown evaluated ∧
        texts[room]? = some shown.display) ∧
    Failure.outputClosed.message = "print: sink closed" ∧
    ∀ (limit : Int) (session : Session) (source : Text) (last : Machine),
      session.Reachable limit → session.console.hadError = false →
      Session.Compiles limit source stmts →
      session.performance stmts = .error .outputClosed last →
      Session.OutputClosed session last (session.run source) := by
  intro start run begun texts
  have outcomes := (Stmt.tracedAll_breaks budget stmts).cut (start .unlimited) rfl
    (Nat.zero_le room)
  rw [Stmt.tracedAll_run] at outcomes
  refine ⟨outcomes.eq_limited, outcomes.exists_stopped, rfl, ?_⟩
  intro limit session source last reachable unmarked compiles closed
  rcases reachable.sound with ⟨rfl, holds⟩
  exact Session.run_outputClosed ⟨rfl, holds⟩ unmarked compiles closed

/-- A loop that prints twice in its only round, on an output that takes one text: the run ends
inside of the block, and the print statement after the loop is not begun. -/
theorem broken_output_cuts_loop :
    let source : Text :=
      "var go = true; while (go) \x7b print \"a\"; go = false; print \"b\"; \x7d print \"c\";"
    let go : Token := ⟨.identifier, "go", .nil, 1⟩
    let print (text : Text) : Stmt := .print (.literal (.string text))
    let stmts : List Stmt :=
      [.declare go (some (.literal (.bool true))),
       .while (.name go) (.block
         [print "a", .expression (.assign go (.literal (.bool false))), print "b"]),
       print "c"]
    let start (sink : Sink) : Machine := ⟨.global .empty, sink, #[], #[]⟩
    let session := Session.new 0 0 2 (.new false) ⟨some 1⟩
    (final (Stmt.executeAll 2 stmts (start .unlimited))).printed.toList = ["a", "b", "c"] ∧
      ∃ last, Stmt.executeAll 2 stmts (start ⟨some 1⟩) = .error .outputClosed last ∧
        last.printed.toList = ["a"] ∧
        ((Stmt.tracedAll 2 stmts).visits (start ⟨some 1⟩)).length = 6 ∧
        Session.OutputClosed session last (session.run source) := by
  intro source go print stmts start session
  have parsed : parse 0 (scan source).tokens = ⟨.ok stmts, []⟩ := by
    apply parse_complete
    · have body : Stmt.AllWellFormed [print "a",
          .expression (.assign go (.literal (.bool false))), print "b"] :=
        ⟨trivial, ⟨rfl, trivial⟩, trivial, trivial⟩
      exact ⟨⟨rfl, trivial⟩, ⟨rfl, body, rfl⟩, trivial, trivial⟩
    · exact Parse.Within.of_nonpos (Int.le_refl 0)
    · decide +kernel
  rcases broken_output_cuts 2 1 stmts (.global .empty) with ⟨_, cuts, _, returns⟩
  rcases cuts (by decide +kernel) with ⟨last, _, _, _, _, _, _, closed, taken, _⟩
  have reachable : session.Reachable 0 :=
    ⟨0, 2, .new false, ⟨some 1⟩, ⟨[], fun _ => .error .notFound⟩, [], rfl⟩
  have compiles : Session.Compiles 0 source stmts := ⟨by decide +kernel, parsed⟩
  refine ⟨by decide +kernel, last, closed, taken.trans (by decide +kernel), by decide +kernel, ?_⟩
  exact returns 0 session source last reachable rfl compiles closed

end LoxLang
