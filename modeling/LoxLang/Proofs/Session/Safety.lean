import LoxLang.Proofs.Execute.Safety
import LoxLang.Proofs.Parse.Completeness
import LoxLang.Proofs.Parse.Soundness
import LoxLang.Proofs.Scan.Lexemes
import LoxLang.Proofs.Session.Run

/-!
# Compiled programs do not fail internally

The scanner gives number and string tokens payloads of their kind, and the parser builds only
well-formed trees whose names and operators are tokens of the source. So whatever compiles runs, up
to runtime errors at tokens of the source and an output that is closed. A session shows runtime
errors itself, which leaves a closed output as the only failure that it returns.
-/

namespace LoxLang

/-- The tokens of a source that stand on one of its lines. -/
def scannedOnLine (source : Text) (token : Token) : Prop :=
  token ∈ (scan source).tokens ∧ 1 ≤ token.line ∧ token.line ≤ 1 + source.newlines

theorem ofLiteral?_isSome_of_mem_scan {source : Text} {token : Token}
    (mem : token ∈ (scan source).tokens) : (Value.ofLiteral? token.literal).isSome = true := by
  rcases eq_endOfInput_or_exists_piece mem with rfl | ⟨piece, line, _, isToken⟩
  · rfl
  · unfold Piece.token? at isToken
    split at isToken <;> cases isToken <;> rfl

theorem runs_of_spelled {source : Text} {tokens : List Token} {atoms : List Atom}
    (subset : tokens ⊆ (scan source).tokens) (spelled : tokens.map Token.atom = atoms) :
    ∀ atom ∈ atoms, atom.Runs (scannedOnLine source) := by
  intro atom mem
  rw [← spelled] at mem
  rcases List.mem_map.mp mem with ⟨token, tokenMem, rfl⟩
  have scanned := subset tokenMem
  cases becomes : token.atom with
  | mark kind => trivial
  | word other =>
      obtain rfl := Token.eq_of_atom_eq_word becomes
      exact ⟨scanned, line_of_mem_scan scanned⟩
  | value payload =>
      rcases Token.cases_of_atom_eq_value becomes with
        ⟨_, rfl⟩ | ⟨_, rfl⟩ | ⟨_, rfl⟩ | ⟨_, rfl⟩
      · rfl
      · rfl
      · rfl
      · exact ofLiteral?_isSome_of_mem_scan scanned

/-- What the parser returns for a source that it has nothing to say about runs safely. -/
theorem parse_failsOnly {limit : Int} {source : Text}
    (silent : (parse limit (scan source).tokens).diagnostics = []) :
    ∃ stmts : List Stmt, (parse limit (scan source).tokens).outcome = .ok stmts ∧
      ∀ budget,
        FailsOnly (Failure.Expected (scannedOnLine source)) (Stmt.executeAll budget stmts) := by
  rcases parse_sound silent with ⟨stmts, returned, reads⟩
  refine ⟨stmts, returned, fun budget => ?_⟩
  exact Stmt.executeAll_failsOnly reads.formed
    (runs_of_spelled (List.takeWhile_subset _) reads.atoms) budget

namespace Session

variable {session : Session} {failure : Failure}

theorem execute_failure {statements : List Stmt}
    (failed : (session.execute statements).2 = some failure) :
    ∃ start last, Stmt.executeAll session.budget statements start = .error failure last ∧
      (session.execute statements).1.sink = last.sink := by
  simp only [execute] at failed ⊢
  generalize Machine.mk (.global session.globals) session.sink #[] #[] = start at failed ⊢
  cases ran : Stmt.executeAll session.budget statements start with
  | ok done last =>
      rw [ran] at failed
      cases failed
  | error other last =>
      rw [ran] at failed
      cases failed
      exact ⟨start, last, ran, rfl⟩

theorem concluded_failure {count : Nat} {result : Session × Option Failure}
    (failed : (concluded count result).2 = some failure) :
    result.2 = some failure ∧ (concluded count result).1.sink = result.1.sink ∧
      ∀ error, failure ≠ .runtime error := by
  rcases result with ⟨session, outcome⟩
  cases outcome with
  | none => cases failed
  | some other =>
      cases other with
      | runtime error => cases failed
      | internal | outputClosed | budgetSpent =>
          cases failed
          exact ⟨rfl, rfl, by simp⟩

/-- A run returns a failure only if the output is closed or the budget is spent. -/
theorem run_failure {limit : Int} {source : Text} (sound : session.Sound limit)
    (failed : (session.run source).2 = some failure) :
    failure = .budgetSpent ∨
      failure = .outputClosed ∧ (session.run source).1.sink.write? = none := by
  have compiled := compile_compiled sound source
  rw [run_eq_performed] at failed ⊢
  generalize session.compile source = result at compiled failed ⊢
  rcases result with ⟨after, outcome⟩
  cases outcome with
  | none => cases failed
  | some statements =>
      simp only [performed] at failed ⊢
      split at failed
      · cases failed
      · rename_i unmarked
        rw [if_neg unmarked]
        -- Without a mark nothing was said against the source, so its statements run safely.
        have silent := complaints_eq_nil compiled.effect (Bool.eq_false_iff.mpr unmarked)
        rcases parse_failsOnly (List.append_eq_nil_iff.mp silent).2 with ⟨stmts, returned, safe⟩
        have same : some statements = some stmts :=
          compiled.statements.trans (by rw [returned]; rfl)
        cases same
        rcases concluded_failure failed with ⟨executed, sameSink, notRuntime⟩
        rcases execute_failure executed with ⟨start, last, ran, lastSink⟩
        have expected := safe _ _ _ _ ran
        cases failure with
        | runtime error => exact (notRuntime error rfl).elim
        | internal cause => exact expected.elim
        | outputClosed => exact Or.inr ⟨rfl, by rw [sameSink, lastSink]; exact expected⟩
        | budgetSpent => exact Or.inl rfl

end Session

/-- A source that parses silently has statements that, on any machine, end well, with a runtime
error at a scanned token on a line of the source, on a closed output, or with a spent budget. So a
session returns no failure of a run but a closed output, as long as its loops end. -/
theorem compiled_never_internal (limit : Int) (source : Text) :
    ((parse limit (scan source).tokens).diagnostics = [] →
      ∃ stmts : List Stmt, (parse limit (scan source).tokens).outcome = .ok stmts ∧
        ∀ budget, FailsOnly (Failure.Expected (scannedOnLine source))
          (Stmt.executeAll budget stmts)) ∧
    ∀ session : Session, session.Reachable limit →
      ∀ failure, (session.run source).2 = some failure →
        failure = .budgetSpent ∨
          failure = .outputClosed ∧ (session.run source).1.sink.write? = none :=
  ⟨parse_failsOnly, fun _ reachable _ failed => Session.run_failure reachable.sound failed⟩

/-- The negation of nil parses, and running it blames nothing but the source. -/
theorem compiled_never_internal_negation :
    (parse 0 (scan "print -nil;").tokens).diagnostics = [] ∧
      ∀ budget, FailsOnly (Failure.Expected (scannedOnLine "print -nil;"))
        (Stmt.executeAll budget [.print (.unary ⟨.minus, "-", .nil, 1⟩ (.literal .nil))]) := by
  have parsed : parse 0 (scan "print -nil;").tokens =
      ⟨.ok [.print (.unary ⟨.minus, "-", .nil, 1⟩ (.literal .nil))], []⟩ := by
    apply parse_complete
    · exact ⟨⟨by decide, trivial, by decide⟩, trivial⟩
    · exact Parse.Within.of_nonpos (Int.le_refl 0)
    · decide +kernel
  have silent : (parse 0 (scan "print -nil;").tokens).diagnostics = [] := by rw [parsed]
  rcases (compiled_never_internal 0 "print -nil;").1 silent with ⟨stmts, returned, safe⟩
  rw [parsed] at returned
  cases returned
  exact ⟨silent, safe⟩

end LoxLang
