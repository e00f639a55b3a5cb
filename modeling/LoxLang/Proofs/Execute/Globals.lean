import LoxLang.Proofs.Execute.Footprint
import LoxLang.Proofs.Parse.Completeness
import LoxLang.Proofs.Parse.Soundness
import LoxLang.Scan

/-!
# The names that a program makes global

A source has no declaration as the body of a conditional or a loop, only in blocks and at the top.
So a statement of a program that is no declaration binds nothing in the scope it stands in, however
it ends. A declaration binds its name, unless its initial value fails; then it binds nothing.

It follows by induction over the program that the names which are bound in the end are those bound
at the start and those of the declarations that were executed: all of the program's, or all before
the statement that failed.
-/

namespace LoxLang

/-- The names of the declarations among statements. -/
def Stmt.declarations (stmts : List Stmt) : List Text :=
  stmts.filterMap fun
    | declare name _ => some name.lexeme
    | missing | expression _ | print _ | block _ | ifThen _ _ | ifElse _ _ _ | .while _ _ => none

theorem Stmt.declarations_cons (first : Stmt) (others : List Stmt) :
    declarations (first :: others) = declarations [first] ++ declarations others := by
  rw [← List.singleton_append, declarations, List.filterMap_append]
  rfl

/-- A phrase of a source that is no declaration has declarations in its blocks only. -/
theorem Stmt.WellFormed.declared_eq_nil {stmt : Stmt} (formed : stmt.WellFormed)
    (isStatement : stmt.declares = false) : stmt.declared = [] := by
  induction stmt with
  | declare name initial => cases isStatement
  | ifThen condition consequence ih => exact ih formed.2.1 formed.2.2
  | ifElse condition consequence alternative ih ihAlternative =>
      rcases formed with ⟨_, ⟨consequenceFormed, plain⟩, _, alternativeFormed, alternativePlain⟩
      rw [declared, ih consequenceFormed plain, ihAlternative alternativeFormed alternativePlain]
      rfl
  | loop condition body ih => exact ih formed.2.1 formed.2.2
  | missing | expression | print | block => rfl

/-- The innermost scope has gained the given names and no others, and the chain is as long as
before. -/
structure Scopes.Gains (names : List Text) (before after : Scopes) : Prop where
  depth : after.depth = before.depth
  bound : ∀ name, name ∈ after.innermost.names ↔ name ∈ before.innermost.names ∨ name ∈ names

namespace Scopes

variable {assigned declared : Text → Prop} {names more : List Text} {before middle after : Scopes}

theorem Gains.trans (first : Gains names before middle) (second : Gains more middle after) :
    Gains (names ++ more) before after := by
  refine ⟨second.depth.trans first.depth, fun name => ?_⟩
  rw [second.bound, first.bound, List.mem_append, or_assoc]

theorem Footprint.depth_eq (footprint : Footprint assigned declared before after) :
    after.depth = before.depth :=
  footprint.enclosing.length_eq.symm

theorem Footprint.gains (footprint : Footprint assigned (· ∈ names) before after)
    (taken : ∀ name ∈ names, name ∈ after.innermost.names) : Gains names before after := by
  refine ⟨footprint.depth_eq, fun name => ⟨footprint.gained name, ?_⟩⟩
  rintro (mem | mem)
  · exact footprint.kept mem
  · exact taken name mem

end Scopes

namespace Stmt

variable {budget : Nat} {stmt : Stmt} {machine after : Machine} {failure : Failure}

/-- A declaration that does not fail binds its name. -/
theorem name_mem_of_declare {name : Token} {initial : Option Expr}
    (ran : (declare name initial).execute budget machine = .ok () after) :
    name.lexeme ∈ after.scopes.innermost.names := by
  have bound : ∀ (scopes : Scopes) (value : Value),
      name.lexeme ∈ (scopes.define name.lexeme value).innermost.names := by
    intro scopes value
    simp [Bindings.mem_names_iff, Scopes.define, Bindings.binds_set]
  cases initial with
  | none =>
      rw [execute] at ran
      cases ran
      exact bound _ _
  | some initial =>
      simp only [execute, Bind.bind, EStateM.bind] at ran
      split at ran
      · cases ran
        exact bound _ _
      · cases ran

/-- A declaration that fails has only evaluated its initial value. -/
theorem gains_of_declare_failed {name : Token} {initial : Option Expr}
    (ran : (declare name initial).execute budget machine = .error failure after) :
    Scopes.Gains [] machine.scopes after.scopes := by
  cases initial with
  | none =>
      rw [execute] at ran
      cases ran
  | some initial =>
      have evaluated : Scopes.Footprint (· ∈ initial.targets) (· ∈ ([] : List Text)) machine.scopes
          (final (Execution.evaluating initial.evaluate machine)).scopes :=
        evaluating_leads_of_covers (.footprint _) (fun _ mem => mem) machine
      simp only [execute, Bind.bind, EStateM.bind] at ran
      split at ran
      · cases ran
      · next failed =>
          cases ran
          rw [failed] at evaluated
          exact Scopes.Footprint.gains evaluated (by simp)

/-- What executing a statement of a program binds: its name if it is a declaration and succeeds, and
otherwise nothing. -/
theorem gains_of_execute (formed : stmt.WellFormed) :
    (stmt.execute budget machine = .ok () after →
      Scopes.Gains (declarations [stmt]) machine.scopes after.scopes) ∧
    ∀ failure, stmt.execute budget machine = .error failure after →
      Scopes.Gains [] machine.scopes after.scopes := by
  have footprint := footprint_of_execute budget stmt machine
  cases isDeclaration : stmt.declares with
  | false =>
      rw [formed.declared_eq_nil isDeclaration] at footprint
      have nothing : declarations [stmt] = [] := by
        cases stmt <;> first | rfl | cases isDeclaration
      rw [nothing]
      constructor
      · intro ran
        rw [ran] at footprint
        exact footprint.gains (by simp)
      · intro failure ran
        rw [ran] at footprint
        exact footprint.gains (by simp)
  | true =>
      cases stmt with
      | declare name initial =>
          refine ⟨fun ran => ?_, fun _ => gains_of_declare_failed⟩
          rw [ran] at footprint
          refine footprint.gains fun other mem => ?_
          rw [List.mem_singleton.mp mem]
          exact name_mem_of_declare ran
      | _ => cases isDeclaration

/-- What executing a program binds: the names of all its declarations if it succeeds, and otherwise
those of the declarations before the statement that failed. -/
theorem gains_of_executeAll {stmts : List Stmt} (formed : AllWellFormed stmts) :
    (executeAll budget stmts machine = .ok () after →
      Scopes.Gains (declarations stmts) machine.scopes after.scopes) ∧
    ∀ failure, executeAll budget stmts machine = .error failure after →
      ∃ before failing others middle, stmts = before ++ failing :: others ∧
        executeAll budget before machine = .ok () middle ∧
        failing.execute budget middle = .error failure after ∧
        Scopes.Gains (declarations before) machine.scopes after.scopes := by
  induction stmts generalizing machine with
  | nil =>
      rw [executeAll]
      constructor
      · intro ran
        cases ran
        exact ⟨rfl, by simp [declarations]⟩
      · intro failure ran
        cases ran
  | cons first others ih =>
      rcases formed with ⟨firstFormed, othersFormed⟩
      simp only [executeAll, Bind.bind, EStateM.bind]
      cases ran : first.execute budget machine with
      | error other stopped =>
          constructor
          · intro succeeded
            cases succeeded
          · intro failure failed
            cases failed
            have gains := (gains_of_execute firstFormed).2 _ ran
            exact ⟨[], first, others, machine, rfl, rfl, ran, gains⟩
      | ok done middle =>
          have firstGains := (gains_of_execute firstFormed).1 ran
          rcases ih othersFormed with ⟨succeeds, fails⟩
          constructor
          · intro rest
            rw [declarations_cons]
            exact firstGains.trans (succeeds rest)
          · intro failure rest
            rcases fails failure rest with
              ⟨before, failing, behind, last, rfl, ranBefore, failed, gains⟩
            refine ⟨first :: before, failing, behind, last, rfl, ?_, failed, ?_⟩
            · simp only [executeAll, Bind.bind, EStateM.bind, ran]
              exact ranBefore
            · rw [declarations_cons]
              exact firstGains.trans gains

end Stmt

/-- Executing a source that parses silently adds to the global names those of its declarations at
the top and no others: all of them if it succeeds, and if a statement fails, for whatever reason,
those of the declarations before that statement. -/
theorem globals_gain_declarations {limit : Int} {source : Text}
    (silent : (parse limit (scan source).tokens).diagnostics = []) :
    ∃ stmts : List Stmt, (parse limit (scan source).tokens).outcome = .ok stmts ∧
      ∀ (budget : Nat) (globals : Bindings Value) (sink : Sink),
        let start : Machine := ⟨.global globals, sink, #[], #[]⟩
        (∀ last, Stmt.executeAll budget stmts start = .ok () last →
          Scopes.Gains (Stmt.declarations stmts) (.global globals) last.scopes) ∧
        ∀ failure last, Stmt.executeAll budget stmts start = .error failure last →
          ∃ before failing others middle, stmts = before ++ failing :: others ∧
            Stmt.executeAll budget before start = .ok () middle ∧
            failing.execute budget middle = .error failure last ∧
            Scopes.Gains (Stmt.declarations before) (.global globals) last.scopes := by
  rcases parse_sound silent with ⟨stmts, returned, reads⟩
  refine ⟨stmts, returned, fun budget globals sink => ⟨?_, ?_⟩⟩
  · intro last ran
    exact (Stmt.gains_of_executeAll reads.formed).1 ran
  · intro failure last ran
    exact (Stmt.gains_of_executeAll reads.formed).2 failure ran

/-- A program with a declaration in a branch, one that fails and one that is not reached. -/
theorem globals_gain_declarations_failing :
    let source : Text := "var a; if (!a) \x7b var b; \x7d var c = x; var d;"
    let name (lexeme : Text) : Token := ⟨.identifier, lexeme, .nil, 1⟩
    let stmts : List Stmt :=
      [.declare (name "a") none,
       .ifThen (.unary ⟨.bang, "!", .nil, 1⟩ (.name (name "a")))
         (.block [.declare (name "b") none]),
       .declare (name "c") (some (.name (name "x"))), .declare (name "d") none]
    let start : Machine := ⟨.global .empty, .unlimited, #[], #[]⟩
    (parse 0 (scan source).tokens).diagnostics = [] ∧
      ∃ failure last, Stmt.executeAll 0 stmts start = .error failure last ∧
        last.scopes.innermost.names = ["a"] ∧
        ∃ before failing others middle, stmts = before ++ failing :: others ∧
          Stmt.executeAll 0 before start = .ok () middle ∧
          failing.execute 0 middle = .error failure last ∧
          Scopes.Gains (Stmt.declarations before) (.global .empty) last.scopes := by
  intro source name stmts start
  have parsed : parse 0 (scan source).tokens = ⟨.ok stmts, []⟩ := by
    apply parse_complete
    · exact ⟨rfl, ⟨⟨by decide, rfl, by decide⟩, ⟨rfl, trivial⟩, rfl⟩, ⟨rfl, rfl⟩, rfl, trivial⟩
    · exact Parse.Within.of_nonpos (Int.le_refl 0)
    · decide +kernel
  have silent : (parse 0 (scan source).tokens).diagnostics = [] := by rw [parsed]
  rcases globals_gain_declarations silent with ⟨_, returned, gains⟩
  rw [parsed] at returned
  cases returned
  have names : (final (Stmt.executeAll 0 stmts start)).scopes.innermost.names = ["a"] := by
    decide +kernel
  refine ⟨silent, ?_⟩
  cases ran : Stmt.executeAll 0 stmts start with
  | ok done last =>
      have bound := ((gains 0 .empty .unlimited).1 last ran).bound "d"
      rw [ran, final] at names
      rw [names] at bound
      exact absurd (bound.mpr (.inr (by decide))) (by decide)
  | error failure last =>
      rw [ran] at names
      exact ⟨failure, last, rfl, names, (gains 0 .empty .unlimited).2 failure last ran⟩

end LoxLang
