import LoxLang.Execute
import LoxLang.Proofs.Tree.Shape

/-!
# The statements that a run begins

A run begins statements one after the other: those of a program and of its blocks, the branches that
are taken, and the body of a loop each time around. `Stmt.tracedAll` runs statements and lists the
ones that are begun, each with the machine it is begun on. Its run is the execution of the
statements (`Stmt.tracedAll_run`), so the list is that of the run itself.
-/

namespace LoxLang

/-- A statement that a run has begun, and the machine it was begun on. -/
structure Visit where
  stmt : Stmt
  machine : Machine

/-- A computation, with the statements that it begins when it is started on a machine. -/
structure Traced (α : Type) where
  run : Execution α
  visits : Machine → List Visit

namespace Traced

variable {α β : Type}

/-- A computation that begins no statement. -/
def silent (run : Execution α) : Traced α := ⟨run, fun _ => []⟩

/-- One computation after the other. If the first fails, the second begins nothing. -/
def bind (first : Traced α) (next : α → Traced β) : Traced β where
  run := first.run >>= fun value => (next value).run
  visits machine := first.visits machine ++
    match first.run machine with
    | .ok value after => (next value).visits after
    | .error _ _ => []

/-- The computation that is the execution of a statement. -/
def begun (stmt : Stmt) (execution : Traced Unit) : Traced Unit where
  run := execution.run
  visits machine := ⟨stmt, machine⟩ :: execution.visits machine

/-- The computation in a scope of its own. -/
def inBlock (statements : Nat) (body : Traced Unit) : Traced Unit where
  run := Execution.inBlock statements body.run
  visits machine := body.visits (Execution.enter statements machine)

/-- The computation for as long as a condition holds, at most the given number of times. -/
def loop (condition : Execution Value) (body : Traced Unit) : Nat → Traced Unit
  | 0 => silent (throw .budgetSpent)
  | budget + 1 => (silent condition).bind fun value =>
    if value.isTruthy then body.bind fun _ => loop condition body budget else silent (pure ())

theorem loop_run (condition : Execution Value) (body : Traced Unit) (budget : Nat) :
    (loop condition body budget).run = Execution.loop condition body.run budget := by
  induction budget with
  | zero => rfl
  | succ budget ih =>
      funext machine
      simp only [loop, bind, silent, Execution.loop, Bind.bind, EStateM.bind]
      cases condition machine with
      | error failure after => rfl
      | ok value after =>
          dsimp only
          split
          · simp only [EStateM.bind, ih]
            cases body.run after <;> rfl
          · rfl

end Traced

namespace Stmt

mutual

/-- Executes a statement and lists the statements that are begun, itself first. -/
def traced (budget : Nat) : Stmt → Traced Unit
  | block body => .begun (block body) (.inBlock body.length (tracedAll budget body))
  | ifThen condition consequence =>
    .begun (ifThen condition consequence)
      ((Traced.silent (Execution.evaluating condition.evaluate)).bind fun value =>
        if value.isTruthy then consequence.traced budget else .silent (pure ()))
  | ifElse condition consequence alternative =>
    .begun (ifElse condition consequence alternative)
      ((Traced.silent (Execution.evaluating condition.evaluate)).bind fun value =>
        if value.isTruthy then consequence.traced budget else alternative.traced budget)
  | .while condition body =>
    .begun (.while condition body)
      (.loop (Execution.evaluating condition.evaluate) (body.traced budget) budget)
  | stmt => .begun stmt (.silent (stmt.execute budget))

/-- Executes statements and lists the statements that are begun. -/
def tracedAll (budget : Nat) : List Stmt → Traced Unit
  | [] => .silent (pure ())
  | first :: others => (first.traced budget).bind fun _ => tracedAll budget others

end

variable {budget : Nat}

theorem tracedAll_run_of_forall {stmts : List Stmt}
    (runs : ∀ stmt ∈ stmts, (stmt.traced budget).run = stmt.execute budget) :
    (tracedAll budget stmts).run = executeAll budget stmts := by
  induction stmts with
  | nil => rfl
  | cons first others ih =>
      rw [List.forall_mem_cons] at runs
      simp only [tracedAll, executeAll, Traced.bind, runs.1, ih runs.2]

theorem traced_run (stmt : Stmt) : (stmt.traced budget).run = stmt.execute budget := by
  induction stmt with
  | missing | expression | print | declare => rfl
  | block body ih =>
      simp only [traced, execute, Traced.begun, Traced.inBlock, tracedAll_run_of_forall ih]
  | ifThen condition consequence ih =>
      simp only [traced, execute, Traced.begun, Traced.bind, Traced.silent]
      congr 1
      funext value
      split
      · exact ih
      · rfl
  | ifElse condition consequence alternative ih ihAlternative =>
      simp only [traced, execute, Traced.begun, Traced.bind, Traced.silent]
      congr 1
      funext value
      split
      · exact ih
      · exact ihAlternative
  | loop condition body ih =>
      simp only [traced, execute, Traced.begun, Traced.loop_run, ih]

theorem tracedAll_run (stmts : List Stmt) :
    (tracedAll budget stmts).run = executeAll budget stmts :=
  tracedAll_run_of_forall fun stmt _ => traced_run stmt

end Stmt

end LoxLang
