import LoxLang.Evaluate

/-!
# Execution

Executing a statement changes bindings and prints. Each printed text is one write to the output,
which may be able to take only so many. A block runs in a scope of its own, which is gone afterwards
however the block ends; changes to the scopes around it stay.

Statements are executed by recursion on their structure. Only loops go beyond it, and each execution
of a loop may go through its body at most as often as the budget says.
-/

namespace LoxLang

/-- Where printed texts go: an output that takes any number of writes, or a limited number of them.
-/
structure Sink where
  room : Option Nat
deriving DecidableEq, Repr

namespace Sink

/-- The output that never fails. -/
def unlimited : Sink := ⟨none⟩

/-- The output after one more write, unless that fails. A write that fails changes nothing. -/
def write? (sink : Sink) : Option Sink :=
  match sink.room with
  | none => some sink
  | some 0 => none
  | some (room + 1) => some ⟨some room⟩

end Sink

/-- The record of a block that was entered: the depth of its scope and its number of statements. -/
structure BlockEntry where
  depth : Nat
  statements : Nat
deriving DecidableEq, Repr

/-- The state of a run: the bindings, the output with what was printed on it, and the blocks that
were entered. The last has no influence on the rest. -/
structure Machine where
  scopes : Scopes
  sink : Sink
  printed : Array Text
  entered : Array BlockEntry
deriving DecidableEq, Repr

/-- Computations that change bindings and print. -/
abbrev Execution := EStateM Failure Machine

namespace Execution

/-- Evaluates within a run. -/
def evaluating {α : Type} (evaluation : Evaluation α) : Execution α := fun machine =>
  match evaluation machine.scopes with
  | .ok value scopes => .ok value { machine with scopes }
  | .error failure scopes => .error failure { machine with scopes }

/-- Binds a name in the innermost scope. -/
def define (name : Text) (value : Value) : Execution Unit :=
  modify fun machine => { machine with scopes := machine.scopes.define name value }

/-- Prints a text. -/
def print (text : Text) : Execution Unit := do
  let machine ← get
  match machine.sink.write? with
  | some sink => set { machine with sink, printed := machine.printed.push text }
  | none => throw .outputClosed

/-- The machine on entering a block. -/
def enter (statements : Nat) (machine : Machine) : Machine :=
  { machine with
    scopes := machine.scopes.push
    entered := machine.entered.push ⟨machine.scopes.depth + 1, statements⟩ }

/-- The machine on leaving a block. -/
def leave (machine : Machine) : Machine := { machine with scopes := machine.scopes.pop }

/-- Runs the body of a block of that many statements in a scope of its own. -/
def inBlock (statements : Nat) (body : Execution Unit) : Execution Unit := fun machine =>
  match body (enter statements machine) with
  | .ok () machine => .ok () (leave machine)
  | .error failure machine => .error failure (leave machine)

/-- Runs a body for as long as a condition holds, at most the given number of times. -/
def loop (condition : Execution Value) (body : Execution Unit) : Nat → Execution Unit
  | 0, machine => .error .budgetSpent machine
  | budget + 1, machine =>
    match condition machine with
    | .error failure machine => .error failure machine
    | .ok value machine =>
      if value.isTruthy then
        match body machine with
        | .error failure machine => .error failure machine
        | .ok () machine => loop condition body budget machine
      else .ok () machine

end Execution

namespace Stmt

mutual

/-- Executes a statement. -/
def execute (budget : Nat) : Stmt → Execution Unit
  | missing => throw (.internal .statement)
  | expression value => do
    let _ ← Execution.evaluating value.evaluate
  | print value => do
    Execution.print (← Execution.evaluating value.evaluate).display
  | declare name none => Execution.define name.lexeme .nil
  | declare name (some initial) => do
    Execution.define name.lexeme (← Execution.evaluating initial.evaluate)
  | block body => Execution.inBlock body.length (executeAll budget body)
  | ifThen condition consequence => do
    if (← Execution.evaluating condition.evaluate).isTruthy then consequence.execute budget
  | ifElse condition consequence alternative => do
    if (← Execution.evaluating condition.evaluate).isTruthy then consequence.execute budget
    else alternative.execute budget
  | .while condition body =>
    Execution.loop (Execution.evaluating condition.evaluate) (body.execute budget) budget

/-- Executes statements one after the other, up to the first that fails. -/
def executeAll (budget : Nat) : List Stmt → Execution Unit
  | [] => return ()
  | first :: others => do
    first.execute budget
    executeAll budget others

end

end Stmt

end LoxLang
