import LoxLang.Execute
import LoxLang.Proofs.Tree.Shape

/-!
# What a run can fail with

A well-formed tree whose literals are values of the language never fails internally. It may end with
a runtime error at one of its own names and operators, on a closed output, or on a spent budget.
`FailsOnly` says this of a computation. It is closed under the ways of putting computations
together, so the proofs follow the structure of expressions and statements, and the budget of a
loop.
-/

namespace LoxLang

/-- Whenever the computation fails, the failure and the state it leaves are as expected. -/
def FailsOnly {σ α : Type} (expected : Failure → σ → Prop) (computation : EStateM Failure σ α) :
    Prop :=
  ∀ start failure last, computation start = .error failure last → expected failure last

namespace FailsOnly

variable {σ α β : Type} {expected : Failure → σ → Prop}

theorem pure (value : α) : FailsOnly expected (Pure.pure value) := by
  intro start failure last failed
  cases failed

theorem throw {failure : Failure} (isExpected : ∀ state, expected failure state) :
    FailsOnly expected (MonadExcept.throw failure : EStateM Failure σ α) := by
  intro start _ last failed
  cases failed
  exact isExpected start

theorem bind {first : EStateM Failure σ α} {next : α → EStateM Failure σ β}
    (firstFails : FailsOnly expected first) (nextFails : ∀ value, FailsOnly expected (next value)) :
    FailsOnly expected (first >>= next) := by
  intro start failure last failed
  simp only [Bind.bind, EStateM.bind] at failed
  cases ran : first start with
  | ok value middle =>
      rw [ran] at failed
      exact nextFails value middle failure last failed
  | error other middle =>
      rw [ran] at failed
      cases failed
      exact firstFails start _ _ ran

end FailsOnly

/-- A runtime error at one of the given tokens. -/
def Failure.Blames (blamed : Token → Prop) : Failure → Prop
  | runtime error => blamed error.token
  | internal _ | outputClosed | budgetSpent => False

/-- A runtime error at one of the given tokens, an output that is closed, or a spent budget. -/
def Failure.Expected (blamed : Token → Prop) : Failure → Machine → Prop
  | runtime error, _ => blamed error.token
  | outputClosed, machine => machine.sink.write? = none
  | budgetSpent, _ => True
  | internal _, _ => False

/-- What a run needs of an atom: a payload that is a value, or a token that may be blamed. -/
def Atom.Runs (blamed : Token → Prop) : Atom → Prop
  | word token => blamed token
  | value payload => (Value.ofLiteral? payload).isSome = true
  | mark _ => True

variable {blamed : Token → Prop}

namespace Evaluation

variable {operator : Token}

theorem raise_failsOnly {α : Type} {token : Token} (mayBlame : blamed token)
    (fault : RuntimeFault) :
    FailsOnly (fun failure _ => failure.Blames blamed) (raise token fault : Evaluation α) :=
  .throw fun _ => mayBlame

theorem read_apply (name : Token) (scopes : Scopes) :
    read name scopes = (match scopes.find? name.lexeme with
      | some value => Pure.pure value
      | none => raise name .undefinedVariable : Evaluation Value) scopes :=
  rfl

theorem assign_apply (name : Token) (value : Value) (scopes : Scopes) :
    assign name value scopes = (match scopes.assign? name.lexeme value with
      | some scopes => set scopes
      | none => raise name .undefinedVariable : Evaluation Unit) scopes :=
  rfl

theorem read_failsOnly {name : Token} (mayBlame : blamed name) :
    FailsOnly (fun failure _ => failure.Blames blamed) (read name) := by
  intro scopes failure last failed
  rw [read_apply] at failed
  cases found : scopes.find? name.lexeme with
  | some value =>
      rw [found] at failed
      cases failed
  | none =>
      rw [found] at failed
      exact raise_failsOnly mayBlame _ _ _ _ failed

theorem assign_failsOnly {name : Token} (mayBlame : blamed name) (value : Value) :
    FailsOnly (fun failure _ => failure.Blames blamed) (assign name value) := by
  intro scopes failure last failed
  rw [assign_apply] at failed
  cases changed : scopes.assign? name.lexeme value with
  | some scopes =>
      rw [changed] at failed
      cases failed
  | none =>
      rw [changed] at failed
      exact raise_failsOnly mayBlame _ _ _ _ failed

theorem unary_failsOnly (isOperator : operator.kind ∈ [.bang, .minus]) (mayBlame : blamed operator)
    (operand : Value) :
    FailsOnly (fun failure _ => failure.Blames blamed) (unary operator operand) := by
  simp only [List.mem_cons, List.not_mem_nil, or_false] at isOperator
  rcases isOperator with isBang | isMinus
  · simp only [unary, isBang]
    exact .pure _
  · simp only [unary, isMinus]
    split
    · exact .pure _
    · exact raise_failsOnly mayBlame _

theorem arithmetic_failsOnly (isOperator : operator.kind ∈
    [.minus, .star, .slash, .greater, .greaterEqual, .less, .lessEqual]) (left right : Number) :
    FailsOnly (fun failure _ => failure.Blames blamed) (arithmetic operator left right) := by
  simp only [List.mem_cons, List.not_mem_nil, or_false] at isOperator
  rcases isOperator with kind | kind | kind | kind | kind | kind | kind <;>
  · simp only [arithmetic, kind]
    exact .pure _

theorem binary_failsOnly {tier : Parse.Tier} (plain : tier.isLogical = false)
    (mem : operator.kind ∈ tier.operators) (mayBlame : blamed operator) (left right : Value) :
    FailsOnly (fun failure _ => failure.Blames blamed) (binary operator left right) := by
  unfold binary
  split
  · exact .pure _
  · exact .pure _
  · split
    · exact .pure _
    · exact .pure _
    · exact raise_failsOnly mayBlame _
  · rename_i notEqual notUnequal notPlus
    split
    · apply arithmetic_failsOnly
      cases tier with
      | or | and => cases plain
      | equality | comparison | term | factor => grind [Parse.Tier.operators]
    · exact raise_failsOnly mayBlame _

end Evaluation

theorem Expr.WellFormed.evaluate_failsOnly {expr : Expr} (formed : expr.WellFormed)
    (runs : ∀ atom ∈ expr.atoms, atom.Runs blamed) :
    FailsOnly (fun failure _ => failure.Blames blamed) expr.evaluate := by
  induction expr with
  | missing => exact formed.elim
  | literal payload =>
      have isValue : (Value.ofLiteral? payload).isSome = true :=
        runs (.value payload) (by simp [atoms])
      rcases Option.isSome_iff_exists.mp isValue with ⟨value, found⟩
      simp only [evaluate, found]
      exact .pure value
  | group inner ih => exact ih formed fun atom mem => runs atom (by simp [atoms, mem])
  | unary operator operand ih =>
      rcases formed with ⟨isOperator, operandFormed, _⟩
      rw [atoms, List.forall_mem_cons] at runs
      exact .bind (ih operandFormed runs.2) fun value =>
        Evaluation.unary_failsOnly isOperator runs.1 value
  | binary left operator right ihLeft ihRight =>
      rcases formed with ⟨tier, plain, mem, ⟨leftFormed, _⟩, rightFormed, _⟩
      rw [atoms, List.forall_mem_append, List.forall_mem_cons] at runs
      rcases runs with ⟨leftRuns, mayBlame, rightRuns⟩
      exact .bind (ihLeft leftFormed leftRuns) fun leftValue =>
        .bind (ihRight rightFormed rightRuns) fun rightValue =>
          Evaluation.binary_failsOnly plain mem mayBlame leftValue rightValue
  | logical left operator right ihLeft ihRight =>
      rcases formed with ⟨tier, _, _, ⟨leftFormed, _⟩, rightFormed, _⟩
      rw [atoms, List.forall_mem_append, List.forall_mem_cons] at runs
      rcases runs with ⟨leftRuns, _, rightRuns⟩
      refine .bind (ihLeft leftFormed leftRuns) fun value => ?_
      split
      · exact .pure value
      · exact ihRight rightFormed rightRuns
  | name token => exact Evaluation.read_failsOnly (runs (.word token) (by simp [atoms]))
  | assign target value ih =>
      rcases formed with ⟨_, valueFormed⟩
      rw [atoms, List.forall_mem_cons, List.forall_mem_cons] at runs
      rcases runs with ⟨mayBlame, _, valueRuns⟩
      exact .bind (ih valueFormed valueRuns) fun result =>
        .bind (Evaluation.assign_failsOnly mayBlame result) fun _ => .pure result

namespace Execution

variable {condition : Execution Value} {body : Execution Unit}

theorem evaluating_failsOnly {α : Type} {evaluation : Evaluation α}
    (fails : FailsOnly (fun failure _ => failure.Blames blamed) evaluation) :
    FailsOnly (Failure.Expected blamed) (evaluating evaluation) := by
  intro machine failure last failed
  rw [evaluating] at failed
  cases evaluated : evaluation machine.scopes with
  | ok value scopes =>
      rw [evaluated] at failed
      cases failed
  | error other scopes =>
      rw [evaluated] at failed
      cases failed
      have blames := fails _ _ _ evaluated
      cases failure with
      | runtime error => exact blames
      | internal | outputClosed | budgetSpent => exact blames.elim

theorem define_failsOnly (name : Text) (value : Value) :
    FailsOnly (Failure.Expected blamed) (define name value) := by
  intro machine failure last failed
  cases failed

theorem print_apply (text : Text) (machine : Machine) :
    print text machine = (match machine.sink.write? with
      | some sink => set { machine with sink, printed := machine.printed.push text }
      | none => throw .outputClosed : Execution Unit) machine :=
  rfl

theorem print_failsOnly (text : Text) : FailsOnly (Failure.Expected blamed) (print text) := by
  intro machine failure last failed
  rw [print_apply] at failed
  cases written : machine.sink.write? with
  | some sink =>
      rw [written] at failed
      cases failed
  | none =>
      rw [written] at failed
      cases failed
      exact written

theorem inBlock_failsOnly (fails : FailsOnly (Failure.Expected blamed) body) (statements : Nat) :
    FailsOnly (Failure.Expected blamed) (inBlock statements body) := by
  intro machine failure last failed
  rw [inBlock] at failed
  cases ran : body (enter statements machine) with
  | ok value after =>
      rw [ran] at failed
      cases failed
  | error other after =>
      rw [ran] at failed
      cases failed
      -- Leaving a block changes scopes only.
      have expected := fails _ _ _ ran
      cases failure <;> exact expected

theorem loop_failsOnly (conditionFails : FailsOnly (Failure.Expected blamed) condition)
    (bodyFails : FailsOnly (Failure.Expected blamed) body) (budget : Nat) :
    FailsOnly (Failure.Expected blamed) (loop condition body budget) := by
  induction budget with
  | zero =>
      -- A spent budget is an expected failure whatever the state.
      intro machine failure last failed
      cases failed
      trivial
  | succ budget ih =>
      intro machine failure last failed
      rw [loop] at failed
      cases tested : condition machine with
      | error other after =>
          rw [tested] at failed
          cases failed
          exact conditionFails _ _ _ tested
      | ok value after =>
          rw [tested] at failed
          dsimp only at failed
          split at failed
          · cases ran : body after with
            | error other last =>
                rw [ran] at failed
                cases failed
                exact bodyFails _ _ _ ran
            | ok done next =>
                rw [ran] at failed
                exact ih _ _ _ failed
          · cases failed

end Execution

namespace Stmt

theorem executeAll_failsOnly_of_forall {budget : Nat} {stmts : List Stmt}
    (fails : ∀ stmt ∈ stmts, FailsOnly (Failure.Expected blamed) (stmt.execute budget)) :
    FailsOnly (Failure.Expected blamed) (executeAll budget stmts) := by
  induction stmts with
  | nil =>
      rw [executeAll]
      exact .pure ()
  | cons first others ih =>
      rw [executeAll]
      exact .bind (fails first (by simp)) fun _ => ih fun stmt mem => fails stmt (by simp [mem])

theorem execute_failsOnly {stmt : Stmt} (formed : stmt.WellFormed)
    (runs : ∀ atom ∈ stmt.atoms, atom.Runs blamed) (budget : Nat) :
    FailsOnly (Failure.Expected blamed) (stmt.execute budget) := by
  induction stmt with
  | missing => exact formed.elim
  | expression value =>
      rw [atoms, List.forall_mem_append] at runs
      rw [execute]
      exact .bind
        (Execution.evaluating_failsOnly (Expr.WellFormed.evaluate_failsOnly formed runs.1))
        fun _ => .pure ()
  | print value =>
      rw [atoms, List.forall_mem_cons, List.forall_mem_append] at runs
      rw [execute]
      exact .bind
        (Execution.evaluating_failsOnly (Expr.WellFormed.evaluate_failsOnly formed runs.2.1))
        fun value => Execution.print_failsOnly value.display
  | declare name initial =>
      cases initial with
      | none =>
          rw [execute]
          exact Execution.define_failsOnly name.lexeme .nil
      | some initial =>
          simp only [atoms, List.forall_mem_cons, List.forall_mem_append] at runs
          rcases runs with ⟨_, _, _, initialRuns, _⟩
          rw [execute]
          exact .bind (Execution.evaluating_failsOnly (formed.2.evaluate_failsOnly initialRuns))
            fun value => Execution.define_failsOnly name.lexeme value
  | block body ih =>
      rw [WellFormed, allWellFormed_iff] at formed
      simp only [atoms, List.forall_mem_cons, List.forall_mem_append] at runs
      rw [execute]
      apply Execution.inBlock_failsOnly
      apply executeAll_failsOnly_of_forall
      intro stmt mem
      exact ih stmt mem (formed stmt mem) (forall_mem_atomsAll.mp runs.2.1 stmt mem)
  | ifThen condition consequence ih =>
      rcases formed with ⟨conditionFormed, consequenceFormed, _⟩
      simp only [atoms, List.forall_mem_cons, List.forall_mem_append] at runs
      rcases runs with ⟨_, _, conditionRuns, _, consequenceRuns⟩
      rw [execute]
      refine .bind (Execution.evaluating_failsOnly
        (conditionFormed.evaluate_failsOnly conditionRuns)) fun value => ?_
      split
      · exact ih consequenceFormed consequenceRuns
      · exact .pure ()
  | ifElse condition consequence alternative ih ihAlternative =>
      rcases formed with ⟨conditionFormed, ⟨consequenceFormed, _⟩, _, alternativeFormed, _⟩
      simp only [atoms, List.forall_mem_cons, List.forall_mem_append] at runs
      rcases runs with ⟨_, _, conditionRuns, _, consequenceRuns, _, alternativeRuns⟩
      rw [execute]
      refine .bind (Execution.evaluating_failsOnly
        (conditionFormed.evaluate_failsOnly conditionRuns)) fun value => ?_
      split
      · exact ih consequenceFormed consequenceRuns
      · exact ihAlternative alternativeFormed alternativeRuns
  | loop condition body ih =>
      rcases formed with ⟨conditionFormed, bodyFormed, _⟩
      simp only [atoms, List.forall_mem_cons, List.forall_mem_append] at runs
      rcases runs with ⟨_, _, conditionRuns, _, bodyRuns⟩
      rw [execute]
      exact Execution.loop_failsOnly
        (Execution.evaluating_failsOnly (conditionFormed.evaluate_failsOnly conditionRuns))
        (ih bodyFormed bodyRuns) budget

/-- Well-formed statements fail only as expected. -/
theorem executeAll_failsOnly {stmts : List Stmt} (formed : AllWellFormed stmts)
    (runs : ∀ atom ∈ atomsAll stmts, atom.Runs blamed) (budget : Nat) :
    FailsOnly (Failure.Expected blamed) (executeAll budget stmts) := by
  rw [allWellFormed_iff] at formed
  apply executeAll_failsOnly_of_forall
  intro stmt mem
  exact execute_failsOnly (formed stmt mem) (forall_mem_atomsAll.mp runs stmt mem) budget

end Stmt

end LoxLang
