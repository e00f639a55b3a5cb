import LoxLang.Proofs.Execute.Safety
import LoxLang.Proofs.Scope.Chain
import LoxLang.Proofs.Tree.Relocation

/-!
# Two runs side by side

A program is run twice, on two states that are related in some way, and the runs are followed step
by step. What the relation has to satisfy is collected in `Simulation`: it must not matter to which
of two related chains of scopes a look-up, an assignment, a declaration or the entering and leaving
of a block is done. Then the two runs end the same way in related states, which is proved once for
all such relations.

A run enters and leaves blocks, and two chains that were related outside a block must be so again
behind it. The relation is therefore a family, indexed by the number of scopes that the run itself
has added.

The second run may be of the same program with its tokens on other lines. Its failures are then
those of the first run at the tokens moved.
-/

namespace LoxLang

section Names

/-- The names that occur in an expression. -/
def Expr.names : Expr → List Text
  | missing | literal _ => []
  | group inner => inner.names
  | unary _ operand => operand.names
  | binary left _ right | logical left _ right => left.names ++ right.names
  | name token => [token.lexeme]
  | assign target value => target.lexeme :: value.names

mutual

/-- The names that occur in a statement, those it declares included. -/
def Stmt.names : Stmt → List Text
  | missing => []
  | expression value | print value => value.names
  | declare name none => [name.lexeme]
  | declare name (some initial) => name.lexeme :: initial.names
  | block body => namesAll body
  | ifThen condition consequence => condition.names ++ consequence.names
  | ifElse condition consequence alternative =>
    condition.names ++ (consequence.names ++ alternative.names)
  | .while condition body => condition.names ++ body.names

/-- The names that occur in statements. -/
def Stmt.namesAll : List Stmt → List Text
  | [] => []
  | first :: others => first.names ++ namesAll others

end

theorem Stmt.names_subset_namesAll {stmt : Stmt} {stmts : List Stmt} (mem : stmt ∈ stmts) :
    stmt.names ⊆ namesAll stmts := by
  induction stmts with
  | nil => simp at mem
  | cons first others ih =>
      rw [namesAll]
      rcases List.mem_cons.mp mem with rfl | mem
      · exact List.subset_append_left _ _
      · exact List.Subset.trans (ih mem) (List.subset_append_right _ _)

end Names

/-- The failure with its token moved. -/
def Failure.relocate (change : Token → Token) : Failure → Failure
  | runtime error => runtime ⟨change error.token, error.fault⟩
  | internal cause => internal cause
  | outputClosed => outputClosed
  | budgetSpent => budgetSpent

/-- Two outcomes that correspond: the same value, or a failure and its counterpart, and states that
are related. -/
inductive Paired {σ τ α : Type} (related : σ → τ → Prop) (counterpart : Failure → Failure) :
    EStateM.Result Failure σ α → EStateM.Result Failure τ α → Prop
  | ok (value : α) {left : σ} {right : τ} (states : related left right) :
      Paired related counterpart (.ok value left) (.ok value right)
  | error (failure : Failure) {left : σ} {right : τ} (states : related left right) :
      Paired related counterpart (.error failure left) (.error (counterpart failure) right)

theorem Paired.imp {σ τ α : Type} {related weaker : σ → τ → Prop} {counterpart : Failure → Failure}
    {left : EStateM.Result Failure σ α} {right : EStateM.Result Failure τ α}
    (paired : Paired related counterpart left right)
    (weaken : ∀ left right, related left right → weaker left right) :
    Paired weaker counterpart left right := by
  cases paired with
  | ok value states => exact .ok value (weaken _ _ states)
  | error failure states => exact .error failure (weaken _ _ states)

/-- The two computations, started in related states, have corresponding outcomes. -/
def Matches {σ τ α : Type} (related : σ → τ → Prop) (counterpart : Failure → Failure)
    (left : EStateM Failure σ α) (right : EStateM Failure τ α) : Prop :=
  ∀ leftState rightState, related leftState rightState →
    Paired related counterpart (left leftState) (right rightState)

namespace Matches

variable {σ τ α β : Type} {related : σ → τ → Prop} {counterpart : Failure → Failure}

theorem pure (value : α) : Matches related counterpart (Pure.pure value) (Pure.pure value) :=
  fun _ _ states => .ok value states

theorem throw (failure : Failure) :
    Matches related counterpart (MonadExcept.throw failure : EStateM Failure σ α)
      (MonadExcept.throw (counterpart failure)) :=
  fun _ _ states => .error failure states

theorem bind {left : EStateM Failure σ α} {right : EStateM Failure τ α}
    {leftNext : α → EStateM Failure σ β} {rightNext : α → EStateM Failure τ β}
    (first : Matches related counterpart left right)
    (next : ∀ value, Matches related counterpart (leftNext value) (rightNext value)) :
    Matches related counterpart (left >>= leftNext) (right >>= rightNext) := by
  intro leftState rightState states
  have outcomes := first leftState rightState states
  simp only [Bind.bind, EStateM.bind]
  generalize left leftState = leftOutcome at outcomes
  generalize right rightState = rightOutcome at outcomes
  cases outcomes with
  | ok value states => exact next value _ _ states
  | error failure states => exact .error failure states

end Matches

theorem Sink.write?_congr {left right : Sink} (same : left = right) :
    Option.Rel Eq left.write? right.write? := by
  subst same
  cases left.write? with
  | none => exact .none
  | some sink => exact .some rfl

/-- A relation between the states of two runs that no step of a program with the given names can
tell apart. -/
structure Simulation (occurs : Text → Prop) where
  scopes : Nat → Scopes → Scopes → Prop
  sinks : Sink → Sink → Prop
  find?_eq : ∀ {level left right name}, scopes level left right → occurs name →
    left.find? name = right.find? name
  assign? : ∀ {level left right name} value, scopes level left right → occurs name →
    Option.Rel (scopes level) (left.assign? name value) (right.assign? name value)
  define : ∀ {level left right name} value, scopes level left right → occurs name →
    scopes level (left.define name value) (right.define name value)
  push : ∀ {level left right}, scopes level left right → scopes (level + 1) left.push right.push
  pop : ∀ {level left right}, scopes (level + 1) left right → scopes level left.pop right.pop
  write? : ∀ {left right}, sinks left right → Option.Rel sinks left.write? right.write?

variable {occurs : Text → Prop} {change : Token → Token}

namespace Evaluation

section Operators

variable {related : Scopes → Scopes → Prop}
  (kinds : ∀ token : Token, (change token).kind = token.kind)
include kinds

theorem unary_matches (lexemes : ∀ token : Token, (change token).lexeme = token.lexeme)
    (operator : Token) (operand : Value) :
    Matches related (Failure.relocate change) (unary operator operand)
      (unary (change operator) operand) := by
  unfold unary
  rw [kinds, lexemes]
  split
  · exact .pure _
  · split
    · exact .pure _
    · exact .throw (.runtime ⟨operator, _⟩)
  · exact .throw (.internal _)

theorem arithmetic_matches (lexemes : ∀ token : Token, (change token).lexeme = token.lexeme)
    (operator : Token) (left right : Number) :
    Matches related (Failure.relocate change) (arithmetic operator left right)
      (arithmetic (change operator) left right) := by
  unfold arithmetic
  rw [kinds, lexemes]
  split
  all_goals first | exact .pure _ | exact .throw (.internal _)

theorem binary_matches (lexemes : ∀ token : Token, (change token).lexeme = token.lexeme)
    (operator : Token) (left right : Value) :
    Matches related (Failure.relocate change) (binary operator left right)
      (binary (change operator) left right) := by
  unfold binary
  rw [kinds]
  split
  · exact .pure _
  · exact .pure _
  · split
    · exact .pure _
    · exact .pure _
    · exact .throw (.runtime ⟨operator, _⟩)
  · split
    · exact arithmetic_matches kinds lexemes operator _ _
    · exact .throw (.runtime ⟨operator, _⟩)

theorem decides_change (operator : Token) (left : Value) :
    decides (change operator) left = decides operator left := by
  rw [decides, decides, kinds]

end Operators

section Variables

variable (simulation : Simulation occurs) {level : Nat} {name : Token}
  (sameLexeme : (change name).lexeme = name.lexeme) (isName : occurs name.lexeme)
include sameLexeme isName

theorem read_matches :
    Matches (simulation.scopes level) (Failure.relocate change) (read name)
      (read (change name)) := by
  intro left right states
  have same := simulation.find?_eq states isName
  rw [read_apply, read_apply, sameLexeme, ← same]
  cases left.find? name.lexeme with
  | some value => exact .ok value states
  | none => exact .error (.runtime ⟨name, _⟩) states

theorem assign_matches (value : Value) :
    Matches (simulation.scopes level) (Failure.relocate change) (assign name value)
      (assign (change name) value) := by
  intro left right states
  have both := simulation.assign? value states isName
  rw [assign_apply, assign_apply, sameLexeme]
  generalize left.assign? name.lexeme value = leftAfter at both
  generalize right.assign? name.lexeme value = rightAfter at both
  cases both with
  | some states => exact .ok () states
  | none => exact .error (.runtime ⟨name, _⟩) states

end Variables

end Evaluation

/-- Machines that two runs have reached: their scopes and outputs are related, and the second has
printed what the first has, after some texts of its own. -/
structure Machine.Related (simulation : Simulation occurs) (earlier : Array Text) (level : Nat)
    (left right : Machine) : Prop where
  scopes : simulation.scopes level left.scopes right.scopes
  sink : simulation.sinks left.sink right.sink
  printed : right.printed = earlier ++ left.printed

namespace Execution

variable {simulation : Simulation occurs} {earlier : Array Text} {level : Nat}

theorem evaluating_matches {α : Type} {left right : Evaluation α}
    (both : Matches (simulation.scopes level) (Failure.relocate change) left right) :
    Matches (Machine.Related simulation earlier level) (Failure.relocate change) (evaluating left)
      (evaluating right) := by
  intro leftMachine rightMachine states
  have outcomes := both _ _ states.scopes
  simp only [evaluating]
  generalize left leftMachine.scopes = leftOutcome at outcomes
  generalize right rightMachine.scopes = rightOutcome at outcomes
  cases outcomes with
  | ok value scopes => exact .ok value ⟨scopes, states.sink, states.printed⟩
  | error failure scopes => exact .error failure ⟨scopes, states.sink, states.printed⟩

theorem define_matches {name : Text} (isName : occurs name) (value : Value) :
    Matches (Machine.Related simulation earlier level) (Failure.relocate change)
      (define name value) (define name value) := by
  intro left right states
  exact .ok () ⟨simulation.define value states.scopes isName, states.sink, states.printed⟩

theorem print_matches (text : Text) :
    Matches (Machine.Related simulation earlier level) (Failure.relocate change) (print text)
      (print text) := by
  intro left right states
  have both := simulation.write? states.sink
  rw [print_apply, print_apply]
  generalize left.sink.write? = leftSink at both
  generalize right.sink.write? = rightSink at both
  cases both with
  | some sink =>
      refine .ok () ⟨states.scopes, sink, ?_⟩
      change right.printed.push text = earlier ++ left.printed.push text
      rw [states.printed, Array.push_append]
  | none => exact .error .outputClosed states

theorem inBlock_matches {leftCount rightCount : Nat} {left right : Execution Unit}
    (both : Matches (Machine.Related simulation earlier (level + 1)) (Failure.relocate change) left
      right) :
    Matches (Machine.Related simulation earlier level) (Failure.relocate change)
      (inBlock leftCount left) (inBlock rightCount right) := by
  intro leftMachine rightMachine states
  have inside : Machine.Related simulation earlier (level + 1) (enter leftCount leftMachine)
      (enter rightCount rightMachine) :=
    ⟨simulation.push states.scopes, states.sink, states.printed⟩
  have outcomes := both _ _ inside
  simp only [inBlock]
  generalize left (enter leftCount leftMachine) = leftOutcome at outcomes
  generalize right (enter rightCount rightMachine) = rightOutcome at outcomes
  -- However the body ends, the scope that was pushed is popped.
  cases outcomes with
  | ok value after => exact .ok () ⟨simulation.pop after.scopes, after.sink, after.printed⟩
  | error failure after =>
      exact .error failure ⟨simulation.pop after.scopes, after.sink, after.printed⟩

theorem loop_matches {leftTest rightTest : Execution Value} {leftBody rightBody : Execution Unit}
    (tests : Matches (Machine.Related simulation earlier level) (Failure.relocate change) leftTest
      rightTest)
    (bodies : Matches (Machine.Related simulation earlier level) (Failure.relocate change) leftBody
      rightBody) (budget : Nat) :
    Matches (Machine.Related simulation earlier level) (Failure.relocate change)
      (loop leftTest leftBody budget) (loop rightTest rightBody budget) := by
  induction budget with
  | zero =>
      intro left right states
      exact .error .budgetSpent states
  | succ budget ih =>
      intro left right states
      have tested := tests left right states
      simp only [loop]
      generalize leftTest left = leftOutcome at tested
      generalize rightTest right = rightOutcome at tested
      cases tested with
      | error failure states => exact .error failure states
      | @ok value leftAfter rightAfter states =>
          dsimp only
          split
          · have ran := bodies _ _ states
            generalize leftBody leftAfter = leftOutcome at ran
            generalize rightBody rightAfter = rightOutcome at ran
            cases ran with
            | error failure states => exact .error failure states
            | ok _ states => exact ih _ _ states
          · exact .ok () states

end Execution

section Runs

variable (simulation : Simulation occurs)
  (kinds : ∀ token : Token, (change token).kind = token.kind)
  (lexemes : ∀ token : Token, (change token).lexeme = token.lexeme)
include kinds lexemes

theorem Expr.evaluate_matches (expr : Expr) (named : ∀ name ∈ expr.names, occurs name)
    (level : Nat) :
    Matches (simulation.scopes level) (Failure.relocate change) expr.evaluate
      (expr.relocate change).evaluate := by
  induction expr with
  | missing => exact .throw (.internal _)
  | literal payload =>
      simp only [relocate, evaluate]
      cases Value.ofLiteral? payload with
      | some value => exact .pure value
      | none => exact .throw (.internal _)
  | group inner ih => exact ih named
  | unary operator operand ih =>
      apply Matches.bind (ih named)
      intro value
      exact Evaluation.unary_matches kinds lexemes operator value
  | binary left operator right ihLeft ihRight =>
      rw [names, List.forall_mem_append] at named
      apply Matches.bind (ihLeft named.1)
      intro leftValue
      apply Matches.bind (ihRight named.2)
      intro rightValue
      exact Evaluation.binary_matches kinds lexemes operator leftValue rightValue
  | logical left operator right ihLeft ihRight =>
      rw [names, List.forall_mem_append] at named
      apply Matches.bind (ihLeft named.1)
      intro value
      rw [Evaluation.decides_change kinds]
      split
      · exact .pure value
      · exact ihRight named.2
  | name token =>
      exact Evaluation.read_matches simulation (lexemes token) (named _ (by simp [names]))
  | assign target value ih =>
      rw [names, List.forall_mem_cons] at named
      apply Matches.bind (ih named.2)
      intro result
      apply Matches.bind
        (Evaluation.assign_matches simulation (lexemes target) named.1 result)
      intro _
      exact .pure result

namespace Stmt

variable {simulation} {earlier : Array Text} {budget : Nat}

omit kinds lexemes in
theorem executeAll_matches_of_forall {stmts : List Stmt} {level : Nat}
    (each : ∀ stmt ∈ stmts, Matches (Machine.Related simulation earlier level)
      (Failure.relocate change) (stmt.execute budget) ((stmt.relocate change).execute budget)) :
    Matches (Machine.Related simulation earlier level) (Failure.relocate change)
      (executeAll budget stmts) (executeAll budget (relocateAll change stmts)) := by
  induction stmts with
  | nil =>
      rw [relocateAll, executeAll]
      exact .pure ()
  | cons first others ih =>
      rw [relocateAll, executeAll, executeAll]
      apply Matches.bind (each first (by simp))
      intro _
      exact ih fun stmt mem => each stmt (by simp [mem])

theorem execute_matches (stmt : Stmt) (named : ∀ name ∈ stmt.names, occurs name) (level : Nat) :
    Matches (Machine.Related simulation earlier level) (Failure.relocate change)
      (stmt.execute budget) ((stmt.relocate change).execute budget) := by
  have evaluates : ∀ (expr : Expr) (level : Nat), (∀ name ∈ expr.names, occurs name) →
      Matches (Machine.Related simulation earlier level) (Failure.relocate change)
        (Execution.evaluating expr.evaluate)
        (Execution.evaluating (expr.relocate change).evaluate) :=
    fun expr level named =>
      Execution.evaluating_matches (expr.evaluate_matches simulation kinds lexemes named level)
  induction stmt generalizing level with
  | missing =>
      rw [relocate, execute]
      exact .throw (.internal _)
  | expression value =>
      rw [relocate, execute, execute]
      apply Matches.bind (evaluates value level named)
      intro _
      exact .pure ()
  | print value =>
      rw [relocate, execute, execute]
      apply Matches.bind (evaluates value level named)
      intro result
      exact Execution.print_matches result.display
  | declare name initial =>
      cases initial with
      | none =>
          rw [relocate, Option.map_none, execute, execute, lexemes]
          exact Execution.define_matches (named _ (by simp [names])) .nil
      | some initial =>
          rw [names, List.forall_mem_cons] at named
          rw [relocate, Option.map_some, execute, execute, lexemes]
          apply Matches.bind (evaluates initial level named.2)
          intro result
          exact Execution.define_matches named.1 result
  | block body ih =>
      rw [relocate, execute, execute]
      apply Execution.inBlock_matches
      apply executeAll_matches_of_forall
      intro stmt mem
      exact ih stmt mem (fun name nameMem => named name (names_subset_namesAll mem nameMem)) _
  | ifThen condition consequence ih =>
      rw [names, List.forall_mem_append] at named
      rw [relocate, execute, execute]
      apply Matches.bind (evaluates condition level named.1)
      intro value
      split
      · exact ih named.2 level
      · exact .pure ()
  | ifElse condition consequence alternative ih ihAlternative =>
      rw [names, List.forall_mem_append, List.forall_mem_append] at named
      rw [relocate, execute, execute]
      apply Matches.bind (evaluates condition level named.1)
      intro value
      split
      · exact ih named.2.1 level
      · exact ihAlternative named.2.2 level
  | loop condition body ih =>
      rw [names, List.forall_mem_append] at named
      rw [relocate, execute, execute]
      exact Execution.loop_matches (evaluates condition level named.1) (ih named.2 level) budget

/-- Statements, and the same statements with their tokens moved, do the same on related machines. -/
theorem executeAll_matches (stmts : List Stmt) (named : ∀ name ∈ namesAll stmts, occurs name)
    (level : Nat) :
    Matches (Machine.Related simulation earlier level) (Failure.relocate change)
      (executeAll budget stmts) (executeAll budget (relocateAll change stmts)) := by
  apply executeAll_matches_of_forall
  intro stmt mem
  exact execute_matches kinds lexemes stmt
    (fun name nameMem => named name (names_subset_namesAll mem nameMem)) level

end Stmt

end Runs

section Unmoved

theorem Failure.relocate_id : Failure.relocate id = id := by
  funext failure
  cases failure <;> rfl

theorem Expr.relocate_id (expr : Expr) : expr.relocate id = expr := by
  induction expr <;> simp_all [relocate]

theorem Stmt.relocate_id (stmt : Stmt) : stmt.relocate id = stmt := by
  induction stmt with
  | block body ih =>
      rw [relocate, relocateAll_eq_map, List.map_congr_left ih, List.map_id']
  | declare name initial => cases initial <;> simp [relocate, Expr.relocate_id]
  | _ => simp_all [relocate, Expr.relocate_id]

/-- Statements do the same on related machines. -/
theorem Stmt.executeAll_matches_self {simulation : Simulation occurs} {earlier : Array Text}
    (budget : Nat) (stmts : List Stmt) (named : ∀ name ∈ namesAll stmts, occurs name)
    (level : Nat) :
    Matches (Machine.Related simulation earlier level) id (executeAll budget stmts)
      (executeAll budget stmts) := by
  have both : Matches (Machine.Related simulation earlier level) (Failure.relocate id)
      (executeAll budget stmts) (executeAll budget (relocateAll id stmts)) :=
    executeAll_matches (fun _ => rfl) (fun _ => rfl) stmts named level
  have unmoved : relocateAll id stmts = stmts := by
    rw [relocateAll_eq_map, List.map_congr_left fun stmt _ => relocate_id stmt, List.map_id']
  rwa [unmoved, Failure.relocate_id] at both

end Unmoved

end LoxLang
