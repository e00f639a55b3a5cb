import LoxLang.Proofs.Execute.Footprint
import LoxLang.Proofs.Execute.Simulation

/-!
# Local names can be chosen freely

A block that begins with a declaration does the same when the declared name is replaced by a new one
in everything that follows the declaration. The initial value still sees the old name as it is bound
outside, and it does not matter what the new name means there.

The two runs are followed side by side as in `Simulation`. What the first run finds under a name the
second finds under the renamed one. This holds scope by scope for the scopes that the runs have
added, and the scopes below are the same for both. A name that is looked up there must not be the
old one: it never is, because the scope of the block binds it.
-/

namespace LoxLang

section Syntax

/-- The name, or the new one in the place of the old one. -/
def Text.renamed (old new name : Text) : Text := if name = old then new else name

/-- The token of a name with the name replaced. -/
def Token.rename (old new : Text) (token : Token) : Token :=
  { token with lexeme := Text.renamed old new token.lexeme }

/-- The expression with a name replaced where it is read and where it is assigned to. -/
def Expr.rename (old new : Text) : Expr → Expr
  | missing => missing
  | literal payload => literal payload
  | group inner => group (inner.rename old new)
  | unary operator operand => unary operator (operand.rename old new)
  | binary left operator right => binary (left.rename old new) operator (right.rename old new)
  | logical left operator right => logical (left.rename old new) operator (right.rename old new)
  | name token => name (token.rename old new)
  | assign target value => assign (target.rename old new) (value.rename old new)

mutual

/-- The statement with a name replaced wherever it occurs, in declarations too. -/
def Stmt.rename (old new : Text) : Stmt → Stmt
  | missing => missing
  | expression value => expression (value.rename old new)
  | print value => print (value.rename old new)
  | declare name initial => declare (name.rename old new) (initial.map (Expr.rename old new))
  | block body => block (renameAll old new body)
  | ifThen condition consequence =>
    ifThen (condition.rename old new) (consequence.rename old new)
  | ifElse condition consequence alternative =>
    ifElse (condition.rename old new) (consequence.rename old new) (alternative.rename old new)
  | .while condition body => .while (condition.rename old new) (body.rename old new)

/-- The statements with a name replaced wherever it occurs. -/
def Stmt.renameAll (old new : Text) : List Stmt → List Stmt
  | [] => []
  | first :: others => first.rename old new :: renameAll old new others

end

theorem Stmt.length_renameAll (old new : Text) (stmts : List Stmt) :
    (renameAll old new stmts).length = stmts.length := by
  induction stmts with
  | nil => rfl
  | cons first others ih => simp [renameAll, ih]

end Syntax

variable {old new name other : Text}

@[simp]
theorem Text.renamed_self (old new : Text) : Text.renamed old new old = new := by
  simp [Text.renamed]

theorem Text.renamed_of_ne (differs : name ≠ old) : Text.renamed old new name = name := by
  simp [Text.renamed, differs]

theorem Text.renamed_inj (notNew : name ≠ new) (otherNotNew : other ≠ new) :
    Text.renamed old new name = Text.renamed old new other ↔ name = other := by
  grind [Text.renamed]

/-- What the first scope binds a name to, the second binds the renamed one to. The new name is left
out: the first program does not have it. -/
def Bindings.Renamed (old new : Text) (left right : Bindings Value) : Prop :=
  ∀ name, name ≠ new → left.find? name = right.find? (Text.renamed old new name)

namespace Bindings.Renamed

variable {left right : Bindings Value}

theorem empty : Renamed old new .empty .empty := fun _ _ => rfl

theorem set (renamed : Renamed old new left right) (notNew : name ≠ new) (value : Value) :
    Renamed old new (left.set name value) (right.set (Text.renamed old new name) value) := by
  intro other otherNotNew
  simp only [find?_set, Text.renamed_inj otherNotNew notNew, renamed other otherNotNew]

theorem binds_eq (renamed : Renamed old new left right) (notNew : name ≠ new) :
    left.binds name = right.binds (Text.renamed old new name) := by
  simp [binds, renamed name notNew]

end Bindings.Renamed

/-- Chains in which a name has been replaced: the scope of the block, which binds it, inside the
same chain, and as many scopes inside that as the level says. -/
inductive Scopes.Renamed (old new : Text) : Nat → Scopes → Scopes → Prop
  | block {outer : Scopes} {left right : Bindings Value} (bound : left.binds old = true)
      (inner : left.Renamed old new right) :
      Renamed old new 0 (outer.within left) (outer.within right)
  | within {level : Nat} {left right : Scopes} {leftInner rightInner : Bindings Value}
      (inner : leftInner.Renamed old new rightInner) (outer : Renamed old new level left right) :
      Renamed old new (level + 1) (left.within leftInner) (right.within rightInner)

namespace Scopes.Renamed

variable {level : Nat} {left right : Scopes}

theorem find?_eq (renamed : Renamed old new level left right) (notNew : name ≠ new) :
    left.find? name = right.find? (Text.renamed old new name) := by
  induction renamed with
  | @block outer leftInner rightInner bound inner =>
      rw [find?_within, find?_within, ← inner name notNew]
      by_cases same : name = old
      · subst same
        rcases Option.isSome_iff_exists.mp bound with ⟨value, found⟩
        simp [found]
      · rw [Text.renamed_of_ne same]
  | within inner outer ih => rw [find?_within, find?_within, inner name notNew, ih]

/-- The old name is always bound, so no look-up of it fails. -/
theorem find?_ne_none (renamed : Renamed old new level left right) : left.find? old ≠ none := by
  induction renamed with
  | block bound inner =>
      rcases Option.isSome_iff_exists.mp bound with ⟨value, found⟩
      simp [find?_within, found]
  | @within level left right leftInner rightInner inner outer ih =>
      rw [find?_within]
      cases leftInner.find? old <;> simp [ih]

theorem define (renamed : Renamed old new level left right) (notNew : name ≠ new)
    (value : Value) :
    Renamed old new level (left.define name value)
      (right.define (Text.renamed old new name) value) := by
  cases renamed with
  | block bound inner =>
      refine block ?_ (inner.set notNew value)
      rw [Bindings.binds_set]
      exact Bool.or_eq_true_iff.mpr (.inr bound)
  | within inner outer => exact within (inner.set notNew value) outer

theorem assign? (renamed : Renamed old new level left right) (notNew : name ≠ new)
    (value : Value) :
    Option.Rel (Renamed old new level) (left.assign? name value)
      (right.assign? (Text.renamed old new name) value) := by
  induction renamed with
  | @block outer leftInner rightInner bound inner =>
      rw [assign?_within, assign?_within, ← inner.binds_eq notNew]
      split
      · refine .some (block ?_ (inner.set notNew value))
        simp [Bindings.binds_set, bound]
      · rename_i unbound
        -- The name is not the old one, and so it means the same in the chain outside.
        have notOld : name ≠ old := by
          rintro rfl
          exact unbound bound
        rw [Text.renamed_of_ne notOld]
        cases outer.assign? name value with
        | none => exact .none
        | some after => exact .some (block bound inner)
  | @within level left right leftInner rightInner inner outer ih =>
      rw [assign?_within, assign?_within, ← inner.binds_eq notNew]
      split
      · exact .some (within (inner.set notNew value) outer)
      · generalize left.assign? name value = leftAfter at ih
        generalize right.assign? (Text.renamed old new name) value = rightAfter at ih
        cases ih with
        | none => exact .none
        | some outer => exact .some (within inner outer)

theorem push (renamed : Renamed old new level left right) :
    Renamed old new (level + 1) left.push right.push :=
  within .empty renamed

theorem pop (renamed : Renamed old new (level + 1) left right) :
    Renamed old new level left.pop right.pop := by
  cases renamed with
  | within inner outer => exact outer

/-- Behind the block nothing of the renaming is left. -/
theorem pop_eq (renamed : Renamed old new 0 left right) : left.pop = right.pop := by
  cases renamed with
  | block bound inner => rfl

end Scopes.Renamed

/-- The simulation between a program and the program with a name replaced. Its laws are about names
that stay as they are; those about the replaced one are stated apart. -/
def Simulation.renaming (old new : Text) : Simulation (fun name => name ≠ old ∧ name ≠ new) where
  scopes := Scopes.Renamed old new
  sinks := Eq
  find?_eq renamed kept := by
    rw [renamed.find?_eq kept.2, Text.renamed_of_ne kept.1]
  assign? value renamed kept := by
    simpa only [Text.renamed_of_ne kept.1] using renamed.assign? kept.2 value
  define value renamed kept := by
    simpa only [Text.renamed_of_ne kept.1] using renamed.define kept.2 value
  push := Scopes.Renamed.push
  pop := Scopes.Renamed.pop
  write? := Sink.write?_congr

namespace Evaluation

variable {level : Nat} {token : Token}

theorem read_renames (notNew : token.lexeme ≠ new) :
    Matches (Scopes.Renamed old new level) (Failure.relocate id) (read token)
      (read (token.rename old new)) := by
  intro left right states
  have same := states.find?_eq notNew
  rw [read_apply, read_apply]
  simp only [Token.rename, ← same]
  cases found : left.find? token.lexeme with
  | some value => exact .ok value states
  | none =>
      have notOld : token.lexeme ≠ old := by
        intro isOld
        exact states.find?_ne_none (isOld ▸ found)
      rw [Text.renamed_of_ne notOld]
      exact .error (.runtime ⟨token, _⟩) states

theorem assign_renames (notNew : token.lexeme ≠ new) (value : Value) :
    Matches (Scopes.Renamed old new level) (Failure.relocate id) (assign token value)
      (assign (token.rename old new) value) := by
  intro left right states
  have both := states.assign? notNew value
  rw [assign_apply, assign_apply]
  simp only [Token.rename]
  cases assigned : left.assign? token.lexeme value with
  | some after =>
      rw [assigned] at both
      generalize right.assign? (Text.renamed old new token.lexeme) value = rightAfter at both
      cases both with
      | some states => exact .ok () states
  | none =>
      have notOld : token.lexeme ≠ old := by
        intro isOld
        exact states.find?_ne_none (isOld ▸ Scopes.assign?_eq_none_iff.mp assigned)
      rw [assigned, Text.renamed_of_ne notOld] at both
      rw [Text.renamed_of_ne notOld]
      generalize right.assign? token.lexeme value = rightAfter at both
      cases both with
      | none => exact .error (.runtime ⟨token, _⟩) states

end Evaluation

theorem Expr.evaluate_renames (expr : Expr) (fresh : new ∉ expr.names) (level : Nat) :
    Matches (Scopes.Renamed old new level) (Failure.relocate id) expr.evaluate
      (expr.rename old new).evaluate := by
  induction expr with
  | missing => exact .throw (.internal _)
  | literal payload =>
      simp only [rename, evaluate]
      cases Value.ofLiteral? payload with
      | some value => exact .pure value
      | none => exact .throw (.internal _)
  | group inner ih => exact ih fresh
  | unary operator operand ih =>
      apply Matches.bind (ih fresh)
      intro value
      exact Evaluation.unary_matches (fun _ => rfl) (fun _ => rfl) operator value
  | binary left operator right ihLeft ihRight =>
      rw [names, List.mem_append, not_or] at fresh
      apply Matches.bind (ihLeft fresh.1)
      intro leftValue
      apply Matches.bind (ihRight fresh.2)
      intro rightValue
      exact Evaluation.binary_matches (fun _ => rfl) (fun _ => rfl) operator leftValue rightValue
  | logical left operator right ihLeft ihRight =>
      rw [names, List.mem_append, not_or] at fresh
      apply Matches.bind (ihLeft fresh.1)
      intro value
      split
      · exact .pure value
      · exact ihRight fresh.2
  | name token =>
      apply Evaluation.read_renames
      intro isNew
      exact fresh (by simp [names, isNew])
  | assign target value ih =>
      rw [names, List.mem_cons, not_or] at fresh
      apply Matches.bind (ih fresh.2)
      intro result
      apply Matches.bind (Evaluation.assign_renames (Ne.symm fresh.1) result)
      intro _
      exact .pure result

/-- The machines of the two runs, which have printed the same. -/
abbrev Machine.Renamed (old new : Text) (level : Nat) (left right : Machine) : Prop :=
  Machine.Related (.renaming old new) #[] level left right

theorem Execution.define_renames {level : Nat} (notNew : name ≠ new) (value : Value) :
    Matches (Machine.Renamed old new level) (Failure.relocate id) (define name value)
      (define (Text.renamed old new name) value) := by
  intro left right states
  exact .ok () ⟨states.scopes.define notNew value, states.sink, states.printed⟩

namespace Stmt

variable {budget : Nat}

theorem executeAll_renames_of_forall {stmts : List Stmt} {level : Nat}
    (each : ∀ stmt ∈ stmts, Matches (Machine.Renamed old new level) (Failure.relocate id)
      (stmt.execute budget) ((stmt.rename old new).execute budget)) :
    Matches (Machine.Renamed old new level) (Failure.relocate id) (executeAll budget stmts)
      (executeAll budget (renameAll old new stmts)) := by
  induction stmts with
  | nil =>
      rw [renameAll, executeAll]
      exact .pure ()
  | cons first others ih =>
      rw [renameAll, executeAll, executeAll]
      apply Matches.bind (each first (by simp))
      intro _
      exact ih fun stmt mem => each stmt (by simp [mem])

theorem execute_renames (stmt : Stmt) (fresh : new ∉ stmt.names) (level : Nat) :
    Matches (Machine.Renamed old new level) (Failure.relocate id) (stmt.execute budget)
      ((stmt.rename old new).execute budget) := by
  have evaluates : ∀ (expr : Expr) (level : Nat), new ∉ expr.names →
      Matches (Machine.Renamed old new level) (Failure.relocate id)
        (Execution.evaluating expr.evaluate)
        (Execution.evaluating (expr.rename old new).evaluate) :=
    fun expr level fresh => Execution.evaluating_matches (expr.evaluate_renames fresh level)
  induction stmt generalizing level with
  | missing =>
      rw [rename, execute]
      exact .throw (.internal _)
  | expression value =>
      rw [rename, execute, execute]
      apply Matches.bind (evaluates value level fresh)
      intro _
      exact .pure ()
  | print value =>
      rw [rename, execute, execute]
      apply Matches.bind (evaluates value level fresh)
      intro result
      exact Execution.print_matches result.display
  | declare name initial =>
      cases initial with
      | none =>
          rw [names, List.mem_singleton] at fresh
          rw [rename, Option.map_none, execute, execute]
          exact Execution.define_renames (Ne.symm fresh) .nil
      | some initial =>
          rw [names, List.mem_cons, not_or] at fresh
          rw [rename, Option.map_some, execute, execute]
          apply Matches.bind (evaluates initial level fresh.2)
          intro result
          exact Execution.define_renames (Ne.symm fresh.1) result
  | block body ih =>
      rw [rename, execute, execute]
      apply Execution.inBlock_matches
      apply executeAll_renames_of_forall
      intro stmt mem
      exact ih stmt mem (fun occurs => fresh (names_subset_namesAll mem occurs)) _
  | ifThen condition consequence ih =>
      rw [names, List.mem_append, not_or] at fresh
      rw [rename, execute, execute]
      apply Matches.bind (evaluates condition level fresh.1)
      intro value
      split
      · exact ih fresh.2 level
      · exact .pure ()
  | ifElse condition consequence alternative ih ihAlternative =>
      rw [names, List.mem_append, List.mem_append, not_or, not_or] at fresh
      rw [rename, execute, execute]
      apply Matches.bind (evaluates condition level fresh.1)
      intro value
      split
      · exact ih fresh.2.1 level
      · exact ihAlternative fresh.2.2 level
  | loop condition body ih =>
      rw [names, List.mem_append, not_or] at fresh
      rw [rename, execute, execute]
      exact Execution.loop_matches (evaluates condition level fresh.1) (ih fresh.2 level) budget

theorem executeAll_renames (budget : Nat) (stmts : List Stmt) (fresh : new ∉ namesAll stmts)
    (level : Nat) :
    Matches (Machine.Renamed old new level) (Failure.relocate id) (executeAll budget stmts)
      (executeAll budget (renameAll old new stmts)) := by
  apply executeAll_renames_of_forall
  intro stmt mem
  exact execute_renames stmt (fun occurs => fresh (names_subset_namesAll mem occurs)) level

end Stmt

/-- Machines that differ in nothing but the record of the blocks that were entered. -/
structure Machine.Coincide (left right : Machine) : Prop where
  scopes : left.scopes = right.scopes
  sink : left.sink = right.sink
  printed : left.printed = right.printed

theorem Machine.Coincide.refl (machine : Machine) : machine.Coincide machine := ⟨rfl, rfl, rfl⟩

theorem Machine.Renamed.coincide {left right : Machine}
    (renamed : Machine.Renamed old new 0 left right) :
    (Execution.leave left).Coincide (Execution.leave right) := by
  refine ⟨renamed.scopes.pop_eq, renamed.sink, ?_⟩
  rw [Execution.leave, Execution.leave, renamed.printed, Array.empty_append]

theorem Expr.depth_evaluate (expr : Expr) (scopes : Scopes) :
    (final (expr.evaluate scopes)).depth = scopes.depth := by
  have rewritten : Scopes.Rewritten (· ∈ expr.targets) scopes (final (expr.evaluate scopes)) :=
    expr.evaluate_rewrites (fun _ isTarget => isTarget) scopes
  have sameLength := rewritten.length_eq
  simpa [Scopes.toList, Scopes.depth] using sameLength.symm

namespace Execution

theorem inBlock_coincides {machine : Machine} {leftCount rightCount : Nat}
    {left right : Execution Unit}
    (inside : Paired (fun left right => (leave left).Coincide (leave right)) id
      (left (enter leftCount machine)) (right (enter rightCount machine))) :
    Paired Machine.Coincide id (inBlock leftCount left machine)
      (inBlock rightCount right machine) := by
  simp only [inBlock]
  generalize left (enter leftCount machine) = leftOutcome at inside
  generalize right (enter rightCount machine) = rightOutcome at inside
  cases inside with
  | ok value states => exact .ok () states
  | error failure states => exact .error failure states

/-- A declaration of either name, where neither is in use yet, makes the chains related. -/
theorem define_renamed (old new : Text) {machine : Machine} (inside : machine.scopes.depth ≠ 0)
    (value : Value) :
    ∃ left right, define old value machine = .ok () left ∧
      define new value machine = .ok () right ∧ Machine.Renamed old new 0 left right := by
  rcases Nat.exists_eq_succ_of_ne_zero inside with ⟨depth, deep⟩
  rcases Scopes.eq_within_of_depth_eq deep with ⟨outer, inner, chain, _⟩
  refine ⟨_, _, rfl, rfl, ?_, rfl, (Array.empty_append).symm⟩
  simp only [chain]
  refine .block (by simp [Scopes.within, Bindings.binds_set]) fun name notNew => ?_
  simp only [Scopes.within, Bindings.find?_set]
  by_cases isOld : name = old
  · simp [isOld]
  · simp [isOld, notNew, Text.renamed_of_ne isOld]

end Execution

namespace Stmt

variable {budget : Nat} {stmts : List Stmt} {machine : Machine}

theorem defined_coincides (fresh : new ∉ namesAll stmts) (inside : machine.scopes.depth ≠ 0)
    (value : Value) :
    Paired (fun left right => (Execution.leave left).Coincide (Execution.leave right)) id
      ((do Execution.define old value; executeAll budget stmts : Execution Unit) machine)
      ((do Execution.define new value; executeAll budget (renameAll old new stmts) :
        Execution Unit) machine) := by
  rcases Execution.define_renamed old new inside value with
    ⟨left, right, leftDefined, rightDefined, renamed⟩
  have ended := executeAll_renames budget stmts fresh 0 left right renamed
  rw [Failure.relocate_id] at ended
  simp only [Bind.bind, EStateM.bind, leftDefined, rightDefined]
  exact ended.imp fun _ _ states => states.coincide

/-- From the declaration on, the body of the block and the renamed body do the same. -/
theorem declared_coincides (old new : Token) (initial : Option Expr)
    (fresh : new.lexeme ∉ namesAll stmts) (inside : machine.scopes.depth ≠ 0) :
    Paired (fun left right => (Execution.leave left).Coincide (Execution.leave right)) id
      (executeAll budget (declare old initial :: stmts) machine)
      (executeAll budget (declare new initial :: renameAll old.lexeme new.lexeme stmts)
        machine) := by
  rw [executeAll, executeAll]
  cases initial with
  | none =>
      rw [execute, execute]
      exact defined_coincides fresh inside .nil
  | some initial =>
      rw [execute, execute]
      have sameDepth := initial.depth_evaluate machine.scopes
      simp only [bind_assoc]
      simp only [Bind.bind, EStateM.bind, Execution.evaluating]
      -- The initial value is evaluated in the same chain by both runs.
      cases evaluated : initial.evaluate machine.scopes with
      | error failure scopes => exact .error failure (.refl _)
      | ok value scopes =>
          rw [evaluated] at sameDepth
          have stillInside : scopes.depth ≠ 0 := by
            rwa [← sameDepth] at inside
          exact @defined_coincides _ _ budget stmts { machine with scopes } fresh stillInside value

/-- A block that begins with a declaration and the same block with the declared name replaced, from
the declaration on, by one that does not occur there: from every machine they print the same, end
the same way, and leave the same scopes. -/
theorem block_rename_local (budget : Nat) (old new : Token) (initial : Option Expr)
    (rest : List Stmt) (fresh : new.lexeme ∉ namesAll rest) (machine : Machine) :
    Paired Machine.Coincide id
      ((block (declare old initial :: rest)).execute budget machine)
      ((block (declare new initial :: renameAll old.lexeme new.lexeme rest)).execute budget
        machine) := by
  rw [execute, execute, List.length_cons, List.length_cons, length_renameAll]
  apply Execution.inBlock_coincides
  apply declared_coincides old new initial fresh
  simp [Execution.enter, Scopes.push, Scopes.depth, Scopes.toList]

/-- Both names are bound outside, the initial value reads the old one there, and the name is
declared once more in an inner block. -/
theorem block_rename_local_shadowed :
    let x := Token.ofName "x"
    let y := Token.ofName "y"
    let rest (name : Token) : List Stmt :=
      [.block [.declare name (some (.name name)), .expression (.assign name (.literal .nil))],
       .print (.name name), .expression (.assign (.ofName "z") (.name name))]
    let bound := (Bindings.empty.set "x" (Value.string "a")).set "y" (.string "b")
    let machine : Machine := ⟨.global bound, .unlimited, #[], #[]⟩
    y.lexeme ∉ namesAll (rest x) ∧ renameAll x.lexeme y.lexeme (rest x) = rest y ∧
      Paired Machine.Coincide id
        ((block (.declare x (some (.name x)) :: rest x)).execute 0 machine)
        ((block (.declare y (some (.name x)) :: rest y)).execute 0 machine) := by
  intro x y rest bound machine
  have fresh : y.lexeme ∉ namesAll (rest x) := by decide
  have replaced : renameAll x.lexeme y.lexeme (rest x) = rest y := rfl
  exact ⟨fresh, replaced,
    replaced ▸ block_rename_local 0 x y (some (.name x)) (rest x) fresh machine⟩

end Stmt

end LoxLang
