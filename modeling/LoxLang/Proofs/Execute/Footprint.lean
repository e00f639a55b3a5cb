import LoxLang.Proofs.Execute.Safety
import LoxLang.Proofs.Scope.Chain
import LoxLang.Proofs.Scope.Names
import Mathlib.Data.List.Forall2

/-!
# What a run writes

However a statement ends, it leaves the scopes around the current one with the names they had, and
binds in the current one only names that it declares outside of its blocks. A value that has changed
is that of a name which is assigned to somewhere in the statement, or of a declared name in the
current scope. Expressions bind nothing, and without assignments they change nothing.

`Leads` says of a computation how the state it ends in, well or in failure, is related to the state
it started in. For a reflexive and transitive relation it is closed under the ways of putting
computations together, so only declarations, assignments and blocks need an argument of their own.
`Scopes.Covers` is what these have to satisfy.
-/

namespace LoxLang

section Syntax

/-- The names that an expression assigns to. -/
def Expr.targets : Expr → List Text
  | missing | literal _ | name _ => []
  | group inner => inner.targets
  | unary _ operand => operand.targets
  | binary left _ right | logical left _ right => left.targets ++ right.targets
  | assign target value => target.lexeme :: value.targets

mutual

/-- The names that are assigned to anywhere in a statement. -/
def Stmt.targets : Stmt → List Text
  | missing | declare _ none => []
  | expression value | print value | declare _ (some value) => value.targets
  | block body => targetsAll body
  | ifThen condition consequence => condition.targets ++ consequence.targets
  | ifElse condition consequence alternative =>
    condition.targets ++ (consequence.targets ++ alternative.targets)
  | .while condition body => condition.targets ++ body.targets

/-- The names that are assigned to anywhere in statements. -/
def Stmt.targetsAll : List Stmt → List Text
  | [] => []
  | first :: others => first.targets ++ targetsAll others

end

/-- The names that a statement declares outside of its blocks. -/
def Stmt.declared : Stmt → List Text
  | missing | expression _ | print _ | block _ => []
  | declare name _ => [name.lexeme]
  | ifThen _ consequence => consequence.declared
  | ifElse _ consequence alternative => consequence.declared ++ alternative.declared
  | .while _ body => body.declared

theorem Stmt.targets_subset_targetsAll {stmt : Stmt} {stmts : List Stmt} (mem : stmt ∈ stmts) :
    stmt.targets ⊆ targetsAll stmts := by
  induction stmts with
  | nil => simp at mem
  | cons first others ih =>
      rw [targetsAll]
      rcases List.mem_cons.mp mem with rfl | mem
      · exact List.subset_append_left _ _
      · exact List.Subset.trans (ih mem) (List.subset_append_right _ _)

end Syntax

/-- The same names are bound, and where a value differs the name is one that may be written. -/
structure Bindings.Rewritten (written : Text → Prop) (before after : Bindings Value) : Prop where
  names : after.names = before.names
  values : ∀ name, after.find? name ≠ before.find? name → written name

namespace Bindings.Rewritten

variable {written more : Text → Prop} {before middle after : Bindings Value}

theorem refl (bindings : Bindings Value) : Rewritten written bindings bindings :=
  ⟨rfl, fun _ differs => absurd rfl differs⟩

theorem trans (first : Rewritten written before middle) (second : Rewritten written middle after) :
    Rewritten written before after := by
  refine ⟨second.names.trans first.names, fun name differs => ?_⟩
  by_cases same : middle.find? name = before.find? name
  · exact second.values name (same ▸ differs)
  · exact first.values name same

theorem set {name : Text} (bound : before.binds name = true) (mayWrite : written name)
    (value : Value) : Rewritten written before (before.set name value) := by
  refine ⟨names_set bound value, fun other differs => ?_⟩
  rw [find?_set] at differs
  by_cases same : other = name
  · exact same ▸ mayWrite
  · simp [same] at differs

end Bindings.Rewritten

/-- Every scope of the chain is rewritten. -/
def Scopes.Rewritten (written : Text → Prop) (before after : Scopes) : Prop :=
  List.Forall₂ (Bindings.Rewritten written) before.toList after.toList

/-- What a statement does to a chain: the scopes around the innermost one are rewritten, and the
innermost one is rewritten and bound further names that may be declared. -/
structure Scopes.Footprint (assigned declared : Text → Prop) (before after : Scopes) : Prop where
  enclosing : List.Forall₂ (Bindings.Rewritten assigned) before.enclosing after.enclosing
  kept : before.innermost.names ⊆ after.innermost.names
  gained : ∀ name ∈ after.innermost.names, name ∈ before.innermost.names ∨ declared name
  values : ∀ name, after.innermost.find? name ≠ before.innermost.find? name →
    assigned name ∨ declared name

namespace Scopes

variable {written assigned declared : Text → Prop} {before middle after : Scopes}

theorem forall₂_rewritten_refl (scopes : List (Bindings Value)) :
    List.Forall₂ (Bindings.Rewritten written) scopes scopes :=
  List.forall₂_same.mpr fun _ _ => .refl _

theorem forall₂_rewritten_trans {before middle after : List (Bindings Value)}
    (first : List.Forall₂ (Bindings.Rewritten written) before middle)
    (second : List.Forall₂ (Bindings.Rewritten written) middle after) :
    List.Forall₂ (Bindings.Rewritten written) before after := by
  induction first generalizing after with
  | nil => exact second
  | cons head tail ih =>
      cases second with
      | cons head' tail' => exact .cons (head.trans head') (ih tail')

instance : Std.Refl (Rewritten written) :=
  ⟨fun scopes => forall₂_rewritten_refl scopes.toList⟩

instance : IsTrans Scopes (Rewritten written) :=
  ⟨fun _ _ _ => forall₂_rewritten_trans⟩

theorem Rewritten.assign? {name : Text} {value : Value} (mayWrite : written name)
    (assigned : before.assign? name value = some after) : Rewritten written before after := by
  induction before using chain_induction generalizing after with
  | base bindings =>
      rw [assign?_global] at assigned
      split at assigned
      · rename_i bound
        cases assigned
        exact .cons (.set bound mayWrite value) .nil
      · cases assigned
  | step outer inner ih =>
      rw [assign?_within] at assigned
      split at assigned
      · rename_i bound
        cases assigned
        exact .cons (.set bound mayWrite value) (forall₂_rewritten_refl outer.toList)
      · rcases Option.map_eq_some_iff.mp assigned with ⟨outerAfter, outerAssigned, rfl⟩
        exact .cons (.refl inner) (ih outerAssigned)

theorem Rewritten.footprint (rewritten : Rewritten assigned before after) :
    Footprint assigned declared before after := by
  rcases List.forall₂_cons.mp rewritten with ⟨inner, outer⟩
  exact ⟨outer, by rw [inner.names]; exact List.Subset.refl _,
    fun name mem => .inl (inner.names ▸ mem), fun name differs => .inl (inner.values name differs)⟩

namespace Footprint

instance : Std.Refl (Footprint assigned declared) :=
  ⟨fun scopes => (Std.Refl.refl (r := Rewritten assigned) scopes).footprint⟩

theorem trans (first : Footprint assigned declared before middle)
    (second : Footprint assigned declared middle after) :
    Footprint assigned declared before after where
  enclosing := forall₂_rewritten_trans first.enclosing second.enclosing
  kept := List.Subset.trans first.kept second.kept
  gained name mem := (second.gained name mem).elim (first.gained name) .inr
  values name differs := by
    by_cases same : middle.innermost.find? name = before.innermost.find? name
    · exact second.values name (same ▸ differs)
    · exact first.values name same

instance : IsTrans Scopes (Footprint assigned declared) := ⟨fun _ _ _ => trans⟩

theorem define {name : Text} (mayDeclare : declared name) (scopes : Scopes) (value : Value) :
    Footprint assigned declared scopes (scopes.define name value) where
  enclosing := forall₂_rewritten_refl scopes.enclosing
  kept other mem := by
    rw [Bindings.mem_names_iff] at mem ⊢
    simp [Scopes.define, Bindings.binds_set, mem]
  gained other mem := by
    rw [Bindings.mem_names_iff, Scopes.define, Bindings.binds_set, Bool.or_eq_true,
      decide_eq_true_iff] at mem
    rcases mem with rfl | mem
    · exact .inr mayDeclare
    · exact .inl (Bindings.mem_names_iff.mpr mem)
  values other differs := by
    rw [Scopes.define, Bindings.find?_set] at differs
    by_cases same : other = name
    · exact .inr (same ▸ mayDeclare)
    · simp [same] at differs

/-- What the body of a block does to the chain with a scope more, seen when that scope is gone. -/
theorem pop (inside : Footprint assigned declared before.push after) :
    Rewritten assigned before after.pop := by
  have outer := inside.enclosing
  rcases after with ⟨innermost, enclosing⟩
  cases enclosing with
  | nil => cases outer
  | cons first others => exact outer

end Footprint

end Scopes

/-- The state that a computation leaves, whether or not it fails. -/
def final {σ α : Type} : EStateM.Result Failure σ α → σ
  | .ok _ state | .error _ state => state

/-- The state that the computation leaves is related to the one it starts in. -/
def Leads {σ α : Type} (relation : σ → σ → Prop) (computation : EStateM Failure σ α) : Prop :=
  ∀ start, relation start (final (computation start))

namespace Leads

variable {σ α β : Type} {relation : σ → σ → Prop}

theorem pure [Std.Refl relation] (value : α) :
    Leads relation (Pure.pure value : EStateM Failure σ α) :=
  fun start => Std.Refl.refl start

theorem throw [Std.Refl relation] (failure : Failure) :
    Leads relation (MonadExcept.throw failure : EStateM Failure σ α) :=
  fun start => Std.Refl.refl start

theorem bind [IsTrans σ relation] {first : EStateM Failure σ α} {next : α → EStateM Failure σ β}
    (firstLeads : Leads relation first) (nextLeads : ∀ value, Leads relation (next value)) :
    Leads relation (first >>= next) := by
  intro start
  have reached := firstLeads start
  simp only [Bind.bind, EStateM.bind]
  cases ran : first start with
  | ok value middle =>
      rw [ran] at reached
      exact IsTrans.trans _ _ _ reached (nextLeads value middle)
  | error failure middle =>
      rw [ran] at reached
      exact reached

end Leads

namespace Evaluation

variable {relation : Scopes → Scopes → Prop} [Std.Refl relation]

theorem read_leads (name : Token) : Leads relation (read name) := by
  intro scopes
  rw [read_apply]
  cases scopes.find? name.lexeme with
  | some value => exact Leads.pure value scopes
  | none => exact Leads.throw _ scopes

theorem assign_leads {name : Token}
    (assigns : ∀ value before after,
      Scopes.assign? before name.lexeme value = some after → relation before after)
    (value : Value) : Leads relation (assign name value) := by
  intro scopes
  rw [assign_apply]
  cases assigned : scopes.assign? name.lexeme value with
  | some after => exact assigns value scopes after assigned
  | none => exact Leads.throw _ scopes

theorem unary_leads (operator : Token) (operand : Value) :
    Leads relation (unary operator operand) := by
  unfold unary
  split
  · exact .pure _
  · split
    · exact .pure _
    · exact .throw _
  · exact .throw _

theorem arithmetic_leads (operator : Token) (left right : Number) :
    Leads relation (arithmetic operator left right) := by
  unfold arithmetic
  split
  all_goals first | exact .pure _ | exact .throw _

theorem binary_leads (operator : Token) (left right : Value) :
    Leads relation (binary operator left right) := by
  unfold binary
  split
  · exact .pure _
  · exact .pure _
  · split
    · exact .pure _
    · exact .pure _
    · exact .throw _
  · split
    · exact arithmetic_leads operator _ _
    · exact .throw _

end Evaluation

/-- Evaluating changes a chain only by assignments to the targets of the expression. -/
theorem Expr.evaluate_leads {relation : Scopes → Scopes → Prop} [Std.Refl relation]
    [IsTrans Scopes relation] {expr : Expr}
    (assigns : ∀ name ∈ expr.targets, ∀ value before after,
      Scopes.assign? before name value = some after → relation before after) :
    Leads relation expr.evaluate := by
  induction expr with
  | missing => exact .throw _
  | literal value =>
      rw [evaluate]
      cases Value.ofLiteral? value with
      | some value => exact .pure value
      | none => exact .throw _
  | group inner ih => exact ih assigns
  | unary operator operand ih =>
      exact .bind (ih assigns) fun value => Evaluation.unary_leads operator value
  | binary left operator right ihLeft ihRight =>
      rw [targets, List.forall_mem_append] at assigns
      exact .bind (ihLeft assigns.1) fun leftValue =>
        .bind (ihRight assigns.2) fun rightValue =>
          Evaluation.binary_leads operator leftValue rightValue
  | logical left operator right ihLeft ihRight =>
      rw [targets, List.forall_mem_append] at assigns
      refine .bind (ihLeft assigns.1) fun value => ?_
      split
      · exact .pure value
      · exact ihRight assigns.2
  | name token => exact Evaluation.read_leads token
  | assign target value ih =>
      rw [targets, List.forall_mem_cons] at assigns
      exact .bind (ih assigns.2) fun result =>
        .bind (Evaluation.assign_leads assigns.1 result) fun _ => .pure result

theorem Expr.evaluate_rewrites {written : Text → Prop} {expr : Expr}
    (mayWrite : ∀ name ∈ expr.targets, written name) :
    Leads (Scopes.Rewritten written) expr.evaluate :=
  evaluate_leads fun name mem _ _ _ assigned => .assign? (mayWrite name mem) assigned

theorem Expr.evaluate_keeps {expr : Expr} (assignless : expr.targets = []) :
    Leads Eq expr.evaluate :=
  evaluate_leads fun name mem => by simp [assignless] at mem

/-- The chains of two machines are related. -/
def Machine.OnScopes (relation : Scopes → Scopes → Prop) (before after : Machine) : Prop :=
  relation before.scopes after.scopes

instance {relation : Scopes → Scopes → Prop} [Std.Refl relation] :
    Std.Refl (Machine.OnScopes relation) :=
  ⟨fun machine => Std.Refl.refl machine.scopes⟩

instance {relation : Scopes → Scopes → Prop} [IsTrans Scopes relation] :
    IsTrans Machine (Machine.OnScopes relation) :=
  ⟨fun _ _ _ => IsTrans.trans (r := relation) _ _ _⟩

namespace Execution

variable {relation : Scopes → Scopes → Prop} {condition : Execution Value} {body : Execution Unit}

theorem evaluating_leads {expr : Expr} (leads : Leads relation expr.evaluate) :
    Leads (Machine.OnScopes relation) (evaluating expr.evaluate) := by
  intro machine
  have reached := leads machine.scopes
  rw [evaluating]
  cases evaluated : expr.evaluate machine.scopes with
  | ok value scopes | error failure scopes =>
      rw [evaluated] at reached
      exact reached

theorem print_leads [Std.Refl relation] (text : Text) :
    Leads (Machine.OnScopes relation) (print text) := by
  intro machine
  rw [print_apply]
  cases machine.sink.write? with
  | some sink => exact Std.Refl.refl (r := relation) machine.scopes
  | none => exact Leads.throw _ machine

theorem final_inBlock (statements : Nat) (body : Execution Unit) (machine : Machine) :
    (final (inBlock statements body machine)).scopes =
      (final (body (enter statements machine))).scopes.pop := by
  rw [inBlock]
  cases body (enter statements machine) <;> rfl

theorem loop_leads [Std.Refl relation] [IsTrans Scopes relation]
    (conditionLeads : Leads (Machine.OnScopes relation) condition)
    (bodyLeads : Leads (Machine.OnScopes relation) body) (budget : Nat) :
    Leads (Machine.OnScopes relation) (loop condition body budget) := by
  induction budget with
  | zero => exact fun machine => Std.Refl.refl (r := Machine.OnScopes relation) machine
  | succ budget ih =>
      intro machine
      have tested := conditionLeads machine
      rw [loop]
      cases outcome : condition machine with
      | error failure after =>
          rw [outcome] at tested
          exact tested
      | ok value after =>
          rw [outcome] at tested
          dsimp only
          split
          · have ran := bodyLeads after
            cases result : body after with
            | error failure last =>
                rw [result] at ran
                exact IsTrans.trans _ _ _ tested ran
            | ok done last =>
                rw [result] at ran
                exact IsTrans.trans _ _ _ (IsTrans.trans _ _ _ tested ran) (ih last)
          · exact tested

end Execution

/-- A relation of chains that holds of assignments to the given names, of declarations of the names
that it depends on, and of blocks. Inside a block anything may be declared: the scope that receives
it is gone afterwards. -/
structure Scopes.Covers (assigned : Text → Prop)
    (relation : (Text → Prop) → Scopes → Scopes → Prop) : Prop where
  assign? {declared : Text → Prop} {name : Text} (mayAssign : assigned name) (value : Value)
    (before after : Scopes) :
    before.assign? name value = some after → relation declared before after
  define {declared : Text → Prop} {name : Text} (mayDeclare : declared name) (scopes : Scopes)
    (value : Value) : relation declared scopes (scopes.define name value)
  pop {declared : Text → Prop} {before after : Scopes} :
    relation (fun _ => True) before.push after → relation declared before after.pop

theorem Scopes.Covers.footprint (assigned : Text → Prop) :
    Scopes.Covers assigned (Scopes.Footprint assigned) where
  assign? mayAssign _ _ _ changed := (Rewritten.assign? mayAssign changed).footprint
  define := .define
  pop inside := inside.pop.footprint

namespace Stmt

theorem executeAll_leads_of_forall {relation : Scopes → Scopes → Prop} [Std.Refl relation]
    [IsTrans Scopes relation] {budget : Nat} {stmts : List Stmt}
    (leads : ∀ stmt ∈ stmts, Leads (Machine.OnScopes relation) (stmt.execute budget)) :
    Leads (Machine.OnScopes relation) (executeAll budget stmts) := by
  induction stmts with
  | nil =>
      rw [executeAll]
      exact .pure ()
  | cons first others ih =>
      rw [executeAll]
      exact .bind (leads first (by simp)) fun _ => ih fun stmt mem => leads stmt (by simp [mem])

variable {assigned declared : Text → Prop} {relation : (Text → Prop) → Scopes → Scopes → Prop}
  [∀ declared, Std.Refl (relation declared)] [∀ declared, IsTrans Scopes (relation declared)]

theorem evaluating_leads_of_covers (covers : Scopes.Covers assigned relation) {expr : Expr}
    (mayAssign : ∀ name ∈ expr.targets, assigned name) :
    Leads (Machine.OnScopes (relation declared)) (Execution.evaluating expr.evaluate) :=
  Execution.evaluating_leads <| Expr.evaluate_leads fun name mem =>
    covers.assign? (mayAssign name mem)

/-- However a statement ends, the chain that it leaves is related to the one it starts with. -/
theorem execute_leads (covers : Scopes.Covers assigned relation) (budget : Nat) {stmt : Stmt}
    (mayAssign : ∀ name ∈ stmt.targets, assigned name)
    (mayDeclare : ∀ name ∈ stmt.declared, declared name) :
    Leads (Machine.OnScopes (relation declared)) (stmt.execute budget) := by
  induction stmt generalizing declared with
  | missing =>
      rw [execute]
      exact .throw _
  | expression value =>
      rw [targets] at mayAssign
      rw [execute]
      exact .bind (evaluating_leads_of_covers covers mayAssign) fun _ => .pure ()
  | print value =>
      rw [targets] at mayAssign
      rw [execute]
      exact .bind (evaluating_leads_of_covers covers mayAssign) fun value =>
        Execution.print_leads value.display
  | declare name initial =>
      have isDeclared : declared name.lexeme := mayDeclare _ (by simp [Stmt.declared])
      have defines (value : Value) :
          Leads (Machine.OnScopes (relation declared)) (Execution.define name.lexeme value) :=
        fun machine => covers.define isDeclared machine.scopes value
      cases initial with
      | none =>
          rw [execute]
          exact defines .nil
      | some initial =>
          rw [targets] at mayAssign
          rw [execute]
          exact .bind (evaluating_leads_of_covers covers mayAssign) defines
  | block body ih =>
      rw [targets] at mayAssign
      have inside : Leads (Machine.OnScopes (relation fun _ => True)) (executeAll budget body) :=
        executeAll_leads_of_forall fun stmt mem => ih stmt mem
          (fun name isTarget => mayAssign name (targets_subset_targetsAll mem isTarget))
          fun _ _ => trivial
      intro machine
      rw [execute, Machine.OnScopes, Execution.final_inBlock]
      exact covers.pop (inside (Execution.enter body.length machine))
  | ifThen condition consequence ih =>
      rw [targets, List.forall_mem_append] at mayAssign
      rw [execute]
      refine .bind (evaluating_leads_of_covers covers mayAssign.1) fun value => ?_
      split
      · exact ih mayAssign.2 mayDeclare
      · exact .pure ()
  | ifElse condition consequence alternative ih ihAlternative =>
      rw [targets, List.forall_mem_append, List.forall_mem_append] at mayAssign
      rw [Stmt.declared, List.forall_mem_append] at mayDeclare
      rw [execute]
      refine .bind (evaluating_leads_of_covers covers mayAssign.1) fun value => ?_
      split
      · exact ih mayAssign.2.1 mayDeclare.1
      · exact ihAlternative mayAssign.2.2 mayDeclare.2
  | loop condition body ih =>
      rw [targets, List.forall_mem_append] at mayAssign
      rw [execute]
      exact Execution.loop_leads (evaluating_leads_of_covers covers mayAssign.1)
        (ih mayAssign.2 mayDeclare) budget

theorem executeAll_leads (covers : Scopes.Covers assigned relation) (budget : Nat)
    {stmts : List Stmt} (mayAssign : ∀ name ∈ targetsAll stmts, assigned name)
    (mayDeclare : ∀ name, declared name) :
    Leads (Machine.OnScopes (relation declared)) (executeAll budget stmts) :=
  executeAll_leads_of_forall fun _ mem => execute_leads covers budget
    (fun name isTarget => mayAssign name (targets_subset_targetsAll mem isTarget))
    fun name _ => mayDeclare name

theorem footprint_of_execute (budget : Nat) (stmt : Stmt) (machine : Machine) :
    Scopes.Footprint (· ∈ stmt.targets) (· ∈ stmt.declared) machine.scopes
      (final (stmt.execute budget machine)).scopes :=
  execute_leads (.footprint _) budget (fun _ mem => mem) (fun _ mem => mem) machine

theorem block_rewrites (budget : Nat) (body : List Stmt) (machine : Machine) :
    Scopes.Rewritten (· ∈ targetsAll body) machine.scopes
      (final ((block body).execute budget machine)).scopes := by
  have inside : Leads (Machine.OnScopes (Scopes.Footprint (· ∈ targetsAll body) fun _ => True))
      (executeAll budget body) :=
    executeAll_leads (.footprint _) budget (fun _ mem => mem) fun _ => trivial
  rw [execute, Execution.final_inBlock]
  exact Scopes.Footprint.pop (inside (Execution.enter body.length machine))

end Stmt

/-- However a statement ends, its footprint is that of its own assignments and declarations. A block
binds nothing in the chain it stands in, nor does an expression, and an expression without
assignments leaves the chain as it is. -/
theorem scope_discipline (budget : Nat) (stmt : Stmt) (body : List Stmt) (expr : Expr)
    (machine : Machine) :
    Scopes.Footprint (· ∈ stmt.targets) (· ∈ stmt.declared) machine.scopes
        (final (stmt.execute budget machine)).scopes ∧
      Scopes.Rewritten (· ∈ Stmt.targetsAll body) machine.scopes
        (final ((Stmt.block body).execute budget machine)).scopes ∧
      Scopes.Rewritten (· ∈ expr.targets) machine.scopes (final (expr.evaluate machine.scopes)) ∧
      (expr.targets = [] → final (expr.evaluate machine.scopes) = machine.scopes) := by
  refine ⟨Stmt.footprint_of_execute budget stmt machine, Stmt.block_rewrites budget body machine,
    ?_, fun assignless => ?_⟩
  · exact Expr.evaluate_rewrites (fun _ mem => mem) machine.scopes
  · exact (Expr.evaluate_keeps assignless machine.scopes).symm

/-- A block that declares a name, assigns to it and to a name outside, and fails: outside, the
declared name is as it was before. -/
theorem scope_discipline_failing_block :
    let x := Token.ofName "x"
    let y := Token.ofName "y"
    let body : List Stmt := [.declare x none,
      .expression (.assign x (.literal (.bool true))),
      .expression (.assign y (.name x)), .print (.name (.ofName "z"))]
    let expr : Expr := .group (.name y)
    let bound := (Bindings.empty.set "x" (Value.string "a")).set "y" .nil
    let machine : Machine := ⟨⟨.empty, [bound]⟩, .unlimited, #[], #[]⟩
    expr.targets = [] ∧ final (expr.evaluate machine.scopes) = machine.scopes ∧
      (final ((Stmt.block body).execute 0 machine)).scopes =
        ⟨.empty, [bound.set "y" (.bool true)]⟩ ∧
      Scopes.Rewritten (· ∈ Stmt.targetsAll body) machine.scopes
        (final ((Stmt.block body).execute 0 machine)).scopes := by
  intro x y body expr bound machine
  have laws := scope_discipline 0 (.block body) body expr machine
  exact ⟨rfl, laws.2.2.2 rfl, by decide +kernel, laws.2.1⟩

end LoxLang
