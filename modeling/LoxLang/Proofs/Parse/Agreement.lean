import LoxLang.Parse.Grammar
import Mathlib.Data.List.Forall2

/-!
# Agreement of readers

Two ways of keeping the state of a parse are compared by their primitives. `Primitives.Agree` says
what has to be shown of these: a relation of readers is kept when readers are put together and holds
of each primitive. Then it holds of all readers of the grammar, by one induction on the budget.

The relation may depend on the depths that the two readers are told, and the two parses may have
different limits and budgets.
-/

namespace LoxLang.Parse.Primitives

variable {m n : Type → Type} [Monad m] [Monad n] {α β : Type}

/-- A relation of readers that stand at a depth with readers that stand at another. -/
abbrev Relation (m n : Type → Type) : Type 1 := (α : Type) → Nat → Nat → m α → n α → Prop

/-- Two kinds of primitives agree up to a relation. `Affords` relates the budgets.

The end of the input is never asked for by its kind, and no reader reports a fault of nesting by
itself. What is attempted is always a declaration. -/
structure Agree (base : Primitives m) (other : Primitives n) (limit otherLimit : Int)
    (Affords : Nat → Nat → Prop) (Like : Relation m n) : Prop where
  pure {α : Type} {depth level : Nat} (value : α) :
    Like _ depth level (Pure.pure value) (Pure.pure value)
  bind {α β : Type} {depth level : Nat} {first : m β} {otherFirst : n β} {next : β → m α}
    {otherNext : β → n α} (firstLike : Like _ depth level first otherFirst)
    (nextLike : ∀ value, Like _ depth level (next value) (otherNext value)) :
    Like _ depth level (first >>= next) (otherFirst >>= otherNext)
  spend {fuel more : Nat} (affords : Affords (fuel + 1) more) :
    ∃ less, more = less + 1 ∧ Affords fuel less
  exhausted {α : Type} {depth level more : Nat} {reader : n α} (affords : Affords 0 more)
    (both : more = 0 → reader = other.exhausted) : Like _ depth level base.exhausted reader
  accept {depth level : Nat} {kinds : List Token.Kind} (noEnd : .eof ∉ kinds) :
    Like _ depth level (base.accept kinds) (other.accept kinds)
  expect {depth level : Nat} {kind : Token.Kind} {fault : Fault} (noEnd : kind ≠ .eof)
    (noNesting : fault ≠ .nestingTooDeep) :
    Like _ depth level (base.expect kind fault) (other.expect kind fault)
  report {depth level : Nat} {fault : Fault} (token : Token)
    (noNesting : fault ≠ .nestingTooDeep) :
    Like _ depth level (base.report token fault) (other.report token fault)
  misread {α : Type} {depth level : Nat} {fault : Fault} (noNesting : fault ≠ .nestingTooDeep) :
    Like _ depth level (base.misread fault : m α) (other.misread fault)
  nested {α : Type} {depth level : Nat} {reader : m α} {otherReader : n α}
    (like : Like _ (depth + 1) (level + 1) reader otherReader) :
    Like _ depth level (base.nested limit (depth + 1) reader)
      (other.nested otherLimit (level + 1) otherReader)
  attempt {depth level fuel more : Nat} {stops : List Token.Kind} (noEnd : .eof ∉ stops)
    (like : Like _ depth level (base.declaration limit fuel depth)
      (other.declaration otherLimit more level)) :
    Like _ depth level (base.attempt stops (base.declaration limit fuel depth))
      (other.attempt stops (other.declaration otherLimit more level))

/-- Two choices are for the same kinds and go on with readers that are related. -/
def ChoiceLike (Like : Relation m n) (depth level : Nat)
    (choice : List Token.Kind × (Token → m α)) (otherChoice : List Token.Kind × (Token → n α)) :
    Prop :=
  choice.1 = otherChoice.1 ∧ .eof ∉ choice.1 ∧
    ∀ token, Like _ depth level (choice.2 token) (otherChoice.2 token)

namespace Agree

variable {base : Primitives m} {other : Primitives n} {limit otherLimit : Int}
  {Affords : Nat → Nat → Prop} {Like : Relation m n} {depth level : Nat}
  (agree : base.Agree other limit otherLimit Affords Like)

include agree

section Parts

theorem select {fallback : m α} {otherFallback : n α}
    {choices : List (List Token.Kind × (Token → m α))}
    {otherChoices : List (List Token.Kind × (Token → n α))}
    (fallbackLike : Like _ depth level fallback otherFallback)
    (choicesLike : List.Forall₂ (ChoiceLike Like depth level) choices otherChoices) :
    Like _ depth level (base.select fallback choices)
      (other.select otherFallback otherChoices) := by
  induction choicesLike with
  | nil =>
      rw [Primitives.select, Primitives.select]
      exact fallbackLike
  | @cons choice otherChoice _ _ choiceLike _ ih =>
      rcases choice with ⟨kinds, next⟩
      rcases otherChoice with ⟨_, otherNext⟩
      rcases choiceLike with ⟨rfl, noEnd, nextLike⟩
      rw [Primitives.select, Primitives.select]
      apply agree.bind (agree.accept noEnd)
      intro found
      cases found with
      | some token => exact nextLike token
      | none => exact ih

theorem chain {tier : Tier} {operand : m Expr} {otherOperand : n Expr}
    (operandLike : Like _ depth level operand otherOperand) :
    ∀ fuel more : Nat, Affords fuel more → ∀ left : Expr,
      Like _ depth level (base.chain tier operand fuel left)
        (other.chain tier otherOperand more left)
  | 0, more, affords, left => by
      rw [Primitives.chain]
      apply agree.exhausted affords
      rintro rfl
      rw [Primitives.chain]
  | fuel + 1, more, affords, left => by
      rcases agree.spend affords with ⟨less, rfl, still⟩
      rw [Primitives.chain, Primitives.chain]
      apply agree.bind (agree.accept (by cases tier <;> simp [Tier.operators]))
      intro found
      cases found with
      | none => exact agree.pure left
      | some operator =>
          apply agree.bind operandLike
          intro right
          exact chain operandLike fuel less still _

theorem tiered {fuel more : Nat} (affords : Affords fuel more) {operand : m Expr}
    {otherOperand : n Expr} (operandLike : Like _ depth level operand otherOperand)
    (levels : List Tier) :
    Like _ depth level (base.tiered fuel operand levels)
      (other.tiered more otherOperand levels) := by
  induction levels with
  | nil => exact operandLike
  | cons tier tighter ih =>
      rw [Primitives.tiered, Primitives.tiered]
      apply agree.bind ih
      intro left
      exact agree.chain ih fuel more affords left

theorem assigned {value : m Expr} {otherValue : n Expr}
    (valueLike : Like _ depth level value otherValue) (target : Expr) (equals : Token) :
    Like _ depth level (base.assigned value target equals)
      (other.assigned otherValue target equals) := by
  rw [Primitives.assigned, Primitives.assigned]
  apply agree.bind valueLike
  intro value
  cases target with
  | name token => exact agree.pure _
  | _ =>
      apply agree.bind (agree.report equals (by simp))
      intro _
      exact agree.pure _

/-- Something is read and then a token that must follow it. -/
theorem closed {first : m β} {otherFirst : n β} {next : β → m α} {otherNext : β → n α}
    {kind : Token.Kind} {fault : Fault} (firstLike : Like _ depth level first otherFirst)
    (noEnd : kind ≠ .eof) (noNesting : fault ≠ .nestingTooDeep)
    (nextLike : ∀ value, Like _ depth level (next value) (otherNext value)) :
    Like _ depth level (do let value ← first; let _ ← base.expect kind fault; next value)
      (do let value ← otherFirst; let _ ← other.expect kind fault; otherNext value) := by
  apply agree.bind firstLike
  intro value
  apply agree.bind (agree.expect noEnd noNesting)
  intro _
  exact nextLike value

end Parts

section Expressions

mutual

theorem expression : ∀ fuel more : Nat, Affords fuel more → ∀ depth level : Nat,
    Like _ depth level (base.expression limit fuel depth) (other.expression otherLimit more level)
  | 0, more, affords, depth, level => by
      rw [Primitives.expression]
      apply agree.exhausted affords
      rintro rfl
      rw [Primitives.expression]
  | fuel + 1, more, affords, depth, level => by
      rcases agree.spend affords with ⟨less, rfl, still⟩
      rw [Primitives.expression, Primitives.expression]
      exact agree.nested (assignment fuel less still _ _)

theorem assignment : ∀ fuel more : Nat, Affords fuel more → ∀ depth level : Nat,
    Like _ depth level (base.assignment limit fuel depth) (other.assignment otherLimit more level)
  | 0, more, affords, depth, level => by
      rw [Primitives.assignment]
      apply agree.exhausted affords
      rintro rfl
      rw [Primitives.assignment]
  | fuel + 1, more, affords, depth, level => by
      rcases agree.spend affords with ⟨less, rfl, still⟩
      rw [Primitives.assignment, Primitives.assignment]
      apply agree.bind (agree.tiered still (unary fuel less still depth level) Tier.all)
      intro target
      apply agree.bind (agree.accept (by simp))
      intro found
      cases found with
      | none => exact agree.pure target
      | some equals =>
          apply agree.nested
          exact agree.assigned (assignment fuel less still _ _) target equals

theorem unary : ∀ fuel more : Nat, Affords fuel more → ∀ depth level : Nat,
    Like _ depth level (base.unary limit fuel depth) (other.unary otherLimit more level)
  | 0, more, affords, depth, level => by
      rw [Primitives.unary]
      apply agree.exhausted affords
      rintro rfl
      rw [Primitives.unary]
  | fuel + 1, more, affords, depth, level => by
      rcases agree.spend affords with ⟨less, rfl, still⟩
      rw [Primitives.unary, Primitives.unary]
      apply agree.bind (agree.accept (by simp))
      intro found
      cases found with
      | none => exact primary fuel less still depth level
      | some operator =>
          apply agree.nested
          apply agree.bind (unary fuel less still _ _)
          intro operand
          exact agree.pure _

theorem primary : ∀ fuel more : Nat, Affords fuel more → ∀ depth level : Nat,
    Like _ depth level (base.primary limit fuel depth) (other.primary otherLimit more level)
  | 0, more, affords, depth, level => by
      rw [Primitives.primary]
      apply agree.exhausted affords
      rintro rfl
      rw [Primitives.primary]
  | fuel + 1, more, affords, depth, level => by
      rcases agree.spend affords with ⟨less, rfl, still⟩
      have groupLike : Like _ depth level (base.group (base.expression limit fuel depth))
          (other.group (other.expression otherLimit less level)) :=
        agree.closed (expression fuel less still depth level) (by simp) (by simp)
          fun _ => agree.pure _
      rw [Primitives.primary, Primitives.primary]
      apply agree.select (agree.misread (by simp))
      simp [ChoiceLike, agree.pure, groupLike]

end

end Expressions

section Statements

theorem variableDeclaration {expression : m Expr} {otherExpression : n Expr}
    (expressionLike : Like _ depth level expression otherExpression) :
    Like _ depth level (base.variableDeclaration expression)
      (other.variableDeclaration otherExpression) := by
  rw [Primitives.variableDeclaration, Primitives.variableDeclaration]
  apply agree.bind (agree.expect (by simp) (by simp))
  intro name
  apply agree.bind (agree.accept (by simp))
  intro found
  cases found with
  | none =>
      apply agree.bind (agree.expect (by simp) (by simp))
      intro _
      exact agree.pure _
  | some _ => exact agree.closed expressionLike (by simp) (by simp) fun _ => agree.pure _

theorem ifStatement {expression : m Expr} {otherExpression : n Expr} {statement : m Stmt}
    {otherStatement : n Stmt} (expressionLike : Like _ depth level expression otherExpression)
    (statementLike : Like _ depth level statement otherStatement) :
    Like _ depth level (base.ifStatement expression statement)
      (other.ifStatement otherExpression otherStatement) := by
  rw [Primitives.ifStatement, Primitives.ifStatement]
  apply agree.bind (agree.expect (by simp) (by simp))
  intro _
  apply agree.closed expressionLike (by simp) (by simp)
  intro condition
  apply agree.bind statementLike
  intro consequence
  apply agree.bind (agree.accept (by simp))
  intro found
  cases found with
  | none => exact agree.pure _
  | some _ =>
      apply agree.bind statementLike
      intro alternative
      exact agree.pure _

theorem whileStatement {expression : m Expr} {otherExpression : n Expr} {statement : m Stmt}
    {otherStatement : n Stmt} (expressionLike : Like _ depth level expression otherExpression)
    (statementLike : Like _ depth level statement otherStatement) :
    Like _ depth level (base.whileStatement expression statement)
      (other.whileStatement otherExpression otherStatement) := by
  rw [Primitives.whileStatement, Primitives.whileStatement]
  apply agree.bind (agree.expect (by simp) (by simp))
  intro _
  apply agree.closed expressionLike (by simp) (by simp)
  intro condition
  apply agree.bind statementLike
  intro body
  exact agree.pure _

mutual

theorem statement : ∀ fuel more : Nat, Affords fuel more → ∀ depth level : Nat,
    Like _ depth level (base.statement limit fuel depth) (other.statement otherLimit more level)
  | 0, more, affords, depth, level => by
      rw [Primitives.statement]
      apply agree.exhausted affords
      rintro rfl
      rw [Primitives.statement]
  | fuel + 1, more, affords, depth, level => by
      rcases agree.spend affords with ⟨less, rfl, still⟩
      have inner := agree.expression fuel less still (depth + 1) (level + 1)
      have body := statement fuel less still (depth + 1) (level + 1)
      have ifLike := agree.ifStatement inner body
      have whileLike := agree.whileStatement inner body
      have printLike : Like _ (depth + 1) (level + 1) (base.printStatement _)
          (other.printStatement _) :=
        agree.closed inner (by simp) (by simp) fun _ => agree.pure _
      have blockLike : Like _ (depth + 1) (level + 1) (base.blockStatement _)
          (other.blockStatement _) :=
        agree.closed (block fuel less still (depth + 1) (level + 1) []) (by simp) (by simp)
          fun _ => agree.pure _
      rw [Primitives.statement, Primitives.statement]
      apply agree.nested
      apply agree.select
      · exact agree.closed inner (by simp) (by simp) fun _ => agree.pure _
      · simp [ChoiceLike, ifLike, whileLike, printLike, blockLike]

theorem declaration : ∀ fuel more : Nat, Affords fuel more → ∀ depth level : Nat,
    Like _ depth level (base.declaration limit fuel depth) (other.declaration otherLimit more level)
  | 0, more, affords, depth, level => by
      rw [Primitives.declaration]
      apply agree.exhausted affords
      rintro rfl
      rw [Primitives.declaration]
  | fuel + 1, more, affords, depth, level => by
      rcases agree.spend affords with ⟨less, rfl, still⟩
      rw [Primitives.declaration, Primitives.declaration]
      apply agree.bind (agree.accept (by simp))
      intro found
      cases found with
      | none => exact statement fuel less still depth level
      | some _ => exact agree.variableDeclaration (agree.expression fuel less still depth level)

theorem block : ∀ fuel more : Nat, Affords fuel more → ∀ (depth level : Nat) (done : List Stmt),
    Like _ depth level (base.block limit fuel depth done) (other.block otherLimit more level done)
  | 0, more, affords, depth, level, done => by
      rw [Primitives.block]
      apply agree.exhausted affords
      rintro rfl
      rw [Primitives.block]
  | fuel + 1, more, affords, depth, level, done => by
      rcases agree.spend affords with ⟨less, rfl, still⟩
      rw [Primitives.block, Primitives.block]
      apply agree.bind (agree.attempt (by simp) (declaration fuel less still depth level))
      intro attempted
      cases attempted with
      | none => exact agree.pure _
      | some stmt? => exact block fuel less still depth level _

end

theorem program : ∀ fuel more : Nat, Affords fuel more → ∀ done : List Stmt,
    Like _ 0 0 (base.program limit fuel done) (other.program otherLimit more done)
  | 0, more, affords, done => by
      rw [Primitives.program]
      apply agree.exhausted affords
      rintro rfl
      rw [Primitives.program]
  | fuel + 1, more, affords, done => by
      rcases agree.spend affords with ⟨less, rfl, still⟩
      rw [Primitives.program, Primitives.program]
      apply agree.bind (agree.attempt (by simp) (agree.declaration fuel less still 0 0))
      intro attempted
      cases attempted with
      | none => exact agree.pure _
      | some stmt? => exact program fuel less still _

end Statements

end Agree

end LoxLang.Parse.Primitives
