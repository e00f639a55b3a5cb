import Mathlib.Data.List.TakeWhile
import LoxLang.Proofs.Parse.Conduct

/-!
# Soundness of the parser

The conduct of every reader of expressions, statements and declarations. A reader that finishes
without a complaint returns a well-formed tree whose atoms are those of the tokens it took, and
whose nesting the limit permits.

One token costs at most four steps of the budget: the way from an expression down to the operand
behind a parenthesis. The constants by which the budgets of the readers differ are their places on
that way.
-/

namespace LoxLang

namespace Parse

/-- The tokens of a well-formed expression of at least the given tier that stands at a depth. -/
structure ReadsExpr (limit : Int) (depth lowest : Nat) (expr : Expr) (taken : List Token) :
    Prop where
  atoms : taken.map Token.atom = expr.atoms
  formed : expr.WellFormed
  tier : lowest ≤ expr.tier
  within : Within limit (depth + expr.nesting)

theorem ReadsExpr.entered {limit : Int} {depth lowest : Nat} {expr : Expr} {taken : List Token}
    (read : ReadsExpr limit (depth + 1) lowest expr taken) :
    Within limit (depth + (1 + expr.nesting)) := by
  rw [← Nat.add_assoc]
  exact read.within

/-- The tokens of a well-formed statement or declaration that stands at a depth. -/
structure ReadsStmt (limit : Int) (depth : Nat) (stmt : Stmt) (taken : List Token) : Prop where
  atoms : taken.map Token.atom = stmt.atoms
  formed : stmt.WellFormed
  within : Within limit (depth + stmt.nesting)

/-- The levels from a rank on, in order and without a gap. -/
def Tier.From : Nat → List Tier → Prop
  | rank, [] => rank = 7
  | rank, tier :: tighter => tier.rank = rank ∧ From (rank + 1) tighter

theorem Tier.from_all : Tier.From 1 Tier.all := by
  simp [Tier.all, Tier.From, Tier.rank]

section Operators

variable {limit : Int} {depth room : Nat} {operand : Reader Expr}

theorem chain_conduct {tier : Tier}
    (operandConduct : ∀ start,
      Conduct room 1 (ReadsExpr limit depth (tier.rank + 1)) start (operand start)) :
    ∀ (fuel roomHere : Nat) (left : Expr) (start : Cursor), roomHere ≤ fuel → roomHere ≤ room →
      Conduct roomHere 0 (fun expr taken => ∀ before,
          ReadsExpr limit depth tier.rank left before →
            ReadsExpr limit depth tier.rank expr (before ++ taken))
        start (primitives.chain tier operand fuel left start) := by
  -- Each round of the loop costs one step and takes an operator and an operand, so the room shrinks
  -- with the steps. The tokens before the loop are a parameter, since its left operand grows.
  intro fuel
  induction fuel with
  | zero =>
      intro roomHere left start fuelEnough _
      rw [Primitives.chain]
      exact Conduct.out_of_budget (by omega)
  | succ fuel ih =>
      intro roomHere left start fuelEnough roomEnough
      rw [Primitives.chain]
      apply Conduct.accept (by cases tier <;> simp [Tier.operators])
      · intro _
        refine Conduct.pure rfl fun before leftRead => ?_
        simpa using leftRead
      · intro mem
        apply Conduct.bind
          ((operandConduct start.advance).imp (by omega) (Nat.le_refl _) fun _ _ read => read)
        intro right middle _
        refine (ih (roomHere - 2) _ _ (by omega) (by omega)).imp (by omega) (by omega) ?_
        intro expr others continues taken rightRead before leftRead
        have combined := continues (before ++ start.current :: taken)
          { atoms := by
              rw [Tier.combine_atoms, List.map_append, List.map_cons, leftRead.atoms,
                rightRead.atoms, Tier.atom_of_mem mem]
            formed := Tier.combine_wellFormed mem leftRead.formed leftRead.tier rightRead.formed
              rightRead.tier
            tier := Nat.le_of_eq (Tier.combine_tier mem).symm
            within := by
              rw [Tier.combine_nesting]
              exact leftRead.within.both rightRead.within }
        simpa using combined

theorem tiered_conduct {fuel : Nat} (fuelEnough : room ≤ fuel)
    (operandConduct : ∀ start, Conduct room 1 (ReadsExpr limit depth 7) start (operand start)) :
    ∀ {levels : List Tier} {rank : Nat} {start : Cursor}, Tier.From rank levels →
      Conduct room 1 (ReadsExpr limit depth rank) start
        (primitives.tiered fuel operand levels start) := by
  intro levels
  induction levels with
  | nil =>
      rintro rank start rfl
      exact operandConduct start
  | cons tier tighter ih =>
      rintro rank start ⟨rfl, fromNext⟩
      rw [Primitives.tiered]
      apply Conduct.bind (ih fromNext)
      intro left middle _
      refine (chain_conduct (fun start => ih fromNext) fuel room left middle fuelEnough
        (Nat.le_refl _)).imp (by omega) (Nat.le_refl _) ?_
      intro expr others continues taken leftRead
      exact continues taken { leftRead with tier := by have := leftRead.tier; omega }

end Operators

section Expressions

variable {limit : Int}

section Primary

variable {depth room : Nat} {token : Token} {start : Cursor}

theorem literal_conduct {value : Literal} (means : token.atom = .value value)
    (within : Within limit depth) :
    Conduct room 0 (fun expr taken => ReadsExpr limit depth 7 expr (token :: taken)) start
      ((pure (.literal value) : Reader Expr) start) := by
  refine Conduct.pure rfl ?_
  exact {
    atoms := by simp [Expr.atoms, means]
    formed := trivial
    tier := by simp [Expr.tier]
    within := within }

theorem name_conduct (isName : token.kind = .identifier) (within : Within limit depth) :
    Conduct room 0 (fun expr taken => ReadsExpr limit depth 7 expr (token :: taken)) start
      ((pure (.name token) : Reader Expr) start) := by
  refine Conduct.pure rfl ?_
  exact {
    atoms := by simp [Expr.atoms, Token.atom, isName]
    formed := isName
    tier := by simp [Expr.tier]
    within := within }

theorem group_conduct {expression : Reader Expr}
    (expressionConduct : Conduct room 1 (ReadsExpr limit (depth + 1) 0) start (expression start))
    (isOpening : token.kind = .leftParen) :
    Conduct room 0 (fun expr taken => ReadsExpr limit depth 7 expr (token :: taken)) start
      (primitives.group expression start) := by
  rw [Primitives.group]
  apply Conduct.bind expressionConduct
  intro inner middle _
  apply Conduct.expect (by simp)
  intro closing isClosing
  refine Conduct.pure rfl fun taken read => ?_
  exact {
    atoms := by simp [Expr.atoms, read.atoms, Token.atom, isOpening, isClosing]
    formed := read.formed
    tier := by simp [Expr.tier]
    within := by simpa [Expr.nesting, Nat.add_assoc] using read.within }

end Primary

mutual

theorem expression_conduct : ∀ (fuel depth room : Nat) (start : Cursor), 4 * room ≤ fuel →
    Conduct room 1 (ReadsExpr limit (depth + 1) 0) start (expression limit fuel depth start)
  | 0, depth, room, start, fuelEnough => by
      rw [expression, Primitives.expression]
      exact Conduct.out_of_budget (by omega)
  | fuel + 1, depth, room, start, fuelEnough => by
      rw [expression, Primitives.expression]
      apply Conduct.descend
      intro within
      exact assignment_conduct fuel (depth + 1) room start (by omega) within

theorem assignment_conduct : ∀ (fuel depth room : Nat) (start : Cursor), 4 * room ≤ fuel + 1 →
    Within limit depth →
    Conduct room 1 (ReadsExpr limit depth 0) start (assignment limit fuel depth start)
  | 0, depth, room, start, fuelEnough, within => by
      rw [assignment, Primitives.assignment]
      exact Conduct.out_of_budget (by omega)
  | fuel + 1, depth, room, start, fuelEnough, within => by
      rw [assignment, Primitives.assignment]
      have operandConduct : ∀ start,
          Conduct room 1 (ReadsExpr limit depth 7) start (unary limit fuel depth start) :=
        fun start => unary_conduct fuel depth room start (by omega) within
      apply Conduct.bind (tiered_conduct (by omega) operandConduct Tier.from_all)
      intro target middle _
      apply Conduct.accept (by simp)
      · intro _
        refine Conduct.pure rfl fun before targetRead => ?_
        simpa using { targetRead with tier := Nat.zero_le _ }
      · intro isEqual
        rw [List.mem_singleton] at isEqual
        apply Conduct.descend
        intro deeper
        apply Conduct.bind
          ((assignment_conduct fuel (depth + 1) (room - 1 - 1) _ (by omega) deeper))
        intro value middle _
        cases target with
        | name token =>
            refine Conduct.pure (by omega) fun taken valueRead before targetRead => ?_
            exact { atoms := by
                      simp [Expr.atoms, targetRead.atoms, valueRead.atoms, Token.atom, isEqual]
                    formed := ⟨targetRead.formed, valueRead.formed⟩
                    tier := Nat.zero_le _
                    within := by simpa [Expr.nesting, Nat.add_assoc] using valueRead.within }
        | _ => exact Conduct.complain (Conduct.pure (by omega) trivial)

theorem unary_conduct : ∀ (fuel depth room : Nat) (start : Cursor), 4 * room ≤ fuel + 2 →
    Within limit depth →
    Conduct room 1 (ReadsExpr limit depth 7) start (unary limit fuel depth start)
  | 0, depth, room, start, fuelEnough, within => by
      rw [unary, Primitives.unary]
      exact Conduct.out_of_budget (by omega)
  | fuel + 1, depth, room, start, fuelEnough, within => by
      rw [unary, Primitives.unary]
      apply Conduct.accept (by simp)
      · intro _
        exact primary_conduct fuel depth room start (by omega) within
      · intro mem
        apply Conduct.descend
        intro deeper
        apply Conduct.bind (unary_conduct fuel (depth + 1) (room - 1) _ (by omega) deeper)
        intro operand middle _
        refine Conduct.pure rfl fun taken read => ?_
        exact { atoms := by simp [Expr.atoms, read.atoms, Token.unary_atom mem]
                formed := ⟨mem, read.formed, read.tier⟩
                tier := by simp [Expr.tier]
                within := by simpa [Expr.nesting, Nat.add_assoc] using read.within }

theorem primary_conduct : ∀ (fuel depth room : Nat) (start : Cursor), 4 * room ≤ fuel + 3 →
    Within limit depth →
    Conduct room 1 (ReadsExpr limit depth 7) start (primary limit fuel depth start)
  | 0, depth, room, start, fuelEnough, within => by
      rw [primary, Primitives.primary]
      exact Conduct.out_of_budget (by omega)
  | fuel + 1, depth, room, start, fuelEnough, within => by
      rw [primary, Primitives.primary]
      refine Conduct.select (by simp) ?_ (Conduct.misread _)
      intro kinds next mem isKind
      simp only [List.mem_cons, List.not_mem_nil, or_false, Prod.mk.injEq] at mem
      rcases mem with ⟨rfl, rfl⟩ | ⟨rfl, rfl⟩ | ⟨rfl, rfl⟩ | ⟨rfl, rfl⟩ | ⟨rfl, rfl⟩ | ⟨rfl, rfl⟩
      · exact literal_conduct (by simp [Token.atom, List.mem_singleton.mp isKind]) within
      · exact literal_conduct (by simp [Token.atom, List.mem_singleton.mp isKind]) within
      · exact literal_conduct (by simp [Token.atom, List.mem_singleton.mp isKind]) within
      · have payload : start.current.atom = .value start.current.literal := by
          rcases List.mem_cons.mp isKind with isNumber | isString
          · simp [Token.atom, isNumber]
          · simp [Token.atom, List.mem_singleton.mp isString]
        exact literal_conduct payload within
      · exact name_conduct (List.mem_singleton.mp isKind) within
      · exact group_conduct (expression_conduct fuel depth (room - 1) _ (by omega))
          (List.mem_singleton.mp isKind)

end

end Expressions

section Statements

variable {limit : Int}

/-- A statement that would take an `else` for its own is never read with an `else` after it. -/
theorem statement_dangles : ∀ (fuel outer : Nat) (start finish : Cursor) (stmt : Stmt),
    statement limit fuel outer start = .ok stmt finish → stmt.dangles = true →
      finish.current.kind ≠ .elseKeyword
  | 0, outer, start, finish, stmt, read, dangles => by
      rw [statement, Primitives.statement] at read
      cases read
  | fuel + 1, outer, start, finish, stmt, read, dangles => by
      rw [statement, Primitives.statement] at read
      rcases ok_of_bind read with ⟨_, entered, _, read⟩
      rcases ok_of_select read with read | ⟨kinds, next, mem, read⟩
      · rcases ok_of_bind read with ⟨_, _, _, read⟩
        rcases ok_of_bind read with ⟨_, _, _, read⟩
        cases read
        cases dangles
      · simp only [List.mem_cons, List.not_mem_nil, or_false, Prod.mk.injEq] at mem
        rcases mem with ⟨rfl, rfl⟩ | ⟨rfl, rfl⟩ | ⟨rfl, rfl⟩ | ⟨rfl, rfl⟩
        · rcases ok_of_bind read with ⟨_, _, _, read⟩
          rcases ok_of_bind read with ⟨condition, _, _, read⟩
          rcases ok_of_bind read with ⟨_, _, _, read⟩
          rcases ok_of_bind read with ⟨consequence, after, _, read⟩
          by_cases isElse : after.current.kind ∈ [.elseKeyword]
          · rw [bind_of_ok (accept_of_mem isElse)] at read
            rcases ok_of_bind read with ⟨alternative, last, alternativeRead, read⟩
            cases read
            exact statement_dangles fuel _ _ _ _ alternativeRead dangles
          · rw [bind_of_ok (accept_of_not_mem isElse)] at read
            cases read
            simpa using isElse
        · rcases ok_of_bind read with ⟨_, _, _, read⟩
          rcases ok_of_bind read with ⟨condition, _, _, read⟩
          rcases ok_of_bind read with ⟨_, _, _, read⟩
          rcases ok_of_bind read with ⟨body, last, bodyRead, read⟩
          cases read
          exact statement_dangles fuel _ _ _ _ bodyRead dangles
        · rcases ok_of_bind read with ⟨_, _, _, read⟩
          rcases ok_of_bind read with ⟨_, _, _, read⟩
          cases read
          cases dangles
        · rcases ok_of_bind read with ⟨_, _, _, read⟩
          rcases ok_of_bind read with ⟨_, _, _, read⟩
          cases read
          cases dangles

/-- The tokens of well-formed statements that stand one after the other at a depth. -/
structure ReadsBody (limit : Int) (depth : Nat) (body : List Stmt) (taken : List Token) : Prop where
  atoms : taken.map Token.atom = Stmt.atomsAll body
  formed : Stmt.AllWellFormed body
  within : Within limit (depth + Stmt.nestingAll body)

theorem ReadsBody.cons {depth : Nat} {stmt : Stmt} {body : List Stmt} {taken others : List Token}
    (bodyRead : ReadsBody limit depth body others) (read : ReadsStmt limit depth stmt taken) :
    ReadsBody limit depth (stmt :: body) (taken ++ others) where
  atoms := by simp [Stmt.atomsAll, read.atoms, bodyRead.atoms]
  formed := ⟨read.formed, bodyRead.formed⟩
  within := read.within.both bodyRead.within

theorem variableDeclaration_conduct {fuel depth : Nat} (room : Nat) {start : Cursor}
    (fuelEnough : 4 * room ≤ fuel) (within : Within limit depth) :
    Conduct room 1 (fun stmt taken => ∀ keyword : Token, keyword.kind = .varKeyword →
        ReadsStmt limit depth stmt (keyword :: taken))
      start (variableDeclaration limit fuel depth start) := by
  rw [variableDeclaration, Primitives.variableDeclaration]
  apply Conduct.expect (by simp)
  intro name isName
  apply Conduct.accept (by simp)
  · intro _
    apply Conduct.expect (by simp)
    intro closing isClosing
    refine Conduct.pure rfl fun keyword isKeyword => ?_
    exact {
      atoms := by simp [Stmt.atoms, Token.atom, isKeyword, isName, isClosing]
      formed := isName
      within := within }
  · intro isEqual
    rw [List.mem_singleton] at isEqual
    apply Conduct.bind (expression_conduct fuel depth (room - 1 - 1) _ (by omega))
    intro initial middle _
    apply Conduct.expect (by simp)
    intro closing isClosing
    refine Conduct.pure (by omega) fun taken read keyword isKeyword => ?_
    exact {
      atoms := by simp [Stmt.atoms, read.atoms, Token.atom, isKeyword, isName, isEqual, isClosing]
      formed := ⟨isName, read.formed⟩
      within := by simpa [Stmt.nesting, Nat.add_assoc] using read.within }

/-- The tokens of a well-formed statement that is no declaration. -/
def ReadsStatement (limit : Int) (depth : Nat) (stmt : Stmt) (taken : List Token) : Prop :=
  ReadsStmt limit depth stmt taken ∧ stmt.declares = false

section Kinds

variable {fuel outer room : Nat} {keyword : Token} {start : Cursor}

theorem expressionStatement_conduct (fuelEnough : 4 * room ≤ fuel) :
    Conduct room 1 (ReadsStatement limit outer) start
      (primitives.expressionStatement (expression limit fuel (outer + 1)) start) := by
  rw [Primitives.expressionStatement]
  apply Conduct.bind (expression_conduct fuel (outer + 1) room _ fuelEnough)
  intro value _ _
  apply Conduct.expect (by simp)
  intro closing isClosing
  refine Conduct.pure rfl fun taken read => ⟨?_, rfl⟩
  exact {
    atoms := by simp [Stmt.atoms, read.atoms, Token.atom, isClosing]
    formed := read.formed
    within := by
      rw [Stmt.nesting, ← Nat.add_assoc]
      exact read.entered }

theorem print_conduct (isPrint : keyword.kind = .printKeyword) (fuelEnough : 4 * room ≤ fuel) :
    Conduct room 0 (fun stmt taken => ReadsStatement limit outer stmt (keyword :: taken)) start
      (primitives.printStatement (expression limit fuel (outer + 1)) start) := by
  rw [Primitives.printStatement]
  apply Conduct.bind (expression_conduct fuel (outer + 1) room _ fuelEnough)
  intro value _ _
  apply Conduct.expect (by simp)
  intro closing isClosing
  refine Conduct.pure rfl fun taken read => ⟨?_, rfl⟩
  exact {
    atoms := by simp [Stmt.atoms, read.atoms, Token.atom, isPrint, isClosing]
    formed := read.formed
    within := by
      rw [Stmt.nesting, ← Nat.add_assoc]
      exact read.entered }

variable (statementConduct : ∀ (room : Nat) (start : Cursor), 4 * room ≤ fuel - 1 →
  Conduct room 1 (ReadsStatement limit (outer + 1)) start (statement limit fuel (outer + 1) start))
include statementConduct

theorem if_conduct (isIf : keyword.kind = .ifKeyword) (fuelEnough : 4 * room ≤ fuel) :
    Conduct room 0 (fun stmt taken => ReadsStatement limit outer stmt (keyword :: taken)) start
      (primitives.ifStatement (expression limit fuel (outer + 1))
        (statement limit fuel (outer + 1)) start) := by
  rw [Primitives.ifStatement]
  apply Conduct.expect (by simp)
  intro opening isOpening
  apply Conduct.bind (expression_conduct fuel (outer + 1) (room - 1) _ (by omega))
  intro condition _ _
  apply Conduct.expect (by simp)
  intro closing isClosing
  apply Conduct.bind (statementConduct (room - 1 - 1 - 1) _ (by omega))
  intro consequence after consequenceRead
  apply Conduct.accept (by simp)
  · intro _
    refine Conduct.pure (by omega) fun body bodyRead taken conditionRead => ⟨?_, rfl⟩
    exact {
      atoms := by
        simp [Stmt.atoms, conditionRead.atoms, bodyRead.1.atoms, Token.atom, isIf, isOpening,
          isClosing]
      formed := ⟨conditionRead.formed, bodyRead.1.formed, bodyRead.2⟩
      within := by
        rw [Stmt.nesting, ← Nat.add_assoc]
        exact conditionRead.entered.both bodyRead.1.within }
  · intro isElse
    rw [List.mem_singleton] at isElse
    apply Conduct.bind (statementConduct (room - 1 - 1 - 1 - 1 - 1) _ (by omega))
    intro alternative _ _
    refine Conduct.pure (by omega) ?_
    intro others alternativeRead taken bodyRead before conditionRead
    refine ⟨?_, rfl⟩
    have settled : consequence.dangles = false := by
      apply Bool.eq_false_iff.mpr
      intro dangles
      exact statement_dangles _ _ _ _ _ consequenceRead dangles isElse
    exact {
      atoms := by
        simp [Stmt.atoms, conditionRead.atoms, bodyRead.1.atoms, alternativeRead.1.atoms,
          Token.atom, isIf, isOpening, isClosing, isElse]
      formed := ⟨conditionRead.formed, ⟨bodyRead.1.formed, bodyRead.2⟩, settled,
        alternativeRead.1.formed, alternativeRead.2⟩
      within := by
        rw [Stmt.nesting, ← Nat.add_assoc]
        exact conditionRead.entered.both (bodyRead.1.within.both alternativeRead.1.within) }

theorem while_conduct (isWhile : keyword.kind = .whileKeyword) (fuelEnough : 4 * room ≤ fuel) :
    Conduct room 0 (fun stmt taken => ReadsStatement limit outer stmt (keyword :: taken)) start
      (primitives.whileStatement (expression limit fuel (outer + 1))
        (statement limit fuel (outer + 1)) start) := by
  rw [Primitives.whileStatement]
  apply Conduct.expect (by simp)
  intro opening isOpening
  apply Conduct.bind (expression_conduct fuel (outer + 1) (room - 1) _ (by omega))
  intro condition _ _
  apply Conduct.expect (by simp)
  intro closing isClosing
  apply Conduct.bind (statementConduct (room - 1 - 1 - 1) _ (by omega))
  intro body _ _
  refine Conduct.pure (by omega) fun taken bodyRead before conditionRead => ⟨?_, rfl⟩
  exact {
    atoms := by
      simp [Stmt.atoms, conditionRead.atoms, bodyRead.1.atoms, Token.atom, isWhile, isOpening,
        isClosing]
    formed := ⟨conditionRead.formed, bodyRead.1.formed, bodyRead.2⟩
    within := by
      rw [Stmt.nesting, ← Nat.add_assoc]
      exact conditionRead.entered.both bodyRead.1.within }

end Kinds

theorem block_statement_conduct {outer room : Nat} {opening : Token} {start : Cursor}
    {body : Reader (List Stmt)} (isOpening : opening.kind = .leftBrace)
    (bodyConduct : Conduct room 0 (ReadsBody limit (outer + 1)) start (body start)) :
    Conduct room 0 (fun stmt taken => ReadsStatement limit outer stmt (opening :: taken)) start
      (primitives.blockStatement body start) := by
  rw [Primitives.blockStatement]
  apply Conduct.bind bodyConduct
  intro stmts _ _
  apply Conduct.expect (by simp)
  intro closing isClosing
  refine Conduct.pure rfl fun taken read => ⟨?_, rfl⟩
  exact {
    atoms := by simp [Stmt.atoms, read.atoms, Token.atom, isOpening, isClosing]
    formed := read.formed
    within := by
      rw [Stmt.nesting, ← Nat.add_assoc]
      exact read.within }

mutual

theorem statement_conduct : ∀ (fuel outer room : Nat) (start : Cursor), 4 * room ≤ fuel - 1 →
    Conduct room 1 (ReadsStatement limit outer) start (statement limit fuel outer start)
  | 0, outer, room, start, fuelEnough => by
      rw [statement, Primitives.statement]
      exact Conduct.out_of_budget (by omega)
  | fuel + 1, outer, room, start, fuelEnough => by
      rw [statement, Primitives.statement]
      apply Conduct.descend
      intro within
      refine Conduct.select (by simp) ?_ (expressionStatement_conduct (by omega))
      intro kinds next mem isKind
      simp only [List.mem_cons, List.not_mem_nil, or_false, Prod.mk.injEq] at mem
      rcases mem with ⟨rfl, rfl⟩ | ⟨rfl, rfl⟩ | ⟨rfl, rfl⟩ | ⟨rfl, rfl⟩ <;>
        rw [List.mem_singleton] at isKind
      · exact if_conduct (statement_conduct fuel (outer + 1)) isKind (by omega)
      · exact while_conduct (statement_conduct fuel (outer + 1)) isKind (by omega)
      · exact print_conduct isKind (by omega)
      · refine block_statement_conduct isKind ?_
        refine (block_conduct fuel (outer + 1) (room - 1) [] _ (by omega) within).imp
          (Nat.le_refl _) (Nat.le_refl _) ?_
        rintro stmts taken ⟨body, rfl, read⟩
        exact read

theorem declaration_conduct : ∀ (fuel depth room : Nat) (start : Cursor), 4 * room ≤ fuel - 2 →
    Within limit depth → start.ahead ≠ [] →
    Conduct room 1 (fun stmt? taken => ∃ stmt, stmt? = some stmt ∧ ReadsStmt limit depth stmt taken)
      start (declaration limit fuel depth start)
  | 0, depth, room, start, fuelEnough, within, more => by
      exact Conduct.out_of_budget (by omega)
  | fuel + 1, depth, room, start, fuelEnough, within, more => by
      apply Conduct.recovering more
      rw [Primitives.declaration]
      apply Conduct.accept (by simp)
      · intro _
        refine (statement_conduct fuel depth room start (by omega)).imp (Nat.le_refl _)
          (Nat.le_refl _) fun _ _ read => read.1
      · intro isVar
        rw [List.mem_singleton] at isVar
        refine (variableDeclaration_conduct (room - 1) (by omega) within).imp (Nat.le_refl _)
          (by omega) fun _ _ read => read _ isVar

theorem block_conduct : ∀ (fuel depth room : Nat) (done : List Stmt) (start : Cursor),
    4 * room ≤ fuel - 3 → Within limit depth →
    Conduct room 0 (fun result taken => ∃ body, result = done.reverse ++ body ∧
        ReadsBody limit depth body taken)
      start (block limit fuel depth done start)
  | 0, depth, room, done, start, fuelEnough, within => by
      rw [block, Primitives.block]
      exact Conduct.out_of_budget (by omega)
  | fuel + 1, depth, room, done, start, fuelEnough, within => by
      by_cases closes : start.current.kind = .rightBrace ∨ start.current.kind = .eof
      · rw [block_of_stop closes]
        exact Conduct.pure rfl ⟨[], by simp, rfl, trivial, within⟩
      · rw [block_of_more closes]
        rcases Cursor.exists_ahead (fun ended => closes (Or.inr ended)) with ⟨rest, ahead⟩
        apply Conduct.bind
          (declaration_conduct fuel depth room start (by omega) within (by simp [ahead]))
        intro stmt? middle _
        refine (block_conduct fuel depth (room - 1) (stmt?.toList ++ done) middle (by omega)
          within).imp (Nat.le_refl _) (Nat.le_refl _) ?_
        rintro result others ⟨body, rfl, bodyRead⟩ taken ⟨stmt, rfl, read⟩
        exact ⟨stmt :: body, by simp, bodyRead.cons read⟩

end

theorem program_conduct : ∀ (fuel room : Nat) (done : List Stmt) (start : Cursor),
    4 * room ≤ fuel - 3 →
    Conduct room 0 (fun result taken => ∃ body, result = done.reverse ++ body ∧
        ReadsBody limit 0 body taken)
      start (program limit fuel done start)
  | 0, room, done, start, fuelEnough => by
      rw [program, Primitives.program]
      exact Conduct.out_of_budget (by omega)
  | fuel + 1, room, done, start, fuelEnough => by
      by_cases ended : start.current.kind = .eof
      · rw [program_of_end ended]
        exact Conduct.pure rfl ⟨[], by simp, rfl, trivial, .zero⟩
      · rw [program_of_more ended]
        rcases Cursor.exists_ahead ended with ⟨rest, ahead⟩
        apply Conduct.bind
          (declaration_conduct fuel 0 room start (by omega) .zero (by simp [ahead]))
        intro stmt? middle _
        refine (program_conduct fuel (room - 1) (stmt?.toList ++ done) middle (by omega)).imp
          (Nat.le_refl _) (Nat.le_refl _) ?_
        rintro result others ⟨body, rfl, bodyRead⟩ taken ⟨stmt, rfl, read⟩
        exact ⟨stmt :: body, by simp, bodyRead.cons read⟩

theorem program_ends : ∀ (fuel : Nat) (done : List Stmt) (start finish : Cursor)
    (stmts : List Stmt), program limit fuel done start = .ok stmts finish →
      finish.current.kind = .eof
  | 0, done, start, finish, stmts, read => by
      rw [program, Primitives.program] at read
      cases read
  | fuel + 1, done, start, finish, stmts, read => by
      by_cases ended : start.current.kind = .eof
      · rw [program_of_end ended] at read
        cases read
        exact ended
      · rw [program_of_more ended] at read
        rcases ok_of_bind read with ⟨stmt?, middle, _, readOn⟩
        exact program_ends fuel _ _ _ _ readOn

end Statements

end Parse

open Parse

variable {limit : Int} {tokens : List Token}

/-- The conduct of a whole parse, whose budget has room for all its tokens. -/
theorem parse_conduct (limit : Int) (tokens : List Token) :
    Conduct ((Cursor.ofTokens tokens).ahead.length + 1) 0
      (fun stmts taken => ReadsBody limit 0 stmts taken) (Cursor.ofTokens tokens)
      (program limit (budget (Cursor.ofTokens tokens).ahead.length) []
        (Cursor.ofTokens tokens)) := by
  refine (program_conduct _ _ [] _ ?_).imp (Nat.le_refl _) (Nat.le_refl _) ?_
  · simp only [budget]
    omega
  · rintro stmts taken ⟨body, rfl, read⟩
    exact read

theorem parse_outcome_ne_exhausted (limit : Int) (tokens : List Token) :
    (parse limit tokens).outcome ≠ .error .exhausted := by
  have conduct := parse_conduct limit tokens
  unfold parse
  simp only
  generalize program limit _ [] _ = outcome at conduct
  cases conduct with
  | done leads shorter read => simp
  | exhausted leads long => omega
  | halted leads cause reported => simpa using cause

/-- A parse that reports nothing returns well-formed statements made of all its tokens. -/
theorem parse_sound (silent : (parse limit tokens).diagnostics = []) :
    ∃ stmts, (parse limit tokens).outcome = .ok stmts ∧
      ReadsBody limit 0 stmts (tokens.takeWhile (·.kind ≠ .eof)) := by
  have conduct := parse_conduct limit tokens
  have ends : ∀ finish stmts, program limit _ [] _ = .ok stmts finish →
      finish.current.kind = .eof :=
    program_ends (budget (Cursor.ofTokens tokens).ahead.length) [] (Cursor.ofTokens tokens)
  unfold parse at silent ⊢
  simp only at silent ⊢
  generalize program limit _ [] _ = outcome at conduct silent ends
  cases conduct with
  | exhausted leads long => omega
  | halted leads cause reported =>
      simp only [Array.toList_eq_nil_iff] at silent
      simp [silent] at reported
  | @done stmts finish leads shorter read =>
      simp only [Array.toList_eq_nil_iff] at silent
      rcases read silent with ⟨taken, split, stmtsRead⟩
      -- The reader stops at an end token, and there is none among the tokens before the first.
      have atEnd : finish.ahead = [] := by
        cases ahead : finish.ahead with
        | nil => rfl
        | cons token rest =>
            have mem : token ∈ tokens.takeWhile (·.kind ≠ .eof) :=
              leads.ahead.subset (by simp [ahead])
            have ended : token.kind = .eof := by simpa [Cursor.current, ahead] using ends _ _ rfl
            simpa [ended] using List.mem_takeWhile_imp mem
      refine ⟨stmts, rfl, ?_⟩
      rw [atEnd, List.append_nil] at split
      rw [← split] at stmtsRead
      exact stmtsRead

theorem readsBody_of_parse {stmts : List Stmt} (parsed : parse limit tokens = ⟨.ok stmts, []⟩) :
    ReadsBody limit 0 stmts (tokens.takeWhile (·.kind ≠ .eof)) := by
  have silent : (parse limit tokens).diagnostics = [] := by rw [parsed]
  rcases parse_sound silent with ⟨returned, outcome, reads⟩
  rw [parsed] at outcome
  cases outcome
  exact reads

end LoxLang
