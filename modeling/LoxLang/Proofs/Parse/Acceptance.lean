import LoxLang.Proofs.Grammar
import LoxLang.Proofs.Parse.Completeness

/-!
# The parser accepts its grammar

A list of tokens is derivable exactly if it is that of well-formed trees. In the direction from
derivations to trees the grammar is ambiguous: an `else` may belong to any open conditional before
it. Only one of the trees is well formed, and `Stmt.WellFormed.exists_attached` finds it by handing
the `else` down to the innermost of these conditionals.
-/

namespace LoxLang

open Parse (Tier)

/-- An `else` behind an open conditional can be given to a conditional inside it. -/
theorem Stmt.WellFormed.exists_attached {stmt alternative : Stmt}
    (alternativeFormed : alternative.WellFormed)
    (alternativeIsStatement : alternative.declares = false) (formed : stmt.WellFormed)
    (dangles : stmt.dangles = true) :
    ∃ attached : Stmt, attached.WellFormed ∧ attached.declares = false ∧
      attached.atoms = stmt.atoms ++ .mark .elseKeyword :: alternative.atoms := by
  induction stmt with
  | missing | expression | print | declare | block => simp [Stmt.dangles] at dangles
  | ifThen condition consequence ih =>
      rcases formed with ⟨conditionFormed, consequenceFormed, isStatement⟩
      cases opened : consequence.dangles with
      | true =>
          rcases ih consequenceFormed opened with ⟨attached, attachedFormed, attachedIs, atoms⟩
          exact ⟨.ifThen condition attached, ⟨conditionFormed, attachedFormed, attachedIs⟩, rfl,
            by simp [Stmt.atoms, atoms]⟩
      | false =>
          exact ⟨.ifElse condition consequence alternative,
            ⟨conditionFormed, ⟨consequenceFormed, isStatement⟩, opened, alternativeFormed,
              alternativeIsStatement⟩, rfl, by simp [Stmt.atoms]⟩
  | ifElse condition consequence otherwise _ ih =>
      rcases formed with ⟨conditionFormed, consequenceFormed, settled, otherwiseFormed, _⟩
      rcases ih otherwiseFormed dangles with ⟨attached, attachedFormed, attachedIs, atoms⟩
      exact ⟨.ifElse condition consequence attached,
        ⟨conditionFormed, consequenceFormed, settled, attachedFormed, attachedIs⟩, rfl,
        by simp [Stmt.atoms, atoms]⟩
  | loop condition body ih =>
      rcases formed with ⟨conditionFormed, bodyFormed, _⟩
      rcases ih bodyFormed dangles with ⟨attached, attachedFormed, attachedIs, atoms⟩
      exact ⟨.while condition attached, ⟨conditionFormed, attachedFormed, attachedIs⟩, rfl,
        by simp [Stmt.atoms, atoms]⟩

namespace Grammar

/-- The tokens of a well-formed expression of at least the given tier. -/
def OfExpr (lowest : Nat) (tokens : List Token) : Prop :=
  ∃ expr : Expr, expr.WellFormed ∧ lowest ≤ expr.tier ∧ tokens.map Token.atom = expr.atoms

/-- The tokens of a well-formed statement. -/
def OfStmt (tokens : List Token) : Prop :=
  ∃ stmt : Stmt, stmt.WellFormed ∧ stmt.declares = false ∧ tokens.map Token.atom = stmt.atoms

/-- The tokens of a well-formed statement or declaration. -/
def OfDeclaration (tokens : List Token) : Prop :=
  ∃ stmt : Stmt, stmt.WellFormed ∧ tokens.map Token.atom = stmt.atoms

/-- The tokens of the trees that belong to a nonterminal. -/
def Nonterminal.OfTree : Nonterminal → List Token → Prop
  | program => fun tokens => ∃ stmts : List Stmt, Stmt.AllWellFormed stmts ∧
      tokens.map Token.atom = Stmt.atomsAll stmts
  | declaration => OfDeclaration
  | statement | expressionStatement | printStatement | ifStatement | whileStatement | block =>
      OfStmt
  | expression | assignment => OfExpr 0
  | or => OfExpr 1
  | and => OfExpr 2
  | equality => OfExpr 3
  | comparison => OfExpr 4
  | term => OfExpr 5
  | factor => OfExpr 6
  | unary => OfExpr 7
  | primary => OfExpr 8

section Trees

variable {tokens : List Token}

theorem exists_stmts {pieces : List (List Token)} (trees : ∀ piece ∈ pieces, OfDeclaration piece) :
    ∃ stmts : List Stmt, Stmt.AllWellFormed stmts ∧
      pieces.flatten.map Token.atom = Stmt.atomsAll stmts := by
  induction pieces with
  | nil => exact ⟨[], trivial, rfl⟩
  | cons piece pieces ih =>
      rcases trees piece (by simp) with ⟨stmt, formed, spelled⟩
      rcases ih (fun piece mem => trees piece (by simp [mem])) with ⟨stmts, allFormed, allSpelled⟩
      exact ⟨stmt :: stmts, ⟨formed, allFormed⟩, by simp [Stmt.atomsAll, spelled, ← allSpelled]⟩

theorem exists_token_of_some {meaning : Nonterminal → List Token → Prop}
    (kinds : List Token.Kind)
    (holds : Phrase.HoldsOfSome meaning (kinds.map .token) tokens) :
    ∃ token : Token, tokens = [token] ∧ token.kind ∈ kinds := by
  induction kinds with
  | nil => exact holds.elim
  | cons kind kinds ih =>
      rcases holds with ⟨token, rfl, rfl⟩ | holds
      · exact ⟨token, rfl, by simp⟩
      · rcases ih holds with ⟨token, rfl, mem⟩
        exact ⟨token, rfl, by simp [mem]⟩

/-- Operators of one level associate to the left. -/
theorem ofExpr_append {tier : Tier} {pieces : List (List Token)}
    (trees : ∀ piece ∈ pieces, ∃ operator right, piece = operator :: right ∧
      operator.kind ∈ tier.operators ∧ OfExpr (tier.rank + 1) right) :
    ∀ {tokens : List Token}, OfExpr tier.rank tokens →
      OfExpr tier.rank (tokens ++ pieces.flatten) := by
  induction pieces with
  | nil =>
      intro tokens tree
      simpa using tree
  | cons piece pieces ih =>
      rintro tokens ⟨left, leftFormed, leftFits, leftSpelled⟩
      rcases trees piece (by simp) with ⟨operator, right, rfl, mem, expr, formed, fits, spelled⟩
      have combined : OfExpr tier.rank (tokens ++ operator :: right) := by
        refine ⟨tier.combine left operator expr,
          Tier.combine_wellFormed mem leftFormed leftFits formed fits,
          Nat.le_of_eq (Tier.combine_tier mem).symm, ?_⟩
        simp [Tier.combine_atoms, leftSpelled, spelled, Tier.atom_of_mem mem]
      simpa using ih (fun piece pieceMem => trees piece (by simp [pieceMem])) combined

theorem ofExpr_of_level (tier : Tier) {operand : Nonterminal}
    (operandTrees : operand.OfTree = OfExpr (tier.rank + 1))
    (holds : (Phrase.level operand tier.operators).Holds Nonterminal.OfTree tokens) :
    OfExpr tier.rank tokens := by
  rcases holds with ⟨first, others, rfl, firstTree, repeated, last, rfl, ⟨pieces, rfl, hold⟩, rfl⟩
  simp only [Phrase.Holds, operandTrees] at firstTree hold
  rw [List.append_nil]
  rcases firstTree with ⟨expr, formed, fits, spelled⟩
  apply ofExpr_append _ ⟨expr, formed, by omega, spelled⟩
  intro piece mem
  rcases hold piece mem with ⟨operatorTokens, rest, rfl, isOperator, right, nothing, rfl, tree, rfl⟩
  rcases exists_token_of_some _ isOperator with ⟨operator, rfl, operatorMem⟩
  simp only [Phrase.Holds, operandTrees] at tree
  exact ⟨operator, right, by simp, operatorMem, tree⟩

theorem ofStmt_of_if
    (holds : (Nonterminal.definition .ifStatement).Holds Nonterminal.OfTree tokens) :
    OfStmt tokens := by
  rcases holds with ⟨_, _, rfl, ⟨keyword, rfl, isIf⟩, _, _, rfl, ⟨opening, rfl, isOpening⟩,
    conditionTokens, _, rfl, ⟨condition, conditionFormed, _, conditionSpelled⟩, _, _, rfl,
    ⟨closing, rfl, isClosing⟩, bodyTokens, _, rfl, ⟨body, bodyFormed, isStatement, bodySpelled⟩,
    rest, _, rfl, otherwise, rfl⟩
  rcases otherwise with rfl | ⟨_, _, rfl, ⟨between, rfl, isElse⟩, alternativeTokens, _, rfl,
    ⟨alternative, alternativeFormed, alternativeIs, alternativeSpelled⟩, rfl⟩
  · refine ⟨.ifThen condition body, ⟨conditionFormed, bodyFormed, isStatement⟩, rfl, ?_⟩
    simp [Stmt.atoms, Token.atom, isIf, isOpening, isClosing, conditionSpelled, bodySpelled]
  · cases opened : body.dangles with
    | false =>
        refine ⟨.ifElse condition body alternative, ⟨conditionFormed, ⟨bodyFormed, isStatement⟩,
          opened, alternativeFormed, alternativeIs⟩, rfl, ?_⟩
        simp [Stmt.atoms, Token.atom, isIf, isOpening, isClosing, isElse, conditionSpelled,
          bodySpelled, alternativeSpelled]
    | true =>
        -- The derivation gave the `else` to the outer conditional; the tree gives it to the inner.
        rcases Stmt.WellFormed.exists_attached alternativeFormed alternativeIs bodyFormed opened
          with ⟨attached, attachedFormed, attachedIs, atoms⟩
        refine ⟨.ifThen condition attached, ⟨conditionFormed, attachedFormed, attachedIs⟩, rfl, ?_⟩
        simp [Stmt.atoms, Token.atom, isIf, isOpening, isClosing, isElse, conditionSpelled,
          bodySpelled, alternativeSpelled, atoms]

/-- Every rule of the grammar makes a tree of the trees of its parts. -/
theorem Nonterminal.ofTree_of_holds (name : Nonterminal) (tokens : List Token)
    (holds : (name.definition).Holds OfTree tokens) : name.OfTree tokens := by
  cases name with
  | program =>
      rcases holds with ⟨pieces, rfl, trees⟩
      exact exists_stmts trees
  | declaration =>
      rcases holds with holds | ⟨stmt, formed, _, spelled⟩ | holds
      · rcases holds with ⟨_, _, rfl, ⟨keyword, rfl, isVar⟩, _, _, rfl, ⟨name, rfl, isName⟩,
          _, _, rfl, initial, _, _, rfl, ⟨closing, rfl, isClosing⟩, rfl⟩
        rcases initial with rfl | ⟨_, _, rfl, ⟨equals, rfl, isEqual⟩, valueTokens, _, rfl,
          ⟨value, formed, _, spelled⟩, rfl⟩
        · refine ⟨.declare name none, isName, ?_⟩
          simp [Stmt.atoms, Token.atom, isVar, isName, isClosing]
        · refine ⟨.declare name (some value), ⟨isName, formed⟩, ?_⟩
          simp [Stmt.atoms, Token.atom, isVar, isName, isEqual, isClosing, spelled]
      · exact ⟨stmt, formed, spelled⟩
      · exact holds.elim
  | statement =>
      rcases holds with tree | tree | tree | tree | tree | none
      · exact tree
      · exact tree
      · exact tree
      · exact tree
      · exact tree
      · exact none.elim
  | expressionStatement =>
      rcases holds with ⟨valueTokens, _, rfl, ⟨value, formed, _, spelled⟩, _, _, rfl,
        ⟨closing, rfl, isClosing⟩, rfl⟩
      refine ⟨.expression value, formed, rfl, ?_⟩
      simp [Stmt.atoms, Token.atom, isClosing, spelled]
  | printStatement =>
      rcases holds with ⟨_, _, rfl, ⟨keyword, rfl, isPrint⟩, valueTokens, _, rfl,
        ⟨value, formed, _, spelled⟩, _, _, rfl, ⟨closing, rfl, isClosing⟩, rfl⟩
      refine ⟨.print value, formed, rfl, ?_⟩
      simp [Stmt.atoms, Token.atom, isPrint, isClosing, spelled]
  | ifStatement => exact ofStmt_of_if holds
  | whileStatement =>
      rcases holds with ⟨_, _, rfl, ⟨keyword, rfl, isWhile⟩, _, _, rfl, ⟨opening, rfl, isOpening⟩,
        conditionTokens, _, rfl, ⟨condition, conditionFormed, _, conditionSpelled⟩, _, _, rfl,
        ⟨closing, rfl, isClosing⟩, bodyTokens, _, rfl,
        ⟨body, bodyFormed, isStatement, bodySpelled⟩, rfl⟩
      refine ⟨.while condition body, ⟨conditionFormed, bodyFormed, isStatement⟩, rfl, ?_⟩
      simp [Stmt.atoms, Token.atom, isWhile, isOpening, isClosing, conditionSpelled, bodySpelled]
  | block =>
      rcases holds with ⟨_, _, rfl, ⟨opening, rfl, isOpening⟩, _, _, rfl, ⟨pieces, rfl, trees⟩,
        _, _, rfl, ⟨closing, rfl, isClosing⟩, rfl⟩
      rcases exists_stmts trees with ⟨stmts, formed, spelled⟩
      refine ⟨.block stmts, formed, rfl, ?_⟩
      simp [Stmt.atoms, Token.atom, isOpening, isClosing, ← spelled]
  | expression => exact holds
  | assignment =>
      rcases holds with holds | ⟨expr, formed, _, spelled⟩ | holds
      · rcases holds with ⟨_, _, rfl, ⟨target, rfl, isName⟩, _, _, rfl, ⟨equals, rfl, isEqual⟩,
          valueTokens, _, rfl, ⟨value, formed, _, spelled⟩, rfl⟩
        refine ⟨.assign target value, ⟨isName, formed⟩, Nat.zero_le _, ?_⟩
        simp [Expr.atoms, Token.atom, isName, isEqual, spelled]
      · exact ⟨expr, formed, Nat.zero_le _, spelled⟩
      · exact holds.elim
  | or => exact ofExpr_of_level .or rfl holds
  | and => exact ofExpr_of_level .and rfl holds
  | equality => exact ofExpr_of_level .equality rfl holds
  | comparison => exact ofExpr_of_level .comparison rfl holds
  | term => exact ofExpr_of_level .term rfl holds
  | factor => exact ofExpr_of_level .factor rfl holds
  | unary =>
      rcases holds with holds | ⟨expr, formed, fits, spelled⟩ | holds
      · rcases holds with ⟨_, _, rfl, isOperator, operandTokens, _, rfl,
          ⟨operand, formed, fits, spelled⟩, rfl⟩
        rcases exists_token_of_some [.bang, .minus] isOperator with ⟨operator, rfl, mem⟩
        refine ⟨.unary operator operand, ⟨mem, formed, fits⟩, by simp [Expr.tier], ?_⟩
        simp [Expr.atoms, Token.unary_atom mem, spelled]
      · exact ⟨expr, formed, by omega, spelled⟩
      · exact holds.elim
  | primary =>
      rcases holds with ⟨token, rfl, kind⟩ | ⟨token, rfl, kind⟩ | ⟨token, rfl, kind⟩ |
        ⟨token, rfl, kind⟩ | ⟨token, rfl, kind⟩ | ⟨token, rfl, isName⟩ | group | none
      · exact ⟨.literal token.literal, trivial, Nat.le_refl _,
          by simp [Expr.atoms, Token.atom, kind]⟩
      · exact ⟨.literal token.literal, trivial, Nat.le_refl _,
          by simp [Expr.atoms, Token.atom, kind]⟩
      · exact ⟨.literal (.bool true), trivial, Nat.le_refl _,
          by simp [Expr.atoms, Token.atom, kind]⟩
      · exact ⟨.literal (.bool false), trivial, Nat.le_refl _,
          by simp [Expr.atoms, Token.atom, kind]⟩
      · exact ⟨.literal .nil, trivial, Nat.le_refl _, by simp [Expr.atoms, Token.atom, kind]⟩
      · exact ⟨.name token, isName, Nat.le_refl _, by simp [Expr.atoms, Token.atom, isName]⟩
      · rcases group with ⟨_, _, rfl, ⟨opening, rfl, isOpening⟩, innerTokens, _, rfl,
          ⟨inner, formed, _, spelled⟩, _, _, rfl, ⟨closing, rfl, isClosing⟩, rfl⟩
        refine ⟨.group inner, formed, Nat.le_refl _, ?_⟩
        simp [Expr.atoms, Token.atom, isOpening, isClosing, spelled]
      · exact none.elim

end Trees

section Derivations

variable {tokens others : List Token} {operand : Nonterminal} {operators : List Token.Kind}

/-- The nonterminal of the expressions of a tier. -/
def Nonterminal.ofTier : Nat → Nonterminal
  | 0 => assignment
  | 1 => or
  | 2 => and
  | 3 => equality
  | 4 => comparison
  | 5 => term
  | 6 => factor
  | 7 => unary
  | _ => primary

theorem Nonterminal.definition_ofTier (tier : Tier) :
    (ofTier tier.rank).definition = .level (ofTier (tier.rank + 1)) tier.operators := by
  cases tier <;> rfl

theorem Derives.tokenCons {kind : Token.Kind} {token : Token} {parts : List Phrase}
    (same : token.kind = kind) (derives : Derives (.seq parts) tokens) :
    Derives (.seq (.token kind :: parts)) (token :: tokens) :=
  .seqCons (.token same) derives

theorem Derives.last {part : Phrase} (derives : Derives part tokens) :
    Derives (.seq [part]) tokens := by
  simpa using derives.seqCons .seqNil

theorem Derives.level_single (derives : Derives (.rule operand) tokens) :
    Derives (.level operand operators) tokens := by
  have level : Derives (.level operand operators) (tokens ++ []) :=
    .seqCons derives (.last .manyNil)
  simpa using level

theorem Derives.many_append {part : Phrase} (derives : Derives (.many part) tokens)
    (derivesLast : Derives part others) : Derives (.many part) (tokens ++ others) := by
  generalize repeated : Phrase.many part = phrase at derives
  induction derives with
  | manyNil =>
      cases repeated
      simpa using Derives.manyCons derivesLast .manyNil
  | manyCons first _ _ ih =>
      cases repeated
      rw [List.append_assoc]
      exact .manyCons first (ih rfl)
  | _ => cases repeated

theorem Derives.level_append {operator : Token}
    (derives : Derives (.level operand operators) tokens)
    (mem : operator.kind ∈ operators) (derivesLast : Derives (.rule operand) others) :
    Derives (.level operand operators) (tokens ++ operator :: others) := by
  have last : Derives (.seq [.choice (operators.map .token), .rule operand])
      ([operator] ++ others) :=
    .seqCons (.choice (List.mem_map_of_mem mem) (.token rfl)) (.last derivesLast)
  cases derives with
  | seqCons first rest =>
      cases rest with
      | seqCons repeated nothing =>
          cases nothing
          rw [List.append_nil, List.append_assoc]
          exact .seqCons first (.last (repeated.many_append last))

/-- A tier contains the next tighter one. -/
theorem Derives.looser (rank : Nat) (derives : Derives (.rule (.ofTier (rank + 1))) tokens) :
    Derives (.rule (.ofTier rank)) tokens := by
  match rank with
  | 0 => exact .rule (.choice (by simp [Nonterminal.ofTier]) derives)
  | 1 | 2 | 3 | 4 | 5 | 6 => exact .rule derives.level_single
  | 7 => exact .rule (.choice (by simp [Nonterminal.ofTier]) derives)
  | _ + 8 => exact derives

theorem Derives.of_tier_le {rank tier : Nat} (le : rank ≤ tier)
    (derives : Derives (.rule (.ofTier tier)) tokens) : Derives (.rule (.ofTier rank)) tokens := by
  induction le with
  | refl => exact derives
  | step _ ih => exact ih (derives.looser _)

theorem derives_of_expr {expr : Expr} (formed : expr.WellFormed) :
    ∀ {tokens : List Token}, tokens.map Token.atom = expr.atoms →
      Derives (.rule (.ofTier expr.tier)) tokens := by
  induction expr with
  | missing => exact formed.elim
  | literal payload =>
      intro tokens spelled
      rcases List.map_eq_singleton_iff.mp spelled with ⟨token, rfl, same⟩
      rcases Token.cases_of_atom_eq_value same with
        ⟨kind, _⟩ | ⟨kind, _⟩ | ⟨kind, _⟩ | ⟨kind | kind, _⟩ <;>
      exact .rule (.choice (by simp) (.token kind))
  | name name =>
      intro tokens spelled
      rcases List.map_eq_singleton_iff.mp spelled with ⟨token, rfl, same⟩
      obtain rfl := Token.eq_of_atom_eq_word same
      exact .rule (.choice (by simp) (.token formed))
  | group inner ih =>
      intro tokens spelled
      rcases List.map_eq_cons_iff.mp spelled with ⟨opening, _, rfl, isOpening, spelled⟩
      rcases List.map_eq_append_iff.mp spelled with ⟨innerTokens, _, rfl, innerSpelled, spelled⟩
      rcases List.map_eq_singleton_iff.mp spelled with ⟨closing, rfl, isClosing⟩
      have inside := (ih formed innerSpelled).of_tier_le (Nat.zero_le _)
      have whole : Derives (.seq [.token .leftParen, .rule .expression, .token .rightParen])
          (opening :: (innerTokens ++ [closing])) :=
        .tokenCons (Token.kind_of_atom_eq_mark isOpening) (.seqCons (.rule inside)
          (.last (.token (Token.kind_of_atom_eq_mark isClosing))))
      exact .rule (.choice (by simp) whole)
  | unary operator operand ih =>
      rcases formed with ⟨isOperator, operandFormed, operandTier⟩
      intro tokens spelled
      rcases List.map_eq_cons_iff.mp spelled with ⟨token, operandTokens, rfl, same, operandSpelled⟩
      obtain rfl := Token.eq_of_atom_eq_word same
      have operandDerives := (ih operandFormed operandSpelled).of_tier_le operandTier
      have chosen : Derives (.choice ([.bang, .minus].map .token)) [token] :=
        .choice (List.mem_map_of_mem isOperator) (.token rfl)
      exact .rule (.choice (.head _) (.seqCons chosen (.last operandDerives)))
  | binary left operator right ihLeft ihRight | logical left operator right ihLeft ihRight =>
      rcases formed with ⟨tier, _, mem, ⟨leftFormed, leftFits⟩, rightFormed, rightFits⟩
      intro tokens spelled
      rcases List.map_eq_append_iff.mp spelled with ⟨leftTokens, _, rfl, leftSpelled, spelled⟩
      rcases List.map_eq_cons_iff.mp spelled with ⟨token, rightTokens, rfl, same, rightSpelled⟩
      obtain rfl := Token.eq_of_atom_eq_word same
      simp only [Expr.tier, Tier.ofKind?_of_mem mem, Option.map_some, Option.getD_some]
      have leftDerives := (ihLeft leftFormed leftSpelled).of_tier_le leftFits
      have rightDerives := (ihRight rightFormed rightSpelled).of_tier_le rightFits
      -- The left operand is a chain of the same level, which the operator continues.
      cases leftDerives with
      | rule leftDerives =>
          apply Derives.rule
          rw [Nonterminal.definition_ofTier] at leftDerives ⊢
          exact leftDerives.level_append mem rightDerives
  | assign target value ih =>
      rcases formed with ⟨isName, valueFormed⟩
      intro tokens spelled
      rcases List.map_eq_cons_iff.mp spelled with ⟨token, _, rfl, same, spelled⟩
      rcases List.map_eq_cons_iff.mp spelled with ⟨equals, valueTokens, rfl, isEqual, valueSpelled⟩
      obtain rfl := Token.eq_of_atom_eq_word same
      have valueDerives := (ih valueFormed valueSpelled).of_tier_le (Nat.zero_le _)
      exact .rule (.choice (.head _) (.tokenCons isName
        (.tokenCons (Token.kind_of_atom_eq_mark isEqual) (.last valueDerives))))

theorem derives_expression {expr : Expr} (formed : expr.WellFormed)
    (spelled : tokens.map Token.atom = expr.atoms) : Derives (.rule .expression) tokens :=
  .rule ((derives_of_expr formed spelled).of_tier_le (Nat.zero_le _))

/-- A condition in parentheses, and what comes after it. -/
theorem exists_condition {condition : Expr} {atoms : List Atom} (formed : condition.WellFormed)
    (spelled : tokens.map Token.atom =
      .mark .leftParen :: (condition.atoms ++ .mark .rightParen :: atoms)) :
    ∃ others : List Token, others.map Token.atom = atoms ∧
      ∀ {parts : List Phrase}, Derives (.seq parts) others →
        Derives (.seq (.token .leftParen :: .rule .expression :: .token .rightParen :: parts))
          tokens := by
  rcases List.map_eq_cons_iff.mp spelled with ⟨opening, _, rfl, isOpening, spelled⟩
  rcases List.map_eq_append_iff.mp spelled with ⟨conditionTokens, _, rfl, conditionSpelled, spelled⟩
  rcases List.map_eq_cons_iff.mp spelled with ⟨closing, others, rfl, isClosing, spelled⟩
  refine ⟨others, spelled, fun derives => ?_⟩
  exact .tokenCons (Token.kind_of_atom_eq_mark isOpening)
    (.seqCons (derives_expression formed conditionSpelled)
      (.tokenCons (Token.kind_of_atom_eq_mark isClosing) derives))

/-- A value with a semicolon after it. -/
theorem derives_value {value : Expr} (formed : value.WellFormed)
    (spelled : tokens.map Token.atom = value.atoms ++ [.mark .semicolon]) :
    Derives (.seq [.rule .expression, .token .semicolon]) tokens := by
  rcases List.map_eq_append_iff.mp spelled with ⟨valueTokens, _, rfl, valueSpelled, spelled⟩
  rcases List.map_eq_singleton_iff.mp spelled with ⟨closing, rfl, isClosing⟩
  exact .seqCons (derives_expression formed valueSpelled)
    (.last (.token (Token.kind_of_atom_eq_mark isClosing)))

theorem derives_declare {name : Token} {initial : Option Expr}
    (formed : (Stmt.declare name initial).WellFormed)
    (spelled : tokens.map Token.atom = (Stmt.declare name initial).atoms) :
    Derives (.rule .declaration) tokens := by
  apply Derives.rule
  apply Derives.choice (.head _)
  cases initial with
  | none =>
      rcases List.map_eq_cons_iff.mp spelled with ⟨keyword, _, rfl, isVar, spelled⟩
      rcases List.map_eq_cons_iff.mp spelled with ⟨token, _, rfl, same, spelled⟩
      rcases List.map_eq_singleton_iff.mp spelled with ⟨closing, rfl, isClosing⟩
      obtain rfl := Token.eq_of_atom_eq_word same
      exact .tokenCons (Token.kind_of_atom_eq_mark isVar) (.tokenCons formed
        (.seqCons .optionalNone (.last (.token (Token.kind_of_atom_eq_mark isClosing)))))
  | some value =>
      rcases formed with ⟨isName, formed⟩
      rcases List.map_eq_cons_iff.mp spelled with ⟨keyword, _, rfl, isVar, spelled⟩
      rcases List.map_eq_cons_iff.mp spelled with ⟨token, _, rfl, same, spelled⟩
      rcases List.map_eq_cons_iff.mp spelled with ⟨equals, _, rfl, isEqual, spelled⟩
      rcases List.map_eq_append_iff.mp spelled with ⟨valueTokens, _, rfl, valueSpelled, spelled⟩
      rcases List.map_eq_singleton_iff.mp spelled with ⟨closing, rfl, isClosing⟩
      obtain rfl := Token.eq_of_atom_eq_word same
      have initialDerives :
          Derives (.seq [.token .equal, .rule .expression]) (equals :: valueTokens) :=
        .tokenCons (Token.kind_of_atom_eq_mark isEqual)
          (.last (derives_expression formed valueSpelled))
      exact .tokenCons (Token.kind_of_atom_eq_mark isVar) (.tokenCons isName
        (.seqCons (.optionalSome initialDerives)
          (.last (.token (Token.kind_of_atom_eq_mark isClosing)))))

theorem derives_many {stmts : List Stmt}
    (derives : ∀ stmt ∈ stmts, ∀ {tokens : List Token}, tokens.map Token.atom = stmt.atoms →
      Derives (.rule .declaration) tokens) :
    ∀ {tokens : List Token}, tokens.map Token.atom = Stmt.atomsAll stmts →
      Derives (.many (.rule .declaration)) tokens := by
  induction stmts with
  | nil =>
      intro tokens spelled
      rw [List.map_eq_nil_iff.mp spelled]
      exact .manyNil
  | cons stmt stmts ih =>
      intro tokens spelled
      rcases List.map_eq_append_iff.mp spelled with
        ⟨first, others, rfl, firstSpelled, othersSpelled⟩
      exact .manyCons (derives stmt (by simp) firstSpelled)
        (ih (fun stmt mem => derives stmt (by simp [mem])) othersSpelled)

/-- The nonterminal of a statement or declaration. -/
def Nonterminal.ofStmt (stmt : Stmt) : Nonterminal :=
  if stmt.declares then declaration else statement

theorem Derives.declaration {stmt : Stmt} (derives : Derives (.rule (.ofStmt stmt)) tokens) :
    Derives (.rule .declaration) tokens := by
  cases declares : stmt.declares with
  | true => simpa [Nonterminal.ofStmt, declares] using derives
  | false =>
      simp only [Nonterminal.ofStmt, declares, Bool.false_eq_true, if_false] at derives
      exact .rule (.choice (by simp) derives)

theorem Derives.statement {stmt : Stmt} (isStatement : stmt.declares = false)
    (derives : Derives (.rule (.ofStmt stmt)) tokens) : Derives (.rule .statement) tokens := by
  simpa [Nonterminal.ofStmt, isStatement] using derives

theorem derives_of_stmt {stmt : Stmt} (formed : stmt.WellFormed) :
    ∀ {tokens : List Token}, tokens.map Token.atom = stmt.atoms →
      Derives (.rule (.ofStmt stmt)) tokens := by
  induction stmt with
  | missing => exact formed.elim
  | expression value =>
      intro tokens spelled
      have whole : Derives (.rule .expressionStatement) tokens :=
        .rule (derives_value formed spelled)
      exact .rule (.choice (by simp) whole)
  | print value =>
      intro tokens spelled
      rcases List.map_eq_cons_iff.mp spelled with ⟨keyword, valueTokens, rfl, isPrint, spelled⟩
      have whole : Derives (.rule .printStatement) (keyword :: valueTokens) :=
        .rule (.tokenCons (Token.kind_of_atom_eq_mark isPrint) (derives_value formed spelled))
      exact .rule (.choice (by simp) whole)
  | declare name initial =>
      intro tokens spelled
      exact derives_declare formed spelled
  | block body ih =>
      intro tokens spelled
      rcases List.map_eq_cons_iff.mp spelled with ⟨opening, _, rfl, isOpening, spelled⟩
      rcases List.map_eq_append_iff.mp spelled with ⟨bodyTokens, _, rfl, bodySpelled, spelled⟩
      rcases List.map_eq_singleton_iff.mp spelled with ⟨closing, rfl, isClosing⟩
      have inside : Derives (.many (.rule .declaration)) bodyTokens := by
        apply derives_many _ bodySpelled
        intro stmt mem tokens spelled
        exact (ih stmt mem (Stmt.allWellFormed_iff.mp formed stmt mem) spelled).declaration
      have whole : Derives (.rule .block) (opening :: (bodyTokens ++ [closing])) :=
        .rule (.tokenCons (Token.kind_of_atom_eq_mark isOpening) (.seqCons inside
          (.last (.token (Token.kind_of_atom_eq_mark isClosing)))))
      exact .rule (.choice (by simp) whole)
  | ifThen condition consequence ih =>
      rcases formed with ⟨conditionFormed, consequenceFormed, isStatement⟩
      intro tokens spelled
      rcases List.map_eq_cons_iff.mp spelled with ⟨keyword, _, rfl, isIf, spelled⟩
      rcases exists_condition conditionFormed spelled with ⟨bodyTokens, bodySpelled, extend⟩
      have body := (ih consequenceFormed bodySpelled).statement isStatement
      have branches : Derives (.seq [.rule .statement,
          .optional (.seq [.token .elseKeyword, .rule .statement])]) (bodyTokens ++ []) :=
        .seqCons body (.last .optionalNone)
      rw [List.append_nil] at branches
      have whole : Derives (.rule .ifStatement) (keyword :: _) :=
        .rule (.tokenCons (Token.kind_of_atom_eq_mark isIf) (extend branches))
      exact .rule (.choice (by simp) whole)
  | ifElse condition consequence alternative ih ihAlternative =>
      rcases formed with ⟨conditionFormed, ⟨consequenceFormed, isStatement⟩, _, alternativeFormed,
        alternativeIs⟩
      intro tokens spelled
      rcases List.map_eq_cons_iff.mp spelled with ⟨keyword, _, rfl, isIf, spelled⟩
      rcases exists_condition conditionFormed spelled with ⟨_, spelled, extend⟩
      rcases List.map_eq_append_iff.mp spelled with ⟨bodyTokens, _, rfl, bodySpelled, spelled⟩
      rcases List.map_eq_cons_iff.mp spelled with ⟨between, otherTokens, rfl, isElse, otherSpelled⟩
      have body := (ih consequenceFormed bodySpelled).statement isStatement
      have other := (ihAlternative alternativeFormed otherSpelled).statement alternativeIs
      have otherwise : Derives (.seq [.token .elseKeyword, .rule .statement])
          (between :: otherTokens) :=
        .tokenCons (Token.kind_of_atom_eq_mark isElse) (.last other)
      have whole : Derives (.rule .ifStatement) (keyword :: _) :=
        .rule (.tokenCons (Token.kind_of_atom_eq_mark isIf)
          (extend (.seqCons body (.last (.optionalSome otherwise)))))
      exact .rule (.choice (by simp) whole)
  | loop condition body ih =>
      rcases formed with ⟨conditionFormed, bodyFormed, isStatement⟩
      intro tokens spelled
      rcases List.map_eq_cons_iff.mp spelled with ⟨keyword, _, rfl, isWhile, spelled⟩
      rcases exists_condition conditionFormed spelled with ⟨bodyTokens, bodySpelled, extend⟩
      have repeated := (ih bodyFormed bodySpelled).statement isStatement
      have whole : Derives (.rule .whileStatement) (keyword :: _) :=
        .rule (.tokenCons (Token.kind_of_atom_eq_mark isWhile) (extend (.last repeated)))
      exact .rule (.choice (by simp) whole)

/-- The derivable lists of tokens are those of well-formed trees. -/
theorem derives_program_iff : Derives (.rule .program) tokens ↔
    ∃ stmts : List Stmt, Stmt.AllWellFormed stmts ∧
      tokens.map Token.atom = Stmt.atomsAll stmts := by
  constructor
  · exact Derives.holds Nonterminal.ofTree_of_holds
  · rintro ⟨stmts, formed, spelled⟩
    apply Derives.rule
    apply derives_many _ spelled
    intro stmt mem tokens spelled
    exact (derives_of_stmt (Stmt.allWellFormed_iff.mp formed stmt mem) spelled).declaration

end Derivations

end Grammar

/-- Without a limit, the parser reports nothing exactly on what the grammar derives, and the trees
it then returns spell the tokens that it read. The trees keep the payloads of literals but not the
kinds of their tokens, so the kinds come back exactly if the payloads agree with them. -/
theorem parse_accepts_grammar (limit : Int) (unlimited : limit ≤ 0) (tokens : List Token) :
    ((parse limit tokens).diagnostics = [] ↔
      Grammar.Derives (.rule .program) (tokens.takeWhile (·.kind ≠ .eof))) ∧
    ((parse limit tokens).diagnostics = [] → ∃ stmts : List Stmt,
      (parse limit tokens).outcome = .ok stmts ∧
      Stmt.atomsAll stmts = (tokens.takeWhile (·.kind ≠ .eof)).map Token.atom ∧
      ((Stmt.atomsAll stmts).map Atom.kind = (tokens.takeWhile (·.kind ≠ .eof)).map Token.kind ↔
        ∀ token ∈ tokens.takeWhile (·.kind ≠ .eof), token.Fits)) := by
  refine ⟨⟨?_, ?_⟩, ?_⟩
  · intro silent
    rcases parse_sound silent with ⟨stmts, _, reads⟩
    exact Grammar.derives_program_iff.mpr ⟨stmts, reads.formed, reads.atoms⟩
  · intro derives
    rcases Grammar.derives_program_iff.mp derives with ⟨stmts, formed, spelled⟩
    rw [parse_complete formed (Parse.Within.of_nonpos unlimited) spelled]
  · intro silent
    rcases parse_sound silent with ⟨stmts, returned, reads⟩
    refine ⟨stmts, returned, reads.atoms.symm, ?_⟩
    rw [← reads.atoms, List.map_map, List.map_inj_left]
    exact forall₂_congr fun token _ => Atom.kind_eq_iff_fits

/-- The statement `print name + 2.5 + "x";` is accepted and its tokens come back, also without a
token that ends the input. -/
theorem parse_accepts_sum :
    let name : Token := ⟨.identifier, "name", .nil, 1⟩
    let plus : Token := ⟨.plus, "+", .nil, 1⟩
    let number : Token := ⟨.number, "2.5", .number (.ofNumeral "2.5"), 1⟩
    let string : Token := ⟨.string, "\"x\"", .string "x", 1⟩
    let tokens : List Token := [⟨.printKeyword, "print", .nil, 1⟩, name, plus, number, plus, string,
      ⟨.semicolon, ";", .nil, 1⟩]
    (0 : Int) ≤ 0 ∧ (parse 0 tokens).diagnostics = [] ∧ ∃ stmts : List Stmt,
      (parse 0 tokens).outcome = .ok stmts ∧
      Stmt.atomsAll stmts = [.mark .printKeyword, .word name, .word plus, .value number.literal,
        .word plus, .value string.literal, .mark .semicolon] ∧
      (Stmt.atomsAll stmts).map Atom.kind = tokens.map Token.kind := by
  intro name plus number string tokens
  have accepts := parse_accepts_grammar 0 (by decide) tokens
  have derives : Grammar.Derives (.rule .program) tokens := by
    refine Grammar.derives_program_iff.mpr ⟨[.print (.binary (.binary (.name name) plus
      (.literal number.literal)) plus (.literal string.literal))], ?_, rfl⟩
    simp only [Stmt.AllWellFormed, Stmt.WellFormed, Expr.WellFormed, and_true, true_and]
    exact ⟨.term, rfl, by decide,
      ⟨⟨.term, rfl, by decide, ⟨rfl, by decide⟩, by decide⟩, by decide⟩, by decide⟩
  have silent := accepts.1.mpr derives
  rcases accepts.2 silent with ⟨stmts, returned, spelled, kinds⟩
  exact ⟨by decide, silent, stmts, returned, spelled, kinds.mpr (by decide)⟩

/-- A number token without a value is accepted as what `nil` is accepted as. -/
theorem parse_number_without_value :
    let tokens : List Token := [⟨.number, "1", .nil, 1⟩, ⟨.semicolon, ";", .nil, 1⟩]
    let stmts : List Stmt := [.expression (.literal .nil)]
    parse 0 tokens = ⟨.ok stmts, []⟩ ∧
      (Stmt.atomsAll stmts).map Atom.kind = [.nilKeyword, .semicolon] ∧
      tokens.map Token.kind = [.number, .semicolon] := by
  intro tokens stmts
  refine ⟨parse_complete ?_ (Parse.Within.of_nonpos (Int.le_refl 0)) ?_, by decide, by decide⟩
  · exact ⟨trivial, trivial⟩
  · decide

end LoxLang
