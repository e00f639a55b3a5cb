import LoxLang.Parse

/-!
# The shape of syntax trees

A tree is written down as a sequence of *atoms*, each of which is what the tree keeps of one token:
of punctuation and of the words that introduce statements only the kind, of names and operators the
whole token, and of a literal its payload. `Expr.atoms` and `Stmt.atoms` list them in source order.

Not every tree is written in a way that reads back as itself. Operands must bind at least as tightly
as their operators ask for, declarations stand only where the grammar has them, and a branch that an
`else` follows must not end in a conditional that would take the `else` for its own. These are the
conditions of `Expr.WellFormed` and `Stmt.WellFormed`. They speak of kinds of tokens only.
-/

namespace LoxLang

/-- What a tree keeps of a token. -/
inductive Atom where
  | mark (kind : Token.Kind)
  | word (token : Token)
  | value (payload : Literal)
deriving DecidableEq, Repr

/-- The atom that a token becomes in a tree. -/
def Token.atom (token : Token) : Atom :=
  match token.kind with
  | .falseKeyword => .value (.bool false)
  | .trueKeyword => .value (.bool true)
  | .nilKeyword => .value .nil
  | .number | .string => .value token.literal
  | .identifier | .bang | .minus | .plus | .slash | .star | .bangEqual | .equalEqual | .greater
  | .greaterEqual | .less | .lessEqual | .andKeyword | .orKeyword => .word token
  | kind => .mark kind

namespace Token

theorem kind_of_atom_eq_mark {token : Token} {kind : Kind} (same : token.atom = .mark kind) :
    token.kind = kind := by
  unfold atom at same
  split at same <;> simp_all

theorem eq_of_atom_eq_word {token other : Token} (same : token.atom = .word other) :
    token = other := by
  unfold atom at same
  split at same <;> simp_all

theorem cases_of_atom_eq_value {token : Token} {payload : Literal}
    (same : token.atom = .value payload) :
    token.kind = .falseKeyword ∧ payload = .bool false ∨
      token.kind = .trueKeyword ∧ payload = .bool true ∨
      token.kind = .nilKeyword ∧ payload = .nil ∨
      (token.kind = .number ∨ token.kind = .string) ∧ payload = token.literal := by
  unfold atom at same
  split at same <;> simp_all

theorem unary_atom {token : Token} (mem : token.kind ∈ [.bang, .minus]) :
    token.atom = .word token := by
  simp only [List.mem_cons, List.not_mem_nil, or_false] at mem
  rcases mem with isBang | isMinus
  · simp [atom, isBang]
  · simp [atom, isMinus]

end Token

/-- The kind of the tokens that a payload belongs to. -/
def Literal.kind : Literal → Token.Kind
  | nil => .nilKeyword
  | bool false => .falseKeyword
  | bool true => .trueKeyword
  | number _ | int _ => .number
  | string _ => .string

/-- The payload of a number or string token is a number or a string. -/
def Token.Fits (token : Token) : Prop :=
  token.kind ∈ [.number, .string] → token.literal.kind = token.kind

instance (token : Token) : Decidable token.Fits := inferInstanceAs (Decidable (_ → _))

namespace Atom

/-- The kind of the token that an atom comes of, read off the payload if it is a value. -/
def kind : Atom → Token.Kind
  | mark kind => kind
  | word token => token.kind
  | value payload => payload.kind

theorem kind_eq_iff_fits {token : Token} : token.atom.kind = token.kind ↔ token.Fits := by
  rcases token with ⟨kind, lexeme, payload, line⟩
  cases kind with
  | number | string => simp [Token.atom, Atom.kind, Token.Fits]
  | _ => simp [Token.atom, Atom.kind, Token.Fits, Literal.kind]

/-- The atom can only come of a token of one of the kinds. -/
def Among (atom : Atom) (kinds : List Token.Kind) : Prop :=
  ∀ token : Token, token.atom = atom → token.kind ∈ kinds

theorem among_mark {kind : Token.Kind} {kinds : List Token.Kind} (mem : kind ∈ kinds) :
    (mark kind).Among kinds := by
  intro token same
  rwa [Token.kind_of_atom_eq_mark same]

theorem among_word {token : Token} {kinds : List Token.Kind} (mem : token.kind ∈ kinds) :
    (word token).Among kinds := by
  intro other same
  rwa [Token.eq_of_atom_eq_word same]

theorem among_value (payload : Literal) :
    (value payload).Among [.falseKeyword, .trueKeyword, .nilKeyword, .number, .string] := by
  intro token same
  rcases Token.cases_of_atom_eq_value same with
    ⟨kind, _⟩ | ⟨kind, _⟩ | ⟨kind, _⟩ | ⟨kind | kind, _⟩ <;> simp [kind]

theorem Among.mono {atom : Atom} {kinds more : List Token.Kind} (among : atom.Among kinds)
    (subset : kinds ⊆ more) : atom.Among more :=
  fun token same => subset (among token same)

end Atom

namespace Parse.Tier

/-- The place of a level among all levels of expressions; assignments come before the first, and
unary and primary expressions after the last. -/
def rank : Tier → Nat
  | or => 1
  | and => 2
  | equality => 3
  | comparison => 4
  | term => 5
  | factor => 6

/-- Whether the operators of a level may leave out their right operand. -/
def isLogical : Tier → Bool
  | or | and => true
  | equality | comparison | term | factor => false

/-- The level of an operator. -/
def ofKind? (kind : Token.Kind) : Option Tier := all.find? (kind ∈ ·.operators)

theorem ofKind?_of_mem {tier : Tier} {kind : Token.Kind} (mem : kind ∈ tier.operators) :
    ofKind? kind = some tier := by
  cases tier <;> simp only [operators, List.mem_cons, List.not_mem_nil, or_false] at mem <;>
    rcases mem with rfl | rfl | rfl | rfl <;> rfl

theorem eq_of_mem {tier other : Tier} {kind : Token.Kind} (mem : kind ∈ tier.operators)
    (memOther : kind ∈ other.operators) : tier = other := by
  have same := (ofKind?_of_mem mem).symm.trans (ofKind?_of_mem memOther)
  exact Option.some.inj same

theorem atom_of_mem {tier : Tier} {token : Token} (mem : token.kind ∈ tier.operators) :
    token.atom = .word token := by
  rcases token with ⟨kind, lexeme, payload, line⟩
  cases tier <;> simp only [operators, List.mem_cons, List.not_mem_nil, or_false] at mem <;>
    rcases mem with rfl | rfl | rfl | rfl <;> rfl

theorem eq_of_rank_eq {tier other : Tier} (same : tier.rank = other.rank) : tier = other := by
  cases tier <;> cases other <;> first | rfl | simp [rank] at same

theorem rank_le_six (tier : Tier) : tier.rank ≤ 6 := by
  cases tier <;> decide

end Parse.Tier

open Parse (Tier)

namespace Expr

/-- The tokens of an expression in source order, as far as the tree keeps them. -/
def atoms : Expr → List Atom
  | missing => []
  | literal value => [.value value]
  | group inner => .mark .leftParen :: (inner.atoms ++ [.mark .rightParen])
  | unary operator operand => .word operator :: operand.atoms
  | binary left operator right | logical left operator right =>
    left.atoms ++ .word operator :: right.atoms
  | name token => [.word token]
  | assign target value => .word target :: .mark .equal :: value.atoms

/-- The tier of an expression, from assignments (0) to primary expressions (8). -/
def tier : Expr → Nat
  | assign _ _ => 0
  | binary _ operator _ | logical _ operator _ =>
    ((Tier.ofKind? operator.kind).map Tier.rank).getD 0
  | unary _ _ => 7
  | missing | literal _ | group _ | name _ => 8

/-- The expressions that read back as themselves. -/
def WellFormed : Expr → Prop
  | missing => False
  | literal _ => True
  | group inner => inner.WellFormed
  | unary operator operand =>
    operator.kind ∈ [.bang, .minus] ∧ operand.WellFormed ∧ 7 ≤ operand.tier
  | binary left operator right =>
    ∃ tier : Tier, tier.isLogical = false ∧ operator.kind ∈ tier.operators ∧
      (left.WellFormed ∧ tier.rank ≤ left.tier) ∧ right.WellFormed ∧ tier.rank < right.tier
  | logical left operator right =>
    ∃ tier : Tier, tier.isLogical = true ∧ operator.kind ∈ tier.operators ∧
      (left.WellFormed ∧ tier.rank ≤ left.tier) ∧ right.WellFormed ∧ tier.rank < right.tier
  | name token => token.kind = .identifier
  | assign target value => target.kind = .identifier ∧ value.WellFormed

/-- How many levels of nesting an expression has below the one it stands on. Operators with two
operands add none. -/
def nesting : Expr → Nat
  | missing | literal _ | name _ => 0
  | group inner => 1 + inner.nesting
  | unary _ operand => 1 + operand.nesting
  | binary left _ right | logical left _ right => max left.nesting right.nesting
  | assign _ value => 1 + value.nesting

end Expr

namespace Parse.Tier

variable {tier : Tier} {left right : Expr} {operator : Token}

theorem combine_of_plain (tier : Tier) (plain : tier.isLogical = false) :
    tier.combine left operator right = .binary left operator right := by
  cases tier <;> first | rfl | simp [isLogical] at plain

theorem combine_of_logical (tier : Tier) (logical : tier.isLogical = true) :
    tier.combine left operator right = .logical left operator right := by
  cases tier <;> first | rfl | simp [isLogical] at logical

theorem combine_atoms : (tier.combine left operator right).atoms =
    left.atoms ++ .word operator :: right.atoms := by
  cases tier <;> rfl

theorem combine_nesting :
    (tier.combine left operator right).nesting = max left.nesting right.nesting := by
  cases tier <;> rfl

theorem combine_tier (mem : operator.kind ∈ tier.operators) :
    (tier.combine left operator right).tier = tier.rank := by
  cases tier <;> simp [combine, Expr.tier, ofKind?_of_mem mem]

theorem combine_wellFormed (mem : operator.kind ∈ tier.operators)
    (leftFormed : left.WellFormed) (leftTier : tier.rank ≤ left.tier)
    (rightFormed : right.WellFormed) (rightTier : tier.rank < right.tier) :
    (tier.combine left operator right).WellFormed := by
  cases tier <;> exact ⟨_, rfl, mem, ⟨leftFormed, leftTier⟩, rightFormed, rightTier⟩

end Parse.Tier

namespace Expr

/-- The kinds of tokens that an expression without operators starts with. -/
def primaryStarts : List Token.Kind :=
  [.leftParen, .identifier, .falseKeyword, .trueKeyword, .nilKeyword, .number, .string]

/-- The kinds of tokens that an expression starts with. -/
def starts : List Token.Kind := .bang :: .minus :: primaryStarts

theorem WellFormed.exists_first {expr : Expr} (formed : expr.WellFormed) :
    ∃ first others, expr.atoms = first :: others ∧ first.Among starts := by
  induction expr with
  | missing => exact formed.elim
  | literal payload =>
      exact ⟨_, _, rfl, (Atom.among_value payload).mono (by simp [starts, primaryStarts])⟩
  | group inner ih => exact ⟨_, _, rfl, Atom.among_mark (by simp [starts, primaryStarts])⟩
  | unary operator operand ih =>
      exact ⟨_, _, rfl, (Atom.among_word formed.1).mono (by simp [starts])⟩
  | binary left operator right ihLeft ihRight | logical left operator right ihLeft ihRight =>
      rcases formed with ⟨_, _, _, ⟨leftFormed, _⟩, _⟩
      rcases ihLeft leftFormed with ⟨first, others, spelled, among⟩
      exact ⟨first, _, by rw [atoms, spelled, List.cons_append], among⟩
  | name token =>
      have isName : token.kind = .identifier := formed
      exact ⟨_, _, rfl, Atom.among_word (by simp [isName, starts, primaryStarts])⟩
  | assign target value ih =>
      exact ⟨_, _, rfl, Atom.among_word (by simp [formed.1, starts, primaryStarts])⟩

end Expr

namespace Stmt

/-- Induction over statements, in which the statements of a block satisfy what is to be shown. -/
@[elab_as_elim, induction_eliminator]
theorem induction {motive : Stmt → Prop} (missing : motive missing)
    (expression : ∀ value, motive (expression value)) (print : ∀ value, motive (print value))
    (declare : ∀ name initial, motive (declare name initial))
    (block : ∀ body, (∀ stmt ∈ body, motive stmt) → motive (block body))
    (ifThen : ∀ condition consequence, motive consequence → motive (ifThen condition consequence))
    (ifElse : ∀ condition consequence alternative, motive consequence → motive alternative →
      motive (ifElse condition consequence alternative))
    (loop : ∀ condition body, motive body → motive (.while condition body)) :
    ∀ stmt, motive stmt := by
  refine @Stmt.rec motive (fun body => ∀ stmt ∈ body, motive stmt)
    missing expression print declare block ifThen ifElse loop ?_ ?_
  · simp
  · intro first others firstHolds othersHold
    simpa using ⟨firstHolds, othersHold⟩

mutual

/-- The tokens of a statement in source order, as far as the tree keeps them. -/
def atoms : Stmt → List Atom
  | missing => []
  | expression value => value.atoms ++ [.mark .semicolon]
  | print value => .mark .printKeyword :: (value.atoms ++ [.mark .semicolon])
  | declare name none => [.mark .varKeyword, .word name, .mark .semicolon]
  | declare name (some initial) =>
    .mark .varKeyword :: .word name :: .mark .equal :: (initial.atoms ++ [.mark .semicolon])
  | block body => .mark .leftBrace :: (atomsAll body ++ [.mark .rightBrace])
  | ifThen condition consequence =>
    .mark .ifKeyword :: .mark .leftParen :: (condition.atoms ++ .mark .rightParen ::
      consequence.atoms)
  | ifElse condition consequence alternative =>
    .mark .ifKeyword :: .mark .leftParen :: (condition.atoms ++ .mark .rightParen ::
      (consequence.atoms ++ .mark .elseKeyword :: alternative.atoms))
  | .while condition body =>
    .mark .whileKeyword :: .mark .leftParen :: (condition.atoms ++ .mark .rightParen :: body.atoms)

/-- The tokens of statements one after the other. -/
def atomsAll : List Stmt → List Atom
  | [] => []
  | first :: others => first.atoms ++ atomsAll others

end

/-- Whether a statement is a declaration. -/
def declares : Stmt → Bool
  | declare _ _ => true
  | missing | expression _ | print _ | block _ | ifThen _ _ | ifElse _ _ _ | .while _ _ => false

/-- Whether a statement ends in a conditional that an `else` after it would belong to. -/
def dangles : Stmt → Bool
  | ifThen _ _ => true
  | ifElse _ _ alternative => alternative.dangles
  | .while _ body => body.dangles
  | missing | expression _ | print _ | declare _ _ | block _ => false

mutual

/-- The statements and declarations that read back as themselves. -/
def WellFormed : Stmt → Prop
  | missing => False
  | expression value | print value => value.WellFormed
  | declare name none => name.kind = .identifier
  | declare name (some initial) => name.kind = .identifier ∧ initial.WellFormed
  | block body => AllWellFormed body
  | ifThen condition consequence =>
    condition.WellFormed ∧ consequence.WellFormed ∧ consequence.declares = false
  | ifElse condition consequence alternative =>
    condition.WellFormed ∧ (consequence.WellFormed ∧ consequence.declares = false) ∧
      consequence.dangles = false ∧ alternative.WellFormed ∧ alternative.declares = false
  | .while condition body => condition.WellFormed ∧ body.WellFormed ∧ body.declares = false

/-- Whether all of the statements are well formed. -/
def AllWellFormed : List Stmt → Prop
  | [] => True
  | first :: others => first.WellFormed ∧ AllWellFormed others

end

mutual

/-- How many levels of nesting a statement has below the one it stands on. Every statement adds one,
and so does every expression that stands in it; a declaration adds none of its own. -/
def nesting : Stmt → Nat
  | missing => 0
  | expression value | print value => 1 + (1 + value.nesting)
  | declare _ none => 0
  | declare _ (some initial) => 1 + initial.nesting
  | block body => 1 + nestingAll body
  | ifThen condition consequence => 1 + max (1 + condition.nesting) consequence.nesting
  | ifElse condition consequence alternative =>
    1 + max (1 + condition.nesting) (max consequence.nesting alternative.nesting)
  | .while condition body => 1 + max (1 + condition.nesting) body.nesting

/-- The deepest nesting among the statements. -/
def nestingAll : List Stmt → Nat
  | [] => 0
  | first :: others => max first.nesting (nestingAll others)

end

/-- The kinds of tokens that a statement starts with. -/
def starts : List Token.Kind :=
  [.printKeyword, .leftBrace, .ifKeyword, .whileKeyword] ++ Expr.starts

theorem WellFormed.exists_first_of_statement {stmt : Stmt} (formed : stmt.WellFormed)
    (isStatement : stmt.declares = false) :
    ∃ first others, stmt.atoms = first :: others ∧ first.Among starts := by
  cases stmt with
  | missing => exact formed.elim
  | declare name initial => simp [declares] at isStatement
  | expression value =>
      rcases Expr.WellFormed.exists_first formed with ⟨first, others, spelled, among⟩
      exact ⟨first, _, by rw [atoms, spelled, List.cons_append],
        among.mono (List.subset_append_right _ _)⟩
  | _ => exact ⟨_, _, rfl, Atom.among_mark (by simp [starts])⟩

theorem WellFormed.exists_first {stmt : Stmt} (formed : stmt.WellFormed) :
    ∃ first others, stmt.atoms = first :: others ∧ first.Among (.varKeyword :: starts) := by
  cases isStatement : stmt.declares with
  | false =>
      rcases formed.exists_first_of_statement isStatement with ⟨first, others, spelled, among⟩
      exact ⟨first, others, spelled, among.mono (List.subset_cons_self _ _)⟩
  | true =>
      cases stmt with
      | declare name initial =>
          cases initial <;> exact ⟨_, _, rfl, Atom.among_mark (by simp)⟩
      | _ => simp [declares] at isStatement

theorem atomsAll_eq_flatMap (stmts : List Stmt) : atomsAll stmts = stmts.flatMap atoms := by
  induction stmts with
  | nil => simp [atomsAll]
  | cons first others ih => simp [atomsAll, ih]

theorem allWellFormed_iff {stmts : List Stmt} :
    AllWellFormed stmts ↔ ∀ stmt ∈ stmts, stmt.WellFormed := by
  induction stmts with
  | nil => simp [AllWellFormed]
  | cons first others ih => simp [AllWellFormed, ih]

theorem forall_mem_atomsAll {holds : Atom → Prop} {stmts : List Stmt} :
    (∀ atom ∈ atomsAll stmts, holds atom) ↔ ∀ stmt ∈ stmts, ∀ atom ∈ stmt.atoms, holds atom := by
  simp only [atomsAll_eq_flatMap, List.mem_flatMap]
  constructor
  · intro all stmt stmtMem atom atomMem
    exact all atom ⟨stmt, stmtMem, atomMem⟩
  · rintro all atom ⟨stmt, stmtMem, atomMem⟩
    exact all stmt stmtMem atom atomMem

theorem nesting_le_nestingAll {stmt : Stmt} {stmts : List Stmt} (mem : stmt ∈ stmts) :
    stmt.nesting ≤ nestingAll stmts := by
  induction stmts with
  | nil => simp at mem
  | cons first others ih =>
      simp only [nestingAll]
      rcases List.mem_cons.mp mem with rfl | mem
      · omega
      · have := ih mem
        omega

theorem nestingAll_append (stmts others : List Stmt) :
    nestingAll (stmts ++ others) = max (nestingAll stmts) (nestingAll others) := by
  induction stmts with
  | nil => simp [nestingAll]
  | cons first rest ih => simp [nestingAll, ih, Nat.max_assoc]

end Stmt

end LoxLang
