import LoxLang.Proofs.Parse.Soundness

/-!
# Completeness of the parser

A well-formed tree is read back from its tokens: whatever stands behind them, as long as it cannot
belong to the tree, the reader returns the tree, reports nothing and stops behind the tokens. The
induction is on the tree, for every budget at once, so a reader may also run out of its budget;
`UpToBudget` keeps that possibility apart until the budget of a whole parse excludes it.

Operators that associate to the left are read by a loop, which meets the left operand before it can
know of the operator. `Spine` says what has happened up to there: the reader of a level has become
the loop of that level with the operand in its hand.
-/

namespace LoxLang

namespace Parse

variable {α β : Type}

/-- A result as expected, or none because the budget ran out. -/
def UpToBudget (result expected : EStateM.Result Halt Cursor α) : Prop :=
  result = expected ∨ ∃ stopped, result = .error .exhausted stopped

namespace UpToBudget

variable {result middle expected : EStateM.Result Halt Cursor α}

theorem refl (result : EStateM.Result Halt Cursor α) : UpToBudget result result := Or.inl rfl

theorem trans (first : UpToBudget result middle) (second : UpToBudget middle expected) :
    UpToBudget result expected := by
  rcases first with rfl | stopped
  · exact second
  · exact Or.inr stopped

theorem exhausted {cursor : Cursor} : UpToBudget (.error .exhausted cursor) expected :=
  Or.inr ⟨cursor, rfl⟩

theorem bind {first : Reader β} {next : β → Reader α} {cursor after : Cursor} {value : β}
    (firstReads : UpToBudget (first cursor) (.ok value after))
    (nextReads : UpToBudget (next value after) expected) :
    UpToBudget ((first >>= next) cursor) expected := by
  rcases firstReads with read | ⟨stopped, exhausted⟩
  · rwa [bind_of_ok read]
  · exact Or.inr ⟨stopped, bind_of_error exhausted⟩

end UpToBudget

namespace Cursor

variable {cursor : Cursor} {token : Token} {rest : List Token}

theorem moved_current : (cursor.moved (token :: rest)).current = token := rfl

end Cursor

section Moved

variable {cursor : Cursor} {token : Token} {rest : List Token}

theorem accept_moved {kinds : List Token.Kind} (mem : token.kind ∈ kinds) :
    accept kinds (cursor.moved (token :: rest)) = .ok (some token) (cursor.moved rest) :=
  accept_of_mem mem

theorem expect_moved {kind : Token.Kind} {fault : Fault} (same : token.kind = kind) :
    expect kind fault (cursor.moved (token :: rest)) = .ok token (cursor.moved rest) :=
  expect_of_kind same

theorem select_moved {otherwise : Reader α} {kinds : List Token.Kind} {next : Token → Reader α}
    {others : List (List Token.Kind × (Token → Reader α))} :
    primitives.select otherwise ((kinds, next) :: others) (cursor.moved (token :: rest)) =
      if token.kind ∈ kinds then next token (cursor.moved rest)
      else primitives.select otherwise others (cursor.moved (token :: rest)) :=
  select_cons

end Moved

/-- The reader reads tokens with the given atoms as the value, up to its budget, where the kind of
what comes after them permits it. -/
def Reads (reader : Reader α) (value : α) (atoms : List Atom) (follow : Token.Kind → Prop) : Prop :=
  ∀ (cursor : Cursor) (tokens rest : List Token), tokens.map Token.atom = atoms →
    follow (cursor.moved rest).current.kind →
      UpToBudget (reader (cursor.moved (tokens ++ rest))) (.ok value (cursor.moved rest))

theorem Reads.weaken {reader : Reader α} {value : α} {atoms : List Atom}
    {follow stronger : Token.Kind → Prop} (reads : Reads reader value atoms follow)
    (implies : ∀ kind, stronger kind → follow kind) : Reads reader value atoms stronger :=
  fun cursor tokens rest spelled follows => reads cursor tokens rest spelled (implies _ follows)

/-- A reader that spends its budget needs to be considered only where there is some. -/
theorem reads_of_succ (reader : Nat → Reader α) {value : α} {atoms : List Atom}
    {follow : Token.Kind → Prop} (zero : reader 0 = throw .exhausted)
    (succ : ∀ fuel, Reads (reader (fuel + 1)) value atoms follow) (fuel : Nat) :
    Reads (reader fuel) value atoms follow := by
  cases fuel with
  | zero =>
      intro cursor tokens rest _ _
      rw [zero]
      exact UpToBudget.exhausted
  | succ fuel => exact succ fuel

/-- The kinds of tokens that are no operators of the given levels. -/
def Outside (levels : List Tier) (kind : Token.Kind) : Prop :=
  ∀ tier ∈ levels, kind ∉ tier.operators

/-- The kinds of tokens that no expression goes on with. -/
def EndsExpr (kind : Token.Kind) : Prop := kind ≠ .equal ∧ Outside Tier.all kind

theorem endsExpr_rightParen : EndsExpr .rightParen := by
  simp [EndsExpr, Outside, Tier.all, Tier.operators]

theorem endsExpr_semicolon : EndsExpr .semicolon := by
  simp [EndsExpr, Outside, Tier.all, Tier.operators]

section Operators

variable {fuel : Nat} {operand : Reader Expr} {expr left right : Expr} {tier : Tier}
  {tighter : List Tier}

/-- Reading the expression at a level leads into the loop of that level, with the expression to its
left. -/
def Spine (fuel : Nat) (operand : Reader Expr) (tier : Tier) (tighter : List Tier) (expr : Expr) :
    Prop :=
  ∀ (cursor : Cursor) (tokens rest : List Token), tokens.map Token.atom = expr.atoms →
    Outside tighter (cursor.moved rest).current.kind →
      ∃ steps, UpToBudget
        (primitives.tiered fuel operand (tier :: tighter) (cursor.moved (tokens ++ rest)))
        (primitives.chain tier (primitives.tiered fuel operand tighter) steps expr
          (cursor.moved rest))

theorem spine_of_reads
    (reads : Reads (primitives.tiered fuel operand tighter) expr expr.atoms (Outside tighter)) :
    Spine fuel operand tier tighter expr := by
  intro cursor tokens rest spelled outside
  refine ⟨fuel, ?_⟩
  rw [Primitives.tiered]
  exact UpToBudget.bind (reads cursor tokens rest spelled outside) (UpToBudget.refl _)

theorem Spine.combine {operator : Token} (spine : Spine fuel operand tier tighter left)
    (mem : operator.kind ∈ tier.operators) (outside : Outside tighter operator.kind)
    (reads : Reads (primitives.tiered fuel operand tighter) right right.atoms (Outside tighter)) :
    Spine fuel operand tier tighter (tier.combine left operator right) := by
  intro cursor tokens rest spelled follows
  rw [Tier.combine_atoms, List.map_eq_append_iff] at spelled
  rcases spelled with ⟨leftTokens, others, rfl, leftSpelled, spelled⟩
  rcases List.map_eq_cons_iff.mp spelled with ⟨token, rightTokens, rfl, same, rightSpelled⟩
  obtain rfl := Token.eq_of_atom_eq_word same
  rw [List.append_assoc]
  rcases spine cursor leftTokens (token :: rightTokens ++ rest) leftSpelled outside
    with ⟨steps, entered⟩
  cases steps with
  | zero => exact ⟨0, entered.trans UpToBudget.exhausted⟩
  | succ steps =>
      refine ⟨steps, entered.trans ?_⟩
      rw [Primitives.chain, List.cons_append, bind_of_ok (accept_moved mem)]
      exact UpToBudget.bind (reads cursor rightTokens rest rightSpelled follows)
        (UpToBudget.refl _)

theorem Spine.reads (spine : Spine fuel operand tier tighter expr) :
    Reads (primitives.tiered fuel operand (tier :: tighter)) expr expr.atoms
      (Outside (tier :: tighter)) := by
  intro cursor tokens rest spelled outside
  rcases spine cursor tokens rest spelled (fun level mem => outside level (by simp [mem]))
    with ⟨steps, entered⟩
  refine entered.trans ?_
  cases steps with
  | zero => exact UpToBudget.exhausted
  | succ steps =>
      rw [Primitives.chain, bind_of_ok (accept_of_not_mem (outside tier (by simp)))]
      exact UpToBudget.refl _

/-- Reading the expression at every level that it fits leads into the loop of that level. -/
def Spines (fuel : Nat) (operand : Reader Expr) (expr : Expr) : Prop :=
  ∀ (tighter : List Tier) (tier : Tier), Tier.From (tier.rank + 1) tighter →
    tier.rank ≤ expr.tier → Spine fuel operand tier tighter expr

theorem Spines.reads (spines : Spines fuel operand expr)
    (operandReads : 7 ≤ expr.tier → Reads operand expr expr.atoms fun _ => True) :
    ∀ {levels : List Tier} {rank : Nat}, Tier.From rank levels → rank ≤ expr.tier →
      Reads (primitives.tiered fuel operand levels) expr expr.atoms (Outside levels)
  | [], rank, fromRank, fits => by
      obtain rfl : rank = 7 := fromRank
      exact (operandReads fits).weaken fun _ _ => trivial
  | tier :: tighter, rank, ⟨rankEq, fromNext⟩, fits => by
      subst rankEq
      exact (spines tighter tier fromNext fits).reads

/-- An expression is read by the tighter levels alone until its own level is reached. -/
theorem spines_of_own
    (own : ∀ (tighter : List Tier) (tier : Tier), Tier.From (tier.rank + 1) tighter →
      tier.rank = expr.tier → Spine fuel operand tier tighter expr)
    (operandReads : 7 ≤ expr.tier → Reads operand expr expr.atoms fun _ => True) :
    Spines fuel operand expr := by
  -- From the tightest level outwards: at a looser level than its own the expression is an operand.
  intro tighter
  induction tighter with
  | nil =>
      intro tier last fits
      rcases Nat.eq_or_lt_of_le fits with same | looser
      · exact own [] tier last same
      · have last : tier.rank + 1 = 7 := last
        exact spine_of_reads ((operandReads (by omega)).weaken fun _ _ => trivial)
  | cons next tighter ih =>
      intro tier fromNext fits
      rcases Nat.eq_or_lt_of_le fits with same | looser
      · exact own (next :: tighter) tier fromNext same
      · rcases fromNext with ⟨rankEq, fromLater⟩
        rw [← rankEq] at fromLater
        exact spine_of_reads (ih next fromLater (by omega)).reads

theorem spines_of_operand (operandTier : 7 ≤ expr.tier)
    (operandReads : Reads operand expr expr.atoms fun _ => True) : Spines fuel operand expr := by
  apply spines_of_own
  · intro tighter tier _ same
    have := tier.rank_le_six
    omega
  · intro _
    exact operandReads

theorem Tier.From.rank_le {levels : List Tier} : ∀ {rank : Nat}, Tier.From rank levels →
    ∀ tier ∈ levels, rank ≤ tier.rank := by
  induction levels with
  | nil => simp
  | cons first others ih =>
      rintro rank ⟨rfl, fromNext⟩ tier mem
      rcases List.mem_cons.mp mem with rfl | mem
      · exact Nat.le_refl _
      · exact Nat.le_of_succ_le (ih fromNext tier mem)

theorem spines_of_combine {operator : Token} (mem : operator.kind ∈ tier.operators)
    (leftFits : tier.rank ≤ left.tier) (leftSpines : Spines fuel operand left)
    (rightFits : tier.rank < right.tier)
    (rightReads : ∀ {levels : List Tier} {rank : Nat}, Tier.From rank levels →
      rank ≤ right.tier →
        Reads (primitives.tiered fuel operand levels) right right.atoms (Outside levels)) :
    Spines fuel operand (tier.combine left operator right) := by
  apply spines_of_own
  · intro tighter own fromNext same
    obtain rfl : own = tier := Tier.eq_of_rank_eq (same.trans (Tier.combine_tier mem))
    apply (leftSpines tighter own fromNext leftFits).combine mem
    · intro later laterMem shared
      have := fromNext.rank_le later laterMem
      rw [Tier.eq_of_mem mem shared] at this
      omega
    · exact rightReads fromNext rightFits
  · intro operandTier
    have := tier.rank_le_six
    rw [Tier.combine_tier mem] at operandTier
    omega

end Operators

section Expressions

variable {limit : Int} {depth : Nat} {expr : Expr}

theorem unary_reads_of_primary {first : Atom} {others : List Atom}
    (atoms : expr.atoms = first :: others) (among : first.Among Expr.primaryStarts)
    (reads : ∀ fuel, Reads (primary limit fuel depth) expr expr.atoms fun _ => True) (fuel : Nat) :
    Reads (unary limit fuel depth) expr expr.atoms fun _ => True := by
  refine reads_of_succ (unary limit · depth) (by rw [unary, Primitives.unary]) ?_ fuel
  intro fuel cursor tokens rest spelled follows
  rcases List.map_eq_cons_iff.mp (spelled.trans atoms) with ⟨token, others, rfl, same, _⟩
  have notOperator : token.kind ∉ [.bang, .minus] := by
    have mem := among token same
    intro isOperator
    simp only [List.mem_cons, List.not_mem_nil, or_false] at isOperator
    rcases isOperator with kind | kind <;> simp [kind, Expr.primaryStarts] at mem
  rw [unary, Primitives.unary, List.cons_append, bind_of_ok (accept_of_not_mem notOperator)]
  exact reads fuel cursor (token :: others) rest spelled follows

theorem literal_reads {payload : Literal} (fuel : Nat) :
    Reads (primary limit fuel depth) (.literal payload) [.value payload] fun _ => True := by
  refine reads_of_succ (primary limit · depth) (by rw [primary, Primitives.primary]) ?_ fuel
  intro fuel cursor tokens rest spelled _
  rcases List.map_eq_singleton_iff.mp spelled with ⟨token, rfl, same⟩
  rw [primary, Primitives.primary, List.singleton_append]
  rcases Token.cases_of_atom_eq_value same with
    ⟨kind, rfl⟩ | ⟨kind, rfl⟩ | ⟨kind, rfl⟩ | ⟨kind | kind, rfl⟩ <;>
  · simp only [select_moved, kind, List.mem_cons, List.not_mem_nil, reduceCtorEq, or_false,
      or_true, if_false, if_true]
    exact UpToBudget.refl _

theorem name_reads {name : Token} (isName : name.kind = .identifier) (fuel : Nat) :
    Reads (primary limit fuel depth) (.name name) [.word name] fun _ => True := by
  refine reads_of_succ (primary limit · depth) (by rw [primary, Primitives.primary]) ?_ fuel
  intro fuel cursor tokens rest spelled _
  rcases List.map_eq_singleton_iff.mp spelled with ⟨token, rfl, same⟩
  obtain rfl := Token.eq_of_atom_eq_word same
  rw [primary, Primitives.primary, List.singleton_append]
  simp only [select_moved, isName, List.mem_cons, List.not_mem_nil, reduceCtorEq, or_false,
    if_false, if_true]
  exact UpToBudget.refl _

theorem expression_reads
    (reads : ∀ fuel, Reads (assignment limit fuel (depth + 1)) expr expr.atoms EndsExpr)
    (within : Within limit (depth + 1 + expr.nesting)) (fuel : Nat) :
    Reads (expression limit fuel depth) expr expr.atoms EndsExpr := by
  refine reads_of_succ (expression limit · depth) (by rw [expression, Primitives.expression]) ?_
    fuel
  intro fuel cursor tokens rest spelled follows
  rw [expression, Primitives.expression, nested_of_within (within.mono (by omega))]
  exact reads fuel cursor tokens rest spelled follows

/-- Reading an expression and the token that closes it. -/
theorem closed_reads {fuel : Nat} {kind : Token.Kind} {fault : Fault} {next : Expr → Reader α}
    {expected : EStateM.Result Halt Cursor α} {cursor : Cursor} {tokens rest : List Token}
    {closing : Token} (reads : Reads (expression limit fuel depth) expr expr.atoms EndsExpr)
    (spelled : tokens.map Token.atom = expr.atoms) (ends : EndsExpr kind)
    (isClosing : closing.kind = kind)
    (nextReads : UpToBudget (next expr (cursor.moved rest)) expected) :
    UpToBudget ((do
      let value ← expression limit fuel depth
      let _ ← expect kind fault
      next value) (cursor.moved (tokens ++ closing :: rest))) expected := by
  apply UpToBudget.bind (reads cursor tokens (closing :: rest) spelled _)
  · rwa [bind_of_ok (expect_moved isClosing)]
  · rwa [Cursor.moved_current, isClosing]

theorem group_reads {inner : Expr}
    (reads : ∀ fuel, Reads (expression limit fuel depth) inner inner.atoms EndsExpr) (fuel : Nat) :
    Reads (primary limit fuel depth) (.group inner) (Expr.group inner).atoms fun _ => True := by
  refine reads_of_succ (primary limit · depth) (by rw [primary, Primitives.primary]) ?_ fuel
  intro fuel cursor tokens rest spelled _
  rcases List.map_eq_cons_iff.mp spelled with ⟨opening, others, rfl, isOpening, spelled⟩
  rcases List.map_eq_append_iff.mp spelled with ⟨innerTokens, last, rfl, innerSpelled, spelled⟩
  rcases List.map_eq_singleton_iff.mp spelled with ⟨closing, rfl, isClosing⟩
  replace isOpening := Token.kind_of_atom_eq_mark isOpening
  replace isClosing := Token.kind_of_atom_eq_mark isClosing
  rw [primary, Primitives.primary, List.cons_append]
  simp only [select_moved, isOpening, List.mem_cons, List.not_mem_nil, reduceCtorEq, or_false,
    if_false, if_true]
  rw [List.append_assoc]
  exact closed_reads (reads fuel) innerSpelled endsExpr_rightParen isClosing (UpToBudget.refl _)

theorem unary_reads {operator : Token} {operand : Expr}
    (isOperator : operator.kind ∈ [.bang, .minus])
    (reads : ∀ fuel, Reads (unary limit fuel (depth + 1)) operand operand.atoms fun _ => True)
    (within : Within limit (depth + 1)) (fuel : Nat) :
    Reads (unary limit fuel depth) (.unary operator operand) (Expr.unary operator operand).atoms
      fun _ => True := by
  refine reads_of_succ (unary limit · depth) (by rw [unary, Primitives.unary]) ?_ fuel
  intro fuel cursor tokens rest spelled follows
  rcases List.map_eq_cons_iff.mp spelled with ⟨token, others, rfl, same, operandSpelled⟩
  obtain rfl := Token.eq_of_atom_eq_word same
  rw [unary, Primitives.unary, List.cons_append, bind_of_ok (accept_moved isOperator)]
  simp only
  rw [bind_of_ok (descend_of_within within)]
  exact UpToBudget.bind (reads fuel cursor others rest operandSpelled follows)
    (UpToBudget.refl _)

theorem assignment_reads_of_tiers
    (reads : ∀ fuel, Reads (primitives.tiered fuel (unary limit fuel depth) Tier.all) expr
      expr.atoms (Outside Tier.all)) (fuel : Nat) :
    Reads (assignment limit fuel depth) expr expr.atoms EndsExpr := by
  refine reads_of_succ (assignment limit · depth) (by rw [assignment, Primitives.assignment]) ?_
    fuel
  rintro fuel cursor tokens rest spelled ⟨notEqual, outside⟩
  rw [assignment, Primitives.assignment]
  apply UpToBudget.bind (reads fuel cursor tokens rest spelled outside)
  rw [bind_of_ok (accept_of_not_mem (by simpa using notEqual))]
  exact UpToBudget.refl _

theorem assignment_reads {target : Token} {value : Expr}
    (targetReads : ∀ fuel, Reads (primitives.tiered fuel (unary limit fuel depth) Tier.all)
      (.name target) [.word target] (Outside Tier.all))
    (valueReads : ∀ fuel, Reads (assignment limit fuel (depth + 1)) value value.atoms EndsExpr)
    (within : Within limit (depth + 1)) (fuel : Nat) :
    Reads (assignment limit fuel depth) (.assign target value) (Expr.assign target value).atoms
      EndsExpr := by
  refine reads_of_succ (assignment limit · depth) (by rw [assignment, Primitives.assignment]) ?_
    fuel
  intro fuel cursor tokens rest spelled follows
  rcases List.map_eq_cons_iff.mp spelled with ⟨name, others, rfl, nameSame, othersSpelled⟩
  rcases List.map_eq_cons_iff.mp othersSpelled with
    ⟨equals, valueTokens, rfl, isEqual, valueSpelled⟩
  replace isEqual := Token.kind_of_atom_eq_mark isEqual
  rw [assignment, Primitives.assignment]
  apply UpToBudget.bind (targetReads fuel cursor [name] (equals :: (valueTokens ++ rest))
    (by simp [nameSame]) _)
  · rw [bind_of_ok (accept_moved (by simp [isEqual]))]
    simp only
    rw [bind_of_ok (descend_of_within within)]
    exact UpToBudget.bind (valueReads fuel cursor valueTokens rest valueSpelled follows)
      (UpToBudget.refl _)
  · rw [Cursor.moved_current, isEqual]
    simp [Outside, Tier.all, Tier.operators]

/-- The readers of expressions read an expression back. -/
structure ExprReads (limit : Int) (expr : Expr) : Prop where
  unary : 7 ≤ expr.tier → ∀ depth, Within limit (depth + expr.nesting) → ∀ fuel,
    Reads (unary limit fuel depth) expr expr.atoms fun _ => True
  spines : ∀ depth, Within limit (depth + expr.nesting) → ∀ fuel,
    Spines fuel (Parse.unary limit fuel depth) expr
  assignment : ∀ depth, Within limit (depth + expr.nesting) → ∀ fuel,
    Reads (assignment limit fuel depth) expr expr.atoms EndsExpr

namespace ExprReads

theorem tiers (reads : ExprReads limit expr) {depth : Nat}
    (within : Within limit (depth + expr.nesting)) (fuel : Nat) {levels : List Tier} {rank : Nat}
    (fromRank : Tier.From rank levels) (fits : rank ≤ expr.tier) :
    Reads (primitives.tiered fuel (Parse.unary limit fuel depth) levels) expr expr.atoms
      (Outside levels) :=
  (reads.spines depth within fuel).reads
    (fun operandTier => reads.unary operandTier depth within fuel)
    fromRank fits

theorem expression (reads : ExprReads limit expr) {depth : Nat}
    (within : Within limit (depth + (1 + expr.nesting))) (fuel : Nat) :
    Reads (Parse.expression limit fuel depth) expr expr.atoms EndsExpr := by
  rw [← Nat.add_assoc] at within
  exact expression_reads (reads.assignment (depth + 1) within) within fuel

theorem of_operand (operandTier : 7 ≤ expr.tier)
    (reads : ∀ depth, Within limit (depth + expr.nesting) → ∀ fuel,
      Reads (Parse.unary limit fuel depth) expr expr.atoms fun _ => True) :
    ExprReads limit expr where
  unary _ := reads
  spines depth within fuel := spines_of_operand operandTier (reads depth within fuel)
  assignment depth within := assignment_reads_of_tiers fun fuel =>
    (spines_of_operand operandTier (reads depth within fuel)).reads
      (fun _ => reads depth within fuel) Tier.from_all (by omega)

theorem of_combine {tier : Tier} {left right : Expr} {operator : Token}
    (mem : operator.kind ∈ tier.operators) (leftFits : tier.rank ≤ left.tier)
    (leftReads : ExprReads limit left) (rightFits : tier.rank < right.tier)
    (rightReads : ExprReads limit right) :
    ExprReads limit (tier.combine left operator right) := by
  have own := @Tier.combine_tier tier left right operator mem
  have spines : ∀ depth, Within limit (depth + (tier.combine left operator right).nesting) → ∀ fuel,
      Spines fuel (Parse.unary limit fuel depth) (tier.combine left operator right) := by
    intro depth within fuel
    rw [Tier.combine_nesting] at within
    exact spines_of_combine mem leftFits (leftReads.spines depth (within.mono (by omega)) fuel)
      rightFits (rightReads.tiers (within.mono (by omega)) fuel)
  have unfit : ¬7 ≤ (tier.combine left operator right).tier := by
    have := tier.rank_le_six
    omega
  refine ⟨fun operandTier => absurd operandTier unfit, spines, ?_⟩
  intro depth within
  apply assignment_reads_of_tiers
  intro fuel
  apply (spines depth within fuel).reads (fun operandTier => absurd operandTier unfit) Tier.from_all
  rw [own]
  cases tier <;> decide

end ExprReads

theorem name_exprReads {name : Token} (isName : name.kind = .identifier) :
    ExprReads limit (.name name) := by
  apply ExprReads.of_operand (by simp [Expr.tier])
  intro depth within
  apply unary_reads_of_primary rfl _ (name_reads isName)
  exact Atom.among_word (by simp [isName, Expr.primaryStarts])

theorem exprReads (limit : Int) {expr : Expr} (formed : expr.WellFormed) :
    ExprReads limit expr := by
  induction expr with
  | missing => exact formed.elim
  | literal payload =>
      apply ExprReads.of_operand (by simp [Expr.tier])
      intro depth within
      apply unary_reads_of_primary rfl _ literal_reads
      exact (Atom.among_value payload).mono (by simp [Expr.primaryStarts])
  | name token => exact name_exprReads formed
  | group inner ih =>
      apply ExprReads.of_operand (by simp [Expr.tier])
      intro depth within
      apply unary_reads_of_primary rfl _ (group_reads ((ih formed).expression within))
      exact Atom.among_mark (by simp [Expr.primaryStarts])
  | unary operator operand ih =>
      rcases formed with ⟨isOperator, operandFormed, operandTier⟩
      apply ExprReads.of_operand (by simp [Expr.tier])
      intro depth within
      simp only [Expr.nesting, ← Nat.add_assoc] at within
      exact unary_reads isOperator ((ih operandFormed).unary operandTier (depth + 1) within)
        (within.mono (by omega))
  | binary left operator right ihLeft ihRight =>
      rcases formed with ⟨tier, plain, mem, ⟨leftFormed, leftFits⟩, rightFormed, rightFits⟩
      have reads := ExprReads.of_combine mem leftFits (ihLeft leftFormed) rightFits
        (ihRight rightFormed)
      rwa [tier.combine_of_plain plain] at reads
  | logical left operator right ihLeft ihRight =>
      rcases formed with ⟨tier, logical, mem, ⟨leftFormed, leftFits⟩, rightFormed, rightFits⟩
      have reads := ExprReads.of_combine mem leftFits (ihLeft leftFormed) rightFits
        (ihRight rightFormed)
      rwa [tier.combine_of_logical logical] at reads
  | assign target value ih =>
      rcases formed with ⟨isName, valueFormed⟩
      have unfit : ¬1 ≤ (Expr.assign target value).tier := by simp [Expr.tier]
      refine ⟨fun fits => absurd (Nat.le_trans (by omega) fits) unfit, ?_, ?_⟩
      · intro depth within fuel tighter tier _ fits
        have : 1 ≤ tier.rank := by cases tier <;> decide
        exact absurd (Nat.le_trans this fits) unfit
      · intro depth within
        simp only [Expr.nesting, ← Nat.add_assoc] at within
        have shallow : Within limit (depth + 1) := within.mono (by omega)
        apply assignment_reads _ ((ih valueFormed).assignment (depth + 1) within) shallow
        intro fuel
        exact (name_exprReads isName).tiers (shallow.mono (by simp [Expr.nesting])) fuel
          Tier.from_all (by simp [Expr.tier])

end Expressions

section Statements

variable {limit : Int} {depth : Nat} {stmt : Stmt}

/-- The kinds of tokens that a statement does not go on with. -/
def Settles (stmt : Stmt) (kind : Token.Kind) : Prop :=
  stmt.dangles = true → kind ≠ .elseKeyword

theorem UpToBudget.recovering {reader : Reader α} {cursor finish : Cursor} {value : α}
    (reads : UpToBudget (reader cursor) (.ok value finish)) :
    UpToBudget (Parse.recovering reader cursor) (.ok (some value) finish) := by
  rcases reads with read | ⟨stopped, exhausted⟩
  · exact Or.inl (by simp [Parse.recovering, read])
  · exact Or.inr ⟨stopped, by simp [Parse.recovering, exhausted]⟩

theorem expressionStatement_reads {value : Expr} (formed : value.WellFormed)
    (within : Within limit (depth + (Stmt.expression value).nesting)) (fuel : Nat) :
    Reads (statement limit fuel depth) (.expression value) (Stmt.expression value).atoms
      fun _ => True := by
  refine reads_of_succ (statement limit · depth) (by rw [statement, Primitives.statement]) ?_ fuel
  intro fuel cursor tokens rest spelled _
  rw [Stmt.nesting, ← Nat.add_assoc] at within
  rcases List.map_eq_append_iff.mp spelled with ⟨valueTokens, last, rfl, valueSpelled, spelled⟩
  rcases List.map_eq_singleton_iff.mp spelled with ⟨closing, rfl, isClosing⟩
  replace isClosing := Token.kind_of_atom_eq_mark isClosing
  rcases formed.exists_first with ⟨first, others, atoms, among⟩
  rcases List.map_eq_cons_iff.mp (valueSpelled.trans atoms) with ⟨token, others, rfl, same, _⟩
  have mem := among token same
  rw [statement, Primitives.statement, nested_of_within (within.mono (by omega)), List.append_assoc,
    List.cons_append]
  have valueReads := (exprReads limit formed).expression within fuel
  simp only [Expr.starts, Expr.primaryStarts, List.mem_cons, List.not_mem_nil, or_false] at mem
  rcases mem with kind | kind | kind | kind | kind | kind | kind | kind | kind <;>
  · simp only [select_moved, kind, List.mem_singleton, reduceCtorEq, if_false, select_nil]
    exact closed_reads valueReads valueSpelled endsExpr_semicolon isClosing (UpToBudget.refl _)

theorem print_reads {value : Expr} (formed : value.WellFormed)
    (within : Within limit (depth + (Stmt.print value).nesting)) (fuel : Nat) :
    Reads (statement limit fuel depth) (.print value) (Stmt.print value).atoms fun _ => True := by
  refine reads_of_succ (statement limit · depth) (by rw [statement, Primitives.statement]) ?_ fuel
  intro fuel cursor tokens rest spelled _
  rw [Stmt.nesting, ← Nat.add_assoc] at within
  rcases List.map_eq_cons_iff.mp spelled with ⟨keyword, others, rfl, isPrint, spelled⟩
  rcases List.map_eq_append_iff.mp spelled with ⟨valueTokens, last, rfl, valueSpelled, spelled⟩
  rcases List.map_eq_singleton_iff.mp spelled with ⟨closing, rfl, isClosing⟩
  replace isPrint := Token.kind_of_atom_eq_mark isPrint
  replace isClosing := Token.kind_of_atom_eq_mark isClosing
  rw [statement, Primitives.statement, nested_of_within (within.mono (by omega)), List.cons_append]
  simp only [select_moved, isPrint, List.mem_singleton, reduceCtorEq, if_false, if_true]
  rw [List.append_assoc]
  exact closed_reads ((exprReads limit formed).expression within fuel) valueSpelled
    endsExpr_semicolon isClosing (UpToBudget.refl _)

/-- Reading a keyword and the condition in parentheses behind it. -/
theorem exists_guarded {fuel : Nat} {kind : Token.Kind} {condition : Expr} {tail : List Atom}
    {cursor : Cursor} {tokens : List Token} (formed : condition.WellFormed)
    (within : Within limit (depth + (1 + condition.nesting)))
    (spelled : tokens.map Token.atom =
      .mark kind :: .mark .leftParen :: (condition.atoms ++ .mark .rightParen :: tail)) :
    ∃ keyword guard others, tokens = keyword :: (guard ++ others) ∧ keyword.kind = kind ∧
      others.map Token.atom = tail ∧
      ∀ {next : Expr → Reader α} {expected : EStateM.Result Halt Cursor α} (rest : List Token)
        (opened closed : Fault),
        UpToBudget (next condition (cursor.moved (others ++ rest))) expected →
        UpToBudget ((do
          let _ ← expect .leftParen opened
          let value ← expression limit fuel depth
          let _ ← expect .rightParen closed
          next value) (cursor.moved (guard ++ others ++ rest))) expected := by
  rcases List.map_eq_cons_iff.mp spelled with ⟨keyword, behind, rfl, isKeyword, spelled⟩
  rcases List.map_eq_cons_iff.mp spelled with ⟨opening, behind, rfl, isOpening, spelled⟩
  rcases List.map_eq_append_iff.mp spelled
    with ⟨conditionTokens, behind, rfl, conditionSpelled, spelled⟩
  rcases List.map_eq_cons_iff.mp spelled with ⟨closing, others, rfl, isClosing, othersSpelled⟩
  replace isOpening := Token.kind_of_atom_eq_mark isOpening
  replace isClosing := Token.kind_of_atom_eq_mark isClosing
  refine ⟨keyword, opening :: (conditionTokens ++ [closing]), others, by simp,
    Token.kind_of_atom_eq_mark isKeyword, othersSpelled, ?_⟩
  intro next expected rest opened closed reads
  simp only [List.cons_append, List.append_assoc, List.nil_append]
  rw [bind_of_ok (expect_moved isOpening)]
  exact closed_reads ((exprReads limit formed).expression within fuel) conditionSpelled
    endsExpr_rightParen isClosing reads

theorem ifThen_reads {condition : Expr} {consequence : Stmt} (formed : condition.WellFormed)
    (within : Within limit (depth + (Stmt.ifThen condition consequence).nesting))
    (reads : ∀ fuel, Reads (statement limit fuel (depth + 1)) consequence consequence.atoms
      (Settles consequence)) (fuel : Nat) :
    Reads (statement limit fuel depth) (.ifThen condition consequence)
      (Stmt.ifThen condition consequence).atoms (· ≠ .elseKeyword) := by
  refine reads_of_succ (statement limit · depth) (by rw [statement, Primitives.statement]) ?_ fuel
  intro fuel cursor tokens rest spelled notElse
  rw [Stmt.nesting, ← Nat.add_assoc] at within
  have guardWithin : Within limit (depth + 1 + (1 + condition.nesting)) := within.mono (by omega)
  rcases exists_guarded formed guardWithin spelled
    with ⟨keyword, guard, bodyTokens, rfl, isIf, bodySpelled, guarded⟩
  rw [statement, Primitives.statement, nested_of_within (within.mono (by omega)), List.cons_append]
  simp only [select_moved, isIf, List.mem_singleton, reduceCtorEq, if_false, if_true]
  apply guarded
  apply UpToBudget.bind (reads fuel cursor bodyTokens rest bodySpelled fun _ => notElse)
  rw [bind_of_ok (accept_of_not_mem (by simpa using notElse))]
  exact UpToBudget.refl _

theorem ifElse_reads {condition : Expr} {consequence alternative : Stmt}
    (formed : condition.WellFormed)
    (within : Within limit (depth + (Stmt.ifElse condition consequence alternative).nesting))
    (settled : consequence.dangles = false)
    (reads : ∀ fuel, Reads (statement limit fuel (depth + 1)) consequence consequence.atoms
      (Settles consequence))
    (alternativeReads : ∀ fuel, Reads (statement limit fuel (depth + 1)) alternative
      alternative.atoms (Settles alternative)) (fuel : Nat) :
    Reads (statement limit fuel depth) (.ifElse condition consequence alternative)
      (Stmt.ifElse condition consequence alternative).atoms (Settles alternative) := by
  refine reads_of_succ (statement limit · depth) (by rw [statement, Primitives.statement]) ?_ fuel
  intro fuel cursor tokens rest spelled follows
  rw [Stmt.nesting, ← Nat.add_assoc] at within
  have guardWithin : Within limit (depth + 1 + (1 + condition.nesting)) := within.mono (by omega)
  rcases exists_guarded formed guardWithin spelled
    with ⟨keyword, guard, others, rfl, isIf, spelled, guarded⟩
  rcases List.map_eq_append_iff.mp spelled with ⟨bodyTokens, others, rfl, bodySpelled, spelled⟩
  rcases List.map_eq_cons_iff.mp spelled
    with ⟨between, alternativeTokens, rfl, isElse, alternativeSpelled⟩
  replace isElse := Token.kind_of_atom_eq_mark isElse
  rw [statement, Primitives.statement, nested_of_within (within.mono (by omega)), List.cons_append]
  simp only [select_moved, isIf, List.mem_singleton, reduceCtorEq, if_false, if_true]
  apply guarded
  rw [List.append_assoc]
  apply UpToBudget.bind (reads fuel cursor bodyTokens _ bodySpelled (by simp [Settles, settled]))
  rw [List.cons_append, bind_of_ok (accept_moved (by simp [isElse]))]
  exact UpToBudget.bind (alternativeReads fuel cursor _ rest alternativeSpelled follows)
    (UpToBudget.refl _)

theorem while_reads {condition : Expr} {body : Stmt} (formed : condition.WellFormed)
    (within : Within limit (depth + (Stmt.while condition body).nesting))
    (reads : ∀ fuel, Reads (statement limit fuel (depth + 1)) body body.atoms (Settles body))
    (fuel : Nat) :
    Reads (statement limit fuel depth) (.while condition body) (Stmt.while condition body).atoms
      (Settles body) := by
  refine reads_of_succ (statement limit · depth) (by rw [statement, Primitives.statement]) ?_ fuel
  intro fuel cursor tokens rest spelled follows
  rw [Stmt.nesting, ← Nat.add_assoc] at within
  have guardWithin : Within limit (depth + 1 + (1 + condition.nesting)) := within.mono (by omega)
  rcases exists_guarded formed guardWithin spelled
    with ⟨keyword, guard, bodyTokens, rfl, isWhile, bodySpelled, guarded⟩
  rw [statement, Primitives.statement, nested_of_within (within.mono (by omega)), List.cons_append]
  simp only [select_moved, isWhile, List.mem_singleton, reduceCtorEq, if_false, if_true]
  apply guarded
  exact UpToBudget.bind (reads fuel cursor bodyTokens rest bodySpelled follows)
    (UpToBudget.refl _)

theorem declaration_zero : declaration limit 0 depth = throw .exhausted := by
  rw [declaration, Primitives.declaration]
  rfl

theorem declare_reads {name : Token} {initial : Option Expr}
    (formed : (Stmt.declare name initial).WellFormed)
    (within : Within limit (depth + (Stmt.declare name initial).nesting)) (fuel : Nat) :
    Reads (declaration limit fuel depth) (some (.declare name initial))
      (Stmt.declare name initial).atoms fun _ => True := by
  refine reads_of_succ (declaration limit · depth) declaration_zero ?_ fuel
  intro fuel cursor tokens rest spelled _
  rw [declaration, Primitives.declaration]
  apply UpToBudget.recovering
  cases initial with
  | none =>
      have isName : name.kind = .identifier := formed
      rcases List.map_eq_cons_iff.mp spelled with ⟨keyword, others, rfl, isVar, spelled⟩
      rcases List.map_eq_cons_iff.mp spelled with ⟨token, others, rfl, same, spelled⟩
      rcases List.map_eq_singleton_iff.mp spelled with ⟨closing, rfl, isClosing⟩
      obtain rfl := Token.eq_of_atom_eq_word same
      replace isVar := Token.kind_of_atom_eq_mark isVar
      replace isClosing := Token.kind_of_atom_eq_mark isClosing
      simp only [List.cons_append, List.nil_append]
      rw [bind_of_ok (accept_moved (by simp [isVar]))]
      simp only
      rw [Primitives.variableDeclaration, bind_of_ok (expect_moved isName),
        bind_of_ok (accept_of_not_mem (by simp [Cursor.moved_current, isClosing]))]
      simp only
      rw [bind_of_ok (expect_moved isClosing)]
      exact UpToBudget.refl _
  | some initial =>
      rcases formed with ⟨isName, initialFormed⟩
      rcases List.map_eq_cons_iff.mp spelled with ⟨keyword, others, rfl, isVar, spelled⟩
      rcases List.map_eq_cons_iff.mp spelled with ⟨token, others, rfl, same, spelled⟩
      rcases List.map_eq_cons_iff.mp spelled with ⟨equals, others, rfl, isEqual, spelled⟩
      rcases List.map_eq_append_iff.mp spelled with ⟨valueTokens, last, rfl, valueSpelled, spelled⟩
      rcases List.map_eq_singleton_iff.mp spelled with ⟨closing, rfl, isClosing⟩
      obtain rfl := Token.eq_of_atom_eq_word same
      replace isVar := Token.kind_of_atom_eq_mark isVar
      replace isEqual := Token.kind_of_atom_eq_mark isEqual
      replace isClosing := Token.kind_of_atom_eq_mark isClosing
      simp only [List.cons_append, List.append_assoc, List.nil_append]
      rw [bind_of_ok (accept_moved (by simp [isVar]))]
      simp only
      rw [Primitives.variableDeclaration, bind_of_ok (expect_moved isName),
        bind_of_ok (accept_moved (by simp [isEqual]))]
      exact closed_reads ((exprReads limit initialFormed).expression within fuel) valueSpelled
        endsExpr_semicolon isClosing (UpToBudget.refl _)

/-- The readers of statements and declarations read a statement back. -/
structure StmtReads (limit : Int) (stmt : Stmt) : Prop where
  statement : stmt.declares = false → ∀ depth, Within limit (depth + stmt.nesting) → ∀ fuel,
    Reads (statement limit fuel depth) stmt stmt.atoms (Settles stmt)
  declaration : ∀ depth, Within limit (depth + stmt.nesting) → ∀ fuel,
    Reads (declaration limit fuel depth) (some stmt) stmt.atoms (Settles stmt)

theorem StmtReads.of_statement (formed : stmt.WellFormed) (isStatement : stmt.declares = false)
    (reads : ∀ depth, Within limit (depth + stmt.nesting) → ∀ fuel,
      Reads (Parse.statement limit fuel depth) stmt stmt.atoms (Settles stmt)) :
    StmtReads limit stmt := by
  refine ⟨fun _ => reads, ?_⟩
  intro depth within fuel
  refine reads_of_succ (Parse.declaration limit · depth) declaration_zero ?_ fuel
  intro fuel cursor tokens rest spelled follows
  rw [Parse.declaration, Primitives.declaration]
  apply UpToBudget.recovering
  rcases formed.exists_first_of_statement isStatement with ⟨first, others, atoms, among⟩
  rcases List.map_eq_cons_iff.mp (spelled.trans atoms) with ⟨token, others, rfl, same, _⟩
  have notVar : token.kind ∉ [.varKeyword] := by
    have mem := among token same
    intro isVar
    simp [List.mem_singleton.mp isVar, Stmt.starts, Expr.starts, Expr.primaryStarts] at mem
  rw [List.cons_append, bind_of_ok (accept_of_not_mem notVar)]
  exact reads depth within fuel cursor _ rest spelled follows

theorem first_of_body {body : List Stmt} {tokens : List Token}
    (formed : ∀ stmt ∈ body, stmt.WellFormed)
    (spelled : tokens.map Token.atom = body.flatMap Stmt.atoms) (cursor : Cursor)
    (rest : List Token) :
    (body = [] ∧ tokens = []) ∨
      (cursor.moved (tokens ++ rest)).current.kind ∈ .varKeyword :: Stmt.starts := by
  cases body with
  | nil => exact Or.inl ⟨rfl, List.map_eq_nil_iff.mp spelled⟩
  | cons stmt body =>
      rcases (formed stmt (by simp)).exists_first with ⟨first, others, atoms, among⟩
      rw [List.flatMap_cons, atoms, List.cons_append] at spelled
      rcases List.map_eq_cons_iff.mp spelled with ⟨token, others, rfl, same, _⟩
      exact Or.inr (among token same)

/-- Reading declarations up to a token that ends them. Both loops of the parser are of this form. -/
theorem declarations_reads (loop : Nat → List Stmt → Reader (List Stmt))
    {ends : Token.Kind → Prop}
    (zero : ∀ done, loop 0 done = throw .exhausted)
    (stop : ∀ fuel done (cursor : Cursor), ends cursor.current.kind →
      loop (fuel + 1) done cursor = .ok done.reverse cursor)
    (more : ∀ fuel done (cursor : Cursor), ¬ends cursor.current.kind →
      loop (fuel + 1) done cursor =
        (declaration limit fuel depth >>= fun stmt => loop fuel (stmt.toList ++ done)) cursor)
    (goesOn : ∀ kind ∈ .varKeyword :: Stmt.starts, ¬ends kind) (notElse : ¬ends .elseKeyword)
    {body : List Stmt} (formed : ∀ stmt ∈ body, stmt.WellFormed)
    (reads : ∀ stmt ∈ body, ∀ fuel, Reads (declaration limit fuel depth) (some stmt) stmt.atoms
      (Settles stmt)) :
    ∀ (done : List Stmt) (fuel : Nat), Reads (loop fuel done) (done.reverse ++ body)
      (body.flatMap Stmt.atoms) ends := by
  induction body with
  | nil =>
      intro done fuel
      refine reads_of_succ (loop · done) (zero done) ?_ fuel
      intro fuel cursor tokens rest spelled closes
      obtain rfl := List.map_eq_nil_iff.mp spelled
      rw [List.nil_append, stop fuel done _ closes, List.append_nil]
      exact UpToBudget.refl _
  | cons stmt body ih =>
      intro done fuel
      refine reads_of_succ (loop · done) (zero done) ?_ fuel
      intro fuel cursor tokens rest spelled closes
      have bodyFormed : ∀ stmt ∈ body, stmt.WellFormed :=
        fun stmt mem => formed stmt (by simp [mem])
      have starts := (first_of_body formed spelled cursor rest).resolve_left (by simp)
      rw [List.flatMap_cons] at spelled
      rcases List.map_eq_append_iff.mp spelled with ⟨stmtTokens, others, rfl, stmtSpelled, spelled⟩
      have settles : (cursor.moved (others ++ rest)).current.kind ≠ .elseKeyword := by
        rcases first_of_body bodyFormed spelled cursor rest with ⟨_, rfl⟩ | mem
        · intro isElse
          rw [List.nil_append] at isElse
          exact notElse (isElse ▸ closes)
        · intro isElse
          simp [isElse, Stmt.starts, Expr.starts, Expr.primaryStarts] at mem
      rw [more fuel done _ (goesOn _ starts), List.append_assoc]
      apply UpToBudget.bind
        (reads stmt (by simp) fuel cursor stmtTokens _ stmtSpelled fun _ => settles)
      have readsOn := ih bodyFormed (fun stmt mem => reads stmt (by simp [mem])) (stmt :: done) fuel
        cursor others rest spelled closes
      simpa using readsOn

theorem block_reads {body : List Stmt} (formed : ∀ stmt ∈ body, stmt.WellFormed)
    (reads : ∀ stmt ∈ body, ∀ fuel,
      Reads (declaration limit fuel (depth + 1)) (some stmt) stmt.atoms (Settles stmt))
    (within : Within limit (depth + (Stmt.block body).nesting)) (fuel : Nat) :
    Reads (statement limit fuel depth) (.block body) (Stmt.block body).atoms fun _ => True := by
  refine reads_of_succ (statement limit · depth) (by rw [statement, Primitives.statement]) ?_ fuel
  intro fuel cursor tokens rest spelled _
  rw [Stmt.nesting, ← Nat.add_assoc] at within
  rcases List.map_eq_cons_iff.mp spelled with ⟨opening, others, rfl, isOpening, spelled⟩
  rcases List.map_eq_append_iff.mp spelled with ⟨bodyTokens, last, rfl, bodySpelled, spelled⟩
  rcases List.map_eq_singleton_iff.mp spelled with ⟨closing, rfl, isClosing⟩
  replace isOpening := Token.kind_of_atom_eq_mark isOpening
  replace isClosing := Token.kind_of_atom_eq_mark isClosing
  rw [Stmt.atomsAll_eq_flatMap] at bodySpelled
  have bodyReads : Reads (block limit fuel (depth + 1) []) ([].reverse ++ body)
      (body.flatMap Stmt.atoms) (fun kind => kind = .rightBrace ∨ kind = .eof) := by
    apply declarations_reads (fun fuel done => block limit fuel (depth + 1) done)
      (fun done => by rw [block, Primitives.block]) (fun _ _ _ => block_of_stop)
      (fun _ _ _ => block_of_more) _ (by simp) formed reads
    simp [Stmt.starts, Expr.starts, Expr.primaryStarts]
  rw [statement, Primitives.statement, nested_of_within (within.mono (by omega)), List.cons_append]
  simp only [select_moved, isOpening, List.mem_singleton, reduceCtorEq, if_false, if_true]
  rw [List.append_assoc, List.singleton_append]
  apply UpToBudget.bind
    (bodyReads cursor bodyTokens (closing :: rest) bodySpelled (Or.inl isClosing))
  rw [bind_of_ok (expect_moved isClosing)]
  exact UpToBudget.refl _

theorem stmtReads (limit : Int) {stmt : Stmt} (formed : stmt.WellFormed) :
    StmtReads limit stmt := by
  induction stmt with
  | missing => exact formed.elim
  | declare name initial =>
      refine ⟨fun isStatement => by simp [Stmt.declares] at isStatement, ?_⟩
      intro depth within fuel
      exact (declare_reads formed within fuel).weaken fun _ _ => trivial
  | expression value =>
      apply StmtReads.of_statement formed rfl
      intro depth within fuel
      exact (expressionStatement_reads formed within fuel).weaken fun _ _ => trivial
  | print value =>
      apply StmtReads.of_statement formed rfl
      intro depth within fuel
      exact (print_reads formed within fuel).weaken fun _ _ => trivial
  | block body ih =>
      have bodyFormed := Stmt.allWellFormed_iff.mp formed
      apply StmtReads.of_statement formed rfl
      intro depth within fuel
      refine (block_reads bodyFormed ?_ within fuel).weaken fun _ _ => trivial
      intro stmt mem fuel
      have deepest := Stmt.nesting_le_nestingAll mem
      exact (ih stmt mem (bodyFormed stmt mem)).declaration (depth + 1)
        (within.mono (by simp only [Stmt.nesting]; omega)) fuel
  | ifThen condition consequence ih =>
      apply StmtReads.of_statement formed rfl
      rcases formed with ⟨conditionFormed, consequenceFormed, isStatement⟩
      intro depth within fuel
      refine (ifThen_reads conditionFormed within ?_ fuel).weaken fun _ settles => settles rfl
      exact (ih consequenceFormed).statement isStatement (depth + 1)
        (within.mono (by simp only [Stmt.nesting]; omega))
  | ifElse condition consequence alternative ih ihAlternative =>
      apply StmtReads.of_statement formed rfl
      rcases formed with ⟨conditionFormed, ⟨consequenceFormed, isStatement⟩, settled,
        alternativeFormed, alternativeIsStatement⟩
      intro depth within fuel
      apply ifElse_reads conditionFormed within settled
      · exact (ih consequenceFormed).statement isStatement (depth + 1)
          (within.mono (by simp only [Stmt.nesting]; omega))
      · exact (ihAlternative alternativeFormed).statement alternativeIsStatement (depth + 1)
          (within.mono (by simp only [Stmt.nesting]; omega))
  | loop condition body ih =>
      apply StmtReads.of_statement formed rfl
      rcases formed with ⟨conditionFormed, bodyFormed, isStatement⟩
      intro depth within fuel
      apply while_reads conditionFormed within
      exact (ih bodyFormed).statement isStatement (depth + 1)
        (within.mono (by simp only [Stmt.nesting]; omega))

theorem program_reads {stmts : List Stmt} (formed : ∀ stmt ∈ stmts, stmt.WellFormed)
    (within : Within limit (Stmt.nestingAll stmts)) (fuel : Nat) :
    Reads (program limit fuel []) stmts (stmts.flatMap Stmt.atoms) (· = .eof) := by
  have reads : Reads (program limit fuel []) ([].reverse ++ stmts) (stmts.flatMap Stmt.atoms)
      (· = .eof) := by
    apply declarations_reads (fun fuel done => program limit fuel done)
      (fun done => by rw [program, Primitives.program]) (fun _ _ _ => program_of_end)
      (fun _ _ _ => program_of_more) _ (by simp) formed
    · intro stmt mem
      exact (stmtReads limit (formed stmt mem)).declaration 0
        (within.mono (by simpa using Stmt.nesting_le_nestingAll mem))
    · simp [Stmt.starts, Expr.starts, Expr.primaryStarts]
  simpa using reads

end Statements

end Parse

open Parse

/-- Tokens whose atoms are those of well-formed statements parse as these statements, with nothing
to report, if the nesting limit permits it. -/
theorem parse_complete {limit : Int} {tokens : List Token} {stmts : List Stmt}
    (formed : Stmt.AllWellFormed stmts) (within : Within limit (Stmt.nestingAll stmts))
    (spelled : (tokens.takeWhile (·.kind ≠ .eof)).map Token.atom = Stmt.atomsAll stmts) :
    parse limit tokens = ⟨.ok stmts, []⟩ := by
  have reads := program_reads (Stmt.allWellFormed_iff.mp formed) within
    (budget (Cursor.ofTokens tokens).ahead.length) (Cursor.ofTokens tokens)
    (Cursor.ofTokens tokens).ahead [] (by rwa [← Stmt.atomsAll_eq_flatMap])
    (Cursor.current_kind_of_nil rfl)
  rw [List.append_nil] at reads
  change UpToBudget (program limit _ [] (Cursor.ofTokens tokens)) _ at reads
  rcases reads with read | ⟨stopped, exhausted⟩
  · simp only [parse, read]
    rfl
  · refine absurd ?_ (parse_outcome_ne_exhausted limit tokens)
    simp only [parse, exhausted]

end LoxLang
