import LoxLang.Proofs.Tree.Shape

/-!
# Trees with other tokens

Trees keep the tokens of names and operators, and with them their lines. Two trees are the same up
to lines if they are equal once all tokens are taken off their lines. Changing the tokens of a tree
in a way that keeps kinds changes neither its shape nor whether it is well formed.
-/

namespace LoxLang

/-- The token taken off its line. -/
def Token.unplaced (token : Token) : Token := { token with line := 0 }

/-- The atom with its token changed. -/
def Atom.relocate (change : Token → Token) : Atom → Atom
  | word token => word (change token)
  | mark kind => mark kind
  | value payload => value payload

/-- The expression with its tokens changed. -/
def Expr.relocate (change : Token → Token) : Expr → Expr
  | missing => missing
  | literal payload => literal payload
  | group inner => group (inner.relocate change)
  | unary operator operand => unary (change operator) (operand.relocate change)
  | binary left operator right =>
    binary (left.relocate change) (change operator) (right.relocate change)
  | logical left operator right =>
    logical (left.relocate change) (change operator) (right.relocate change)
  | name token => name (change token)
  | assign target value => assign (change target) (value.relocate change)

mutual

/-- The statement with its tokens changed. -/
def Stmt.relocate (change : Token → Token) : Stmt → Stmt
  | missing => missing
  | expression value => expression (value.relocate change)
  | print value => print (value.relocate change)
  | declare name initial => declare (change name) (initial.map (Expr.relocate change))
  | block body => block (relocateAll change body)
  | ifThen condition consequence =>
    ifThen (condition.relocate change) (consequence.relocate change)
  | ifElse condition consequence alternative =>
    ifElse (condition.relocate change) (consequence.relocate change) (alternative.relocate change)
  | .while condition body => .while (condition.relocate change) (body.relocate change)

/-- The statements with their tokens changed. -/
def Stmt.relocateAll (change : Token → Token) : List Stmt → List Stmt
  | [] => []
  | first :: others => first.relocate change :: relocateAll change others

end

theorem Stmt.relocateAll_eq_map (change : Token → Token) (stmts : List Stmt) :
    relocateAll change stmts = stmts.map (relocate change) := by
  induction stmts with
  | nil => simp [relocateAll]
  | cons first others ih => simp [relocateAll, ih]

variable {change : Token → Token}

theorem Token.atom_change (token : Token) (kind : (change token).kind = token.kind)
    (payload : (change token).literal = token.literal) :
    (change token).atom = token.atom.relocate change := by
  unfold atom
  rw [kind]
  split <;> simp [Atom.relocate, payload]

theorem Expr.atoms_relocate (expr : Expr) :
    (expr.relocate change).atoms = expr.atoms.map (Atom.relocate change) := by
  induction expr with
  | missing | literal | name => rfl
  | group inner ih => simp [relocate, atoms, Atom.relocate, ih]
  | unary operator operand ih => simp [relocate, atoms, Atom.relocate, ih]
  | binary left operator right ihLeft ihRight | logical left operator right ihLeft ihRight =>
      simp [relocate, atoms, Atom.relocate, ihLeft, ihRight]
  | assign target value ih => simp [relocate, atoms, Atom.relocate, ih]

theorem Stmt.atomsAll_relocate_of_forall {stmts : List Stmt}
    (each : ∀ stmt ∈ stmts, (stmt.relocate change).atoms = stmt.atoms.map (Atom.relocate change)) :
    atomsAll (relocateAll change stmts) = (atomsAll stmts).map (Atom.relocate change) := by
  induction stmts with
  | nil => simp [relocateAll, atomsAll]
  | cons first others ih =>
      rw [relocateAll, atomsAll, atomsAll, List.map_append, each first (by simp),
        ih fun stmt mem => each stmt (by simp [mem])]

theorem Stmt.atoms_relocate (stmt : Stmt) :
    (stmt.relocate change).atoms = stmt.atoms.map (Atom.relocate change) := by
  induction stmt with
  | missing => rfl
  | expression value | print value =>
      simp [relocate, atoms, Atom.relocate, Expr.atoms_relocate]
  | declare name initial =>
      cases initial <;> simp [relocate, atoms, Atom.relocate, Expr.atoms_relocate]
  | block body ih =>
      simp [relocate, atoms, Atom.relocate, atomsAll_relocate_of_forall ih]
  | ifThen condition consequence ih =>
      simp [relocate, atoms, Atom.relocate, Expr.atoms_relocate, ih]
  | ifElse condition consequence alternative ih ihAlternative =>
      simp [relocate, atoms, Atom.relocate, Expr.atoms_relocate, ih, ihAlternative]
  | loop condition body ih => simp [relocate, atoms, Atom.relocate, Expr.atoms_relocate, ih]

theorem Stmt.atomsAll_relocate (stmts : List Stmt) :
    atomsAll (stmts.map (relocate change)) = (atomsAll stmts).map (Atom.relocate change) := by
  rw [← relocateAll_eq_map]
  exact atomsAll_relocate_of_forall fun stmt _ => atoms_relocate stmt

theorem Expr.nesting_relocate (expr : Expr) : (expr.relocate change).nesting = expr.nesting := by
  induction expr <;> simp_all [relocate, nesting]

theorem Stmt.nestingAll_relocate_of_forall {stmts : List Stmt}
    (each : ∀ stmt ∈ stmts, (stmt.relocate change).nesting = stmt.nesting) :
    nestingAll (relocateAll change stmts) = nestingAll stmts := by
  induction stmts with
  | nil => simp [relocateAll]
  | cons first others ih =>
      rw [relocateAll, nestingAll, nestingAll, each first (by simp),
        ih fun stmt mem => each stmt (by simp [mem])]

theorem Stmt.nesting_relocate (stmt : Stmt) : (stmt.relocate change).nesting = stmt.nesting := by
  induction stmt with
  | block body ih => rw [relocate, nesting, nesting, nestingAll_relocate_of_forall ih]
  | declare name initial => cases initial <;> simp [relocate, nesting, Expr.nesting_relocate]
  | _ => simp_all [relocate, nesting, Expr.nesting_relocate]

theorem Stmt.nestingAll_relocate (stmts : List Stmt) :
    nestingAll (stmts.map (relocate change)) = nestingAll stmts := by
  rw [← relocateAll_eq_map]
  exact nestingAll_relocate_of_forall fun stmt _ => nesting_relocate stmt

section KeepsKinds

variable (keeps : ∀ token : Token, (change token).kind = token.kind)
include keeps

theorem Expr.tier_relocate (expr : Expr) : (expr.relocate change).tier = expr.tier := by
  cases expr <;> simp [relocate, tier, keeps]

theorem Expr.WellFormed.relocate {expr : Expr} (formed : expr.WellFormed) :
    (expr.relocate change).WellFormed := by
  induction expr with
  | missing => exact formed.elim
  | literal => trivial
  | group inner ih => exact ih formed
  | unary operator operand ih =>
      rcases formed with ⟨isOperator, operandFormed, fits⟩
      exact ⟨by rwa [keeps], ih operandFormed, by rwa [tier_relocate keeps]⟩
  | binary left operator right ihLeft ihRight | logical left operator right ihLeft ihRight =>
      rcases formed with ⟨tier, plain, mem, ⟨leftFormed, leftFits⟩, rightFormed, rightFits⟩
      exact ⟨tier, plain, by rwa [keeps], ⟨ihLeft leftFormed, by rwa [tier_relocate keeps]⟩,
        ihRight rightFormed, by rwa [tier_relocate keeps]⟩
  | name token => exact (keeps token).trans formed
  | assign target value ih => exact ⟨(keeps target).trans formed.1, ih formed.2⟩

omit keeps in
theorem Stmt.declares_relocate (stmt : Stmt) : (stmt.relocate change).declares = stmt.declares := by
  cases stmt <;> simp [relocate, declares]

omit keeps in
theorem Stmt.dangles_relocate (stmt : Stmt) : (stmt.relocate change).dangles = stmt.dangles := by
  induction stmt <;> simp_all [relocate, dangles]

theorem Stmt.WellFormed.relocate {stmt : Stmt} (formed : stmt.WellFormed) :
    (stmt.relocate change).WellFormed := by
  induction stmt with
  | missing => exact formed.elim
  | expression value | print value => exact Expr.WellFormed.relocate keeps formed
  | declare name initial =>
      cases initial with
      | none => exact (keeps name).trans formed
      | some value => exact ⟨(keeps name).trans formed.1, formed.2.relocate keeps⟩
  | block body ih =>
      rw [WellFormed, allWellFormed_iff] at formed
      rw [Stmt.relocate, WellFormed, allWellFormed_iff, relocateAll_eq_map]
      intro stmt mem
      rcases List.mem_map.mp mem with ⟨original, originalMem, rfl⟩
      exact ih original originalMem (formed original originalMem)
  | ifThen condition consequence ih =>
      rcases formed with ⟨conditionFormed, consequenceFormed, isStatement⟩
      exact ⟨conditionFormed.relocate keeps, ih consequenceFormed,
        (declares_relocate _).trans isStatement⟩
  | ifElse condition consequence alternative ih ihAlternative =>
      rcases formed with ⟨conditionFormed, ⟨consequenceFormed, isStatement⟩, settled,
        alternativeFormed, alternativeIs⟩
      exact ⟨conditionFormed.relocate keeps,
        ⟨ih consequenceFormed, (declares_relocate _).trans isStatement⟩,
        (dangles_relocate _).trans settled, ihAlternative alternativeFormed,
        (declares_relocate _).trans alternativeIs⟩
  | loop condition body ih =>
      rcases formed with ⟨conditionFormed, bodyFormed, isStatement⟩
      exact ⟨conditionFormed.relocate keeps, ih bodyFormed, (declares_relocate _).trans isStatement⟩

theorem Stmt.AllWellFormed.relocate {stmts : List Stmt} (formed : AllWellFormed stmts) :
    AllWellFormed (stmts.map (relocate change)) := by
  rw [allWellFormed_iff] at formed ⊢
  intro stmt mem
  rcases List.mem_map.mp mem with ⟨original, originalMem, rfl⟩
  exact (formed original originalMem).relocate keeps

end KeepsKinds

end LoxLang
