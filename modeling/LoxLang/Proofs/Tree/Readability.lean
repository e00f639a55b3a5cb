import LoxLang.Proofs.Number.Plain
import LoxLang.Proofs.RoundTrip
import LoxLang.Proofs.Session.Run
import LoxLang.Proofs.Text.Forms
import LoxLang.Tree.Printed

/-!
# Printed programs are unambiguous

The printed form of a program determines the program, up to the lines of its tokens. A tree is
printed as a form, and forms are uniquely readable, so it remains to tell trees from their forms.
Leaves are told by their first byte, and names by not being reserved. Among the phrases in
parentheses the number of operands tells `-` with one operand from `-` with two and a conditional
without `else` from one with it. Lexemes determine operators, and none is `group` or `=`.
-/

namespace LoxLang

namespace Token

/-- A name as it is read from a source. -/
def IsName (token : Token) : Prop := token.kind = .identifier ∧ token.Valid

/-- An operator as it is read from a source. -/
def IsOperator (token : Token) : Prop :=
  (token.lexeme, token.kind) ∈ Kind.operators ∧ token.Valid

variable {token other : Token}

theorem Valid.unplaced_eq (valid : token.Valid) (otherValid : other.Valid)
    (same : token.lexeme = other.lexeme) : token.unplaced = other.unplaced :=
  otherValid.means.2.2.1 token valid same

theorem Valid.kind_eq (valid : token.Valid) (otherValid : other.Valid)
    (same : token.lexeme = other.lexeme) : token.kind = other.kind := by
  have sameKind : token.unplaced.kind = other.unplaced.kind := by
    rw [valid.unplaced_eq otherValid same]
  exact sameKind

theorem Valid.isOperator (valid : token.Valid) (kinds : token.kind ∈ Kind.operators.map Prod.snd) :
    token.IsOperator := by
  have table : ∀ entry ∈ Kind.symbols ++ Kind.keywords, entry.2 ∈ Kind.operators.map Prod.snd →
      entry ∈ Kind.operators := by decide
  have plain : token.kind ≠ .identifier ∧ token.kind ≠ .number ∧ token.kind ≠ .string := by
    refine ⟨?_, ?_, ?_⟩ <;>
    · intro same
      rw [same] at kinds
      exact absurd kinds (by decide)
  refine ⟨?_, valid⟩
  unfold Valid at valid
  split at valid
  · exact absurd ‹_› plain.1
  · exact absurd ‹_› plain.2.1
  · exact absurd ‹_› plain.2.2
  · exact table _ valid.1 kinds

/-- The lexeme of an operator is a word, and none of the other heads. -/
theorem IsOperator.lexeme_spec (isOperator : token.IsOperator) :
    Form.IsWord token.lexeme ∧ token.lexeme ≠ ("group" : Text) ∧ token.lexeme ≠ ("=" : Text) := by
  have table : ∀ entry ∈ Kind.operators,
      Form.IsWord entry.1 ∧ entry.1 ≠ ("group" : Text) ∧ entry.1 ≠ ("=" : Text) := by decide
  exact table _ isOperator.1

theorem not_mem_breaks {byte : UInt8} (continues : Scanner.continuesWord byte = true) :
    byte ∉ Form.breaks := by
  have table : (Form.breaks.all fun byte => !Scanner.continuesWord byte) = true := rfl
  intro mem
  have stops := List.all_eq_true.mp table byte mem
  rw [continues] at stops
  cases stops

theorem IsWord.isWord {text : Text} (isWord : IsWord text) : Form.IsWord text := by
  rcases isWord with ⟨first, rest, rfl, starts, continues⟩
  refine ⟨by simp, List.forall_mem_cons.mpr ⟨not_mem_breaks ?_, ?_⟩⟩
  · simp [Scanner.continuesWord, starts]
  · exact fun byte mem => not_mem_breaks (continues byte mem)

theorem IsNumeral.isWord {text : Text} (isNumeral : IsNumeral text) : Form.IsWord text := by
  have digits : ∀ {text : Text}, IsDigits text → ∀ byte ∈ text, byte ∉ Form.breaks :=
    fun isDigits byte mem => not_mem_breaks (by simp [Scanner.continuesWord, isDigits.2 byte mem])
  rcases isNumeral with isDigits | ⟨whole, part, wholeDigits, partDigits, rfl⟩
  · exact ⟨isDigits.1, digits isDigits⟩
  · refine ⟨by simp, List.forall_mem_append.mpr ⟨digits wholeDigits, ?_⟩⟩
    exact List.forall_mem_cons.mpr ⟨by decide, digits partDigits⟩

theorem IsName.spec (isName : token.IsName) :
    IsWord token.lexeme ∧ token.lexeme ∉ Kind.keywords.map Prod.fst := by
  rcases isName with ⟨kind, valid⟩
  simp only [Valid, kind] at valid
  exact ⟨valid.1, valid.2.1⟩

end Token

section Leaves

/-- What a leaf looks like. -/
inductive Form.Lead where
  | word | numeral | quoted

/-- What a leaf looks like by its first byte. -/
def Form.lead : Text → Lead
  | [] => .word
  | first :: _ =>
    if first = Byte.quote then .quoted
    else if Byte.isDigit first || first = 0x2B then .numeral else .word

theorem Token.IsWord.lead_eq {text : Text} (isWord : IsWord text) : Form.lead text = .word := by
  rcases isWord with ⟨first, rest, rfl, starts, _⟩
  rcases Piece.apart_of_startsWord starts with ⟨_, notQuote, notDigit⟩
  have notPlus : first ≠ 0x2B := by
    rintro rfl
    exact absurd starts (by decide)
  simp [Form.lead, notQuote, notDigit, notPlus]

theorem Token.IsNumeral.lead_eq {text : Text} (isNumeral : IsNumeral text) :
    Form.lead text = .numeral := by
  rcases isNumeral.exists_digit with ⟨first, rest, rfl, isDigit⟩
  have notQuote : first ≠ Byte.quote := by
    rintro rfl
    exact absurd isDigit (by decide)
  simp [Form.lead, notQuote, isDigit]

theorem Number.IsUnsigned.plain_leaf {number : Number} (isUnsigned : number.IsUnsigned) :
    Form.IsWord number.plain ∧ Form.lead number.plain = .numeral := by
  rcases isUnsigned.bounded.lt_or_eq with finite | endless
  · have isNumeral := (isUnsigned.plain_reads finite).1
    exact ⟨isNumeral.isWord, isNumeral.lead_eq⟩
  · rw [isUnsigned.plain_of_infinite endless]
    exact ⟨by decide, rfl⟩

namespace Literal

variable {payload other : Literal}

/-- What a payload looks like in print. -/
def lead : Literal → Form.Lead
  | nil | bool _ => .word
  | number _ | int _ => .numeral
  | string _ => .quoted

theorem isUnsigned_of_lexical {number : Number} (lexical : (Atom.value (.number number)).Lexical) :
    number.IsUnsigned := by
  rcases lexical with ⟨numeral, _, rfl⟩
  exact Number.isUnsigned_ofNumeral numeral

theorem printed_leaf (lexical : (Atom.value payload).Lexical) :
    Form.IsLeaf payload.printed ∧ Form.lead payload.printed = payload.lead := by
  match payload with
  | nil | bool true | bool false => exact ⟨.inl (by decide), rfl⟩
  | number value =>
      rcases (isUnsigned_of_lexical lexical).plain_leaf with ⟨isWord, lead⟩
      exact ⟨.inl isWord, lead⟩
  | string value => exact ⟨.inr ⟨value, rfl⟩, rfl⟩
  | int value => exact lexical.elim

theorem printed_reserved (lexical : (Atom.value payload).Lexical) (isWord : payload.lead = .word) :
    payload.printed ∈ Token.Kind.keywords.map Prod.fst := by
  match payload with
  | nil | bool true | bool false => decide
  | number _ | int _ | string _ => cases isWord

/-- Payloads that are printed alike are the same. -/
theorem printed_injective (lexical : (Atom.value payload).Lexical)
    (otherLexical : (Atom.value other).Lexical) (same : payload.printed = other.printed) :
    payload = other := by
  have leads : payload.lead = other.lead := by
    rw [← (printed_leaf lexical).2, same, (printed_leaf otherLexical).2]
  match payload, other with
  | nil, nil | bool true, bool true | bool false, bool false => rfl
  | nil, bool true | nil, bool false | bool true, nil | bool false, nil | bool true, bool false
  | bool false, bool true => exact absurd same (by decide)
  | number _, number _ =>
      have sameNumber := (isUnsigned_of_lexical lexical).plain_injective
        (isUnsigned_of_lexical otherLexical) same
      rw [sameNumber]
  | string _, string _ =>
      have sameText := Text.quoted_append_injective (congrArg (· ++ []) same)
      rw [sameText.1]
  | int _, _ => exact lexical.elim
  | _, int _ => exact otherLexical.elim
  | nil, number _ | nil, string _ | bool _, number _ | bool _, string _ | number _, nil
  | number _, bool _ | number _, string _ | string _, nil | string _, bool _ | string _, number _ =>
      cases leads

end Literal

end Leaves

/-- The operators of a level are operators of trees, and `and` and `or` those of logical levels. -/
theorem Parse.Tier.operators_spec (tier : Tier) {kind : Token.Kind} (mem : kind ∈ tier.operators) :
    kind ∈ Token.Kind.operators.map Prod.snd ∧
      (kind ∈ [.andKeyword, .orKeyword] ↔ tier.isLogical = true) := by
  revert kind
  cases tier <;> decide

namespace Expr

/-- The expression can be read off its printed form, because all its tokens and payloads are as
they are in sources. -/
def Legible : Expr → Prop
  | missing => False
  | literal payload => (Atom.value payload).Lexical
  | group inner => inner.Legible
  | unary operator operand => operator.IsOperator ∧ operand.Legible
  | binary left operator right =>
    (operator.IsOperator ∧ operator.kind ∉ [.andKeyword, .orKeyword]) ∧ left.Legible ∧ right.Legible
  | logical left operator right =>
    (operator.IsOperator ∧ operator.kind ∈ [.andKeyword, .orKeyword]) ∧ left.Legible ∧ right.Legible
  | name token => token.IsName
  | assign target value => target.IsName ∧ value.Legible

/-- The form that an expression is printed as. -/
def form : Expr → Form
  | missing => .leaf missingMark
  | literal payload => .leaf payload.printed
  | group inner => .node "group" [inner.form]
  | unary operator operand => .node operator.lexeme [operand.form]
  | binary left operator right | logical left operator right =>
    .node operator.lexeme [left.form, right.form]
  | name token => .leaf token.lexeme
  | assign target value => .node "=" [.leaf target.lexeme, value.form]

theorem printedBefore_eq (expr : Expr) (rest : Text) :
    expr.printedBefore rest = expr.form.writtenBefore rest := by
  induction expr generalizing rest with
  | missing | literal | name => rfl
  | group inner ih =>
      have opening : ("(group " : Text) = 0x28 :: (("group" : Text) ++ [Byte.space]) := by decide
      simp [printedBefore, form, Form.writtenBefore, Form.writtenAllBefore, opening, ih]
  | unary operator operand ih =>
      simp [printedBefore, form, Form.writtenBefore, Form.writtenAllBefore, ih]
  | binary left operator right ihLeft ihRight | logical left operator right ihLeft ihRight =>
      simp [printedBefore, form, Form.writtenBefore, Form.writtenAllBefore, ihLeft, ihRight]
  | assign target value ih =>
      have opening : ("(= " : Text) = 0x28 :: (("=" : Text) ++ [Byte.space]) := by decide
      simp [printedBefore, form, Form.writtenBefore, Form.writtenAllBefore, opening, ih]

variable {expr other : Expr}

theorem WellFormed.legible (formed : expr.WellFormed)
    (lexical : ∀ atom ∈ expr.atoms, atom.Lexical) : expr.Legible := by
  induction expr with
  | missing => exact formed.elim
  | literal payload => exact lexical (.value payload) (by simp [atoms])
  | group inner ih =>
      refine ih formed fun atom mem => lexical atom ?_
      simp [atoms, mem]
  | unary operator operand ih =>
      rcases formed with ⟨isUnary, operandFormed, _⟩
      simp only [atoms, List.forall_mem_cons] at lexical
      refine ⟨lexical.1.isOperator ?_, ih operandFormed lexical.2⟩
      have kinds : ∀ kind ∈ [Token.Kind.bang, .minus],
          kind ∈ Token.Kind.operators.map Prod.snd := by decide
      exact kinds _ isUnary
  | binary left operator right ihLeft ihRight =>
      rcases formed with ⟨tier, plain, mem, ⟨leftFormed, _⟩, rightFormed, _⟩
      simp only [atoms, List.forall_mem_append, List.forall_mem_cons] at lexical
      rcases lexical with ⟨leftLexical, valid, rightLexical⟩
      rcases tier.operators_spec mem with ⟨isOperator, isLogical⟩
      refine ⟨⟨valid.isOperator isOperator, ?_⟩, ihLeft leftFormed leftLexical,
        ihRight rightFormed rightLexical⟩
      rw [isLogical, plain]
      simp
  | logical left operator right ihLeft ihRight =>
      rcases formed with ⟨tier, logical, mem, ⟨leftFormed, _⟩, rightFormed, _⟩
      simp only [atoms, List.forall_mem_append, List.forall_mem_cons] at lexical
      rcases lexical with ⟨leftLexical, valid, rightLexical⟩
      rcases tier.operators_spec mem with ⟨isOperator, isLogical⟩
      exact ⟨⟨valid.isOperator isOperator, isLogical.mpr logical⟩, ihLeft leftFormed leftLexical,
        ihRight rightFormed rightLexical⟩
  | name token => exact ⟨formed, lexical (.word token) (by simp [atoms])⟩
  | assign target value ih =>
      simp only [atoms, List.forall_mem_cons] at lexical
      exact ⟨⟨formed.1, lexical.1⟩, ih formed.2 lexical.2.2⟩

theorem Legible.proper (legible : expr.Legible) : expr.form.Proper := by
  induction expr with
  | missing => exact legible.elim
  | literal payload => exact .leaf (Literal.printed_leaf legible).1
  | group inner ih => exact .node (by decide) (by simpa using ih legible)
  | unary operator operand ih =>
      exact .node legible.1.lexeme_spec.1 (by simpa using ih legible.2)
  | binary left operator right ihLeft ihRight | logical left operator right ihLeft ihRight =>
      rcases legible with ⟨⟨isOperator, _⟩, leftLegible, rightLegible⟩
      exact .node isOperator.lexeme_spec.1
        (by simpa using ⟨ihLeft leftLegible, ihRight rightLegible⟩)
  | name token => exact .leaf (.inl legible.spec.1.isWord)
  | assign target value ih =>
      have targetProper : (Form.leaf target.lexeme).Proper := .leaf (.inl legible.1.spec.1.isWord)
      exact .node (by decide) (by simpa using ⟨targetProper, ih legible.2⟩)

/-- No literal is printed as a name is. -/
theorem name_ne_literal {token : Token} {payload : Literal} (isName : token.IsName)
    (lexical : (Atom.value payload).Lexical) : token.lexeme ≠ payload.printed := by
  intro same
  rcases isName.spec with ⟨isWord, free⟩
  rw [same] at isWord free
  have lead := isWord.lead_eq.symm.trans (Literal.printed_leaf lexical).2
  exact free (Literal.printed_reserved lexical lead.symm)

/-- Expressions with the same form are the same up to the lines of their tokens. -/
theorem Legible.form_injective (legible : expr.Legible) (otherLegible : other.Legible)
    (same : expr.form = other.form) :
    expr.relocate Token.unplaced = other.relocate Token.unplaced := by
  induction expr generalizing other with
  | missing => exact legible.elim
  | literal payload =>
      cases other with
      | missing => exact otherLegible.elim
      | literal value =>
          have samePrint := Form.leaf.inj same
          exact congrArg literal (Literal.printed_injective legible otherLegible samePrint)
      | name token => exact absurd (Form.leaf.inj same).symm (name_ne_literal otherLegible legible)
      | _ => cases same
  | name token =>
      cases other with
      | missing => exact otherLegible.elim
      | literal payload => exact absurd (Form.leaf.inj same) (name_ne_literal legible otherLegible)
      | name otherToken =>
          exact congrArg name (legible.2.unplaced_eq otherLegible.2 (Form.leaf.inj same))
      | _ => cases same
  | group inner ih =>
      cases other with
      | missing => exact otherLegible.elim
      | group otherInner =>
          simp only [form, Form.node.injEq, List.cons.injEq, and_true, true_and] at same
          exact congrArg group (ih legible otherLegible same)
      | unary operator operand =>
          exact absurd (Form.node.inj same).1.symm otherLegible.1.lexeme_spec.2.1
      | _ => simp [form] at same
  | unary operator operand ih =>
      cases other with
      | missing => exact otherLegible.elim
      | group inner => exact absurd (Form.node.inj same).1 legible.1.lexeme_spec.2.1
      | unary otherOperator otherOperand =>
          simp only [form, Form.node.injEq, List.cons.injEq, and_true] at same
          rw [relocate, relocate, legible.1.2.unplaced_eq otherLegible.1.2 same.1,
            ih legible.2 otherLegible.2 same.2]
      | _ => simp [form] at same
  | binary left operator right ihLeft ihRight =>
      rcases legible with ⟨⟨isOperator, plain⟩, leftLegible, rightLegible⟩
      cases other with
      | missing => exact otherLegible.elim
      | binary otherLeft otherOperator otherRight =>
          rcases otherLegible with ⟨⟨otherIs, _⟩, otherLeftLegible, otherRightLegible⟩
          simp only [form, Form.node.injEq, List.cons.injEq, and_true] at same
          rw [relocate, relocate, isOperator.2.unplaced_eq otherIs.2 same.1,
            ihLeft leftLegible otherLeftLegible same.2.1,
            ihRight rightLegible otherRightLegible same.2.2]
      | logical otherLeft otherOperator otherRight =>
          rcases otherLegible with ⟨⟨otherIs, logical⟩, _⟩
          rw [← isOperator.2.kind_eq otherIs.2 (Form.node.inj same).1] at logical
          exact absurd logical plain
      | assign target value => exact absurd (Form.node.inj same).1 isOperator.lexeme_spec.2.2
      | _ => simp [form] at same
  | logical left operator right ihLeft ihRight =>
      rcases legible with ⟨⟨isOperator, logical⟩, leftLegible, rightLegible⟩
      cases other with
      | missing => exact otherLegible.elim
      | binary otherLeft otherOperator otherRight =>
          rcases otherLegible with ⟨⟨otherIs, plain⟩, _⟩
          rw [isOperator.2.kind_eq otherIs.2 (Form.node.inj same).1] at logical
          exact absurd logical plain
      | logical otherLeft otherOperator otherRight =>
          rcases otherLegible with ⟨⟨otherIs, _⟩, otherLeftLegible, otherRightLegible⟩
          simp only [form, Form.node.injEq, List.cons.injEq, and_true] at same
          rw [relocate, relocate, isOperator.2.unplaced_eq otherIs.2 same.1,
            ihLeft leftLegible otherLeftLegible same.2.1,
            ihRight rightLegible otherRightLegible same.2.2]
      | assign target value => exact absurd (Form.node.inj same).1 isOperator.lexeme_spec.2.2
      | _ => simp [form] at same
  | assign target value ih =>
      cases other with
      | missing => exact otherLegible.elim
      | binary _ operator _ | logical _ operator _ =>
          exact absurd (Form.node.inj same).1.symm otherLegible.1.1.lexeme_spec.2.2
      | assign otherTarget otherValue =>
          simp only [form, Form.node.injEq, Form.leaf.injEq, List.cons.injEq, and_true, true_and]
            at same
          rw [relocate, relocate, legible.1.2.unplaced_eq otherLegible.1.2 same.1,
            ih legible.2 otherLegible.2 same.2]
      | _ => simp [form] at same

end Expr

namespace Stmt

mutual

/-- The statement can be read off its printed form. -/
def Legible : Stmt → Prop
  | missing => False
  | expression value | print value => value.Legible
  | declare name initial => name.IsName ∧ ∀ value ∈ initial, value.Legible
  | block body => AllLegible body
  | ifThen condition consequence => condition.Legible ∧ consequence.Legible
  | ifElse condition consequence alternative =>
    condition.Legible ∧ consequence.Legible ∧ alternative.Legible
  | .while condition body => condition.Legible ∧ body.Legible

/-- All of the statements can be read off their printed forms. -/
def AllLegible : List Stmt → Prop
  | [] => True
  | first :: others => first.Legible ∧ AllLegible others

end

mutual

/-- The form that a statement is printed as. -/
def form : Stmt → Form
  | missing => .leaf missingMark
  | expression value => .node "expr" [value.form]
  | print value => .node "print" [value.form]
  | declare name initial => .node "var" (.leaf name.lexeme :: (initial.map Expr.form).toList)
  | block body => .node "block" (forms body)
  | ifThen condition consequence => .node "if" [condition.form, consequence.form]
  | ifElse condition consequence alternative =>
    .node "if" [condition.form, consequence.form, alternative.form]
  | .while condition body => .node "while" [condition.form, body.form]

/-- The forms that statements are printed as. -/
def forms : List Stmt → List Form
  | [] => []
  | first :: others => first.form :: forms others

end

theorem allLegible_iff {stmts : List Stmt} :
    AllLegible stmts ↔ ∀ stmt ∈ stmts, stmt.Legible := by
  induction stmts with
  | nil => simp [AllLegible]
  | cons first others ih => simp [AllLegible, ih]

theorem forms_eq_map (stmts : List Stmt) : forms stmts = stmts.map form := by
  induction stmts with
  | nil => simp [forms]
  | cons first others ih => simp [forms, ih]

theorem printedAllBefore_eq_of_forall {stmts : List Stmt}
    (each : ∀ stmt ∈ stmts, ∀ rest, stmt.printedBefore rest = stmt.form.writtenBefore rest)
    (rest : Text) : printedAllBefore rest stmts = Form.writtenAllBefore rest (forms stmts) := by
  induction stmts with
  | nil => simp [printedAllBefore, forms, Form.writtenAllBefore]
  | cons first others ih =>
      rw [List.forall_mem_cons] at each
      rw [printedAllBefore, forms, Form.writtenAllBefore, each.1, ih each.2]

theorem printedBefore_eq (stmt : Stmt) (rest : Text) :
    stmt.printedBefore rest = stmt.form.writtenBefore rest := by
  induction stmt generalizing rest with
  | missing => rfl
  | expression value =>
      have opening : ("(expr " : Text) = 0x28 :: (("expr" : Text) ++ [Byte.space]) := by decide
      simp [printedBefore, form, Form.writtenBefore, Form.writtenAllBefore, opening,
        Expr.printedBefore_eq]
  | print value =>
      have opening : ("(print " : Text) = 0x28 :: (("print" : Text) ++ [Byte.space]) := by decide
      simp [printedBefore, form, Form.writtenBefore, Form.writtenAllBefore, opening,
        Expr.printedBefore_eq]
  | declare name initial =>
      have opening : ("(var " : Text) = 0x28 :: (("var" : Text) ++ [Byte.space]) := by decide
      cases initial <;>
        simp [printedBefore, form, Form.writtenBefore, Form.writtenAllBefore, opening,
          Expr.printedBefore_eq]
  | block body ih =>
      have opening : ("(block" : Text) = 0x28 :: ("block" : Text) := by decide
      simp [printedBefore, form, Form.writtenBefore, opening, printedAllBefore_eq_of_forall ih]
  | ifThen condition consequence ih =>
      have opening : ("(if " : Text) = 0x28 :: (("if" : Text) ++ [Byte.space]) := by decide
      simp [printedBefore, form, Form.writtenBefore, Form.writtenAllBefore, opening,
        Expr.printedBefore_eq, ih]
  | ifElse condition consequence alternative ih ihAlternative =>
      have opening : ("(if " : Text) = 0x28 :: (("if" : Text) ++ [Byte.space]) := by decide
      simp [printedBefore, form, Form.writtenBefore, Form.writtenAllBefore, opening,
        Expr.printedBefore_eq, ih, ihAlternative]
  | loop condition body ih =>
      have opening : ("(while " : Text) = 0x28 :: (("while" : Text) ++ [Byte.space]) := by decide
      simp [printedBefore, form, Form.writtenBefore, Form.writtenAllBefore, opening,
        Expr.printedBefore_eq, ih]

variable {stmt other : Stmt}

theorem WellFormed.legible (formed : stmt.WellFormed)
    (lexical : ∀ atom ∈ stmt.atoms, atom.Lexical) : stmt.Legible := by
  induction stmt with
  | missing => exact formed.elim
  | expression value =>
      simp only [atoms, List.forall_mem_append] at lexical
      exact Expr.WellFormed.legible formed lexical.1
  | print value =>
      simp only [atoms, List.forall_mem_append, List.forall_mem_cons] at lexical
      exact Expr.WellFormed.legible formed lexical.2.1
  | declare name initial =>
      cases initial with
      | none =>
          simp only [atoms, List.forall_mem_cons] at lexical
          exact ⟨⟨formed, lexical.2.1⟩, by simp⟩
      | some value =>
          simp only [atoms, List.forall_mem_append, List.forall_mem_cons] at lexical
          exact ⟨⟨formed.1, lexical.2.1⟩, by simpa using formed.2.legible lexical.2.2.2.1⟩
  | block body ih =>
      rw [WellFormed, allWellFormed_iff] at formed
      simp only [atoms, List.forall_mem_append, List.forall_mem_cons, forall_mem_atomsAll]
        at lexical
      rw [Legible, allLegible_iff]
      exact fun stmt mem => ih stmt mem (formed stmt mem) (lexical.2.1 stmt mem)
  | ifThen condition consequence ih =>
      simp only [atoms, List.forall_mem_append, List.forall_mem_cons] at lexical
      exact ⟨formed.1.legible lexical.2.2.1, ih formed.2.1 lexical.2.2.2.2⟩
  | ifElse condition consequence alternative ih ihAlternative =>
      simp only [atoms, List.forall_mem_append, List.forall_mem_cons] at lexical
      rcases formed with ⟨conditionFormed, ⟨consequenceFormed, _⟩, _, alternativeFormed, _⟩
      rcases lexical with ⟨_, _, conditionLexical, _, consequenceLexical, _, alternativeLexical⟩
      exact ⟨conditionFormed.legible conditionLexical, ih consequenceFormed consequenceLexical,
        ihAlternative alternativeFormed alternativeLexical⟩
  | loop condition body ih =>
      simp only [atoms, List.forall_mem_append, List.forall_mem_cons] at lexical
      exact ⟨formed.1.legible lexical.2.2.1, ih formed.2.1 lexical.2.2.2.2⟩

theorem Legible.proper (legible : stmt.Legible) : stmt.form.Proper := by
  induction stmt with
  | missing => exact legible.elim
  | expression value | print value =>
      exact .node (by decide) (by simpa using Expr.Legible.proper legible)
  | declare name initial =>
      have nameProper : (Form.leaf name.lexeme).Proper := .leaf (.inl legible.1.spec.1.isWord)
      cases initial with
      | none => exact .node (by decide) (by simpa using nameProper)
      | some value =>
          exact .node (by decide) (by simpa using ⟨nameProper, (legible.2 value rfl).proper⟩)
  | block body ih =>
      rw [Legible, allLegible_iff] at legible
      rw [form, forms_eq_map]
      refine .node (by decide) (List.forall_mem_map.mpr fun stmt mem => ?_)
      exact ih stmt mem (legible stmt mem)
  | ifThen condition consequence ih =>
      exact .node (by decide) (by simpa using ⟨legible.1.proper, ih legible.2⟩)
  | ifElse condition consequence alternative ih ihAlternative =>
      exact .node (by decide)
        (by simpa using ⟨legible.1.proper, ih legible.2.1, ihAlternative legible.2.2⟩)
  | loop condition body ih =>
      exact .node (by decide) (by simpa using ⟨legible.1.proper, ih legible.2⟩)

theorem forms_injective_of_forall {stmts others : List Stmt}
    (each : ∀ stmt ∈ stmts, ∀ other : Stmt, other.Legible → stmt.form = other.form →
      stmt.relocate Token.unplaced = other.relocate Token.unplaced)
    (legible : ∀ other ∈ others, other.Legible) (same : stmts.map form = others.map form) :
    stmts.map (relocate Token.unplaced) = others.map (relocate Token.unplaced) := by
  induction stmts generalizing others with
  | nil => rw [List.map_eq_nil_iff.mp same.symm]
  | cons stmt stmts ih =>
      cases others with
      | nil => cases same
      | cons other others =>
          rw [List.forall_mem_cons] at each legible
          rcases List.cons_eq_cons.mp same with ⟨first, rest⟩
          rw [List.map_cons, List.map_cons, each.1 other legible.1 first, ih each.2 legible.2 rest]

/-- Statements with the same form are the same up to the lines of their tokens. -/
theorem Legible.form_injective (legible : stmt.Legible) (otherLegible : other.Legible)
    (same : stmt.form = other.form) :
    stmt.relocate Token.unplaced = other.relocate Token.unplaced := by
  induction stmt generalizing other with
  | missing => exact legible.elim
  | expression value =>
      cases other with
      | missing => exact otherLegible.elim
      | expression otherValue =>
          simp only [form, Form.node.injEq, List.cons.injEq, and_true, true_and] at same
          exact congrArg expression (Expr.Legible.form_injective legible otherLegible same)
      | _ => exact absurd (Form.node.inj same).1 (by decide)
  | print value =>
      cases other with
      | missing => exact otherLegible.elim
      | print otherValue =>
          simp only [form, Form.node.injEq, List.cons.injEq, and_true, true_and] at same
          exact congrArg print (Expr.Legible.form_injective legible otherLegible same)
      | _ => exact absurd (Form.node.inj same).1 (by decide)
  | declare name initial =>
      cases other with
      | missing => exact otherLegible.elim
      | declare otherName otherInitial =>
          simp only [form, Form.node.injEq, Form.leaf.injEq, List.cons.injEq, true_and] at same
          rw [relocate, relocate, legible.1.2.unplaced_eq otherLegible.1.2 same.1]
          cases initial with
          | none =>
              cases otherInitial with
              | none => rfl
              | some otherValue => simp at same
          | some value =>
              cases otherInitial with
              | none => simp at same
              | some otherValue =>
                  have sameForm : value.form = otherValue.form := by simpa using same.2
                  rw [Option.map_some, Option.map_some, (legible.2 value rfl).form_injective
                    (otherLegible.2 otherValue rfl) sameForm]
      | _ => exact absurd (Form.node.inj same).1 (by decide)
  | block body ih =>
      cases other with
      | missing => exact otherLegible.elim
      | block otherBody =>
          rw [Legible, allLegible_iff] at legible otherLegible
          simp only [form, Form.node.injEq, true_and, forms_eq_map] at same
          rw [relocate, relocate, relocateAll_eq_map, relocateAll_eq_map]
          refine congrArg block (forms_injective_of_forall ?_ otherLegible same)
          exact fun stmt mem other => ih stmt mem (legible stmt mem)
      | _ => exact absurd (Form.node.inj same).1 (by decide)
  | ifThen condition consequence ih =>
      cases other with
      | missing => exact otherLegible.elim
      | ifThen otherCondition otherConsequence =>
          simp only [form, Form.node.injEq, List.cons.injEq, and_true, true_and] at same
          rw [relocate, relocate, legible.1.form_injective otherLegible.1 same.1,
            ih legible.2 otherLegible.2 same.2]
      | ifElse => simp [form] at same
      | _ => exact absurd (Form.node.inj same).1 (by decide)
  | ifElse condition consequence alternative ih ihAlternative =>
      cases other with
      | missing => exact otherLegible.elim
      | ifThen => simp [form] at same
      | ifElse otherCondition otherConsequence otherAlternative =>
          simp only [form, Form.node.injEq, List.cons.injEq, and_true, true_and] at same
          rw [relocate, relocate, legible.1.form_injective otherLegible.1 same.1,
            ih legible.2.1 otherLegible.2.1 same.2.1,
            ihAlternative legible.2.2 otherLegible.2.2 same.2.2]
      | _ => exact absurd (Form.node.inj same).1 (by decide)
  | loop condition body ih =>
      cases other with
      | missing => exact otherLegible.elim
      | «while» otherCondition otherBody =>
          simp only [form, Form.node.injEq, List.cons.injEq, and_true, true_and] at same
          rw [relocate, relocate, legible.1.form_injective otherLegible.1 same.1,
            ih legible.2 otherLegible.2 same.2]
      | _ => exact absurd (Form.node.inj same).1 (by decide)

/-- Programs that are printed alike are the same up to the lines of their tokens. -/
theorem printedProgram_injective {program others : List Stmt}
    (legible : ∀ stmt ∈ program, stmt.Legible) (othersLegible : ∀ stmt ∈ others, stmt.Legible)
    (same : printedProgram program = printedProgram others) :
    program.map (relocate Token.unplaced) = others.map (relocate Token.unplaced) := by
  have written : ∀ stmts : List Stmt, stmts.map printed =
      (stmts.map form).map (Form.writtenBefore []) := by
    intro stmts
    rw [List.map_map]
    exact List.map_congr_left fun stmt _ => printedBefore_eq stmt []
  rw [printedProgram, printedProgram, written, written] at same
  have sameForms := Form.lines_injective
    (List.forall_mem_map.mpr fun stmt mem => (legible stmt mem).proper)
    (List.forall_mem_map.mpr fun stmt mem => (othersLegible stmt mem).proper) same
  refine forms_injective_of_forall (fun stmt mem other => ?_) othersLegible sameForms
  exact (legible stmt mem).form_injective

end Stmt

theorem Token.Valid.lexical {token : Token} (valid : token.Valid) : token.atom.Lexical := by
  rcases token with ⟨kind, lexeme, literal, line⟩
  cases kind with
  | number =>
      obtain ⟨isNumeral, rfl⟩ : IsNumeral lexeme ∧ literal = .number (.ofNumeral lexeme) := valid
      exact ⟨lexeme, isNumeral, rfl⟩
  | string =>
      rcases valid with ⟨body, quoteless, _, rfl⟩
      exact quoteless
  | identifier | bang | minus | plus | slash | star | bangEqual | equalEqual | greater
  | greaterEqual | less | lessEqual | andKeyword | orKeyword => exact valid
  | _ => trivial

theorem Session.Compiles.legible {limit : Int} {source : Text} {program : List Stmt}
    (compiles : Compiles limit source program) : ∀ stmt ∈ program, stmt.Legible := by
  have silent : (parse limit (scan source).tokens).diagnostics = [] := by rw [compiles.2]
  rcases parse_sound silent with ⟨stmts, parsed, reads⟩
  rw [compiles.2] at parsed
  cases parsed
  have lexical : ∀ atom ∈ Stmt.atomsAll program, atom.Lexical := by
    rw [← reads.atoms]
    intro atom mem
    rcases List.mem_map.mp mem with ⟨token, tokenMem, rfl⟩
    have notEnd : token.kind ≠ .eof := by simpa using List.mem_takeWhile_imp tokenMem
    exact (valid_of_mem_scan ((List.takeWhile_sublist _).mem tokenMem) notEnd).lexical
  intro stmt mem
  exact (Stmt.allWellFormed_iff.mp reads.formed stmt mem).legible
    (Stmt.forall_mem_atomsAll.mp lexical stmt mem)

/-- The printed form of a program is unambiguous: sources that compile without a complaint and whose
programs are printed alike have the same program, up to the lines of its tokens. -/
theorem printed_unambiguous {limit otherLimit : Int} {source otherSource : Text}
    {program others : List Stmt} (compiles : Session.Compiles limit source program)
    (otherCompiles : Session.Compiles otherLimit otherSource others)
    (same : Stmt.printedProgram program = Stmt.printedProgram others) :
    program.map (Stmt.relocate Token.unplaced) = others.map (Stmt.relocate Token.unplaced) :=
  Stmt.printedProgram_injective compiles.legible otherCompiles.legible same

/-- A minus sign with one operand and with two, and parentheses in a string, on different lines. -/
theorem printed_unambiguous_minus :
    ∃ program others : List Stmt,
      Session.Compiles 0 "print -a - -(b); \"a) (b\";" program ∧
      Session.Compiles 0 "print -a\n- -(b); \"a) (b\";" others ∧ program ≠ others ∧
      Stmt.printedProgram program = "(print (- (- a) (- (group b))))\n(expr \"a) (b\")" ∧
      Stmt.printedProgram others = "(print (- (- a) (- (group b))))\n(expr \"a) (b\")" ∧
      program.map (Stmt.relocate Token.unplaced) = others.map (Stmt.relocate Token.unplaced) := by
  have first : Session.Compiles 0 "print -a - -(b); \"a) (b\";"
      [.print (.binary (.unary ⟨.minus, "-", .nil, 1⟩ (.name ⟨.identifier, "a", .nil, 1⟩))
        ⟨.minus, "-", .nil, 1⟩
        (.unary ⟨.minus, "-", .nil, 1⟩ (.group (.name ⟨.identifier, "b", .nil, 1⟩)))),
       .expression (.literal (.string "a) (b"))] := by
    refine ⟨by decide +kernel, parse_complete ?_ (Parse.Within.of_nonpos (Int.le_refl 0))
      (by decide +kernel)⟩
    exact ⟨⟨.term, rfl, by decide, ⟨⟨by decide, rfl, by decide⟩, by decide⟩,
      ⟨by decide, rfl, by decide⟩, by decide⟩, trivial, trivial⟩
  have second : Session.Compiles 0 "print -a\n- -(b); \"a) (b\";"
      [.print (.binary (.unary ⟨.minus, "-", .nil, 1⟩ (.name ⟨.identifier, "a", .nil, 1⟩))
        ⟨.minus, "-", .nil, 2⟩
        (.unary ⟨.minus, "-", .nil, 2⟩ (.group (.name ⟨.identifier, "b", .nil, 2⟩)))),
       .expression (.literal (.string "a) (b"))] := by
    refine ⟨by decide +kernel, parse_complete ?_ (Parse.Within.of_nonpos (Int.le_refl 0))
      (by decide +kernel)⟩
    exact ⟨⟨.term, rfl, by decide, ⟨⟨by decide, rfl, by decide⟩, by decide⟩,
      ⟨by decide, rfl, by decide⟩, by decide⟩, trivial, trivial⟩
  exact ⟨_, _, first, second, by simp, by decide +kernel, by decide +kernel,
    printed_unambiguous first second (by decide +kernel)⟩

end LoxLang
