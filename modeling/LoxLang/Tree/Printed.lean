import LoxLang.Tree

/-!
# The printed form of trees

Trees are printed in prefix notation, every phrase but a name or a literal in parentheses and headed
by its operator or by the word for its construction. A missing phrase is printed as a mark of its
own. The printer writes a tree in front of a text that is already there, which makes it linear in
the size of its result; `printed` is the case of nothing to follow.
-/

namespace LoxLang

/-- The mark for a missing phrase. -/
def missingMark : Text := "<nil>"

namespace Expr

/-- The printed form of an expression, in front of `rest`. -/
def printedBefore (rest : Text) : Expr → Text
  | missing => missingMark ++ rest
  | literal value => value.printed ++ rest
  | group inner => "(group " ++ inner.printedBefore (0x29 :: rest)
  | unary operator operand =>
    0x28 :: (operator.lexeme ++ Byte.space :: operand.printedBefore (0x29 :: rest))
  | binary left operator right | logical left operator right =>
    0x28 :: (operator.lexeme ++
      Byte.space :: left.printedBefore (Byte.space :: right.printedBefore (0x29 :: rest)))
  | name token => token.lexeme ++ rest
  | assign target value =>
    "(= " ++ (target.lexeme ++ Byte.space :: value.printedBefore (0x29 :: rest))

/-- The printed form of an expression. -/
def printed (expr : Expr) : Text := expr.printedBefore []

end Expr

namespace Stmt

mutual

/-- The printed form of a statement, in front of `rest`. -/
def printedBefore (rest : Text) : Stmt → Text
  | missing => missingMark ++ rest
  | expression value => "(expr " ++ value.printedBefore (0x29 :: rest)
  | print value => "(print " ++ value.printedBefore (0x29 :: rest)
  | declare name none => "(var " ++ (name.lexeme ++ 0x29 :: rest)
  | declare name (some initial) =>
    "(var " ++ (name.lexeme ++ Byte.space :: initial.printedBefore (0x29 :: rest))
  | block body => "(block" ++ printedAllBefore (0x29 :: rest) body
  | ifThen condition consequence =>
    "(if " ++ condition.printedBefore (Byte.space :: consequence.printedBefore (0x29 :: rest))
  | ifElse condition consequence alternative =>
    "(if " ++ condition.printedBefore (Byte.space ::
      consequence.printedBefore (Byte.space :: alternative.printedBefore (0x29 :: rest)))
  | .while condition body =>
    "(while " ++ condition.printedBefore (Byte.space :: body.printedBefore (0x29 :: rest))

/-- The printed forms of statements, each after a space, in front of `rest`. -/
def printedAllBefore (rest : Text) : List Stmt → Text
  | [] => rest
  | first :: others => Byte.space :: first.printedBefore (printedAllBefore rest others)

end

/-- The printed form of a statement. -/
def printed (stmt : Stmt) : Text := stmt.printedBefore []

/-- The printed form of a program, a line for each statement. -/
def printedProgram (program : List Stmt) : Text :=
  Text.join [Byte.newline] (program.map printed)

end Stmt

end LoxLang
