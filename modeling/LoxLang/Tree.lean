import LoxLang.Token

/-!
# Syntax trees

Expressions and statements as the parser builds them. Names and operators keep the tokens they were
read from, because errors at run time are reported at those tokens.

Trees can also be put together by hand, and then more is possible than any source denotes: an
operator may be any token, and a place where a phrase belongs may be empty (`missing`). Printing and
execution are defined on all trees.
-/

namespace LoxLang

/-- Expressions. -/
inductive Expr where
  | missing
  | literal (value : Literal)
  | group (inner : Expr)
  | unary (operator : Token) (operand : Expr)
  | binary (left : Expr) (operator : Token) (right : Expr)
  | logical (left : Expr) (operator : Token) (right : Expr)
  | name (token : Token)
  | assign (target : Token) (value : Expr)
deriving DecidableEq, Repr

/-- Statements. -/
inductive Stmt where
  | missing
  | expression (value : Expr)
  | print (value : Expr)
  | declare (name : Token) (initial : Option Expr)
  | block (body : List Stmt)
  | ifThen (condition : Expr) (consequence : Stmt)
  | ifElse (condition : Expr) (consequence alternative : Stmt)
  | while (condition : Expr) (body : Stmt)
deriving Repr

end LoxLang
