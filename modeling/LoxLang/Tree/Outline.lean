import LoxLang.Tree

/-!
# Outlines of trees

The outline of a tree lists its nodes from the top down and from left to right, each with its
depth, the name of its construction and what it carries itself: the payload of a literal, or the
token of an operator or a name.
-/

namespace LoxLang

/-- What a node carries itself. -/
inductive Outline.Detail where
  | none
  | literal (value : Literal)
  | token (token : Token)
deriving DecidableEq, Repr

/-- A node of an outline. -/
structure Outline.Node where
  depth : Nat
  construction : String
  detail : Outline.Detail
deriving DecidableEq, Repr

namespace Expr

/-- The name of the construction of an expression, if it is there. -/
def construction? : Expr → Option String
  | missing => none
  | literal _ => some "Literal"
  | group _ => some "Grouping"
  | unary .. => some "Unary"
  | binary .. => some "Binary"
  | logical .. => some "Logical"
  | name _ => some "Variable"
  | assign .. => some "Assign"

/-- What an expression carries itself. -/
def detail : Expr → Outline.Detail
  | literal value => .literal value
  | unary operator _ | binary _ operator _ | logical _ operator _ => .token operator
  | name token | assign token _ => .token token
  | missing | group _ => .none

/-- The outline of an expression at a depth. -/
def outline (depth : Nat) (expr : Expr) : List Outline.Node :=
  match expr with
  | missing => []
  | literal _ | name _ => node
  | group inner | assign _ inner | unary _ inner => node ++ inner.outline (depth + 1)
  | binary left _ right | logical left _ right =>
    node ++ left.outline (depth + 1) ++ right.outline (depth + 1)
where
  node : List Outline.Node :=
    expr.construction?.toList.map fun construction => ⟨depth, construction, expr.detail⟩

end Expr

namespace Stmt

/-- The name of the construction of a statement, if it is there. -/
def construction? : Stmt → Option String
  | missing => none
  | expression _ => some "ExpressionStmt"
  | print _ => some "PrintStmt"
  | declare .. => some "VarStmt"
  | block _ => some "Block"
  | ifThen .. | ifElse .. => some "If"
  | .while .. => some "While"

/-- What a statement carries itself. -/
def detail : Stmt → Outline.Detail
  | declare name _ => .token name
  | _ => .none

mutual

/-- The outline of a statement at a depth. -/
def outline (depth : Nat) : Stmt → List Outline.Node
  | missing => []
  | expression value => ⟨depth, "ExpressionStmt", .none⟩ :: value.outline (depth + 1)
  | print value => ⟨depth, "PrintStmt", .none⟩ :: value.outline (depth + 1)
  | declare name initial =>
    ⟨depth, "VarStmt", .token name⟩ :: initial.toList.flatMap (Expr.outline (depth + 1))
  | block body => ⟨depth, "Block", .none⟩ :: outlines (depth + 1) body
  | ifThen condition consequence =>
    ⟨depth, "If", .none⟩ :: (condition.outline (depth + 1) ++ consequence.outline (depth + 1))
  | ifElse condition consequence alternative =>
    ⟨depth, "If", .none⟩ :: (condition.outline (depth + 1) ++ consequence.outline (depth + 1)
      ++ alternative.outline (depth + 1))
  | .while condition body =>
    ⟨depth, "While", .none⟩ :: (condition.outline (depth + 1) ++ body.outline (depth + 1))

/-- The outlines of statements at one depth, one after the other. -/
def outlines (depth : Nat) : List Stmt → List Outline.Node
  | [] => []
  | first :: others => first.outline depth ++ outlines depth others

end

end Stmt

end LoxLang
