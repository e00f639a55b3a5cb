import LoxLang.Failure
import LoxLang.Scope

/-!
# Forests of scopes

Scopes that are created one by one, each either on its own or inside a scope that was created
before, and numbered in that order. Different scopes may share the scope around them, so a change
made through one is seen through the others. Because a scope only ever refers to an earlier one,
following the references outwards ends.
-/

namespace LoxLang

/-- A scope with the number of the scope around it. -/
structure Forest.Node where
  bindings : Bindings Value
  parent : Option Nat
deriving DecidableEq, Repr

/-- Scopes by their numbers. -/
structure Forest where
  nodes : List Forest.Node
deriving DecidableEq, Repr

namespace Forest

/-- No scope yet. -/
def empty : Forest := ⟨[]⟩

/-- The forest with one more scope, which gets the next number. -/
def create (forest : Forest) (parent : Option Nat) : Forest :=
  ⟨forest.nodes ++ [⟨.empty, parent⟩]⟩

/-- The number that the next scope gets. -/
def size (forest : Forest) : Nat := forest.nodes.length

/-- The numbers of a scope and of those around it, from the inside out, among the first `bound`
scopes. A parent is looked for only among the scopes before its child. -/
def chainWithin (forest : Forest) : Nat → Nat → List Nat
  | 0, _ => []
  | bound + 1, id =>
    if id = bound then
      match forest.nodes[id]? with
      | none => []
      | some node =>
        match node.parent with
        | none => [id]
        | some parent => id :: chainWithin forest bound parent
    else chainWithin forest bound id

/-- The numbers of a scope and of those around it, from the inside out. -/
def chain (forest : Forest) (id : Nat) : List Nat := forest.chainWithin forest.size id

/-- The bindings of one scope. -/
def bindings (forest : Forest) (id : Nat) : Bindings Value :=
  (forest.nodes[id]?.map Node.bindings).getD .empty

/-- The first scope on the chain of a scope that binds a name. -/
def owner? (forest : Forest) (id : Nat) (name : Text) : Option Nat :=
  (forest.chain id).find? fun id => (forest.bindings id).binds name

/-- The value of a name as it is seen from a scope. -/
def find? (forest : Forest) (id : Nat) (name : Text) : Option Value :=
  (forest.owner? id name).bind fun owner => (forest.bindings owner).find? name

/-- Binds a name in a scope. -/
def define (forest : Forest) (id : Nat) (name : Text) (value : Value) : Forest :=
  ⟨forest.nodes.modify id fun node => { node with bindings := node.bindings.set name value }⟩

/-- The forest with the binding of a name that is seen from a scope changed, if there is one. -/
def assign? (forest : Forest) (id : Nat) (name : Text) (value : Value) : Option Forest :=
  (forest.owner? id name).map fun owner => forest.define owner name value

/-- The complaint about a token whose name is not bound in a scope or in those around it. -/
structure UndefinedVariable where
  token : Token
deriving DecidableEq, Repr

/-- The wording of the complaint. -/
def UndefinedVariable.message (complaint : UndefinedVariable) : Text :=
  RuntimeError.undefinedMessage complaint.token.lexeme

/-- The value of the name of a token as it is seen from a scope. -/
def get (forest : Forest) (id : Nat) (name : Token) : Except UndefinedVariable Value :=
  match forest.find? id name.lexeme with
  | some value => .ok value
  | none => .error ⟨name⟩

/-- Changes the binding of the name of a token that is seen from a scope. -/
def assign (id : Nat) (name : Token) (value : Value) : EStateM UndefinedVariable Forest Unit :=
  fun forest =>
    match forest.assign? id name.lexeme value with
    | some after => .ok () after
    | none => .error ⟨name⟩ forest

/-- The number of scopes around a scope. -/
def depth (forest : Forest) (id : Nat) : Nat := (forest.chain id).length - 1

/-- The names bound in a scope itself, in increasing order. -/
def names (forest : Forest) (id : Nat) : List Text := (forest.bindings id).names

end Forest

end LoxLang
