import LoxLang.Scope.Bindings
import LoxLang.Value

/-!
# Scopes

A running program sees a chain of scopes: the innermost one, in which declarations take effect, and
those around it out to the global one. A name means the value it has in the first scope of the chain
that binds it, and an assignment changes that binding; it never makes one.
-/

namespace LoxLang

/-- A chain of scopes, from the innermost outwards. There is always at least the global one. -/
structure Scopes where
  innermost : Bindings Value
  enclosing : List (Bindings Value)
deriving DecidableEq, Repr

namespace Scopes

/-- The chain that consists of a global scope alone. -/
def global (bindings : Bindings Value) : Scopes := ⟨bindings, []⟩

/-- The number of scopes around the innermost one. -/
def depth (scopes : Scopes) : Nat := scopes.enclosing.length

/-- The scopes of a chain, from the innermost outwards. -/
def toList (scopes : Scopes) : List (Bindings Value) := scopes.innermost :: scopes.enclosing

/-- The value of a name in the first scope that binds it. -/
def find? (scopes : Scopes) (name : Text) : Option Value := scopes.toList.findSome? (·.find? name)

/-- Binds a name in the innermost scope. -/
def define (scopes : Scopes) (name : Text) (value : Value) : Scopes :=
  { scopes with innermost := scopes.innermost.set name value }

/-- The scopes with the binding of a name changed in the first of them that binds it. -/
def assignIn (name : Text) (value : Value) : List (Bindings Value) → Option (List (Bindings Value))
  | [] => none
  | scope :: outer =>
    if scope.binds name then some (scope.set name value :: outer)
    else (assignIn name value outer).map (scope :: ·)

/-- The chain with the binding of a name changed in the first scope that binds it. -/
def assign? (scopes : Scopes) (name : Text) (value : Value) : Option Scopes :=
  if scopes.innermost.binds name then some (scopes.define name value)
  else (assignIn name value scopes.enclosing).map fun enclosing => { scopes with enclosing }

/-- The chain with a new scope inside it. -/
def push (scopes : Scopes) : Scopes := ⟨.empty, scopes.toList⟩

/-- The chain without its innermost scope; the global scope stays. -/
def pop (scopes : Scopes) : Scopes :=
  match scopes.enclosing with
  | [] => scopes
  | innermost :: enclosing => ⟨innermost, enclosing⟩

end Scopes

end LoxLang
