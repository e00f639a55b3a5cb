import LoxLang.Proofs.Execute.Simulation

/-!
# What a program can see of its scopes

A program sees a chain of scopes only through the values of the names that occur in it. In which
scope a name is bound, how many scopes there are and what else they bind makes no difference.

That looking up gives the same on two chains is not kept by a block on its own. If only one of two
chains binds a name in its innermost scope, an assignment changes that scope in the one chain and an
outer one in the other, and when the innermost scopes are gone the chains differ. Inside a block
this does not happen, because both runs have started the scope of the block empty and have declared
the same names in it. So the scopes that the runs have added agree one by one, and the chains below
them agree in what looking up gives.
-/

namespace LoxLang

/-- Chains that agree on names: after as many scopes as the level says, which agree one by one, come
chains in which looking up gives the same. -/
inductive Scopes.Agree (occurs : Text → Prop) : Nat → Scopes → Scopes → Prop
  | base {left right : Scopes}
      (found : ∀ name, occurs name → left.find? name = right.find? name) :
      Agree occurs 0 left right
  | within {level : Nat} {left right : Scopes} {leftInner rightInner : Bindings Value}
      (inner : ∀ name, occurs name → leftInner.find? name = rightInner.find? name)
      (outer : Agree occurs level left right) :
      Agree occurs (level + 1) (left.within leftInner) (right.within rightInner)

namespace Scopes.Agree

variable {occurs : Text → Prop} {level : Nat} {left right : Scopes} {name : Text}

theorem find?_eq (agree : Agree occurs level left right) (isName : occurs name) :
    left.find? name = right.find? name := by
  induction agree with
  | base found => exact found name isName
  | within inner outer ih => rw [find?_within, find?_within, inner name isName, ih]

theorem set {leftInner rightInner : Bindings Value}
    (inner : ∀ name, occurs name → leftInner.find? name = rightInner.find? name)
    (name : Text) (value : Value) :
    ∀ other, occurs other →
      (leftInner.set name value).find? other = (rightInner.set name value).find? other := by
  intro other isName
  rw [Bindings.find?_set, Bindings.find?_set, inner other isName]

theorem define (agree : Agree occurs level left right) (name : Text) (value : Value) :
    Agree occurs level (left.define name value) (right.define name value) := by
  cases agree with
  | base found =>
      apply base
      intro other isName
      rw [find?_define, find?_define, found other isName]
  | within inner outer => exact within (set inner name value) outer

theorem assign? (agree : Agree occurs level left right) (isName : occurs name) (value : Value) :
    Option.Rel (Agree occurs level) (left.assign? name value) (right.assign? name value) := by
  induction agree with
  | @base left right found =>
      -- Whether the name is bound at all is what looking it up tells.
      cases leftAssigned : left.assign? name value with
      | none =>
          have unbound := assign?_eq_none_iff.mp leftAssigned
          rw [found name isName] at unbound
          rw [assign?_eq_none_iff.mpr unbound]
          exact .none
      | some leftAfter =>
          cases rightAssigned : right.assign? name value with
          | none =>
              have unbound := assign?_eq_none_iff.mp rightAssigned
              rw [← found name isName] at unbound
              rw [assign?_eq_none_iff.mpr unbound] at leftAssigned
              cases leftAssigned
          | some rightAfter =>
              refine .some (base fun other isOther => ?_)
              rw [find?_of_assign? leftAssigned, find?_of_assign? rightAssigned,
                found other isOther]
  | @within level left right leftInner rightInner inner outer ih =>
      rw [assign?_within, assign?_within, Bindings.binds, Bindings.binds, inner name isName]
      split
      · exact .some (within (set inner name value) outer)
      · generalize left.assign? name value = leftAfter at ih
        generalize right.assign? name value = rightAfter at ih
        cases ih with
        | none => exact .none
        | some outer => exact .some (within inner outer)

theorem push (agree : Agree occurs level left right) :
    Agree occurs (level + 1) left.push right.push :=
  within (fun _ _ => rfl) agree

theorem pop (agree : Agree occurs (level + 1) left right) :
    Agree occurs level left.pop right.pop := by
  cases agree with
  | within inner outer => exact outer

end Scopes.Agree

/-- The simulation between runs on chains that agree on the names of the program. -/
def Simulation.agreement (occurs : Text → Prop) : Simulation occurs where
  scopes := Scopes.Agree occurs
  sinks := Eq
  find?_eq := Scopes.Agree.find?_eq
  assign? value agree isName := agree.assign? isName value
  define value agree _ := agree.define _ value
  push := Scopes.Agree.push
  pop := Scopes.Agree.pop
  write? := Sink.write?_congr

/-- Machines with the same output, in which looking up gives the same for each of the names. -/
structure Machine.Agree (names : List Text) (left right : Machine) : Prop where
  found : ∀ name ∈ names, left.scopes.find? name = right.scopes.find? name
  sink : left.sink = right.sink
  printed : left.printed = right.printed

/-- Executing statements on machines that agree on the names in them prints the same, ends the same
way, and leaves machines that agree on these names again. -/
theorem Stmt.executeAll_agree (budget : Nat) (stmts : List Stmt) (left right : Machine)
    (agree : left.Agree (namesAll stmts) right) :
    Paired (Machine.Agree (namesAll stmts)) id (executeAll budget stmts left)
      (executeAll budget stmts right) := by
  have start : Machine.Related (.agreement (· ∈ namesAll stmts)) #[] 0 left right :=
    ⟨.base agree.found, agree.sink, by rw [Array.empty_append, agree.printed]⟩
  have ended := executeAll_matches_self budget stmts (fun _ mem => mem) 0 left right start
  refine ended.imp fun leftAfter rightAfter states => ?_
  refine ⟨fun name mem => states.scopes.find?_eq mem, states.sink, ?_⟩
  rw [states.printed, Array.empty_append]

/-- The name is bound in the only scope of one machine and in the second of three of the other. -/
theorem Stmt.executeAll_agree_shadowed :
    let token := Token.ofName "x"
    let stmts : List Stmt :=
      [.expression (.assign token (.literal (.string "b"))),
       .block [.declare token (some (.name token)), .print (.name token)]]
    let bound := Bindings.empty.set "x" (Value.string "a")
    let left : Machine := ⟨.global bound, .unlimited, #[], #[]⟩
    let right : Machine :=
      ⟨⟨.empty, [bound, Bindings.empty.set "y" .nil]⟩, .unlimited, #[], #[]⟩
    left.Agree (namesAll stmts) right ∧
      Paired (Machine.Agree (namesAll stmts)) id (executeAll 0 stmts left)
        (executeAll 0 stmts right) := by
  intro token stmts bound left right
  have agree : left.Agree (namesAll stmts) right := ⟨by decide, rfl, rfl⟩
  exact ⟨agree, executeAll_agree 0 stmts left right agree⟩

end LoxLang
