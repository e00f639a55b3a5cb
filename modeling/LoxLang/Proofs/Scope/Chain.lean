import LoxLang.Scope

/-!
# Chains of scopes

The laws of looking up, binding and assigning names in a chain of scopes. A chain with more than the
global scope is `outer.within inner`, the scope `inner` put inside the chain `outer`. Each operation
on it looks at `inner` first and falls back on `outer`, so facts about chains go by induction from
the outside in.
-/

namespace LoxLang

namespace Scopes

variable {scopes outer after : Scopes} {inner : Bindings Value} {name : Text} {value : Value}

/-- The chain with one more scope inside it. -/
def within (outer : Scopes) (inner : Bindings Value) : Scopes := ⟨inner, outer.toList⟩

theorem depth_within (outer : Scopes) (inner : Bindings Value) :
    (outer.within inner).depth = outer.depth + 1 :=
  rfl

theorem eq_within_of_depth_eq {depth : Nat} (deep : scopes.depth = depth + 1) :
    ∃ outer inner, scopes = within outer inner ∧ outer.depth = depth := by
  rcases scopes with ⟨inner, enclosing⟩
  cases enclosing with
  | nil => simp [Scopes.depth] at deep
  | cons first others => exact ⟨⟨first, others⟩, inner, rfl, by simpa [Scopes.depth] using deep⟩

theorem eq_global_of_depth_eq_zero (shallow : scopes.depth = 0) :
    scopes = global scopes.innermost := by
  rcases scopes with ⟨innermost, enclosing⟩
  rw [Scopes.depth, List.length_eq_zero_iff] at shallow
  simp only at shallow
  rw [shallow]
  rfl

theorem find?_within (outer : Scopes) (inner : Bindings Value) (name : Text) :
    (outer.within inner).find? name = (inner.find? name).or (outer.find? name) := by
  simp only [find?, within, toList, List.findSome?_cons]
  cases inner.find? name <;> rfl

theorem find?_global (bindings : Bindings Value) (name : Text) :
    (global bindings).find? name = bindings.find? name := by
  simp only [find?, global, toList, List.findSome?_cons, List.findSome?_nil]
  cases bindings.find? name <;> rfl

theorem find?_define (scopes : Scopes) (name other : Text) (value : Value) :
    (scopes.define name value).find? other =
      if other = name then some value else scopes.find? other := by
  simp only [find?, define, toList, List.findSome?_cons, Bindings.find?_set]
  by_cases same : other = name <;> simp [same]

theorem assignIn_toList (scopes : Scopes) (name : Text) (value : Value) :
    assignIn name value scopes.toList = (scopes.assign? name value).map toList := by
  rw [toList, assignIn, assign?]
  split
  · rfl
  · rw [Option.map_map]
    rfl

theorem assign?_within (outer : Scopes) (inner : Bindings Value) (name : Text) (value : Value) :
    (outer.within inner).assign? name value =
      if inner.binds name then some (outer.within (inner.set name value))
      else (outer.assign? name value).map (·.within inner) := by
  rw [assign?]
  change (if inner.binds name then _ else (assignIn name value outer.toList).map _) = _
  split
  · rfl
  · rw [assignIn_toList, Option.map_map]
    rfl

theorem assign?_global (bindings : Bindings Value) (name : Text) (value : Value) :
    (global bindings).assign? name value =
      if bindings.binds name then some (global (bindings.set name value)) else none :=
  rfl

/-- Chains by their scopes: what holds of every global scope alone, and with one more scope inside a
chain if it holds of the chain. -/
theorem chain_induction {motive : Scopes → Prop} (base : ∀ bindings, motive (global bindings))
    (step : ∀ outer inner, motive outer → motive (within outer inner)) (scopes : Scopes) :
    motive scopes := by
  rcases scopes with ⟨innermost, enclosing⟩
  induction enclosing generalizing innermost with
  | nil => exact base innermost
  | cons first others ih => exact step ⟨first, others⟩ innermost (ih first)

theorem assign?_eq_none_iff : scopes.assign? name value = none ↔ scopes.find? name = none := by
  induction scopes using chain_induction with
  | base bindings =>
      rw [assign?_global, find?_global, Bindings.binds]
      cases bindings.find? name <;> simp
  | step outer inner ih =>
      rw [assign?_within, find?_within, Bindings.binds]
      cases inner.find? name with
      | some found => simp
      | none => simpa using ih

/-- An assignment changes what the name means, and no other name. -/
theorem find?_of_assign? (assigned : scopes.assign? name value = some after) (other : Text) :
    after.find? other = if other = name then some value else scopes.find? other := by
  induction scopes using chain_induction generalizing after with
  | base bindings =>
      rw [assign?_global] at assigned
      split at assigned
      · cases assigned
        rw [find?_global, find?_global, Bindings.find?_set]
      · cases assigned
  | step outer inner ih =>
      rw [assign?_within] at assigned
      split at assigned
      · cases assigned
        rw [find?_within, find?_within, Bindings.find?_set]
        by_cases same : other = name <;> simp [same]
      · rename_i unbound
        rcases Option.map_eq_some_iff.mp assigned with ⟨outerAfter, outerAssigned, rfl⟩
        rw [find?_within, find?_within, ih outerAssigned]
        -- The inner scope does not bind the name, so it cannot hide the new value.
        by_cases same : other = name
        · subst same
          have hidden : inner.find? other = none := by simpa [Bindings.binds] using unbound
          simp [hidden]
        · simp [same]

theorem depth_of_assign? (assigned : scopes.assign? name value = some after) :
    after.depth = scopes.depth := by
  induction scopes using chain_induction generalizing after with
  | base bindings =>
      rw [assign?_global] at assigned
      split at assigned
      · cases assigned
        rfl
      · cases assigned
  | step outer inner ih =>
      rw [assign?_within] at assigned
      split at assigned
      · cases assigned
        rfl
      · rcases Option.map_eq_some_iff.mp assigned with ⟨outerAfter, outerAssigned, rfl⟩
        rw [depth_within, depth_within, ih outerAssigned]

end Scopes

end LoxLang
