import LoxLang.Proofs.Scope.Chain
import LoxLang.Proofs.Scope.Owner

/-!
# The chain that is seen from a scope

A running program keeps only the chain of scopes that it stands in. In a forest this is the chain
that is seen from one of the scopes. What is done to a forest at that scope is done to the chain:
names are looked up, bound and assigned alike, a scope created inside is one more scope in the
chain, and the scope around sees the rest of it.
-/

namespace LoxLang

namespace Forest

variable {forest : Forest} {id parent : Nat} {name : Text} {value : Value}

/-- The chain of scopes that is seen from a scope. -/
def scopes (forest : Forest) (id : Nat) : Scopes where
  innermost := forest.bindings id
  enclosing := (forest.chain id).tail.map forest.bindings

theorem depth_scopes (forest : Forest) (id : Nat) :
    (forest.scopes id).depth = forest.depth id := by
  simp [Scopes.depth, scopes, depth]

theorem size_create (forest : Forest) (parent : Option Nat) :
    (forest.create parent).size = forest.size + 1 := by
  simp [size, create]

theorem bindings_create_of_lt (present : id < forest.size) (parent : Option Nat) :
    (forest.create parent).bindings id = forest.bindings id := by
  rw [bindings, bindings, create, List.getElem?_append_left present]

theorem bindings_create_self (forest : Forest) (parent : Option Nat) :
    (forest.create parent).bindings forest.size = .empty := by
  simp [bindings, create, size]

namespace ParentsFirst

theorem scopes_of_alone (first : forest.ParentsFirst) (present : id < forest.size)
    (alone : forest.parent? id = none) : forest.scopes id = .global (forest.bindings id) := by
  rw [scopes, first.chain_eq present, alone]
  rfl

theorem scopes_of_inside (first : forest.ParentsFirst) (present : id < forest.size)
    (inside : forest.parent? id = some parent) :
    forest.scopes id = (forest.scopes parent).within (forest.bindings id) := by
  have parentPresent := Nat.lt_trans (first id parent inside) present
  rw [scopes, first.chain_eq present, inside]
  simp [first.chain_eq parentPresent, Scopes.within, Scopes.toList, scopes]

theorem find?_scopes (first : forest.ParentsFirst) (present : id < forest.size) (name : Text) :
    (forest.scopes id).find? name = forest.find? id name := by
  induction id, present using first.scope_induction with
  | step id present ih =>
      rw [first.find?_eq present]
      cases inside : forest.parent? id with
      | none =>
          rw [first.scopes_of_alone present inside, Scopes.find?_global]
          simp
      | some parent =>
          obtain ⟨_, outer⟩ := ih parent inside
          rw [first.scopes_of_inside present inside, Scopes.find?_within, outer]
          rfl

/-- The scopes before a scope do not see what is bound in it. -/
theorem scopes_define_of_lt (first : forest.ParentsFirst) (present : id < forest.size)
    {target : Nat} (before : id < target) (name : Text) (value : Value) :
    (forest.define target name value).scopes id = forest.scopes id := by
  induction id, present using first.scope_induction with
  | step id present ih =>
      have after := first.define target name value
      have presentAfter : id < (forest.define target name value).size := by rwa [size_define]
      have same : (forest.define target name value).bindings id = forest.bindings id :=
        bindings_define_of_ne (Nat.ne_of_lt before) name value
      have parentAfter := parent?_define forest target name value id
      cases inside : forest.parent? id with
      | none =>
          rw [first.scopes_of_alone present inside,
            after.scopes_of_alone presentAfter (parentAfter.trans inside), same]
      | some parent =>
          obtain ⟨_, outer⟩ := ih parent inside
          rw [first.scopes_of_inside present inside,
            after.scopes_of_inside presentAfter (parentAfter.trans inside), same,
            outer (Nat.lt_trans (first id parent inside) before)]

theorem scopes_define (first : forest.ParentsFirst) (present : id < forest.size) (name : Text)
    (value : Value) :
    (forest.define id name value).scopes id = (forest.scopes id).define name value := by
  have after := first.define id name value
  have presentAfter : id < (forest.define id name value).size := by rwa [size_define]
  have parentAfter := parent?_define forest id name value id
  cases inside : forest.parent? id with
  | none =>
      rw [first.scopes_of_alone present inside,
        after.scopes_of_alone presentAfter (parentAfter.trans inside),
        bindings_define_self present]
      rfl
  | some parent =>
      have before := first id parent inside
      rw [first.scopes_of_inside present inside,
        after.scopes_of_inside presentAfter (parentAfter.trans inside),
        bindings_define_self present,
        first.scopes_define_of_lt (Nat.lt_trans before present) before]
      rfl

/-- The owner of a name that a scope does not bind is that of the scope around it. -/
theorem owner?_eq (first : forest.ParentsFirst) (present : id < forest.size) (name : Text) :
    forest.owner? id name =
      if (forest.bindings id).binds name then some id
      else (forest.parent? id).bind (forest.owner? · name) := by
  rw [owner?, first.chain_eq present, List.find?_cons]
  cases (forest.bindings id).binds name with
  | true => rfl
  | false => cases forest.parent? id <;> rfl

theorem owner?_le (first : forest.ParentsFirst) (present : id < forest.size) {owner : Nat}
    (owns : forest.owner? id name = some owner) : owner ≤ id := by
  induction id, present using first.scope_induction with
  | step id present ih =>
      rw [first.owner?_eq present] at owns
      split at owns
      · cases owns
        exact Nat.le_refl _
      · rcases Option.bind_eq_some_iff.mp owns with ⟨parent, inside, owns⟩
        obtain ⟨_, outer⟩ := ih parent inside
        exact Nat.le_of_lt (Nat.lt_of_le_of_lt (outer owns) (first id parent inside))

theorem scopes_assign? (first : forest.ParentsFirst) (present : id < forest.size) (name : Text)
    (value : Value) :
    (forest.assign? id name value).map (·.scopes id) = (forest.scopes id).assign? name value := by
  induction id, present using first.scope_induction with
  | step id present ih =>
      rw [assign?, first.owner?_eq present]
      by_cases bound : (forest.bindings id).binds name
      · rw [if_pos bound, Option.map_some, Option.map_some, first.scopes_define present,
          Scopes.assign?]
        exact (if_pos bound).symm
      · rw [if_neg bound]
        cases inside : forest.parent? id with
        | none =>
            rw [first.scopes_of_alone present inside, Scopes.assign?_global, if_neg bound]
            rfl
        | some parent =>
            obtain ⟨parentPresent, outer⟩ := ih parent inside
            rw [first.scopes_of_inside present inside, Scopes.assign?_within, if_neg bound, ← outer,
              assign?, Option.bind_some]
            cases owns : forest.owner? parent name with
            | none => rfl
            | some owner =>
                -- The owner is further out, so the scope itself stays as it is.
                have before : owner < id :=
                  Nat.lt_of_le_of_lt (first.owner?_le parentPresent owns) (first id parent inside)
                have presentAfter : id < (forest.define owner name value).size := by
                  rwa [size_define]
                simp only [Option.map_some]
                rw [(first.define owner name value).scopes_of_inside presentAfter
                  ((parent?_define forest owner name value id).trans inside),
                  bindings_define_of_ne (Nat.ne_of_gt before)]

theorem scopes_create_of_lt (first : forest.ParentsFirst) (present : id < forest.size)
    {parent : Option Nat} (parentPresent : ∀ id ∈ parent, id < forest.size) :
    (forest.create parent).scopes id = forest.scopes id := by
  induction id, present using first.scope_induction with
  | step id present ih =>
      have after := first.create parentPresent
      have presentAfter : id < (forest.create parent).size := by
        rw [size_create]
        exact Nat.lt_succ_of_lt present
      have same := bindings_create_of_lt present parent
      have parentAfter : (forest.create parent).parent? id = forest.parent? id := by
        rw [parent?_create, if_neg (Nat.ne_of_lt present)]
      cases inside : forest.parent? id with
      | none =>
          rw [first.scopes_of_alone present inside,
            after.scopes_of_alone presentAfter (parentAfter.trans inside), same]
      | some outer =>
          obtain ⟨_, outerSame⟩ := ih outer inside
          rw [first.scopes_of_inside present inside,
            after.scopes_of_inside presentAfter (parentAfter.trans inside), same, outerSame]

/-- A scope created inside another is one more scope in the chain of that. -/
theorem scopes_create (first : forest.ParentsFirst) (present : id < forest.size) :
    (forest.create (some id)).scopes forest.size = (forest.scopes id).push := by
  have parentPresent : ∀ parent ∈ some id, parent < forest.size := by simpa using present
  have presentAfter : forest.size < (forest.create (some id)).size := by
    rw [size_create]
    exact Nat.lt_succ_self _
  have inside : (forest.create (some id)).parent? forest.size = some id := by
    rw [parent?_create, if_pos rfl]
  rw [(first.create parentPresent).scopes_of_inside presentAfter inside, bindings_create_self,
    first.scopes_create_of_lt present parentPresent]
  rfl

theorem pop_scopes (first : forest.ParentsFirst) (present : id < forest.size) :
    (forest.scopes id).pop = forest.scopes ((forest.parent? id).getD id) := by
  cases inside : forest.parent? id with
  | none =>
      rw [Option.getD_none, first.scopes_of_alone present inside]
      rfl
  | some parent =>
      rw [Option.getD_some, first.scopes_of_inside present inside]
      rfl

end ParentsFirst

end Forest

end LoxLang
