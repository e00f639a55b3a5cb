import LoxLang.Proofs.Scope.Names
import LoxLang.Scope.Forest

/-!
# Owners of names

Scopes that share the scopes around them obey the laws of owners: the owner of a name, as it is seen
from a scope, is the first scope on the way outwards that binds it. Looking a name up gives the
value at its owner, and a change is seen through exactly those scopes that see the place where it
was made.

The forests of interest are those that are built up by creating scopes, binding names and assigning.
Their parents come before their children, and from this everything else is derived by induction on
the numbers of scopes.
-/

namespace LoxLang.Forest

variable {forest : Forest} {id parent : Nat} {name : Text} {value : Value}

/-- The number of the scope around a scope. -/
def parent? (forest : Forest) (id : Nat) : Option Nat := forest.nodes[id]?.bind Node.parent

/-- The way from a scope outwards, by the scopes around each other. -/
inductive Chain (forest : Forest) : Nat → List Nat → Prop
  | outermost {id : Nat} (alone : forest.parent? id = none) : Chain forest id [id]
  | within {id parent : Nat} {ids : List Nat} (inside : forest.parent? id = some parent)
      (outer : Chain forest parent ids) : Chain forest id (id :: ids)

/-- The second scope is on the chain of the first, and no scope before it binds the name. -/
def Sees (forest : Forest) (id target : Nat) (name : Text) : Prop :=
  ∃ inner outer, forest.chain id = inner ++ target :: outer ∧
    ∀ scope ∈ inner, (forest.bindings scope).binds name = false

/-- The forests that are built up from nothing. An assignment that fails leaves a forest as it is,
so only those that succeed lead further. -/
inductive Reachable : Forest → Prop
  | empty : Reachable empty
  | create {forest : Forest} (reachable : Reachable forest) (parent : Option Nat)
      (parentPresent : ∀ id ∈ parent, id < forest.size) : Reachable (forest.create parent)
  | define {forest : Forest} (reachable : Reachable forest) (id : Nat) (present : id < forest.size)
      (name : Text) (value : Value) : Reachable (forest.define id name value)
  | assign {forest after : Forest} (reachable : Reachable forest) (id : Nat)
      (present : id < forest.size) (name : Token) (value : Value)
      (assigned : assign id name value forest = .ok () after) : Reachable after

/-- Every parent comes before its child. -/
def ParentsFirst (forest : Forest) : Prop :=
  ∀ id parent, forest.parent? id = some parent → parent < id

section Updates

theorem size_define (forest : Forest) (id : Nat) (name : Text) (value : Value) :
    (forest.define id name value).size = forest.size :=
  List.length_modify ..

theorem parent?_define (forest : Forest) (id : Nat) (name : Text) (value : Value) (other : Nat) :
    (forest.define id name value).parent? other = forest.parent? other := by
  simp only [parent?, define, List.getElem?_modify]
  cases forest.nodes[other]? with
  | none => rfl
  | some node => by_cases same : id = other <;> simp [same]

theorem bindings_define_self (present : id < forest.size) (name : Text) (value : Value) :
    (forest.define id name value).bindings id = (forest.bindings id).set name value := by
  have there : forest.nodes[id]? = some forest.nodes[id] := List.getElem?_eq_getElem present
  simp [bindings, define, there]

theorem bindings_define_of_ne {other : Nat} (different : other ≠ id) (name : Text)
    (value : Value) :
    (forest.define id name value).bindings other = forest.bindings other := by
  simp [bindings, define, Ne.symm different]

theorem parent?_create (forest : Forest) (parent : Option Nat) (id : Nat) :
    (forest.create parent).parent? id =
      if id = forest.size then parent else forest.parent? id := by
  rw [parent?, parent?, create]
  split
  · next new => simp [new, size]
  · next old =>
      rcases Nat.lt_or_gt_of_ne old with less | greater
      · rw [List.getElem?_append_left less]
      · have beyond : forest.nodes.length < id := greater
        rw [List.getElem?_eq_none (by simpa using Nat.succ_le_of_lt beyond),
          List.getElem?_eq_none (Nat.le_of_lt beyond)]

theorem assign_eq_ok_iff {name : Token} {after : Forest} :
    assign id name value forest = .ok () after ↔
      ∃ owner, forest.owner? id name.lexeme = some owner ∧
        after = forest.define owner name.lexeme value := by
  rw [assign, assign?]
  cases forest.owner? id name.lexeme with
  | none => simp
  | some owner => simp [eq_comm]

theorem assign_eq_error_iff {name : Token} {complaint : UndefinedVariable} {last : Forest} :
    assign id name value forest = .error complaint last ↔
      forest.owner? id name.lexeme = none ∧ complaint = ⟨name⟩ ∧ last = forest := by
  rw [assign, assign?]
  cases forest.owner? id name.lexeme with
  | none => simp [eq_comm]
  | some owner => simp

end Updates

theorem ParentsFirst.define (first : forest.ParentsFirst) (id : Nat) (name : Text) (value : Value) :
    (forest.define id name value).ParentsFirst := by
  intro other parent inside
  rw [parent?_define] at inside
  exact first other parent inside

theorem ParentsFirst.create (first : forest.ParentsFirst) {parent : Option Nat}
    (parentPresent : ∀ id ∈ parent, id < forest.size) : (forest.create parent).ParentsFirst := by
  intro id outer inside
  rw [parent?_create] at inside
  split at inside
  · next new => exact new ▸ parentPresent outer inside
  · exact first id outer inside

theorem Reachable.parentsFirst (reachable : Reachable forest) : forest.ParentsFirst := by
  induction reachable with
  | empty =>
      intro id parent inside
      cases inside
  | create _ parent parentPresent ih => exact ih.create parentPresent
  | define _ id _ name value ih => exact ih.define id name value
  | assign _ id _ name value assigned ih =>
      rcases assign_eq_ok_iff.mp assigned with ⟨owner, _, rfl⟩
      exact ih.define owner name.lexeme value

section Chains

theorem chainWithin_of_lt {bound : Nat} (less : id < bound) :
    forest.chainWithin bound id = forest.chainWithin (id + 1) id := by
  induction bound with
  | zero => omega
  | succ bound ih =>
      by_cases same : id = bound
      · rw [same]
      · rw [chainWithin, if_neg same, ih (by omega)]

/-- A chain starts with its scope and goes on with the chain of the scope around it. -/
theorem ParentsFirst.chain_eq (first : forest.ParentsFirst) (present : id < forest.size) :
    forest.chain id = id :: (forest.parent? id).elim [] forest.chain := by
  have there : forest.nodes[id]? = some forest.nodes[id] := List.getElem?_eq_getElem present
  rw [chain, chainWithin_of_lt present, chainWithin, if_pos rfl]
  cases inside : forest.parent? id with
  | none =>
      have alone : forest.nodes[id].parent = none := by simpa [parent?, there] using inside
      simp [there, alone]
  | some parent =>
      have around : forest.nodes[id].parent = some parent := by simpa [parent?, there] using inside
      have before := first id parent inside
      simp only [there, around, Option.elim_some, chain]
      rw [chainWithin_of_lt before, chainWithin_of_lt (Nat.lt_trans before present)]

/-- Induction from the outside in: what holds of a scope if it holds of the scope around it. -/
theorem ParentsFirst.scope_induction (first : forest.ParentsFirst)
    {motive : (id : Nat) → id < forest.size → Prop}
    (step : ∀ id present,
      (∀ parent, forest.parent? id = some parent → ∃ parentPresent, motive parent parentPresent) →
      motive id present)
    (id : Nat) (present : id < forest.size) : motive id present := by
  induction id using Nat.strongRecOn with
  | _ id ih =>
      refine step id present fun parent inside => ?_
      have before := first id parent inside
      have parentPresent := Nat.lt_trans before present
      exact ⟨parentPresent, ih parent before parentPresent⟩

theorem ParentsFirst.chain_iff (first : forest.ParentsFirst) (present : id < forest.size)
    (ids : List Nat) : forest.Chain id ids ↔ ids = forest.chain id := by
  induction id, present using first.scope_induction generalizing ids with
  | step id present ih =>
      rw [first.chain_eq present]
      constructor
      · intro chain
        cases chain with
        | outermost alone => rw [alone, Option.elim_none]
        | within inside outer =>
            obtain ⟨_, outerIff⟩ := ih _ inside
            rw [inside, Option.elim_some, (outerIff _).mp outer]
      · rintro rfl
        cases inside : forest.parent? id with
        | none => exact .outermost inside
        | some parent =>
            obtain ⟨_, outerIff⟩ := ih parent inside
            exact .within inside ((outerIff _).mpr rfl)

theorem ParentsFirst.length_chain (first : forest.ParentsFirst) (present : id < forest.size) :
    (forest.chain id).length = forest.depth id + 1 := by
  rw [depth, first.chain_eq present]
  rfl

end Chains

section Owners

theorem owner?_eq_some_iff {owner : Nat} :
    forest.owner? id name = some owner ↔
      forest.Sees id owner name ∧ (forest.bindings owner).binds name = true := by
  rw [owner?, List.find?_eq_some_iff_append, and_comm, Sees]
  simp only [Bool.not_eq_true']

/-- A scope sees itself, and what the scope around it sees of a name that it does not bind. -/
theorem ParentsFirst.sees_iff (first : forest.ParentsFirst) (present : id < forest.size)
    {target : Nat} :
    forest.Sees id target name ↔ id = target ∨
      (forest.bindings id).binds name = false ∧
        ∃ parent, forest.parent? id = some parent ∧ forest.Sees parent target name := by
  rw [Sees, first.chain_eq present]
  constructor
  · rintro ⟨inner, outer, split, unbound⟩
    cases inner with
    | nil => exact .inl (List.cons.inj split).1
    | cons scope inner =>
        obtain ⟨rfl, rest⟩ := List.cons.inj split
        rw [List.forall_mem_cons] at unbound
        refine .inr ⟨unbound.1, ?_⟩
        cases inside : forest.parent? id with
        | none => simp [inside] at rest
        | some parent =>
            rw [inside, Option.elim_some] at rest
            exact ⟨parent, rfl, inner, outer, rest, unbound.2⟩
  · rintro (rfl | ⟨unbound, parent, inside, inner, outer, split, others⟩)
    · exact ⟨[], _, rfl, by simp⟩
    · refine ⟨id :: inner, outer, ?_, List.forall_mem_cons.mpr ⟨unbound, others⟩⟩
      rw [inside, Option.elim_some, split, List.cons_append]

/-- A name is looked up in the scope itself, and if it is not bound there in the scope around. -/
theorem ParentsFirst.find?_eq (first : forest.ParentsFirst) (present : id < forest.size)
    (name : Text) :
    forest.find? id name =
      ((forest.bindings id).find? name).or ((forest.parent? id).bind (forest.find? · name)) := by
  rw [find?, owner?, first.chain_eq present, List.find?_cons, Bindings.binds]
  cases found : (forest.bindings id).find? name with
  | some value => simp [found]
  | none => cases forest.parent? id <;> simp [find?, owner?]

end Owners

section Changes

variable {observer : Nat}

theorem ParentsFirst.find?_define_of_sees (first : forest.ParentsFirst)
    (present : id < forest.size) (value : Value) (observerPresent : observer < forest.size)
    (sees : forest.Sees observer id name) :
    (forest.define id name value).find? observer name = some value := by
  induction observer, observerPresent using first.scope_induction with
  | step observer observerPresent ih =>
      rw [(first.define id name value).find?_eq (by rwa [size_define]), parent?_define]
      by_cases here : observer = id
      · subst here
        rw [bindings_define_self present, Bindings.find?_set, if_pos rfl]
        rfl
      · have further := ((first.sees_iff observerPresent).mp sees).resolve_left here
        rcases further with ⟨unbound, parent, inside, sees⟩
        obtain ⟨_, seen⟩ := ih parent inside
        have absent : (forest.bindings observer).find? name = none := by
          simpa [Bindings.binds] using unbound
        rw [bindings_define_of_ne here, absent, inside]
        exact seen sees

theorem ParentsFirst.find?_define_of_not (first : forest.ParentsFirst)
    (present : id < forest.size) (value : Value) (observerPresent : observer < forest.size)
    {other : Text} (apart : ¬ (other = name ∧ forest.Sees observer id name)) :
    (forest.define id name value).find? observer other = forest.find? observer other := by
  induction observer, observerPresent using first.scope_induction with
  | step observer observerPresent ih =>
      rw [(first.define id name value).find?_eq (by rwa [size_define]), parent?_define,
        first.find?_eq observerPresent]
      -- What is not found in the observer itself is looked up in the scope around it.
      have outer (passed : (forest.bindings observer).binds name = false ∨ other ≠ name) :
          (forest.parent? observer).bind ((forest.define id name value).find? · other) =
            (forest.parent? observer).bind (forest.find? · other) := by
        cases inside : forest.parent? observer with
        | none => rfl
        | some parent =>
            obtain ⟨_, unseen⟩ := ih parent inside
            refine unseen fun ⟨same, sees⟩ => ?_
            have unbound := passed.resolve_right (absurd same)
            exact apart ⟨same,
              (first.sees_iff observerPresent).mpr (.inr ⟨unbound, parent, inside, sees⟩)⟩
      by_cases here : observer = id
      · subst here
        have different : other ≠ name := fun same =>
          apart ⟨same, (first.sees_iff observerPresent).mpr (.inl rfl)⟩
        rw [bindings_define_self present, Bindings.find?_set, if_neg different,
          outer (.inr different)]
      · rw [bindings_define_of_ne here]
        cases found : (forest.bindings observer).find? other with
        | some value => rfl
        | none =>
            rw [outer]
            by_cases same : other = name
            · exact .inl (by simp [Bindings.binds, ← same, found])
            · exact .inr same

theorem lt_size_of_binds (bound : (forest.bindings id).binds name = true) : id < forest.size := by
  by_contra beyond
  have absent : forest.nodes[id]? = none := List.getElem?_eq_none (Nat.le_of_not_lt beyond)
  simp [bindings, absent, Bindings.binds, Bindings.find?, Bindings.empty] at bound

theorem names_define_of_binds (bound : (forest.bindings id).binds name = true) (value : Value)
    (other : Nat) : (forest.define id name value).names other = forest.names other := by
  rw [names, names]
  by_cases same : other = id
  · rw [same, bindings_define_self (lt_size_of_binds bound), Bindings.names_set bound]
  · rw [bindings_define_of_ne same]

theorem ParentsFirst.find?_of_assign (first : forest.ParentsFirst) {name : Token} {after : Forest}
    (assigned : assign id name value forest = .ok () after)
    (observerPresent : observer < forest.size) (other : Text) :
    after.find? observer other =
      if other = name.lexeme ∧ forest.owner? observer other = forest.owner? id other then some value
      else forest.find? observer other := by
  rcases assign_eq_ok_iff.mp assigned with ⟨owner, owns, rfl⟩
  have bound := (owner?_eq_some_iff.mp owns).2
  have ownerPresent := lt_size_of_binds bound
  split
  · next shared =>
      obtain ⟨rfl, same⟩ := shared
      rw [owns] at same
      exact first.find?_define_of_sees ownerPresent value observerPresent
        (owner?_eq_some_iff.mp same).1
  · next apart =>
      refine first.find?_define_of_not ownerPresent value observerPresent fun ⟨same, sees⟩ => ?_
      refine apart ⟨same, ?_⟩
      rw [same, owns, owner?_eq_some_iff]
      exact ⟨sees, bound⟩

end Changes

/-- The laws of owners. -/
structure OwnerLaws (forest : Forest) : Prop where
  chain : ∀ id < forest.size, ∀ ids, forest.Chain id ids ↔ ids = forest.chain id
  depth : ∀ id < forest.size, (forest.chain id).length = forest.depth id + 1
  owner : ∀ id name owner, forest.owner? id name = some owner ↔
    forest.Sees id owner name ∧ (forest.bindings owner).binds name = true
  assign_fails : ∀ id name value,
    (∃ complaint last, assign id name value forest = .error complaint last) ↔
      forest.owner? id name.lexeme = none
  assign_failed : ∀ id name value complaint last,
    assign id name value forest = .error complaint last → complaint = ⟨name⟩ ∧ last = forest
  assign_names : ∀ id name value after, assign id name value forest = .ok () after →
    ∀ other, after.names other = forest.names other
  assign_find? : ∀ id name value after, assign id name value forest = .ok () after →
    ∀ observer < forest.size, ∀ other, after.find? observer other =
      if other = name.lexeme ∧ forest.owner? observer other = forest.owner? id other then some value
      else forest.find? observer other
  define_seen : ∀ id < forest.size, ∀ observer < forest.size, ∀ name value,
    forest.Sees observer id name → (forest.define id name value).find? observer name = some value
  define_unseen : ∀ id < forest.size, ∀ observer < forest.size, ∀ name value other,
    ¬ (other = name ∧ forest.Sees observer id name) →
      (forest.define id name value).find? observer other = forest.find? observer other
  get : ∀ id name value, forest.get id name = .ok value ↔ forest.find? id name.lexeme = some value
  names_increasing : ∀ id,
    (forest.names id).Pairwise fun left right => Text.before left right = true
  mem_names : ∀ id name, name ∈ forest.names id ↔ (forest.bindings id).binds name = true

/-- Every forest that is built up obeys the laws of owners. -/
theorem Reachable.ownerLaws (reachable : Reachable forest) : forest.OwnerLaws := by
  have first := reachable.parentsFirst
  exact {
    chain := fun id present ids => first.chain_iff present ids
    depth := fun id present => first.length_chain present
    owner := fun id name owner => owner?_eq_some_iff
    assign_fails := fun id name value => by simp [assign_eq_error_iff]
    assign_failed := fun id name value complaint last failed => (assign_eq_error_iff.mp failed).2
    assign_names := fun id name value after assigned other => by
      rcases assign_eq_ok_iff.mp assigned with ⟨owner, owns, rfl⟩
      exact names_define_of_binds (owner?_eq_some_iff.mp owns).2 value other
    assign_find? := fun id name value after assigned observer observerPresent other =>
      first.find?_of_assign assigned observerPresent other
    define_seen := fun id present observer observerPresent name value sees =>
      first.find?_define_of_sees present value observerPresent sees
    define_unseen := fun id present observer observerPresent name value other apart =>
      first.find?_define_of_not present value observerPresent apart
    get := fun id name value => by
      rw [get]
      cases forest.find? id name.lexeme <;> simp
    names_increasing := fun id => (forest.bindings id).names_pairwise
    mem_names := fun id name => Bindings.mem_names_iff }

/-- Two scopes in one, of which the first hides a name of the outer scope from itself only. -/
theorem ownerLaws_siblings :
    let pair := ((empty.create none).create (some 0)).create (some 0)
    let forest := (pair.define 0 "x" (.bool true)).define 1 "x" .nil
    Reachable forest ∧ forest.OwnerLaws ∧
      forest.owner? 1 "x" = some 1 ∧ forest.owner? 2 "x" = some 0 ∧
      (forest.define 0 "x" (.bool false)).find? 2 "x" = some (.bool false) := by
  intro pair forest
  have outer : Reachable (empty.create none) := .create .empty none (by simp)
  have pairReachable : Reachable pair :=
    (outer.create (some 0) (by decide)).create (some 0) (by decide)
  have reachable : Reachable forest :=
    (pairReachable.define 0 (by decide) "x" (.bool true)).define 1 (by decide) "x" .nil
  have laws := Reachable.ownerLaws reachable
  refine ⟨reachable, laws, by decide, by decide, ?_⟩
  exact laws.define_seen 0 (by decide) 2 (by decide) "x" _ ⟨[2], [], by decide, by decide⟩

end LoxLang.Forest
