import LoxLang.Proofs.Execute.Footprint
import LoxLang.Proofs.Scope.View

/-!
# A run in a forest of scopes

A run changes its chain of scopes by binding and assigning names and by entering and leaving scopes.
The same changes can be made to a forest, at the scope where the program stands, and what is seen
from there is then the chain of the run.

However a run ends, it has left every scope that it entered. So it stands where it began, in a
forest that is reached by the operations on forests, and what holds of all such forests holds of the
scopes of a run.
-/

namespace LoxLang

/-- What a running program does to its scopes. -/
inductive Scopes.Change where
  | define (name : Text) (value : Value)
  | assign (name : Text) (value : Value)
  | enter
  | leave
deriving DecidableEq, Repr

/-- The chain after a change. An assignment to a name that is not bound changes nothing. -/
def Scopes.apply (scopes : Scopes) : Scopes.Change → Scopes
  | .define name value => scopes.define name value
  | .assign name value => (scopes.assign? name value).getD scopes
  | .enter => scopes.push
  | .leave => scopes.pop

/-- Changes that leave every scope they enter, and no other. -/
inductive Scopes.Balanced : List Scopes.Change → Prop
  | nil : Balanced []
  | define (name : Text) (value : Value) : Balanced [.define name value]
  | assign (name : Text) (value : Value) : Balanced [.assign name value]
  | append {first second : List Scopes.Change} :
      Balanced first → Balanced second → Balanced (first ++ second)
  | block {inner : List Scopes.Change} :
      Balanced inner → Balanced (.enter :: (inner ++ [.leave]))

/-- A forest and the scope in it where a running program stands. -/
structure Place where
  forest : Forest
  id : Nat
deriving DecidableEq, Repr

namespace Place

variable {place : Place}

/-- The place after a change. The scope that is left stays in the forest. -/
def apply (place : Place) : Scopes.Change → Place
  | .define name value => { place with forest := place.forest.define place.id name value }
  | .assign name value =>
    { place with forest := (place.forest.assign? place.id name value).getD place.forest }
  | .enter => ⟨place.forest.create (some place.id), place.forest.size⟩
  | .leave => { place with id := (place.forest.parent? place.id).getD place.id }

/-- The chain of scopes that the program sees. -/
def scopes (place : Place) : Scopes := place.forest.scopes place.id

/-- The place is a scope of a forest that the operations on forests make. -/
structure Sound (place : Place) : Prop where
  reachable : Forest.Reachable place.forest
  present : place.id < place.forest.size

theorem Sound.apply (sound : place.Sound) (change : Scopes.Change) :
    (place.apply change).Sound := by
  rcases sound with ⟨reachable, present⟩
  cases change with
  | define name value =>
      exact ⟨reachable.define place.id present name value,
        by rwa [Place.apply, Forest.size_define]⟩
  | assign name value =>
      rw [Place.apply, Forest.assign?]
      cases owns : place.forest.owner? place.id name with
      | none => exact ⟨reachable, present⟩
      | some owner =>
          have ownerPresent := Nat.lt_of_le_of_lt (reachable.parentsFirst.owner?_le present owns)
            present
          exact ⟨reachable.define owner ownerPresent name value,
            by simpa [Forest.size_define] using present⟩
  | enter =>
      refine ⟨reachable.create (some place.id) (by simpa using present), ?_⟩
      rw [Place.apply, Forest.size_create]
      exact Nat.lt_succ_self _
  | leave =>
      refine ⟨reachable, ?_⟩
      cases inside : place.forest.parent? place.id with
      | none => simpa [Place.apply, inside] using present
      | some parent =>
          have parentPresent := Nat.lt_trans (reachable.parentsFirst _ _ inside) present
          simpa [Place.apply, inside] using parentPresent

theorem Sound.run (sound : place.Sound) (changes : List Scopes.Change) :
    (changes.foldl Place.apply place).Sound := by
  induction changes generalizing place with
  | nil => exact sound
  | cons change changes ih => exact ih (sound.apply change)

theorem scopes_apply (sound : place.Sound) (change : Scopes.Change) :
    (place.apply change).scopes = place.scopes.apply change := by
  have first := sound.reachable.parentsFirst
  have present := sound.present
  cases change with
  | define name value => exact first.scopes_define present name value
  | assign name value =>
      have same : _ = place.scopes.assign? name value := first.scopes_assign? present name value
      rw [Scopes.apply, ← same, Place.apply]
      cases place.forest.assign? place.id name value <;> rfl
  | enter => exact first.scopes_create present
  | leave => exact (first.pop_scopes present).symm

/-- A program that keeps a forest and its place in it sees the chain that it would keep instead. -/
theorem scopes_run (sound : place.Sound) (changes : List Scopes.Change) :
    (changes.foldl apply place).scopes = changes.foldl Scopes.apply place.scopes := by
  induction changes generalizing place with
  | nil => rfl
  | cons change changes ih =>
      rw [List.foldl_cons, List.foldl_cons, ih (sound.apply change), scopes_apply sound]

/-- No change moves a scope that is there to another place in the forest. -/
theorem parent?_apply {id : Nat} (present : id < place.forest.size) (change : Scopes.Change) :
    id < (place.apply change).forest.size ∧
      (place.apply change).forest.parent? id = place.forest.parent? id := by
  cases change with
  | define name value =>
      exact ⟨by rwa [apply, Forest.size_define], Forest.parent?_define _ _ _ _ _⟩
  | assign name value =>
      rw [apply, Forest.assign?]
      cases place.forest.owner? place.id name with
      | none => exact ⟨present, rfl⟩
      | some owner =>
          exact ⟨by simpa [Forest.size_define] using present, Forest.parent?_define _ _ _ _ _⟩
  | enter =>
      rw [apply, Forest.size_create, Forest.parent?_create, if_neg (Nat.ne_of_lt present)]
      exact ⟨Nat.lt_succ_of_lt present, rfl⟩
  | leave => exact ⟨present, rfl⟩

theorem parent?_run {id : Nat} (present : id < place.forest.size) (changes : List Scopes.Change) :
    (changes.foldl apply place).forest.parent? id = place.forest.parent? id := by
  induction changes generalizing place with
  | nil => rfl
  | cons change changes ih =>
      have kept := parent?_apply present change
      rw [List.foldl_cons, ih kept.1, kept.2]

/-- Balanced changes end in the scope where they began. -/
theorem id_run {changes : List Scopes.Change} (balanced : Scopes.Balanced changes)
    (place : Place) : (changes.foldl apply place).id = place.id := by
  induction balanced generalizing place with
  | nil | define | assign => rfl
  | append _ _ ihFirst ihSecond => rw [List.foldl_append, ihSecond, ihFirst]
  | @block inner _ ih =>
      -- The scope that is entered is the next one, and the scope around it is still the same when
      -- it is left.
      have entered : place.forest.size < (place.apply .enter).forest.size := by
        rw [apply, Forest.size_create]
        exact Nat.lt_succ_self _
      have around : (inner.foldl apply (place.apply .enter)).forest.parent? place.forest.size =
          some place.id := by
        rw [parent?_run entered, apply, Forest.parent?_create, if_pos rfl]
      have stands : (inner.foldl apply (place.apply .enter)).id = place.forest.size := ih _
      rw [List.foldl_cons, List.foldl_append, List.foldl_cons, List.foldl_nil]
      change ((Forest.parent? _ (inner.foldl apply (place.apply .enter)).id).getD _) = place.id
      rw [stands, around, Option.getD_some]

/-- A program starts in a global scope without bindings. -/
def start : Place := ⟨Forest.empty.create none, 0⟩

theorem scopes_start : start.scopes = .global .empty := rfl

theorem sound_start : start.Sound where
  reachable := .create .empty none (by simp)
  present := Nat.zero_lt_one

end Place

/-- One chain becomes the other by balanced changes. -/
def Scopes.Follows (before after : Scopes) : Prop :=
  ∃ changes, Scopes.Balanced changes ∧ changes.foldl Scopes.apply before = after

namespace Scopes.Follows

instance : Std.Refl Scopes.Follows := ⟨fun _ => ⟨[], .nil, rfl⟩⟩

instance : IsTrans Scopes Scopes.Follows where
  trans := by
    rintro before _ _ ⟨first, firstBalanced, rfl⟩ ⟨second, secondBalanced, rfl⟩
    exact ⟨first ++ second, firstBalanced.append secondBalanced, List.foldl_append⟩

end Scopes.Follows

theorem Scopes.Covers.follows :
    Scopes.Covers (fun _ => True) (fun _ => Scopes.Follows) where
  assign? {_ name} _ value before after changed := by
    refine ⟨[.assign name value], .assign name value, ?_⟩
    simp [Scopes.apply, changed]
  define {_ name} _ _ value := ⟨[.define name value], .define name value, rfl⟩
  pop := by
    rintro _ before _ ⟨inner, balanced, rfl⟩
    exact ⟨_, balanced.block, by simp [Scopes.apply]⟩

/-- Where a chain is seen from a place and becomes another by balanced changes, the place becomes
one that the other is seen from, in the same scope. -/
theorem Scopes.Follows.place {before after : Scopes} (follows : before.Follows after)
    {place : Place} (sound : place.Sound) (seen : place.scopes = before) :
    ∃ changes, Scopes.Balanced changes ∧ (changes.foldl Place.apply place).Sound ∧
      (changes.foldl Place.apply place).id = place.id ∧
      (changes.foldl Place.apply place).scopes = after := by
  rcases follows with ⟨changes, balanced, rfl⟩
  refine ⟨changes, balanced, sound.run changes, Place.id_run balanced place, ?_⟩
  rw [Place.scopes_run sound, seen]

/-- However statements end, what they do to a chain can be done at any place that it is seen from,
and ends in the same scope there. -/
theorem Stmt.place_of_executeAll (budget : Nat) (stmts : List Stmt) (machine : Machine)
    {place : Place} (sound : place.Sound) (seen : place.scopes = machine.scopes) :
    ∃ changes, Scopes.Balanced changes ∧ (changes.foldl Place.apply place).Sound ∧
      (changes.foldl Place.apply place).id = place.id ∧
      (changes.foldl Place.apply place).scopes =
        (final (executeAll budget stmts machine)).scopes := by
  have leads : Leads (Machine.OnScopes Scopes.Follows) (executeAll budget stmts) :=
    executeAll_leads .follows budget (fun _ _ => trivial) fun _ => trivial
  exact Scopes.Follows.place (leads machine) sound seen

theorem Stmt.place_of_program (budget : Nat) (stmts : List Stmt) (sink : Sink) :
    ∃ changes, Scopes.Balanced changes ∧ (changes.foldl Place.apply .start).Sound ∧
      (changes.foldl Place.apply .start).id = 0 ∧
      (changes.foldl Place.apply .start).scopes =
        (final (executeAll budget stmts ⟨.global .empty, sink, #[], #[]⟩)).scopes :=
  place_of_executeAll budget stmts _ Place.sound_start Place.scopes_start

end LoxLang
