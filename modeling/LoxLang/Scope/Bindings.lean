import LoxLang.Text

/-!
# Bindings

A finite map from names to values, kept in increasing order of the names. Two bindings that agree on
every name are therefore equal, and the names are listed in byte order without sorting.
-/

namespace LoxLang

namespace Text

theorem not_before_self (text : Text) : before text text = false := by
  induction text with
  | nil => rfl
  | cons byte rest ih => simp [before, ih]

theorem before_trans {first second third : Text} (left : before first second = true)
    (right : before second third = true) : before first third = true := by
  induction first generalizing second third with
  | nil =>
      cases third with
      | nil => simp [before] at right
      | cons => rfl
  | cons byte rest ih =>
      cases second with
      | nil => simp [before] at left
      | cons byte' rest' =>
          cases third with
          | nil => simp [before] at right
          | cons byte'' rest'' =>
              simp only [before, Bool.or_eq_true, Bool.and_eq_true, decide_eq_true_eq] at *
              rcases left with left | ⟨rfl, left⟩
              · rcases right with right | ⟨rfl, _⟩
                · exact .inl (UInt8.lt_trans left right)
                · exact .inl left
              · rcases right with right | ⟨rfl, right⟩
                · exact .inl right
                · exact .inr ⟨rfl, ih left right⟩

theorem before_or_eq_or_before (left right : Text) :
    before left right = true ∨ left = right ∨ before right left = true := by
  induction left generalizing right with
  | nil => cases right <;> simp [before]
  | cons byte rest ih =>
      cases right with
      | nil => simp [before]
      | cons byte' rest' =>
          simp only [before, Bool.or_eq_true, Bool.and_eq_true, decide_eq_true_eq, List.cons.injEq]
          rcases Nat.lt_trichotomy byte.toNat byte'.toNat with less | same | greater
          · exact .inl (.inl (UInt8.lt_iff_toNat_lt.mpr less))
          · cases UInt8.toNat_inj.mp same
            rcases ih rest' with less | rfl | greater
            · exact .inl (.inr ⟨rfl, less⟩)
            · exact .inr (.inl ⟨rfl, rfl⟩)
            · exact .inr (.inr (.inr ⟨rfl, greater⟩))
          · exact .inr (.inr (.inl (UInt8.lt_iff_toNat_lt.mpr greater)))

end Text

/-- Entries in strictly increasing order of their names. -/
def Bindings.Ordered {α : Type} (entries : List (Text × α)) : Prop :=
  entries.Pairwise fun left right => Text.before left.1 right.1 = true

/-- A finite map from names, in the order of the names. -/
structure Bindings (α : Type) where
  entries : List (Text × α)
  ordered : Bindings.Ordered entries

namespace Bindings

variable {α : Type}

instance [DecidableEq α] : DecidableEq (Bindings α) := fun left right =>
  decidable_of_iff (left.entries = right.entries) (by cases left; cases right; simp)

instance [Repr α] : Repr (Bindings α) := ⟨fun bindings => reprPrec bindings.entries⟩

/-- No bindings. -/
def empty : Bindings α := ⟨[], .nil⟩

instance : Inhabited (Bindings α) := ⟨empty⟩

/-- The entries with a name bound to a value, in the place of its earlier entry if it had one. -/
def insert (name : Text) (value : α) : List (Text × α) → List (Text × α)
  | [] => [(name, value)]
  | entry :: rest =>
    if entry.1 = name then (name, value) :: rest
    else if Text.before name entry.1 then (name, value) :: entry :: rest
    else entry :: insert name value rest

theorem name_of_mem_insert {name : Text} {value : α} {entries : List (Text × α)}
    {entry : Text × α} (member : entry ∈ insert name value entries) :
    entry.1 = name ∨ entry ∈ entries := by
  induction entries with
  | nil => simp_all [insert]
  | cons first rest ih =>
      unfold insert at member
      split at member
      · rcases List.mem_cons.mp member with rfl | member
        · exact .inl rfl
        · exact .inr (List.mem_cons_of_mem _ member)
      · split at member
        · rcases List.mem_cons.mp member with rfl | member
          · exact .inl rfl
          · exact .inr member
        · rcases List.mem_cons.mp member with rfl | member
          · exact .inr List.mem_cons_self
          · rcases ih member with same | member
            · exact .inl same
            · exact .inr (List.mem_cons_of_mem _ member)

theorem ordered_insert {name : Text} {value : α} {entries : List (Text × α)}
    (ordered : Ordered entries) : Ordered (insert name value entries) := by
  induction entries with
  | nil => simp [insert, Ordered]
  | cons first rest ih =>
      have later := (List.pairwise_cons.mp ordered).1
      have tail := (List.pairwise_cons.mp ordered).2
      unfold insert
      split
      · next same =>
          subst same
          exact List.pairwise_cons.mpr ⟨later, tail⟩
      · next different =>
          split
          · next less =>
              refine List.pairwise_cons.mpr ⟨?_, ordered⟩
              intro entry member
              rcases List.mem_cons.mp member with rfl | member
              · exact less
              · exact Text.before_trans less (later entry member)
          · next notLess =>
              refine List.pairwise_cons.mpr ⟨?_, ih tail⟩
              intro entry member
              rcases name_of_mem_insert member with same | member
              · rw [same]
                rcases Text.before_or_eq_or_before first.1 name with less | equal | greater
                · exact less
                · exact absurd equal different
                · exact absurd greater notLess
              · exact later entry member

/-- Binds a name to a value, whether or not it was bound before. -/
def set (bindings : Bindings α) (name : Text) (value : α) : Bindings α :=
  ⟨insert name value bindings.entries, ordered_insert bindings.ordered⟩

/-- The value of a name. -/
def find? (bindings : Bindings α) (name : Text) : Option α := bindings.entries.lookup name

theorem lookup_cons_eq_ite (name other : Text) (value : α) (entries : List (Text × α)) :
    ((name, value) :: entries).lookup other =
      if other = name then some value else entries.lookup other := by
  by_cases same : other = name
  · simp [same]
  · have notEqual : (other == name) = false := by simpa using same
    simp [List.lookup_cons, notEqual, same]

theorem lookup_insert (name other : Text) (value : α) (entries : List (Text × α)) :
    (insert name value entries).lookup other =
      if other = name then some value else entries.lookup other := by
  induction entries with
  | nil => exact lookup_cons_eq_ite name other value []
  | cons first rest ih =>
      obtain ⟨head, earlier⟩ := first
      unfold insert
      split
      · next equal =>
          cases equal
          by_cases same : other = head <;> simp [lookup_cons_eq_ite, same]
      · next different =>
          split
          · exact lookup_cons_eq_ite name other value _
          · rw [lookup_cons_eq_ite, lookup_cons_eq_ite, ih]
            by_cases same : other = head
            · cases same
              simpa using fun equal => absurd equal different
            · simp [same]

/-- Binding a name changes what that name means and no other. -/
theorem find?_set (bindings : Bindings α) (name other : Text) (value : α) :
    (bindings.set name value).find? other =
      if other = name then some value else bindings.find? other :=
  lookup_insert name other value bindings.entries

/-- Whether a name is bound. -/
def binds (bindings : Bindings α) (name : Text) : Bool := (bindings.find? name).isSome

/-- The bound names in increasing order. -/
def names (bindings : Bindings α) : List Text := bindings.entries.map Prod.fst

end Bindings

end LoxLang
