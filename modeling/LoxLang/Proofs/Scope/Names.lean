import LoxLang.Scope.Bindings
import Mathlib.Data.List.Basic

/-!
# The names of bindings

Bindings list their names in strictly increasing byte order, each name that is bound and no other.
Changing the value of a name that is bound leaves the names as they are.
-/

namespace LoxLang

theorem isSome_lookup_iff {α : Type} {entries : List (Text × α)} {name : Text} :
    (entries.lookup name).isSome = true ↔ name ∈ entries.map Prod.fst := by
  induction entries with
  | nil => simp
  | cons first rest ih =>
      obtain ⟨head, value⟩ := first
      rw [Bindings.lookup_cons_eq_ite, List.map_cons, List.mem_cons, ← ih]
      by_cases same : name = head <;> simp [same]

namespace Bindings

variable {α : Type} {bindings : Bindings α} {name : Text}

theorem names_pairwise (bindings : Bindings α) :
    bindings.names.Pairwise fun left right => Text.before left right = true :=
  List.pairwise_map.mpr bindings.ordered

theorem mem_names_iff : name ∈ bindings.names ↔ bindings.binds name = true :=
  isSome_lookup_iff.symm

theorem binds_set (bindings : Bindings α) (name other : Text) (value : α) :
    (bindings.set name value).binds other = (decide (other = name) || bindings.binds other) := by
  rw [binds, binds, find?_set]
  by_cases same : other = name <;> simp [same]

theorem names_insert {entries : List (Text × α)} (ordered : Ordered entries)
    (bound : name ∈ entries.map Prod.fst) (value : α) :
    (insert name value entries).map Prod.fst = entries.map Prod.fst := by
  induction entries with
  | nil => simp at bound
  | cons first rest ih =>
      have later := (List.pairwise_cons.mp ordered).1
      unfold insert
      split
      · next same => simp [same]
      · next different =>
          have inRest : name ∈ rest.map Prod.fst :=
            (List.mem_cons.mp bound).resolve_left (Ne.symm different)
          split
          · next less =>
              -- The name comes after the first entry, so it cannot also come before it.
              rcases List.mem_map.mp inRest with ⟨entry, mem, rfl⟩
              have both := Text.before_trans less (later entry mem)
              rw [Text.not_before_self] at both
              cases both
          · rw [List.map_cons, List.map_cons, ih (List.pairwise_cons.mp ordered).2 inRest]

theorem names_set (bound : bindings.binds name = true) (value : α) :
    (bindings.set name value).names = bindings.names :=
  names_insert bindings.ordered (mem_names_iff.mpr bound) value

end Bindings

end LoxLang
