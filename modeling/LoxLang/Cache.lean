import LoxLang.Text

/-!
# Least-recently-used caches

A cache keeps what was made of the sources used last, at most as many as it has room for. Finding an
entry counts as a use of it. The entries are listed from the most to the least recent use.
-/

namespace LoxLang

/-- A cache of limited size, the entry used last first. -/
structure Cache (α : Type) where
  capacity : Nat
  entries : List (Text × α)

namespace Cache

variable {α : Type}

/-- An empty cache. A size that is not positive leaves room for nothing. -/
def new (size : Int) : Cache α := ⟨size.toNat, []⟩

/-- The entry of a source. -/
def find? (cache : Cache α) (source : Text) : Option α := cache.entries.lookup source

/-- The cache after a use of a source, with what belongs to it. -/
def use (cache : Cache α) (source : Text) (content : α) : Cache α :=
  { cache with
    entries := ((source, content) :: cache.entries.filter (·.1 ≠ source)).take cache.capacity }

end Cache

end LoxLang
