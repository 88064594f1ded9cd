import Mathlib.Data.Finset.Basic
import Pexec.Lib.Observer

namespace Watchlist

open Observer

variable {α : Type} [DecidableEq α] {set : Finset α} {x : α} {log : List (α × Bool)}

/-- Nothing is added that is there already, and nothing is removed that is not there. -/
def listen (set : Finset α) : α × Bool → Option (Finset α)
  | (x, true) => if x ∈ set then none else some (insert x set)
  | (x, false) => if x ∈ set then some (set.erase x) else none

theorem reads_add (h : reads listen ∅ log = some set) (hx : x ∉ set) :
    reads listen ∅ (log ++ [(x, true)]) = some (insert x set) := by
  rw [reads_extend h, reads_singleton]
  exact if_neg hx

theorem reads_remove (h : reads listen ∅ log = some set) (hx : x ∈ set) :
    reads listen ∅ (log ++ [(x, false)]) = some (set.erase x) := by
  rw [reads_extend h, reads_singleton]
  exact if_pos hx

end Watchlist
