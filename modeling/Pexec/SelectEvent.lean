import Mathlib.Data.List.Sort
import Pexec.Descriptors

namespace Pexec

inductive EventReturn
  | stopLoop
  | skipOtherFd
  | nothing
  deriving DecidableEq, Repr

/-- A `select_event` object; `κ` names its callbacks. `cbs` is `cbs_` in the iteration order of
the unordered map, `cursor` is `actual_iterator_cbs_` (`none` is the end iterator). -/
structure SelectEvent (κ : Type) where
  controlPipe : PipeFds := {}
  cbs : List (Int × κ) := []
  cursor : Option Int := none
  /-- `actual_iterator_deleted_` -/
  deleted : Bool := false
  deriving DecidableEq

/-- The map may come out in any order after an insertion. -/
def arrange {κ : Type} (order : List Int) (cbs : List (Int × κ)) : List (Int × κ) :=
  cbs.insertionSort fun a b => order.idxOf a.1 ≤ order.idxOf b.1

/-- The key that follows `fd` in iteration order. -/
def nextKey {κ : Type} (fd : Int) : List (Int × κ) → Option Int
  | [] => none
  | (key, _) :: rest => if key = fd then rest.head?.map Prod.fst else nextKey fd rest

namespace SelectEvent

variable {κ : Type} (e : SelectEvent κ)

def keys : List Int := e.cbs.map Prod.fst

/-- `none` where the assertion that the descriptor is not watched yet fails. -/
def addReadEvent (order : List Int) (fd : Int) (cb : κ) : Option (SelectEvent κ) :=
  if fd ∈ e.keys then none else some { e with cbs := arrange order (e.cbs ++ [(fd, cb)]) }

/-- `none` where the assertion that the descriptor is watched fails. -/
def removeReadEvent (fd : Int) : Option (SelectEvent κ) :=
  if fd ∈ e.keys then
    let cbs := e.cbs.filter (fun p => p.1 ≠ fd)
    if e.cursor = some fd then
      some { e with cbs, deleted := true, cursor := nextKey fd e.cbs }
    else some { e with cbs }
  else none

/-- `actual_iterator_cbs_ = cbs_.begin()` -/
def begin : SelectEvent κ := { e with cursor := e.cbs.head?.map Prod.fst }

/-- The loop's step to the next registration, unless the callback removed its own. -/
def advance : SelectEvent κ :=
  if e.deleted then { e with deleted := false }
  else { e with cursor := e.cursor.bind fun fd => nextKey fd e.cbs }

/-- The registration under the cursor. -/
def current : Option (Int × κ) := e.cursor.bind fun fd => e.cbs.find? (·.1 = fd)

theorem mem_of_current {fd : Int} {cb : κ} (h : e.current = some (fd, cb)) : (fd, cb) ∈ e.cbs := by
  obtain ⟨_, _, hfind⟩ := Option.bind_eq_some_iff.mp h
  exact List.mem_of_find?_eq_some hfind

theorem mem_keys {fd : Int} : fd ∈ e.keys ↔ ∃ cb, (fd, cb) ∈ e.cbs := by
  simp [keys]

theorem addReadEvent_of_not_mem {order : List Int} {fd : Int} (cb : κ) (h : fd ∉ e.keys) :
    e.addReadEvent order fd cb = some { e with cbs := arrange order (e.cbs ++ [(fd, cb)]) } :=
  if_neg h

theorem mem_arrange {order : List Int} {cbs : List (Int × κ)} {p : Int × κ} :
    p ∈ arrange order cbs ↔ p ∈ cbs := List.mem_insertionSort _

/-- The removed registration, and only that, is gone. -/
theorem removeReadEvent_of_mem {fd : Int} (h : fd ∈ e.keys) :
    ∃ e', e.removeReadEvent fd = some e' ∧ e'.controlPipe = e.controlPipe ∧
      ∀ p, p ∈ e'.cbs ↔ p ∈ e.cbs ∧ p.1 ≠ fd := by
  unfold removeReadEvent
  rw [if_pos h]
  by_cases hc : e.cursor = some fd
  · rw [if_pos hc]
    exact ⟨_, rfl, rfl, fun p => by simp⟩
  · rw [if_neg hc]
    exact ⟨_, rfl, rfl, fun p => by simp⟩

end SelectEvent

end Pexec
