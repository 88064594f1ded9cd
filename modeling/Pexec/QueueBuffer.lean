import Pexec.Lib.CondVar

namespace Pexec

open CondVar Runs

/-- How an element has left a buffer. -/
inductive Fate
  | removed
  | discarded
  deriving DecidableEq

/-- A `queue_buffer`; each element comes with the thread that has added it. `added` and `left` are
history: everything ever added, and everything that has left `buffer_`, in order. -/
structure QueueBuffer (ι α : Type) where
  buffer : List (ι × α) := []
  added : List (ι × α) := []
  left : List (Fate × ι × α) := []

inductive QueueOp (α : Type)
  | add (num : α)
  | clear
  | clearAdd (val : α)
  | remove
  | state

namespace QueueBuffer

variable {ι α : Type}

/-- `size_` -/
def size : Nat := 2 ^ 64 - 1

def pushBack (i : ι) (num : α) (q : QueueBuffer ι α) : QueueBuffer ι α :=
  { q with
    buffer := q.buffer ++ [(i, num)]
    added := q.added ++ [(i, num)] }

def clear (q : QueueBuffer ι α) : QueueBuffer ι α :=
  { q with
    buffer := []
    left := q.left ++ q.buffer.map fun x => (.discarded, x) }

def popFront (q : QueueBuffer ι α) : QueueBuffer ι α :=
  { q with
    buffer := q.buffer.tail
    left := q.left ++ (q.buffer.head?.map fun x => (.removed, x)).toList }

/-- The five operations. Those that need not wait have no predicate, and `state` only copies. -/
def monitor : Monitor ι (QueueBuffer ι α) (QueueOp α) where
  ready
    | .add _, q => q.buffer.length < size
    | .remove, q => q.buffer.length > 0
    | .clear, _ | .clearAdd _, _ | .state, _ => true
  act
    | i, .add num, q => q.pushBack i num
    | _, .clear, q => q.clear
    | i, .clearAdd val, q => q.clear.pushBack i val
    | _, .remove, q => q.popFront
    | _, .state, q => q
  notifies
    | .state => false
    | .add _ | .clear | .clearAdd _ | .remove => true

/-- What has left the buffer in the given way. -/
def gone (fate : Fate) (q : QueueBuffer ι α) : List (ι × α) :=
  (q.left.filter fun x => x.1 = fate).map Prod.snd

/-- Every element that was added has left once or is still there, in the order of the adding. -/
def Ordered (q : QueueBuffer ι α) : Prop := q.added = q.left.map Prod.snd ++ q.buffer

variable {q : QueueBuffer ι α} {i : ι} {num : α}

theorem pushBack_ordered (hq : q.Ordered) : (q.pushBack i num).Ordered := by
  unfold Ordered pushBack at *
  rw [hq, List.append_assoc]

theorem clear_ordered (hq : q.Ordered) : q.clear.Ordered := by
  unfold Ordered clear at *
  rw [hq]
  simp

theorem popFront_ordered (hq : q.Ordered) : q.popFront.Ordered := by
  unfold Ordered popFront at *
  rw [hq]
  cases q.buffer with
  | nil => simp
  | cons x rest => simp

theorem act_ordered (i : ι) (op : QueueOp α) (q : QueueBuffer ι α) (hq : q.Ordered) :
    (monitor.act i op q).Ordered := by
  cases op with
  | add num => exact pushBack_ordered hq
  | clear => exact clear_ordered hq
  | clearAdd val => exact pushBack_ordered (clear_ordered hq)
  | remove => exact popFront_ordered hq
  | state => exact hq

theorem Ordered.removed_sublist (hq : q.Ordered) : (q.gone .removed).Sublist q.added := by
  rw [hq]
  exact (List.filter_sublist.map Prod.snd).trans (List.sublist_append_left _ _)

/-- Each element has one fate. -/
theorem Ordered.perm (hq : q.Ordered) :
    (q.gone .removed ++ q.gone .discarded ++ q.buffer).Perm q.added := by
  rw [hq]
  refine List.Perm.append_right _ ?_
  have hfate : (fun x : Fate × ι × α => decide (x.1 = .discarded)) = fun x => !decide (x.1 = .removed) := by
    funext x
    cases x.1 <;> rfl
  unfold gone
  rw [hfate, ← List.map_append]
  exact (List.filter_append_perm _ _).map _

theorem act_discards {op : QueueOp α} (hc : op ≠ .clear) (hca : ∀ val, op ≠ .clearAdd val) :
    (monitor.act i op q).gone .discarded = q.gone .discarded := by
  cases op with
  | add num => rfl
  | clear => exact absurd rfl hc
  | clearAdd val => exact absurd rfl (hca val)
  | remove =>
    change gone .discarded q.popFront = _
    unfold gone popFront
    cases q.buffer <;> simp
  | state => rfl

/-- Only `remove` waits, and the elements there are say how many can go on. -/
theorem monitor_counts : (monitor (ι := ι) (α := α)).Counts (fun q => q.buffer.length) (· = .remove) where
  sleep op q hop hready := by
    subst hop
    simpa [monitor] using hready
  raise i op q hready := by
    cases op with
    | add num => simp [monitor, pushBack]
    | clear => simp [monitor, clear]
    | clearAdd val => simp [monitor, clear, pushBack]
    | remove =>
      simp only [monitor, popFront, List.length_tail]
      omega
    | state => simp [monitor]
  use i op q hop hready := by
    subst hop
    have hpos : 0 < q.buffer.length := by simpa [monitor] using hready
    simp only [monitor, popFront, List.length_tail, Bool.toNat_true]
    omega

end QueueBuffer

open QueueBuffer

variable {ι α : Type} [DecidableEq ι] [Fintype ι]

/-- There is room for what is added. -/
def Roomy (m : CondVar.State ι (QueueBuffer ι α) (QueueOp α)) (l : Label ι (QueueOp α)) : Prop :=
  ∀ i num, l = .call i (.add num) → m.data.buffer.length < QueueBuffer.size

/-- The label is a call of `clear` or `clear_add`. -/
def Clears (l : Label ι (QueueOp α)) : Prop :=
  ∃ i, l = .call i .clear ∨ ∃ val, l = .call i (.clearAdd val)

variable {m : CondVar.State ι (QueueBuffer ι α) (QueueOp α)} {l : Label ι (QueueOp α)}
  {ls : List (Label ι (QueueOp α))}

omit [DecidableEq ι] [Fintype ι] in
theorem Roomy.passes (h : Roomy m l) : monitor.Passes (· = .remove) m l := by
  rintro i op rfl
  cases op with
  | add num => exact .inr (by simpa [monitor] using h i num rfl)
  | remove => exact .inl rfl
  | _ => exact .inr rfl

/-- Without a `clear` or `clear_add` nothing is discarded. -/
theorem run_discards (hrun : Run (Under Roomy monitor.Step) { data := {} } ls m)
    (hls : ∀ l ∈ ls, ¬Clears l) : m.data.gone .discarded = [] := by
  induction hrun with
  | nil => rfl
  | @snoc m n ls l hprev hstep ih =>
    have hattended : Attended (fun q => q.buffer.length) (· = .remove) m :=
      run_attended monitor_counts (attended_idle fun _ => rfl) (hprev.mono fun _ _ _ h => ⟨h.1.passes, h.2⟩)
    have hm := ih fun l hl => hls l (List.mem_append_left _ hl)
    have hl := hls l (List.mem_append_right _ (List.mem_singleton_self l))
    have henter : ∀ i op, op ≠ .clear → (∀ val, op ≠ .clearAdd val) →
        (monitor.enter i op m).data.gone .discarded = [] := by
      intro i op hc hca
      unfold Monitor.enter
      split
      · exact (act_discards hc hca).trans hm
      · exact hm
    cases hstep.2 with
    | @call i op _ =>
      exact henter i op (fun h => hl ⟨i, .inl (h ▸ rfl)⟩) fun val h => hl ⟨i, .inr ⟨val, h ▸ rfl⟩⟩
    | @recheck i op hwoken =>
      have hop := hattended.only i op (.inr hwoken)
      exact henter i op (by simp [hop]) (by simp [hop])
    | notifyNone _ _ => exact hm
    | notifyOne _ _ => exact hm
    | wake _ => exact hm

/-- A consumer has gone to sleep, a producer has added an element and not notified it yet. -/
def sleeperMet : CondVar.State Bool (QueueBuffer Bool Nat) (QueueOp Nat) :=
  monitor.enter true (.add 5) (monitor.enter false .remove { data := {} })

theorem sleeperMet_run : Run (Under Roomy monitor.Step) { data := {} }
    ([] ++ [.call false .remove] ++ [.call true (.add 5)]) sleeperMet := by
  refine .snoc (.snoc .nil ⟨fun i num h => (by cases h), .call rfl⟩) ⟨fun i num _ => ?_, .call rfl⟩
  exact Nat.zero_lt_of_lt (by decide : 0 < QueueBuffer.size)

end Pexec
