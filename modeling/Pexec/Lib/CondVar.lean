import Mathlib.Algebra.BigOperators.Group.Finset.Piecewise
import Pexec.Lib.Runs

namespace CondVar

open Runs

/-- The operations on the shared data: the predicate an operation waits for, what it does in its
critical section, and whether it calls `notify_one` after that. -/
structure Monitor (ι σ ω : Type) where
  ready : ω → σ → Bool
  act : ι → ω → σ → σ
  notifies : ω → Bool

/-- Where a thread is: outside, in a wait, out of a wait that it has to leave through the
predicate once more, or past the critical section and before its `notify_one`. -/
inductive Phase (ω : Type)
  | idle
  | asleep (op : ω)
  | woken (op : ω)
  | notifying

structure State (ι σ ω : Type) where
  data : σ
  phase : ι → Phase ω := fun _ => .idle

inductive Label (ι ω : Type)
  | call (i : ι) (op : ω)
  | recheck (i : ι) (op : ω)
  | notify (i : ι)
  | wake (i : ι)

variable {ι σ ω : Type} [DecidableEq ι]

def State.move (m : State ι σ ω) (i : ι) (p : Phase ω) : State ι σ ω :=
  { m with phase := Function.update m.phase i p }

/-- Thread `i` holds the mutex and tests the predicate of `op`. -/
def Monitor.enter (M : Monitor ι σ ω) (i : ι) (op : ω) (m : State ι σ ω) : State ι σ ω :=
  if M.ready op m.data then
    { m.move i (if M.notifies op then .notifying else .idle) with data := M.act i op m.data }
  else m.move i (.asleep op)

/-- `notify_one` wakes any one of the threads that wait, and none if there is none; a wait may
also end by itself. -/
inductive Monitor.Step (M : Monitor ι σ ω) : State ι σ ω → Label ι ω → State ι σ ω → Prop
  | call {m i op} : m.phase i = .idle → Step M m (.call i op) (M.enter i op m)
  | recheck {m i op} : m.phase i = .woken op → Step M m (.recheck i op) (M.enter i op m)
  | notifyNone {m i} : m.phase i = .notifying → (∀ j op, m.phase j ≠ .asleep op) →
      Step M m (.notify i) (m.move i .idle)
  | notifyOne {m i j op} : m.phase i = .notifying → m.phase j = .asleep op →
      Step M m (.notify i) ((m.move i .idle).move j (.woken op))
  | wake {m i op} : m.phase i = .asleep op → Step M m (.wake i) (m.move i (.woken op))

variable {M : Monitor ι σ ω} {m n : State ι σ ω} {l : Label ι ω} {ls : List (Label ι ω)} {i : ι}
  {op : ω}

/-- What every critical section keeps holds of the data in every run. -/
theorem data_invariant {I : σ → Prop} (hact : ∀ i op s, M.ready op s = true → I s → I (M.act i op s))
    (hrun : Run M.Step m ls n) (hm : I m.data) : I n.data := by
  refine hrun.invariant (I := fun m => I m.data) hm fun a l b ha hstep => ?_
  have henter : ∀ i op, I (M.enter i op a).data := by
    intro i op
    unfold Monitor.enter
    split
    next hready => exact hact i op _ hready ha
    next => exact ha
  cases hstep with
  | call _ => exact henter _ _
  | recheck _ => exact henter _ _
  | notifyNone _ _ => exact ha
  | notifyOne _ _ => exact ha
  | wake _ => exact ha

/-- The thread will still test its predicate, or wake another one. -/
def Phase.weight : Phase ω → Nat
  | .woken _ | .notifying => 1
  | .idle | .asleep _ => 0

def State.pending [Fintype ι] (m : State ι σ ω) : Nat := ∑ i, (m.phase i).weight

def State.Sleeper (m : State ι σ ω) : Prop := ∃ i op, m.phase i = .asleep op

theorem pending_move [Fintype ι] (m : State ι σ ω) (i : ι) (p : Phase ω) :
    (m.move i p).pending + (m.phase i).weight = m.pending + p.weight := by
  have hmoved : (m.move i p).pending = p.weight + ∑ j ∈ Finset.univ \ {i}, (m.phase j).weight := by
    have hcomp : (fun j => ((m.move i p).phase j).weight) =
        Function.update (fun j => (m.phase j).weight) i p.weight := by
      funext j
      by_cases hj : j = i
      · subst hj
        simp [State.move]
      · simp [State.move, hj]
    unfold State.pending
    rw [hcomp, Finset.sum_update_of_mem (Finset.mem_univ i)]
  have hsplit : m.pending = (m.phase i).weight + ∑ j ∈ Finset.univ \ {i}, (m.phase j).weight := by
    unfold State.pending
    rw [← Finset.sum_sdiff (Finset.subset_univ {i}), Finset.sum_singleton, Nat.add_comm]
  omega

omit [DecidableEq ι] in
theorem pending_pos [Fintype ι] (h : 0 < m.pending) :
    ∃ i, m.phase i = .notifying ∨ ∃ op, m.phase i = .woken op := by
  obtain ⟨i, _, hi⟩ := Finset.exists_ne_zero_of_sum_ne_zero (Nat.pos_iff_ne_zero.mp h)
  refine ⟨i, ?_⟩
  cases hp : m.phase i with
  | idle => simp [hp, Phase.weight] at hi
  | asleep op => simp [hp, Phase.weight] at hi
  | woken op => exact .inr ⟨op, rfl⟩
  | notifying => exact .inl rfl

/-- `need` says how many of the operations in `waits` can go on. Only those wait, and only where
it is 0; no critical section raises it by more than the `notify_one` that follows, and one of an
operation in `waits` uses one up. -/
structure Monitor.Counts (M : Monitor ι σ ω) (need : σ → Nat) (waits : ω → Prop) : Prop where
  sleep : ∀ op s, waits op → M.ready op s = false → need s = 0
  raise : ∀ i op s, M.ready op s = true → need (M.act i op s) ≤ need s + (M.notifies op).toNat
  use : ∀ i op s, waits op → M.ready op s = true →
    need (M.act i op s) + 1 ≤ need s + (M.notifies op).toNat

/-- An operation that is not in `waits` finds its predicate true. -/
def Monitor.Passes (M : Monitor ι σ ω) (waits : ω → Prop) (m : State ι σ ω) (l : Label ι ω) : Prop :=
  ∀ i op, l = .call i op → waits op ∨ M.ready op m.data = true

/-- While a thread waits, there are as many wake-ups on their way as operations that can go on. -/
structure Attended [Fintype ι] (need : σ → Nat) (waits : ω → Prop) (m : State ι σ ω) : Prop where
  only : ∀ i op, m.phase i = .asleep op ∨ m.phase i = .woken op → waits op
  enough : m.Sleeper → need m.data ≤ m.pending

theorem move_only {waits : ω → Prop} (hm : ∀ i op, m.phase i = .asleep op ∨ m.phase i = .woken op → waits op)
    {p : Phase ω} (hp : ∀ op, p = .asleep op ∨ p = .woken op → waits op) :
    ∀ j op, (m.move i p).phase j = .asleep op ∨ (m.move i p).phase j = .woken op → waits op := by
  intro j op hj
  by_cases hji : j = i
  · subst hji
    exact hp op (by simpa [State.move] using hj)
  · exact hm j op (by simpa [State.move, hji] using hj)

theorem Sleeper.of_move {p : Phase ω} (hp : ∀ op, p ≠ .asleep op) (h : (m.move i p).Sleeper) :
    m.Sleeper := by
  obtain ⟨j, op, hj⟩ := h
  by_cases hji : j = i
  · subst hji
    exact absurd (by simpa [State.move] using hj) (hp op)
  · exact ⟨j, op, by simpa [State.move, hji] using hj⟩

variable [Fintype ι] {need : σ → Nat} {waits : ω → Prop}

/-- A thread with the mutex that brings `gain` wake-ups of its own. -/
theorem Attended.enter (hc : M.Counts need waits) (hm : Attended need waits m)
    (hop : waits op ∨ M.ready op m.data = true)
    (hgain : M.ready op m.data = true → need (M.act i op m.data) + (m.phase i).weight ≤
      need m.data + (M.notifies op).toNat) : Attended need waits (M.enter i op m) := by
  unfold Monitor.enter
  split
  next hready =>
    have hweight : (if M.notifies op then Phase.notifying else (.idle : Phase ω)).weight =
        (M.notifies op).toNat := by
      cases M.notifies op <;> rfl
    have hawake : ∀ op', (if M.notifies op then Phase.notifying else (.idle : Phase ω)) ≠ .asleep op' := by
      cases M.notifies op <;> simp
    refine ⟨move_only hm.only fun op' h => ?_, fun hs => ?_⟩
    · split at h <;> rcases h with h | h <;> cases h
    · have hle := hm.enough (Sleeper.of_move hawake hs)
      have hmove := pending_move m i (if M.notifies op then Phase.notifying else .idle)
      have := hgain hready
      rw [hweight] at hmove
      change need (M.act i op m.data) ≤ (m.move i _).pending
      omega
  next hready =>
    have hwaits : waits op := hop.resolve_right hready
    have hzero := hc.sleep op m.data hwaits (by simpa using hready)
    refine ⟨move_only hm.only fun op' h => ?_, fun _ => ?_⟩
    · rcases h with h | h <;> cases h
      exact hwaits
    · change need m.data ≤ _
      omega

theorem step_attended (hc : M.Counts need waits) (hm : Attended need waits m) (hp : M.Passes waits m l)
    (hstep : M.Step m l n) : Attended need waits n := by
  cases hstep with
  | @call i op hidle =>
    refine hm.enter hc (hp i op rfl) fun hready => ?_
    rw [hidle]
    exact hc.raise i op m.data hready
  | @recheck i op hwoken =>
    have hwaits := hm.only i op (.inr hwoken)
    refine hm.enter hc (.inl hwaits) fun hready => ?_
    rw [hwoken]
    exact hc.use i op m.data hwaits hready
  | @notifyNone i hnot hnone =>
    refine ⟨move_only hm.only fun op h => (by rcases h with h | h <;> cases h), fun hs => ?_⟩
    obtain ⟨j, op, hj⟩ := Sleeper.of_move (fun op => by simp) hs
    exact absurd hj (hnone j op)
  | @notifyOne i j op hnot hasleep =>
    have hij : j ≠ i := fun h => by
      rw [h, hnot] at hasleep
      cases hasleep
    have hphase : (m.move i .idle).phase j = .asleep op := by
      simpa [State.move, hij] using hasleep
    refine ⟨move_only (move_only hm.only fun op h => (by rcases h with h | h <;> cases h)) fun op' h => ?_,
      fun _ => ?_⟩
    · rcases h with h | h <;> cases h
      exact hm.only j op (.inl hasleep)
    · have hle := hm.enough ⟨j, op, hasleep⟩
      have hfirst := pending_move m i .idle
      have hsecond := pending_move (m.move i .idle) j (.woken op)
      rw [hnot] at hfirst
      rw [hphase] at hsecond
      simp only [Phase.weight] at hfirst hsecond
      change need m.data ≤ _
      omega
  | @wake i op hasleep =>
    refine ⟨move_only hm.only fun op' h => ?_, fun hs => ?_⟩
    · rcases h with h | h <;> cases h
      exact hm.only i op (.inl hasleep)
    · have hle := hm.enough ⟨i, op, hasleep⟩
      have hmove := pending_move m i (.woken op)
      rw [hasleep] at hmove
      simp only [Phase.weight] at hmove
      change need m.data ≤ _
      omega

theorem run_attended (hc : M.Counts need waits) (hm : Attended need waits m)
    (hrun : Run (Under (M.Passes waits) M.Step) m ls n) : Attended need waits n :=
  hrun.invariant hm fun _ _ _ ha h => step_attended hc ha h.1 h.2

/-- In no run does a thread wait for what is there with no wake-up on its way. -/
theorem no_lost_wakeup (hc : M.Counts need waits) (hm : Attended need waits m)
    (hrun : Run (Under (M.Passes waits) M.Step) m ls n) (hneed : 0 < need n.data) (hs : n.Sleeper) :
    ∃ i, n.phase i = .notifying ∨ ∃ op, waits op ∧ n.phase i = .woken op := by
  have hn := run_attended hc hm hrun
  obtain ⟨i, hi | ⟨op, hi⟩⟩ := pending_pos (Nat.lt_of_lt_of_le hneed (hn.enough hs))
  · exact ⟨i, .inl hi⟩
  · exact ⟨i, .inr ⟨op, hn.only i op (.inr hi), hi⟩⟩

omit [DecidableEq ι] in
theorem attended_idle (hidle : ∀ i, m.phase i = .idle) : Attended need waits m :=
  ⟨fun i op h => (by rw [hidle i] at h; rcases h with h | h <;> cases h),
    fun ⟨i, op, h⟩ => (by rw [hidle i] at h; cases h)⟩

end CondVar
