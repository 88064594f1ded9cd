import Pexec.Lib.QueueCourse
import Pexec.Lib.Runs

namespace GracefulStop

open Runs

variable {η φ : Type} {s t u : Service η φ}

/-- `begin` and `abort` are not the service's own: somebody opens it, and it may break down. -/
inductive Act (η φ : Type)
  | send (x : Ticket η φ)
  | take (x : Ticket η φ)
  | finish (h : η)
  | begin
  | abort

inductive Performs (s : Service η φ) : Act η φ → Service η φ → Prop
  | send {t : Service η φ} {x : Ticket η φ} (move : Move s t) (real : x.isSentinel = false)
      (queue : t.queue = s.queue ++ [x]) : Performs s (.send x) t
  | take {t : Service η φ} {x : Ticket η φ} (move : Move s t) (queue : s.queue = x :: t.queue) :
      Performs s (.take x) t
  | finish {t : Service η φ} {h : η} (move : Move s t) (ended : t.ended = s.ended ++ [h]) :
      Performs s (.finish h) t
  | begin (closed : s.isOpen = false) : Performs s .begin { s with isOpen := true }
  | abort {flag : φ} (isOpen : s.isOpen = true) :
      Performs s .abort { s with stopping := false, flag, isOpen := false }

/-- The service before anything has been asked of it. -/
def Service.fresh (flag : φ) : Service η φ where
  queue := []
  sentinels := 0
  running := ∅
  issued := ∅
  stopping := false
  flag
  isOpen := false
  started := []
  ended := []

/-- The tickets that the users have sent. -/
def sends (acts : List (Act η φ)) : List (Ticket η φ) := acts.filterMap fun act =>
  match act with
  | .send x => some x
  | _ => none

/-- The tickets that were taken from the queue, but for sentinels. -/
def takes (acts : List (Act η φ)) : List (Ticket η φ) := acts.filterMap fun act =>
  match act with
  | .take x => if x.isSentinel then none else some x
  | _ => none

/-- The tickets of users. -/
def real (q : List (Ticket η φ)) : List (Ticket η φ) := q.filter fun x => !x.isSentinel

theorem real_append (q q' : List (Ticket η φ)) : real (q ++ q') = real q ++ real q' := List.filter_append ..

theorem jobs_real (q : List (Ticket η φ)) : jobs (real q) = jobs q := by
  rw [jobs, real, List.filterMap_filter]
  refine List.filterMap_congr fun x _ => ?_
  cases x <;> rfl

/-- A finished job may leave a sentinel, and nothing else is done to the queue. -/
theorem Move.finish_cases {h : η} (hm : Move s t) (hended : t.ended = s.ended ++ [h]) :
    t.started = s.started ∧ (t.queue = s.queue ∨ t.queue = s.queue ++ [.sentinel]) := by
  cases hm with
  | finish => exact ⟨rfl, .inl rfl⟩
  | finishLast => exact ⟨rfl, .inr rfl⟩
  | _ => exact absurd (List.self_eq_append_right.mp hended) (List.cons_ne_nil _ _)

/-- What one step does to the queue and to the jobs that were started. -/
theorem Performs.queue_cases {act : Act η φ} (hp : Performs s act t) :
    real s.queue ++ sends [act] = takes [act] ++ real t.queue ∧
      ∃ begun, t.started = s.started ++ begun ∧ List.Sublist begun (jobs (takes [act])) := by
  cases hp with
  | @send t x hm hreal hqueue =>
    have hstarted : t.started = s.started := by
      cases hm with
      | start head => exact absurd (congrArg List.length (head ▸ hqueue)) (by simp; omega)
      | _ => rfl
    refine ⟨?_, [], by rw [hstarted, List.append_nil], List.nil_sublist _⟩
    rw [hqueue, real_append]
    simp [sends, takes, real, hreal]
  | @take t x hm hqueue =>
    have hbegun : ∃ begun, t.started = s.started ++ begun ∧ List.Sublist begun x.job?.toList := by
      cases hm with
      | start head =>
        cases (List.cons.inj (hqueue.symm.trans head)).1
        exact ⟨_, rfl, List.Sublist.refl _⟩
      | _ => exact ⟨[], (List.append_nil _).symm, List.nil_sublist _⟩
    obtain ⟨begun, hstarted, hsub⟩ := hbegun
    rw [hqueue]
    cases x with
    | sentinel => exact ⟨List.append_nil _, begun, hstarted, hsub⟩
    | start h => exact ⟨List.append_nil _, begun, hstarted, hsub⟩
    | stop f => exact ⟨List.append_nil _, begun, hstarted, hsub⟩
  | finish hm hended =>
    obtain ⟨hstarted, hqueue⟩ := hm.finish_cases hended
    refine ⟨(List.append_nil _).trans ?_, [], by rw [hstarted, List.append_nil], List.nil_sublist _⟩
    rcases hqueue with hqueue | hqueue
    · rw [hqueue]
      rfl
    · rw [hqueue, real_append]
      exact (List.append_nil _).symm
  | begin => exact ⟨List.append_nil _, [], (List.append_nil _).symm, List.nil_sublist _⟩
  | abort => exact ⟨List.append_nil _, [], (List.append_nil _).symm, List.nil_sublist _⟩

theorem sends_append (acts acts' : List (Act η φ)) : sends (acts ++ acts') = sends acts ++ sends acts' :=
  List.filterMap_append ..

theorem takes_append (acts acts' : List (Act η φ)) : takes (acts ++ acts') = takes acts ++ takes acts' :=
  List.filterMap_append ..

/-- Tickets are taken in the order in which they were sent, and the jobs are started in that order. -/
theorem run_order {acts : List (Act η φ)} (hrun : Run Performs s acts t) :
    real s.queue ++ sends acts = takes acts ++ real t.queue ∧
      ∃ begun, t.started = s.started ++ begun ∧ List.Sublist begun (jobs (takes acts)) := by
  induction hrun with
  | nil => exact ⟨List.append_nil _, [], (List.append_nil _).symm, List.nil_sublist _⟩
  | @snoc t u acts act _ hstep ih =>
    obtain ⟨hqueue, begun, hstarted, hsub⟩ := ih
    obtain ⟨hqueue', begun', hstarted', hsub'⟩ := hstep.queue_cases
    refine ⟨?_, begun ++ begun', by rw [hstarted', hstarted, List.append_assoc], ?_⟩
    · rw [sends_append, takes_append, ← List.append_assoc, hqueue, List.append_assoc, hqueue',
        List.append_assoc]
    · rw [takes_append, jobs_append]
      exact hsub.append hsub'

/-- From the beginning. -/
theorem fresh_order {acts : List (Act η φ)} {flag : φ} (hrun : Run Performs (Service.fresh flag) acts t) :
    sends acts = takes acts ++ real t.queue ∧ List.Sublist (t.started ++ jobs t.queue) (jobs (sends acts)) := by
  obtain ⟨hqueue, begun, hstarted, hsub⟩ := run_order hrun
  have hsends : sends acts = takes acts ++ real t.queue := hqueue
  refine ⟨hsends, ?_⟩
  have hbegun : t.started = begun := hstarted
  rw [hsends, jobs_append, jobs_real, hbegun]
  exact hsub.append_right _

/-- Only a ticket that is sent can be for a new job. -/
theorem Performs.issued {act : Act η φ} (hp : Performs s act t) (hnone : sends [act] = []) :
    t.issued = s.issued := by
  cases hp with
  | send => cases hnone
  | take hm hqueue =>
    cases hm with
    | send =>
      have hlen := congrArg List.length hqueue
      simp at hlen
      omega
    | _ => rfl
  | finish hm hended =>
    cases hm with
    | send => exact absurd (List.self_eq_append_right.mp hended) (List.cons_ne_nil _ _)
    | _ => rfl
  | begin | abort => rfl

theorem run_issued {acts : List (Act η φ)} (hrun : Run Performs s acts t) (hnone : sends acts = []) :
    t.issued = s.issued := by
  induction hrun with
  | nil => rfl
  | snoc _ hstep ih =>
    rw [sends_append, List.append_eq_nil_iff] at hnone
    exact (hstep.issued hnone.2).trans (ih hnone.1)

/-- Moves by which jobs end. -/
theorem run_finishes {hs : List η} {h : η} (hrun : Run Performs s (hs.map .finish) t)
    (hstep : Performs t (.finish h) u) : Run Performs s ((hs ++ [h]).map .finish) u := by
  rw [List.map_append]
  exact .snoc hrun hstep

end GracefulStop
