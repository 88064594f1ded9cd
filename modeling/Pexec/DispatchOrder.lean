import Pexec.JobWakeup

namespace Pexec

open Runs

/-- The threads with what has ever been added to the buffer and what the loop has taken from it. -/
structure Dispatcher where
  threads : Threads
  added : List (Option Job) := []
  dispatched : List (Option Job) := []

inductive DispatchStep : Dispatcher → JobLabel → Dispatcher → Prop
  | add {d job k} : JobStep d.threads (.add job) k →
      DispatchStep d (.add job) { d with threads := k, added := d.added ++ [job] }
  | remove {d job t} : d.threads.phase = .announced → bufferRemove d.threads.sys = .ok job t →
      DispatchStep d .remove { d with
        threads := { d.threads with sys := t, phase := .dispatching }
        dispatched := d.dispatched ++ [job] }
  | rest {d l k} : (∀ job, l ≠ .add job) → l ≠ .remove → JobStep d.threads l k →
      DispatchStep d l { d with threads := k }

variable {d e : Dispatcher} {l : JobLabel} {ls : List JobLabel}

theorem DispatchStep.job (h : DispatchStep d l e) : JobStep d.threads l e.threads := by
  cases h with
  | add h => exact h
  | remove hphase hrem => exact .remove hphase hrem
  | rest _ _ h => exact h

/-- What is in the buffer is what has been added and not been taken, in the order of the adding. -/
def Dispatcher.Ordered (d : Dispatcher) : Prop := d.added = d.dispatched ++ d.threads.sys.buffer

theorem dispatchStep_ordered (hc : ControlOpen d.threads.sys) (hd : d.Ordered)
    (h : DispatchStep d l e) : e.Ordered := by
  unfold Dispatcher.Ordered at *
  cases h with
  | add h =>
    cases h with
    | add hadd =>
      cases hadd
      simp [hd]
  | remove _ hrem =>
    obtain ⟨hb, _⟩ := bufferRemove_cases hrem
    simp [hd, hb]
  | rest hadd hremove h =>
    cases h with
    | add _ => exact absurd rfl (hadd _)
    | announce _ hint => exact hd.trans (congrArg _ (interrupt_cases hc hint).1.symm)
    | readByte _ hread => exact hd.trans (congrArg _ (readByte_cases hc hread).1.symm)
    | remove _ _ => exact absurd rfl hremove
    | finish _ => exact hd
    | other hsame => exact hd.trans (congrArg _ hsame.buffer.symm)

theorem bufferRemove_ok {s : Sys} (h : s.buffer ≠ []) : ∃ job t, bufferRemove s = .ok job t := by
  cases hb : s.buffer with
  | nil => exact absurd hb h
  | cons job rest =>
    refine ⟨job, { s with buffer := rest }, ?_⟩
    unfold bufferRemove
    rw [Effect.bind_of_ok (Effect.get_apply _)]
    simp only [hb]
    rfl

/-- In every run of any number of threads there is a job in the buffer for each byte that is unread
or being dispatched, so the loop finds one, and it takes them in the order of the adding. -/
theorem dispatch_never_waits {w : World} {s : Sys} (hnew : newMulti (boot w) = .ok () s)
    (hrun : Run DispatchStep { threads := { sys := s } } ls d) :
    d.threads.sys.announcements.length + d.threads.taken ≤ d.threads.sys.buffer.length ∧
      (d.threads.phase = .announced → ∃ job t, bufferRemove d.threads.sys = .ok job t) ∧
      d.added = d.dispatched ++ d.threads.sys.buffer := by
  obtain ⟨hstart, _⟩ := newMulti_accounted hnew
  have hempty : s.buffer = [] := (newMulti_control hnew).2.2.1
  have hall := hrun.invariant (I := fun d => Accounted d.threads ∧ d.Ordered)
    ⟨hstart, hempty.symm⟩ fun a l b ⟨hacc, hord⟩ hstep =>
      ⟨(jobStep_accounted hacc hstep.job).1, dispatchStep_ordered hacc.control hord hstep⟩
  have hle := hall.1.le
  unfold Threads.announced at hle
  refine ⟨by omega, fun hphase => bufferRemove_ok fun hb => ?_, hall.2⟩
  have htaken : d.threads.taken = 1 := if_pos hphase
  rw [hb, List.length_nil] at hle
  omega

/-- A new object to which a `stop` job has been added and announced. -/
def announcedMulti : Sys :=
  Effect.final (sendJob (some (.stop .stopWait (-1)))) (Effect.final newMulti (boot {}))

/-- The loop has read the byte. -/
def readMulti : Sys := Effect.final (readRetry announcedMulti.controlPipe.rd 1) announcedMulti

theorem dispatch_never_waits_stop : ∃ d, Run DispatchStep { threads := { sys := Effect.final newMulti (boot {}) } }
      ([] ++ [.add (some (.stop .stopWait (-1)))] ++ [.announce] ++ [.readByte]) d ∧
    d.threads.phase = .announced ∧ d.threads.sys = readMulti ∧
    d.threads.sys.announcements.length + d.threads.taken ≤ d.threads.sys.buffer.length ∧
    (d.threads.phase = .announced → ∃ job t, bufferRemove d.threads.sys = .ok job t) ∧
    d.added = d.dispatched ++ d.threads.sys.buffer := by
  have hrun : Run DispatchStep { threads := { sys := Effect.final newMulti (boot {}) } }
      ([] ++ [.add (some (.stop .stopWait (-1)))] ++ [.announce] ++ [.readByte])
      { threads := { sys := readMulti, phase := .announced }
        added := [some (.stop .stopWait (-1))] } :=
    .snoc (.snoc (.snoc .nil (.add (.add rfl)))
      (.rest (fun _ h => nomatch h) (fun h => nomatch h) (.announce (t := announcedMulti) rfl rfl)))
      (.rest (fun _ h => nomatch h) (fun h => nomatch h) (.readByte rfl rfl))
  exact ⟨_, hrun, rfl, rfl, dispatch_never_waits (show newMulti (boot {}) = .ok () _ from rfl) hrun⟩

end Pexec
