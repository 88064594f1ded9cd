import Pexec.BlockingRuns
import Pexec.LoopOutcome

namespace Pexec

open Runs Effect

variable {h : Nat} {w : World} {s t : Sys} {ls : List BlockingLabel} {line : List Char}

/-- The disposition and the mask are those of `s` again. -/
def Restored (s t : Sys) : Prop :=
  t.disposition = s.disposition ∧ t.sigchldBlocked = s.sigchldBlocked

/-- In a call that gives up, only the failed fork leaves the handler behind. -/
theorem Abandoned.restored_iff {st : Stage} (ht : Abandoned h s st t) :
    Restored s t ↔ (st = .fork → s.disposition = .sigchldBlockingSignalHandler) := by
  refine ⟨fun hr he => ?_, fun hfork => ⟨?_, ht.blocked⟩⟩
  · rw [← hr.1, ht.disposition, if_pos he]
  · rw [ht.disposition]
    split
    next he => exact (hfork he).symm
    next => rfl

theorem Completed.disposition {q : ProcStatus} {e : Sys} (ht : Completed h s q e t)
    (hreset : .error h .sigactionResetError ∉ newEvents s t) : t.disposition = s.disposition := by
  obtain ⟨reset, drain, htrace, ⟨_, hd⟩ | rfl, _⟩ := ht.trace
  · exact hd
  · obtain ⟨mid, he, _⟩ := ht.ending.events
    have hnew : t.trace = s.trace ++ (startedEvents h q ++ mid ++ [.error h .sigactionResetError] ++
        drain ++ (e.procs h).lastEvents h) := by
      rw [htrace, he]
      simp only [List.append_assoc]
    refine absurd ?_ hreset
    rw [newEvents_eq hnew]
    simp

/-- The mask after the loop is that of the last call, and the call of a SIGCHLD is the last. -/
theorem Loops.blocked_iff {q : ProcStatus} {d e : Sys} (hl : Loops h line s q d e) :
    e.sigchldBlocked = s.sigchldBlocked ↔ ∀ fd u, ExecCalls h line s .sigchld fd u →
      ReadsSigchld h u → maskAfter u.faults s.sigchldBlocked = s.sigchldBlocked := by
  constructor
  · intro he fd u hc hreads
    have hu := hl.called hc
    cases hl.ends_at hc (.inr ⟨rfl, hreads⟩) with
    | unread hf => exact absurd hf hreads.gets
    | reaped _ _ _ hblocked => rw [← hu.blocked, ← hblocked, he, hu.blocked]
  · intro hmask
    rcases hl.ends with ⟨cb, fd, u, hc, hend⟩ | ⟨u, hf, rfl⟩
    · have hu := hl.called hc
      cases hend with
      | interrupted _ hblocked => rw [hblocked, hu.blocked]
      | unread _ _ _ hblocked => rw [hblocked, hu.blocked]
      | reaped hreads _ _ hblocked => rw [hblocked, hu.blocked, hmask fd u hc hreads]
    · exact (hl.failed hf).blocked

/-- A blocking call whose resetting `sigaction` succeeds leaves the disposition and the mask of
SIGCHLD as they were, unless the fork fails after the handler was installed, or a SIGCHLD was
handled with a mask that blocking and unblocking do not bring back. -/
theorem exec_restores_signals (hrun : Run (BlockingStep h) (boot w) ls s)
    (ht : exec h line s = .ok () t) (hreset : .error h .sigactionResetError ∉ newEvents s t) :
    Restored s t ↔
      (prepareFails line s.faults = some .fork → s.disposition = .sigchldBlockingSignalHandler) ∧
      ∀ fd u, ExecCalls h line s .sigchld fd u → ReadsSigchld h u →
        maskAfter u.faults s.sigchldBlocked = s.sigchldBlocked := by
  have hs := run_resting hrun
  rcases exec_course hs ht with ⟨st, hfails, hu⟩ | ⟨q, d, e, hnone, hl, hu⟩
  · rw [hu.restored_iff, hfails, Option.some.injEq]
    refine ⟨fun hfork => ⟨hfork, fun fd u hc => ?_⟩, And.left⟩
    exact absurd (hfails.symm.trans (hc.prepared hs)) (by simp)
  · rw [← hl.blocked_iff, hnone]
    refine ⟨fun hr => ⟨fun hf => (by cases hf), hu.blocked.symm.trans hr.2⟩, fun hmask => ?_⟩
    exact ⟨hu.disposition hreset, hu.blocked.trans hmask.2⟩

theorem exec_restores_signals_exited : Restored exitingRun exitedRun ↔
    (prepareFails ['a'] exitingRun.faults = some .fork →
      exitingRun.disposition = .sigchldBlockingSignalHandler) ∧
    ∀ fd u, ExecCalls 0 ['a'] exitingRun .sigchld fd u → ReadsSigchld 0 u →
      maskAfter u.faults exitingRun.sigchldBlocked = exitingRun.sigchldBlocked :=
  exec_restores_signals exitingRun_run exitedRun_ok (by decide +kernel)

/-- A process about to run a command line, with the fork failing. -/
def forklessRun : Sys :=
  (boot {}).choose { faults := [none, none, none, none, none, none, some .eagain] }

def forklessAfter : Sys := final (exec 0 ['a']) forklessRun

/-- The handler is left installed: no signal state is restored in general. -/
theorem failed_fork_keeps_handler : ¬∀ (h : Nat) (w : World) (ls : List BlockingLabel) (s t : Sys)
    (line : List Char), Run (BlockingStep h) (boot w) ls s → exec h line s = .ok () t →
    .error h .sigactionResetError ∉ newEvents s t → Restored s t := by
  intro hall
  have hrun : Run (BlockingStep 0) (boot {}) ([] ++ [.choose { faults := [none, none, none, none,
      none, none, some .eagain] } []]) forklessRun := .snoc .nil rfl
  have hok : exec 0 ['a'] forklessRun = .ok () forklessAfter := ok_final (by decide +kernel)
  have hr := hall 0 {} _ forklessRun forklessAfter ['a'] hrun hok (by decide +kernel)
  have hleft : forklessAfter.disposition = .sigchldBlockingSignalHandler := by decide +kernel
  exact absurd (hleft.symm.trans hr.1) (by decide +kernel)

end Pexec
