import Pexec.BlockingLaunch

namespace Pexec

open Effect

variable {h : Nat} {d e : Sys}

/-- What is left of the answers when the process has been waited for. -/
def waitAnswers (faults : List (Option Errno)) : List (Option Errno) :=
  (faults.dropWhile fun x => x = some .eintr).tail

/-- The mask after `handle_sigchld`: SIGCHLD is blocked, the process waited for, SIGCHLD unblocked,
and each of the two changes may fail. -/
def maskAfter (faults : List (Option Errno)) (blocked : Bool) : Bool :=
  if (waitAnswers faults.tail).head?.join = none then false
  else if faults.head?.join = none then true else blocked

theorem sigprocmask_mask {block : Bool} {err : Error}
    (he : (do if !(← call (World.sigprocmask · block)) then processError h err : Prog Unit) d =
      .ok () e) : e.faults = d.faults.tail ∧
      e.sigchldBlocked = if d.faults.head?.join = none then block else d.sigchldBlocked := by
  rw [bind_of_ok (call_apply ..)] at he
  cases hf : d.faults.head?.join with
  | some x =>
    simp only [World.sigprocmask, World.nextFault, hf, Bool.not_false, if_true] at he
    cases (processError_apply err).symm.trans he
    exact ⟨rfl, rfl⟩
  | none =>
    simp only [World.sigprocmask, World.nextFault, hf] at he
    cases he
    exact ⟨rfl, rfl⟩

theorem waitpid_eintr (w : World) (pid : Int) :
    (w.waitpid pid).2.faults = w.faults.tail ∧
      ((w.waitpid pid).1 = .failed .eintr ↔ w.faults.head?.join = some .eintr) := by
  unfold World.waitpid World.nextFault
  cases hf : w.faults.head?.join with
  | some x => exact ⟨rfl, by simp⟩
  | none =>
    dsimp only
    split
    · split <;> simp
    · split <;> simp

theorem waitpidOnce_answer (d : Sys) : ∃ r e, waitpidOnce h d = .ok r e ∧
    e.faults = d.faults.tail ∧ (r = .failed .eintr ↔ d.faults.head?.join = some .eintr) := by
  obtain ⟨hfaults, heintr⟩ := waitpid_eintr d.toWorld (d.procs h).procPid
  unfold waitpidOnce
  rw [bind_of_ok (modifyProc_apply ..), bind_of_ok (get_apply _), bind_of_ok (call_apply ..),
    bind_of_ok (emit_apply ..)]
  simp only [Function.update_self]
  revert hfaults heintr
  generalize (d.toWorld.waitpid (d.procs h).procPid).2 = w
  generalize (d.toWorld.waitpid (d.procs h).procPid).1 = result
  intro hfaults heintr
  cases result with
  | reaped pid status => exact ⟨_, _, bind_of_ok (modifyProc_apply ..), hfaults, heintr⟩
  | unavailable => exact ⟨_, _, bind_of_ok (processError_apply _), hfaults, heintr⟩
  | failed err => exact ⟨_, _, bind_of_ok (processError_apply _), hfaults, heintr⟩

/-- Each turn takes one answer, and the first that is not EINTR is the last. -/
theorem waitpidRetry_answers {faults : List (Option Errno)} (hf : d.faults = faults)
    (he : waitpidRetry h faults d = .ok () e) : e.faults = waitAnswers faults := by
  induction faults generalizing d with
  | nil =>
    obtain ⟨r, c, hc, hfaults, _⟩ := waitpidOnce_answer (h := h) d
    cases (bind_of_ok hc).symm.trans he
    rw [hfaults, hf]
    rfl
  | cons fault faults ih =>
    obtain ⟨r, c, hc, hfaults, heintr⟩ := waitpidOnce_answer (h := h) d
    rw [hf] at hfaults heintr
    replace he := (bind_of_ok hc).symm.trans he
    by_cases hr : r = .failed .eintr
    · rw [if_pos hr] at he
      rw [ih hfaults he, waitAnswers, waitAnswers, List.dropWhile_cons_of_pos]
      simpa using heintr.mp hr
    · rw [if_neg hr] at he
      cases he
      rw [hfaults, waitAnswers, List.dropWhile_cons_of_neg]
      simpa using mt heintr.mpr hr

end Pexec
