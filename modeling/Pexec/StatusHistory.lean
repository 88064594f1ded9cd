import Mathlib.Tactic.IntervalCases
import Pexec.Lib.LastWrite
import Pexec.ProcStatus

namespace Pexec

open LastWrite

/-- The words passed to `update_status` one after the other. -/
def ProcStatus.updates (p : ProcStatus) (words : List WaitStatus) : ProcStatus :=
  words.foldl ProcStatus.updateStatus p

/-- The fields that decode the status word. -/
def ProcStatus.SameDecoding (p q : ProcStatus) : Prop :=
  p.exited = q.exited ∧ p.returnCode = q.returnCode ∧ p.signaled = q.signaled ∧
    p.signaledSignal = q.signaledSignal ∧ p.generatedCoreDump = q.generatedCoreDump ∧
    p.stopped = q.stopped ∧ p.stoppedSignal = q.stoppedSignal ∧ p.continued = q.continued ∧
    p.running = q.running

instance (p q : ProcStatus) : Decidable (p.SameDecoding q) := inferInstanceAs (Decidable (_ ∧ _))

/-- Each value field that applies, read as a number, is what its macro extracts. -/
def ProcStatus.Extracts (p : ProcStatus) (status : WaitStatus) : Prop :=
  (p.exited → p.returnCode = wexitstatus status) ∧
    (p.signaled → p.signaledSignal = wtermsig status) ∧
    (p.stopped → p.stoppedSignal.toNat = wstopsig status)

instance (p : ProcStatus) (status : WaitStatus) : Decidable (p.Extracts status) :=
  inferInstanceAs (Decidable (_ ∧ _))

/-- What `words` leave behind does not show after `status`: each field that `status` does not
write was never written, or with the number it starts from. -/
def Forgotten (words : List WaitStatus) (status : WaitStatus) : Prop :=
  (wifexited status = false → ∀ w ∈ last wifexited words, wexitstatus w = 0) ∧
    (wifsignaled status = false → ∀ w ∈ words, wifsignaled w = false) ∧
    (wifstopped status = false → ∀ w ∈ last wifstopped words, wstopsig w = 0)

theorem wtermsig_pos {status : WaitStatus} (h : wifsignaled status = true) :
    0 < wtermsig status := by
  rw [Nat.pos_iff_ne_zero]
  intro hzero
  have hword : status &&& 0x7f#32 = 0#32 := BitVec.eq_of_toNat_eq hzero
  rw [wifsignaled, hword] at h
  exact absurd h (by decide)

section
variable (p : ProcStatus) (words : List WaitStatus) (status : WaitStatus)

theorem updates_append_singleton :
    p.updates (words ++ [status]) = (p.updates words).updateStatus status :=
  List.foldl_append

theorem updates_returnCode_iff :
    (p.updates (words ++ [status])).returnCode = (p.updateStatus status).returnCode ↔
      (wifexited status = false → ∀ w ∈ last wifexited words, wexitstatus w = p.returnCode) :=
  foldl_field_snoc_iff (f := ProcStatus.returnCode) (fun _ _ => rfl) p

theorem updates_signaledSignal_iff :
    (p.updates (words ++ [status])).signaledSignal = (p.updateStatus status).signaledSignal ↔
      (wifsignaled status = false →
        ∀ w ∈ last wifsignaled words, wtermsig w = p.signaledSignal) :=
  foldl_field_snoc_iff (f := ProcStatus.signaledSignal) (fun _ _ => rfl) p

theorem updates_generatedCoreDump_iff :
    (p.updates (words ++ [status])).generatedCoreDump =
        (p.updateStatus status).generatedCoreDump ↔
      (wifsignaled status = false →
        ∀ w ∈ last wifsignaled words, wcoredump w = p.generatedCoreDump) :=
  foldl_field_snoc_iff (f := ProcStatus.generatedCoreDump) (fun _ _ => rfl) p

theorem updates_stoppedSignal_iff :
    (p.updates (words ++ [status])).stoppedSignal = (p.updateStatus status).stoppedSignal ↔
      (wifstopped status = false →
        ∀ w ∈ last wifstopped words, (wstopsig w != 0) = p.stoppedSignal) :=
  foldl_field_snoc_iff (f := ProcStatus.stoppedSignal) (fun _ _ => rfl) p

/-- The flags say what the last word is, whatever came before. -/
theorem updates_flags :
    (p.updates (words ++ [status])).exited = wifexited status ∧
      (p.updates (words ++ [status])).signaled = wifsignaled status ∧
      (p.updates (words ++ [status])).stopped = wifstopped status ∧
      (p.updates (words ++ [status])).continued = wifcontinued status ∧
      (p.updates (words ++ [status])).running = !(wifsignaled status || wifexited status) := by
  rw [updates_append_singleton]
  exact ⟨rfl, rfl, rfl, rfl, rfl⟩

end

/-- A signal number is never zero, so one that was stored stays visible. -/
theorem signal_forgotten_iff {words : List WaitStatus} :
    (∀ w ∈ last wifsignaled words, wtermsig w = 0) ↔ ∀ w ∈ words, wifsignaled w = false := by
  rw [← last_eq_none_iff]
  constructor
  · intro hzero
    cases hlast : last wifsignaled words with
    | none => rfl
    | some w => exact absurd (hzero w hlast) (wtermsig_pos (test_of_last hlast).2).ne'
  · intro hnone w hw
    rw [hnone] at hw
    cases hw

theorem sameDecoding_updates_iff {words : List WaitStatus} {status : WaitStatus} :
    (ProcStatus.updates {} (words ++ [status])).SameDecoding
        (ProcStatus.updateStatus {} status) ↔ Forgotten words status := by
  obtain ⟨hexited, hsignaled, hstopped, hcontinued, hrunning⟩ :=
    updates_flags {} words status
  constructor
  · rintro ⟨-, hcode, -, hsignal, -, -, hstop, -, -⟩
    refine ⟨(updates_returnCode_iff _ _ _).mp hcode, fun hs => ?_, fun hs w hw => ?_⟩
    · exact signal_forgotten_iff.mp ((updates_signaledSignal_iff _ _ _).mp hsignal hs)
    · simpa using (updates_stoppedSignal_iff _ _ _).mp hstop hs w hw
  · rintro ⟨hcode, hsignal, hstop⟩
    refine ⟨hexited, (updates_returnCode_iff _ _ _).mpr hcode, hsignaled,
      (updates_signaledSignal_iff _ _ _).mpr fun hs => signal_forgotten_iff.mpr (hsignal hs),
      (updates_generatedCoreDump_iff _ _ _).mpr fun hs w hw => ?_, hstopped,
      (updates_stoppedSignal_iff _ _ _).mpr fun hs w hw => ?_, hcontinued, hrunning⟩
    · rw [last_eq_none_iff.mpr (hsignal hs)] at hw
      cases hw
    · simp [hstop hs w hw]

/-- The exit code and the signal are stored as numbers, the stop signal as a `bool`. -/
theorem extracts_updates_iff {words : List WaitStatus} {status : WaitStatus} :
    (ProcStatus.updates {} (words ++ [status])).Extracts status ↔
      (wifstopped status = true → wstopsig status ≤ 1) := by
  rw [updates_append_singleton]
  simp only [ProcStatus.Extracts, ProcStatus.updateStatus]
  constructor
  · rintro ⟨-, -, hstop⟩ hs
    have hbit := hstop hs
    rw [if_pos hs] at hbit
    rw [← hbit]
    exact Bool.toNat_le _
  · intro hbound
    refine ⟨fun hs => by rw [if_pos hs], fun hs => by rw [if_pos hs], fun hs => ?_⟩
    rw [if_pos hs]
    have hle := hbound hs
    interval_cases wstopsig status <;> rfl

/-- The fields after a sequence of words are those of a fresh `proc_status` after the last one,
with the numbers the macros extract, exactly when nothing that the earlier words wrote shows and
the last one does not report a stop signal above 1. -/
theorem decoding_faithful_iff (words : List WaitStatus) (status : WaitStatus) :
    ((ProcStatus.updates {} (words ++ [status])).SameDecoding
          (ProcStatus.updateStatus {} status) ∧
        (ProcStatus.updates {} (words ++ [status])).Extracts status) ↔
      (Forgotten words status ∧ (wifstopped status = true → wstopsig status ≤ 1)) := by
  rw [sameDecoding_updates_iff, extracts_updates_iff]

/-- A program that exits with code 3, and the next one is killed by signal 9: the code stays.
A stop by signal 19 is stored as 1. -/
theorem decoding_unfaithful :
    ¬ (ProcStatus.updates {} [0x300#32, 0x9#32]).SameDecoding
        (ProcStatus.updateStatus {} 0x9#32) ∧
      ¬ (ProcStatus.updates {} [0x137f#32]).Extracts 0x137f#32 := by
  decide

end Pexec
