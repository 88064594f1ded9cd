import Pexec.Lib.Effect
import Pexec.MultiRun
import Pexec.WorldRules

namespace Pexec

/-- How far the loop thread is with a job. -/
inductive DispatchPhase
  | idle
  | announced
  | dispatching
  deriving DecidableEq, Repr

/-- The process with the threads that call `exec` and `stop`: `announcing` of them have added
their job to the buffer and not written to the control pipe yet. -/
structure Threads where
  sys : Sys
  announcing : Nat := 0
  phase : DispatchPhase := .idle

/-- The two halves of `send_job`, made by any thread; the loop's callback for the control pipe,
which reads a byte, takes a job and acts on it; and what leaves jobs and control pipe alone. -/
inductive JobLabel
  | add (job : Option Job)
  | announce
  | readByte
  | remove
  | finish
  | other

/-- The bytes that announce jobs to the loop. -/
def Sys.announcements (s : Sys) : List UInt8 :=
  match s.controlPipe.pipe with
  | some pipe => (s.pipes pipe).unread
  | none => []

/-- The control pipe is open at both ends. -/
def ControlOpen (s : Sys) : Prop :=
  ∃ pipe, s.controlPipe.pipe = some pipe ∧
    s.fds.target s.controlPipe.rd = some (.readEnd pipe) ∧
    s.fds.target s.controlPipe.wr = some (.writeEnd pipe)

structure SameJobs (s t : Sys) : Prop where
  buffer : t.buffer = s.buffer
  array : t.controlPipe = s.controlPipe
  announcements : t.announcements = s.announcements
  capacity : t.capacity = s.capacity
  control : ControlOpen s → ControlOpen t

inductive JobStep : Threads → JobLabel → Threads → Prop
  | add {j job t} : bufferAdd job j.sys = .ok () t →
      JobStep j (.add job) { j with sys := t, announcing := j.announcing + 1 }
  | announce {j n t} : j.announcing = n + 1 → interrupt j.sys = .ok () t →
      JobStep j .announce { j with sys := t, announcing := n }
  | readByte {j data t} : j.phase = .idle →
      readRetry j.sys.controlPipe.rd 1 j.sys = .ok (.ok data) t →
      JobStep j .readByte { j with sys := t, phase := .announced }
  | remove {j job t} : j.phase = .announced → bufferRemove j.sys = .ok job t →
      JobStep j .remove { j with sys := t, phase := .dispatching }
  | finish {j} : j.phase = .dispatching → JobStep j .finish { j with phase := .idle }
  | other {j t} : SameJobs j.sys t → JobStep j .other { j with sys := t }

/-- No write of the run meets a full control pipe. -/
def RoomToWrite (j : Threads) (l : JobLabel) : Prop :=
  l = .announce → j.sys.announcements.length + 1 ≤ j.sys.capacity

/-- No producer is between `add` and its write, and no dispatch is in progress. -/
def Threads.Quiescent (j : Threads) : Prop := j.announcing = 0 ∧ j.phase = .idle

/-- Jobs whose byte is read but which are not taken yet. -/
def Threads.taken (j : Threads) : Nat := if j.phase = .announced then 1 else 0

/-- The bytes there are, or are about to be, for the jobs in the buffer. -/
def Threads.announced (j : Threads) : Nat :=
  j.sys.announcements.length + j.announcing + j.taken

theorem interrupt_cases {s t : Sys} (hc : ControlOpen s) (h : interrupt s = .ok () t) :
    t.buffer = s.buffer ∧ t.controlPipe = s.controlPipe ∧ t.capacity = s.capacity ∧
      ControlOpen t ∧ t.announcements.length =
        if s.announcements.length + 1 ≤ s.capacity then s.announcements.length + 1
        else s.announcements.length := by
  obtain ⟨pipe, hp, hr, hw⟩ := hc
  have ha : s.announcements = (s.pipes pipe).unread := by simp only [Sys.announcements, hp]
  cases h
  simp only [World.write_of_target hw, ha, List.length_singleton]
  by_cases hroom : (s.pipes pipe).unread.length + 1 ≤ s.capacity
  · simp only [if_pos hroom]
    refine ⟨trivial, trivial, rfl, ⟨pipe, hp, hr, hw⟩, ?_⟩
    simp [Sys.announcements, hp]
  · simp only [if_neg hroom]
    exact ⟨trivial, trivial, trivial, ⟨pipe, hp, hr, hw⟩, by rw [ha]⟩

/-- A byte that the loop reads was an announcement. -/
theorem readByte_cases {s t : Sys} {data : List UInt8} (hc : ControlOpen s)
    (h : readRetry s.controlPipe.rd 1 s = .ok (.ok data) t) :
    t.buffer = s.buffer ∧ t.controlPipe = s.controlPipe ∧ t.capacity = s.capacity ∧
      ControlOpen t ∧ t.announcements.length + 1 = s.announcements.length := by
  obtain ⟨pipe, hp, hr, hw⟩ := hc
  have ha := World.readRetry_answer s.controlPipe.rd 1 s.readFaults s.toWorld
  simp only [readRetry, call_apply] at h
  obtain ⟨hd, rfl⟩ := EStateM.Result.ok.inj h
  rw [hd] at ha
  revert ha
  generalize (World.readRetry s.controlPipe.rd 1 s.readFaults s.toWorld).2 = w
  intro ha
  cases ha with
  | @ended x rf ht hn =>
    obtain rfl : pipe = x := by simpa using hr.symm.trans ht
    rw [FdTable.hasWriter_of_target hw] at hn
    cases hn
  | @data x rf ht hu =>
    obtain rfl : pipe = x := by simpa using hr.symm.trans ht
    have hpos : 0 < s.toWorld.readLength pipe 1 := World.readLength_pos Nat.one_pos hu
    have hle := s.toWorld.readLength_le_count pipe 1
    have hone : s.toWorld.readLength pipe 1 = 1 := by omega
    have hlen := List.length_pos_iff.mpr hu
    refine ⟨rfl, rfl, rfl, ⟨pipe, hp, hr, hw⟩, ?_⟩
    simp only [Sys.announcements, hp, Function.update_self, hone, ByteStream.drop_unread,
      List.length_drop]
    omega

theorem bufferRemove_cases {s t : Sys} {job : Option Job} (h : bufferRemove s = .ok job t) :
    s.buffer = job :: t.buffer ∧ t = { s with buffer := t.buffer } := by
  simp only [bufferRemove, Effect.bind_eq_ok, Effect.get_apply] at h
  obtain ⟨_, _, he, h⟩ := h
  cases he
  cases hb : s.buffer with
  | nil => simp [hb] at h
  | cons x rest =>
    simp only [hb, Effect.bind_eq_ok, Effect.modify_apply, Effect.pure_apply] at h
    obtain ⟨_, _, he, h⟩ := h
    cases he
    cases h
    exact ⟨rfl, rfl⟩

/-- What every reachable state keeps: the control pipe is open, and no byte is without a job. -/
structure Accounted (j : Threads) : Prop where
  control : ControlOpen j.sys
  le : j.announced ≤ j.sys.buffer.length

/-- One step keeps the account, and it stays even exactly if a write, if that is the step,
finds room. -/
theorem jobStep_accounted {j k : Threads} {l : JobLabel} (hj : Accounted j) (h : JobStep j l k) :
    Accounted k ∧
      (k.announced = k.sys.buffer.length ↔ j.announced = j.sys.buffer.length ∧ RoomToWrite j l) := by
  obtain ⟨hc, hle⟩ := hj
  rcases j with ⟨s, announcing, phase⟩
  simp only [Threads.announced, Threads.taken] at hle
  cases h with
  | @add job t hadd =>
    have ht : t.announcements = s.announcements ∧ ControlOpen t ∧
        t.buffer.length = s.buffer.length + 1 := by
      cases hadd
      exact ⟨rfl, hc, by simp⟩
    obtain ⟨ha, hopen, hb⟩ := ht
    refine ⟨⟨hopen, ?_⟩, ?_⟩ <;>
      simp only [Threads.announced, Threads.taken, RoomToWrite, ha, hb, reduceCtorEq,
        false_imp_iff, and_true] <;>
      omega
  | @announce n t hn hint =>
    obtain ⟨hb, _, _, hopen, hlen⟩ := interrupt_cases hc hint
    dsimp only at hn hb hlen
    subst hn
    refine ⟨⟨hopen, ?_⟩, ?_⟩ <;>
      simp only [Threads.announced, Threads.taken, RoomToWrite, forall_const, hb, hlen] <;>
      split_ifs at hle ⊢ <;> omega
  | @readByte data t hidle hread =>
    obtain ⟨hb, _, _, hopen, hlen⟩ := readByte_cases hc hread
    dsimp only at hidle hb hlen
    subst hidle
    simp only [reduceCtorEq, if_false] at hle
    refine ⟨⟨hopen, ?_⟩, ?_⟩ <;>
      simp only [Threads.announced, Threads.taken, RoomToWrite, hb, if_true, reduceCtorEq, if_false,
        false_imp_iff, and_true] <;> omega
  | @remove job t hphase hrem =>
    obtain ⟨hb, ht⟩ := bufferRemove_cases hrem
    have hlen : s.buffer.length = t.buffer.length + 1 := congrArg List.length hb
    have ha : t.announcements = s.announcements := by rw [ht]; rfl
    have hopen : ControlOpen t := by rw [ht]; exact hc
    dsimp only at hphase
    subst hphase
    simp only [if_true] at hle
    refine ⟨⟨hopen, ?_⟩, ?_⟩ <;>
      simp only [Threads.announced, Threads.taken, RoomToWrite, ha, hlen, if_true, reduceCtorEq,
        if_false, false_imp_iff, and_true] <;> omega
  | finish hphase =>
    dsimp only at hphase
    subst hphase
    exact ⟨⟨hc, hle⟩, by simp [Threads.announced, Threads.taken, RoomToWrite]⟩
  | @other t hsame =>
    refine ⟨⟨hsame.control hc, ?_⟩, ?_⟩
    · simpa only [Threads.announced, Threads.taken, hsame.buffer, hsame.announcements] using hle
    · simp [RoomToWrite, Threads.announced, Threads.taken, hsame.buffer, hsame.announcements]

open Runs

theorem newMulti_ok {s t : Sys} (h : newMulti s = .ok () t) :
    t = { s with
      faults := s.faults.tail
      fds := (s.fds.openPipe (s.fdHint s.fds.nextPipe) true).2
      pipes := Function.update s.pipes s.fds.nextPipe {}
      controlPipe := (s.fds.openPipe (s.fdHint s.fds.nextPipe) true).1 } := by
  unfold newMulti at h
  rw [Effect.bind_of_ok (call_apply ..)] at h
  cases hf : s.faults.head?.join with
  | some e => simp [World.pipe2_of_fault hf] at h
  | none =>
    rw [World.pipe2_of_none hf] at h
    cases h
    rfl

theorem newMulti_control {w : World} {s : Sys} (h : newMulti (boot w) = .ok () s) :
    ControlOpen s ∧ s.announcements = [] ∧ s.buffer = [] ∧ s.capacity = w.capacity := by
  rw [newMulti_ok h]
  refine ⟨⟨_, FdTable.openPipe_pipe .., FdTable.openPipe_target_rd ..,
    FdTable.openPipe_target_wr ..⟩, ?_, rfl, rfl⟩
  simp [Sys.announcements, FdTable.openPipe_pipe, ByteStream.unread]

/-- Where every write finds room the account stays even. -/
theorem roomRun_even {j k : Threads} {ls : List JobLabel} (hj : Accounted j)
    (heven : j.announced = j.sys.buffer.length) (hrun : Run (Under RoomToWrite JobStep) j ls k) :
    k.announced = k.sys.buffer.length := by
  refine (hrun.invariant (I := fun j => Accounted j ∧ j.announced = j.sys.buffer.length)
    ⟨hj, heven⟩ ?_).2
  rintro a l b ⟨ha, he⟩ ⟨hroom, hstep⟩
  obtain ⟨hb, hiff⟩ := jobStep_accounted ha hstep
  exact ⟨hb, hiff.mpr ⟨he, hroom⟩⟩

/-- An even account at the end says that every write has found room. -/
theorem jobRun_accounted {j k : Threads} {ls : List JobLabel} (hj : Accounted j)
    (hrun : Run JobStep j ls k) :
    Accounted k ∧ (k.announced = k.sys.buffer.length → Run (Under RoomToWrite JobStep) j ls k) := by
  induction hrun with
  | nil => exact ⟨hj, fun _ => Run.nil⟩
  | snoc _ hstep ih =>
    obtain ⟨hacc, hroom⟩ := ih
    obtain ⟨hacc', hiff⟩ := jobStep_accounted hacc hstep
    refine ⟨hacc', fun heven => ?_⟩
    obtain ⟨heven', hlast⟩ := hiff.mp heven
    exact Run.snoc (hroom heven') ⟨hlast, hstep⟩

theorem newMulti_accounted {w : World} {s : Sys} (h : newMulti (boot w) = .ok () s) :
    Accounted { sys := s } ∧ ({ sys := s } : Threads).announced = s.buffer.length := by
  obtain ⟨hc, ha, hb, _⟩ := newMulti_control h
  have heven : ({ sys := s } : Threads).announced = s.buffer.length := by
    simp [Threads.announced, Threads.taken, ha, hb]
  exact ⟨⟨hc, heven.le⟩, heven⟩

theorem Threads.Quiescent.announced {j : Threads} (h : j.Quiescent) :
    j.announced = j.sys.announcements.length := by
  simp [Threads.announced, Threads.taken, h.1, h.2]

/-- In a quiescent state every job has its byte exactly if no write of the run, from the start of
the object on, has met a full control pipe. -/
theorem job_keeps_wakeup_iff {w : World} {s : Sys} {ls : List JobLabel} {j : Threads}
    (hnew : newMulti (boot w) = .ok () s) (hrun : Run JobStep { sys := s } ls j)
    (hquiet : j.Quiescent) :
    j.sys.buffer.length ≤ j.sys.announcements.length ↔
      Run (Under RoomToWrite JobStep) { sys := s } ls j := by
  obtain ⟨hstart, heven⟩ := newMulti_accounted hnew
  obtain ⟨hacc, hroom⟩ := jobRun_accounted hstart hrun
  have hq := hquiet.announced
  constructor
  · intro hle
    have := hacc.le
    exact hroom (by omega)
  · intro h
    have := roomRun_even hstart heven h
    omega

/-- `send_job` is the two halves in a row. -/
theorem sendJob_run {s t : Sys} {job : Option Job} {n : Nat} {phase : DispatchPhase}
    (h : sendJob job s = .ok () t) :
    Run JobStep ⟨s, n, phase⟩ [.add job, .announce] ⟨t, n, phase⟩ := by
  obtain ⟨_, u, hadd, hint⟩ := Effect.bind_eq_ok.mp h
  have h₁ : Run JobStep ⟨s, n, phase⟩ [.add job] ⟨u, n + 1, phase⟩ := Run.snoc Run.nil (.add hadd)
  exact h₁.snoc (.announce rfl hint)

/-- Any number of jobs before the loop runs: all of them are in the buffer, but the bytes never
exceed the capacity. -/
theorem sendJob_repeat (job : Option Job) (n : Nat) {s : Sys} (hc : ControlOpen s)
    (hcap : s.announcements.length ≤ s.capacity) :
    ∃ t, Run JobStep { sys := s } (List.replicate n [.add job, .announce]).flatten { sys := t } ∧
      t.buffer.length = s.buffer.length + n ∧ ControlOpen t ∧
      t.announcements.length ≤ t.capacity ∧ t.capacity = s.capacity := by
  induction n with
  | zero => exact ⟨s, Run.nil, rfl, hc, hcap, rfl⟩
  | succ n ih =>
    obtain ⟨t, hrun, hlen, hopen, hle, hsame⟩ := ih
    let u : Sys := { t with buffer := t.buffer ++ [job], added := t.added ++ [job] }
    have hadd : bufferAdd job t = .ok () u := rfl
    have hint : interrupt u = .ok () { u with toWorld := u.toWorld.write u.controlPipe.wr [0] } := rfl
    have huc : ControlOpen u := hopen
    obtain ⟨hb, _, hk, hopen', hlen'⟩ := interrupt_cases huc hint
    have hsend : sendJob job t = .ok () _ := hint
    have hul : u.announcements.length ≤ u.capacity := hle
    have hub : u.buffer.length = t.buffer.length + 1 := by simp [u]
    refine ⟨_, ?_, ?_, hopen', ?_, hk.trans hsame⟩
    · rw [List.replicate_succ', List.flatten_append]
      simpa using hrun.append (sendJob_run hsend)
    · rw [hb, hub, hlen]
      omega
    · rw [hlen', hk]
      split_ifs <;> omega

/-- With the default capacity, `stop` called 65537 times before the first dispatch leaves a job
that no byte announces. -/
theorem job_keeps_wakeup_fails :
    ∃ s j, newMulti (boot {}) = .ok () s ∧
      Run JobStep { sys := s }
        (List.replicate 65537 [.add (some (.stop .stopWait (-1))), .announce]).flatten j ∧
      j.Quiescent ∧ j.sys.announcements.length < j.sys.buffer.length := by
  obtain ⟨s, hnew⟩ : ∃ s, newMulti (boot {}) = .ok () s := ⟨_, rfl⟩
  obtain ⟨hc, ha, hb, hk⟩ := newMulti_control hnew
  obtain ⟨t, hrun, hlen, _, hle, hcap⟩ :=
    sendJob_repeat (some (.stop .stopWait (-1))) 65537 hc (by rw [ha]; exact Nat.zero_le _)
  refine ⟨s, { sys := t }, hnew, hrun, ⟨rfl, rfl⟩, ?_⟩
  have hcap' : t.capacity = 65536 := hcap.trans hk
  simp only [hlen, hb, List.length_nil]
  omega

/-- `exec` and `stop` are called by two threads: both jobs are added before a byte is written, and the loop
dispatches one. -/
def racedJobs : List JobLabel :=
  [.other, .add (some (.spawn 0)), .add (some (.stop .stopWait (-1))), .announce, .announce, .readByte, .remove,
    .finish]

/-- What `exec` does before it adds the job. -/
def racedExec : Sys :=
  { freshMulti with
    nextHandle := 1
    procs := Function.update freshMulti.procs 0 { type := .nonblocking }
    handles := Function.update freshMulti.handles 0 (some { args := ['a'], hasOnStop := false }) }

def racedAdds : Sys :=
  Effect.final (bufferAdd (some (.stop .stopWait (-1)))) (Effect.final (bufferAdd (some (.spawn 0))) racedExec)

def racedWrites : Sys := Effect.final interrupt (Effect.final interrupt racedAdds)

def racedMulti : Sys :=
  Effect.final bufferRemove (Effect.final (readRetry racedWrites.controlPipe.rd 1) racedWrites)

theorem racedJobs_run : Run JobStep { sys := freshMulti } racedJobs { sys := racedMulti } := by
  have hadds : Run JobStep { sys := freshMulti }
      ([] ++ [.other] ++ [.add (some (.spawn 0))] ++ [.add (some (.stop .stopWait (-1)))])
      { sys := racedAdds, announcing := 2 } :=
    .snoc (.snoc (.snoc .nil (.other (t := racedExec) ⟨rfl, rfl, rfl, rfl, id⟩))
      (.add (Effect.ok_final rfl))) (.add (Effect.ok_final rfl))
  have hwrites : Run JobStep { sys := racedAdds, announcing := 2 } ([] ++ [.announce] ++ [.announce])
      { sys := racedWrites } :=
    .snoc (.snoc .nil (.announce rfl (Effect.ok_final rfl))) (.announce rfl (Effect.ok_final rfl))
  have hread : readRetry racedWrites.controlPipe.rd 1 racedWrites = .ok (.ok [0]) _ :=
    Effect.ok_answer (by decide +kernel)
  have hdispatch : Run JobStep { sys := racedWrites } ([] ++ [.readByte] ++ [.remove] ++ [.finish])
      { sys := racedMulti } :=
    .snoc (.snoc (.snoc .nil (.readByte rfl hread))
      (.remove rfl (Effect.ok_answer (a := some (.spawn 0)) (by decide +kernel)))) (.finish rfl)
  exact (hadds.append hwrites).append hdispatch

theorem job_keeps_wakeup_raced : racedMulti.buffer = [some (.stop .stopWait (-1))] ∧
    (racedMulti.buffer.length ≤ racedMulti.announcements.length ↔
      Run (Under RoomToWrite JobStep) { sys := freshMulti } racedJobs { sys := racedMulti }) :=
  ⟨by decide +kernel, job_keeps_wakeup_iff freshMulti_ok racedJobs_run ⟨rfl, rfl⟩⟩

end Pexec
