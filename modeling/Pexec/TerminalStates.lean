import Pexec.GroupReaping
import Pexec.SignalState

namespace Pexec

open Runs Effect

variable {h : Nat} {pid : Int} {s t : Sys}

/-- The pipe behind a callback in `registered_fd_`: whose it is, and which one. -/
def Source.watch : Source → Option (Nat × IoSource)
  | .readClose h => some (h, .closeWatch)
  | .readStdout h => some (h, .stdout)
  | .readStderr h => some (h, .stderr)
  | .sigchld | .control => none

/-- Whatever STOPPED was told of had ended. -/
def StoppedDead (s : Sys) : Prop := ∀ h proc, (h, .stopped, proc) ∈ s.calls → proc.running = false

theorem verdict_dead {r : Int × WaitStatus} (hr : Terminated r.2) {h : Nat} {proc : ProcStatus}
    (hm : (h, .stopped, proc) ∈ s.verdict r) : proc.running = false := by
  unfold Sys.verdict at hm
  cases hl : s.active.lookup r.1 with
  | none =>
    rw [hl] at hm
    cases hm
  | some x =>
    rw [hl] at hm
    simp only [List.mem_cons, Prod.mk.injEq, reduceCtorEq, false_and, and_false, true_and,
      List.not_mem_nil, or_false, false_or] at hm
    rw [hm.2]
    exact (updateStatus_running_iff (s.procs x).proc r.2).mpr hr

theorem StoppedDead.step {l : Label} (hs : StoppedDead s) (hstep : PidStep s l t) : StoppedDead t := by
  obtain ⟨rs, _, hended, hreports, _⟩ := hstep.reaps
  intro h proc hm
  have hmem : (h, State.stopped, proc) ∈ reports t.calls := List.mem_filter.mpr ⟨hm, by simp⟩
  rw [hreports] at hmem
  rcases List.mem_append.mp hmem with hold | hnew
  · exact hs h proc (List.mem_of_mem_filter hold)
  · obtain ⟨r, hr, hverdict⟩ := List.mem_flatMap.mp hnew
    obtain ⟨child, _, hstatus⟩ := hended r hr
    obtain ⟨status, _, hval⟩ := Option.map_eq_some_iff.mp hstatus
    exact verdict_dead (hval ▸ status.2) hverdict

theorem run_stoppedDead {w : World} {ls : List Label} (hnew : newMulti (boot w) = .ok () s)
    (hrun : Run (Under PreviousFinished Step) s ls t) : Life t ∧ StoppedDead t := by
  have hstart : Life s ∧ StoppedDead s := by
    refine ⟨newMulti_life hnew, fun h proc hm => ?_⟩
    rw [newMulti_ok hnew] at hm
    cases hm
  have hkept : ∀ a l b, Life a ∧ StoppedDead a → Under PreviousFinished Step a l b →
      Life b ∧ StoppedDead b := by
    intro a l b ⟨hlife, ha⟩ ⟨hp, hstep⟩
    have hb := life_step hlife hstep.1 hp
    rw [hstep.2] at hb
    exact ⟨hb, ha.step (hlife.pidStep hp hstep)⟩
  exact hrun.invariant (I := fun a => Life a ∧ StoppedDead a) hstart hkept

/-- A read that fails ends the watching of the process: FAIL_STOPPED is the last it is told. -/
structure FailsWatch (h : Nat) (s t : Sys) : Prop where
  told : t.calls = s.calls ++ [(h, .failStopped, (s.procs h).proc)]
  ended : ∀ pid, t.active.lookup pid ≠ some h

theorem Finished.failsWatch {u : Sys} (hs : Desk u) (hl : u.active.lookup pid = some h)
    (hf : Finished pid h [(h, .failStopped, (u.procs h).proc)] u t) : FailsWatch h u t := by
  refine ⟨hf.called.calls, fun p => ?_⟩
  rw [hf.gone.active]
  exact hs.active_erase hl p

theorem runSource_fails {fd : Int} {src : Source} {cb : IoSource} (hs : Sound s)
    (hl : s.registered.lookup fd = some src) (hw : src.watch = some (h, cb)) (hf : ReadFails h s cb) :
    ∃ t, runSource fd src s = .ok () t ∧ FailsWatch h s t := by
  obtain ⟨hexp, _⟩ := (hs.on.desk.keys fd src).mp hl
  cases src with
  | sigchld | control => cases hw
  | readClose x =>
    cases hw
    obtain ⟨pid, hl⟩ := hexp
    obtain ⟨t, ht, ⟨hok, _⟩ | ⟨_, hfin⟩⟩ := readClose_ends hs.on.desk hl (hs.on.served pid _ hl).type
    · exact absurd hf hok
    · exact ⟨t, discard_of_ok ht, hfin.failsWatch hs.on.desk hl⟩
  | readStdout x =>
    cases hw
    obtain ⟨pid, hl⟩ := hexp
    obtain ⟨ret, t, ht, _, ⟨hok, _⟩ | ⟨_, hfin⟩⟩ := readStd_ends .stdout .stdoutPipeReadError
      hs.on.desk hl (hs.on.served pid _ hl).type
    · exact absurd hf hok
    · exact ⟨t, discard_of_ok (x := readStdout _) ht, hfin.failsWatch hs.on.desk hl⟩
  | readStderr x =>
    cases hw
    obtain ⟨pid, hl⟩ := hexp
    obtain ⟨ret, t, ht, _, ⟨hok, _⟩ | ⟨_, hfin⟩⟩ := readStd_ends .stderr .stderrPipeReadError
      hs.on.desk hl (hs.on.served pid _ hl).type
    · exact absurd hf hok
    · exact ⟨t, discard_of_ok (x := readStderr _) ht, hfin.failsWatch hs.on.desk hl⟩

/-- How a `pexec_multi` ends the watching of its processes. -/
structure MultiEnds (s : Sys) : Prop where
  fails : ∀ (fd : Int) (c : Choices) (src : Source) (h : Nat) (cb : IoSource),
    (Label.event fd c).enabled s → s.registered.lookup fd = some src → src.watch = some (h, cb) →
    ReadFails h (s.choose c) cb →
      ∃ t, (Label.event fd c).prog s = .ok () t ∧ FailsWatch h s t
  dead : StoppedDead s

theorem run_multiEnds {w : World} {ls : List Label} (hnew : newMulti (boot w) = .ok () s)
    (hrun : Run (Under PreviousFinished Step) s ls t) : MultiEnds t := by
  obtain ⟨hlife, hdead⟩ := run_stoppedDead hnew hrun
  refine ⟨fun fd c src h cb he hl hw hf => ?_, hdead⟩
  obtain ⟨hsound, hprog⟩ := hlife.event_source he hl
  obtain ⟨u, hu, hfails⟩ := runSource_fails hsound hl hw hf
  exact ⟨u, hprog.trans hu, hfails.told, hfails.ended⟩

variable {w : World} {d e : Sys} {q : ProcStatus} {line : List Char}

/-- Nothing that the loop of the call asks for fails. -/
def Unhindered (h : Nat) (line : List Char) (s : Sys) : Prop :=
  (∀ cb fd u, ExecCalls h line s cb fd u → ¬ReadFails h u cb) ∧ ∀ u, ¬ExecFails h line s u

/-- How a blocking call ends the watching of its process. -/
structure BlockingEnds (h : Nat) (line : List Char) (s t : Sys) : Prop where
  fails : ∀ cb fd u, cb ≠ .sigchld → ExecCalls h line s cb fd u → ReadFails h u cb →
    (statesOf h (newEvents s t)).getLast? = some .failStopped
  dead : ∀ proc, .state h .stopped proc ∈ newEvents s t → proc.running = false

/-- STOPPED is told at the end, of what the loop has left. -/
theorem Completed.stopped_iff (ht : Completed h s q e t) {proc : ProcStatus} :
    .state h .stopped proc ∈ newEvents s t ↔
      (e.procs h).userStopped = false ∧ proc = (e.procs h).proc := by
  obtain ⟨mid, hevents, hwatching⟩ := ht.events
  have hmid : Event.state h .stopped proc ∉ mid := fun hm => by cases (hwatching _ hm).2
  rw [hevents]
  unfold PexecSingle.lastEvents PexecSingle.lastState PexecSingle.lastStatus
  cases (e.procs h).userStopped <;> simp [startedEvents, hmid]

/-- The loop leaves a process that runs, and that nobody wants stopped, if something has failed. -/
theorem Loops.unhindered_iff (hl : Loops h line s q d e) (hq : q.running = true) :
    ((e.procs h).userStopped = false → (e.procs h).proc.running = false) ↔ Unhindered h line s := by
  constructor
  · refine fun hdead => ⟨fun cb fd u hc hf => ?_, fun u hf => ?_⟩
    · cases hl.ends_at hc (.inl hf) with
      | interrupted => exact hf
      | unread _ hproc hwanted => simp [hdead hwanted, ← hproc] at hq
      | reaped hreads => exact hreads.gets hf
    · have hu := hl.failed hf
      have he := hl.fails_at hf
      have hproc : (e.procs h).proc = q := by
        rw [he]
        simpa [Sys.processed] using hu.proc
      have hwanted : (e.procs h).userStopped = false := by
        rw [he]
        simpa [Sys.processed] using hu.wanted
      simp [hdead hwanted, ← hproc] at hq
  · rintro ⟨hreads, hselect⟩ hwanted
    rcases hl.ends with ⟨cb, fd, u, hc, hend⟩ | ⟨u, hf, _⟩
    · cases hend with
      | interrupted hwanted' => exact absurd (hwanted'.symm.trans hwanted) (by decide)
      | unread hf => exact absurd hf (hreads _ fd u hc)
      | reaped _ hdead => exact hdead
    · exact absurd hf (hselect u)

theorem Abandoned.ends {st : Stage} (hs : Resting h s) (hfails : prepareFails line s.faults = some st)
    (ht : Abandoned h s st t) : BlockingEnds h line s t ∧ Unhindered h line s := by
  have hnone : ∀ cb fd u, ¬ExecCalls h line s cb fd u := fun cb fd u hc => by
    cases hfails.symm.trans (hc.prepared hs)
  refine ⟨⟨fun cb fd u _ hc => absurd hc (hnone cb fd u), fun proc hm => ?_⟩,
    fun cb fd u hc => absurd hc (hnone cb fd u), fun u hf => ?_⟩
  · rw [newEvents_eq ht.trace] at hm
    simp at hm
  · cases hfails.symm.trans (hf.prepared hs)

/-- Both ways of driving a process tell FAIL_STOPPED where a read of its pipes fails, and STOPPED
only where it has ended, exactly if nothing fails in the loop of the blocking call. -/
theorem watching_ends_alike {w' : World} {bs : List BlockingLabel} {ls : List Label} {a b : Sys}
    (hrun : Run (BlockingStep h) (boot w) bs s) (ht : exec h line s = .ok () t)
    (hnew : newMulti (boot w') = .ok () a) (hlife : Run (Under PreviousFinished Step) a ls b) :
    BlockingEnds h line s t ∧ MultiEnds b ↔ Unhindered h line s := by
  have hs := run_resting hrun
  have hmulti := run_multiEnds hnew hlife
  rcases exec_course hs ht with ⟨st, hfails, hu⟩ | ⟨q, d, e, _, hl, hc⟩
  · obtain ⟨hends, hnone⟩ := hu.ends hs hfails
    exact iff_of_true ⟨hends, hmulti⟩ hnone
  · rw [← hl.unhindered_iff hc.running]
    constructor
    · exact fun ⟨hends, _⟩ hwanted => hends.dead _ (hc.stopped_iff.mpr ⟨hwanted, rfl⟩)
    · refine fun hdead => ⟨⟨fun cb fd u _ hcall hf => ?_, fun proc hm => ?_⟩, hmulti⟩
      · exact absurd hf (((hl.unhindered_iff hc.running).mp hdead).1 cb fd u hcall)
      · obtain ⟨hwanted, rfl⟩ := hc.stopped_iff.mp hm
        exact hdead hwanted

/-- A command line is about to be run; the first read of its output is to fail. -/
def unreadRun : Sys :=
  { (boot {}).choose { readFaults := [some (.other 5)] } with selects := [.ready [] [2]] }

def unreadAfter : Sys := final (exec 0 ['a']) unreadRun

theorem unreadRun_run : Run (BlockingStep 0) (boot {})
    ([] ++ [.choose { readFaults := [some (.other 5)] } [.ready [] [2]]]) unreadRun := .snoc .nil rfl

theorem unreadAfter_ok : exec 0 ['a'] unreadRun = .ok () unreadAfter := ok_final (by decide +kernel)

/-- A read of the output fails in both modes; FAIL_STOPPED is told in the second one only. -/
theorem watching_ends_alike_unread :
    (.state 0 .stopped (unreadAfter.procs 0).proc ∈ newEvents unreadRun unreadAfter ∧
      ∃ proc, .state 0 .failStopped proc ∈ detachedMulti.trace) ∧
    (BlockingEnds 0 ['a'] unreadRun unreadAfter ∧ MultiEnds detachedMulti ↔ Unhindered 0 ['a'] unreadRun) :=
  ⟨⟨by decide +kernel, (detachedMulti.procs 0).proc, by decide +kernel⟩,
    watching_ends_alike unreadRun_run unreadAfter_ok freshMulti_ok detachedMulti_run⟩

/-- STOPPED is told, of a process that runs. -/
theorem failed_read_told_stopped : ¬∀ (h : Nat) (w w' : World) (bs : List BlockingLabel)
    (s t : Sys) (line : List Char) (ls : List Label) (a b : Sys), Run (BlockingStep h) (boot w) bs s →
    exec h line s = .ok () t → newMulti (boot w') = .ok () a → Run (Under PreviousFinished Step) a ls b →
    BlockingEnds h line s t ∧ MultiEnds b := by
  intro hall
  have hnew : newMulti (boot {}) = .ok () (final newMulti (boot {})) := rfl
  obtain ⟨hends, _⟩ := hall 0 {} {} _ _ _ ['a'] [] _ _ unreadRun_run unreadAfter_ok hnew .nil
  have htold : .state 0 .stopped (unreadAfter.procs 0).proc ∈ newEvents unreadRun unreadAfter := by
    decide +kernel
  exact absurd (hends.dead _ htold) (by decide +kernel)

end Pexec
