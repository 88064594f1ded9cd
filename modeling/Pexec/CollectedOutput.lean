import Pexec.BlockingRuns
import Pexec.Lib.CStrings

namespace Pexec

open CStrings Effect Runs

/-- `pexec_status`; of a `perror` only the error, not `errno`. -/
structure PexecStatus where
  procOut : List UInt8 := []
  procErr : List UInt8 := []
  args : List Char
  state : State := .started
  proc : ProcStatus := {}
  err : List Error := []
  deriving DecidableEq, Repr

/-- What the callbacks of exec.cpp and of a `pexec_multi_handle` keep: the result, the two string
streams, and the buffer of the object whose callbacks they are. -/
structure Collector where
  ret : PexecStatus
  stdoutOss : List UInt8 := []
  stderrOss : List UInt8 := []
  readBuffer : List UInt8 := List.replicate bufferSize 0

namespace Collector

/-- The buffer is filled by the read, and `oss << data` takes the string at its start. -/
def onStdout (c : Collector) (data : List UInt8) : Collector :=
  let buffer := fill 0 c.readBuffer data
  { c with readBuffer := buffer, stdoutOss := c.stdoutOss ++ text 0 buffer }

def onStderr (c : Collector) (data : List UInt8) : Collector :=
  let buffer := fill 0 c.readBuffer data
  { c with readBuffer := buffer, stderrOss := c.stderrOss ++ text 0 buffer }

def onError (c : Collector) (e : Error) : Collector :=
  { c with ret := { c.ret with err := c.ret.err ++ [e] } }

/-- The state callback of exec.cpp. -/
def onState (c : Collector) (st : State) (proc : ProcStatus) : Collector :=
  { c with ret := { c.ret with proc, state := st } }

/-- The strings are taken from the streams. -/
def str (c : Collector) : Collector :=
  { c with ret := { c.ret with procOut := c.stdoutOss, procErr := c.stderrOss } }

/-- The state callback of a `pexec_multi_handle`, up to `on_stop_cb_`. -/
def onHandleState (c : Collector) (st : State) (proc : ProcStatus) : Collector :=
  let c := c.onState st proc
  if st.terminal then c.str else c

/-- The callback that an event is a call of. -/
def callback (stateCb : Collector → State → ProcStatus → Collector) (h : Nat) (c : Collector) :
    Event → Collector
  | .out owner data => if owner = h then c.onStdout data else c
  | .err owner data => if owner = h then c.onStderr data else c
  | .error owner e => if owner = h then c.onError e else c
  | .state owner st proc => if owner = h then stateCb c st proc else c
  | _ => c

end Collector

/-- `exec(arg, cb)` of exec.cpp, with `h` for its local object. -/
def execCollect (h : Nat) (arg : List Char) : Prog PexecStatus := do
  modify fun s => { s with procs := Function.update s.procs h {} }
  let before ← get
  exec h arg
  let events := newEvents before (← get)
  return (events.foldl (Collector.callback Collector.onState h) { ret := { args := arg } }).str.ret

/-- `ret_` of the handle of object `h`, which has no callbacks of the user, after the given events. -/
def handleStatus (h : Nat) (args : List Char) (events : List Event) : PexecStatus :=
  (events.foldl (Collector.callback Collector.onHandleState h) { ret := { args } }).ret

variable {stateCb : Collector → State → ProcStatus → Collector} {h : Nat} {s t : Sys}

/-- The streams hold what came before and, of each chunk, the string at its start. -/
theorem Collector.foldl_callback (hcb : ∀ c st proc, (stateCb c st proc).stdoutOss = c.stdoutOss ∧
      (stateCb c st proc).stderrOss = c.stderrOss) (c : Collector) (events : List Event) :
    (events.foldl (Collector.callback stateCb h) c).stdoutOss =
        c.stdoutOss ++ events.flatMap (fun e => text 0 (e.outData h)) ∧
      (events.foldl (Collector.callback stateCb h) c).stderrOss =
        c.stderrOss ++ events.flatMap (fun e => text 0 (e.errData h)) := by
  induction events generalizing c with
  | nil => simp
  | cons e events ih =>
    have hstep : (Collector.callback stateCb h c e).stdoutOss = c.stdoutOss ++ text 0 (e.outData h) ∧
        (Collector.callback stateCb h c e).stderrOss = c.stderrOss ++ text 0 (e.errData h) := by
      cases e with
      | out owner data | err owner data | error owner e =>
        by_cases howner : owner = h <;>
          simp [Collector.callback, Collector.onStdout, Collector.onStderr, Collector.onError,
            Event.outData, Event.errData, howner]
      | state owner st proc =>
        by_cases howner : owner = h
        · simpa [Collector.callback, Event.outData, Event.errData, howner] using hcb c st proc
        · simp [Collector.callback, Event.outData, Event.errData, howner]
      | handed | onStop | waitpid | kill | multiError | register =>
        simp [Collector.callback, Event.outData, Event.errData]
    simp [ih, hstep.1, hstep.2, List.append_assoc]

theorem Collector.onState_oss (c : Collector) (st : State) (proc : ProcStatus) :
    (c.onState st proc).stdoutOss = c.stdoutOss ∧ (c.onState st proc).stderrOss = c.stderrOss :=
  ⟨rfl, rfl⟩

theorem Collector.onHandleState_oss (c : Collector) (st : State) (proc : ProcStatus) :
    (c.onHandleState st proc).stdoutOss = c.stdoutOss ∧
      (c.onHandleState st proc).stderrOss = c.stderrOss := by
  unfold Collector.onHandleState
  split <;> exact ⟨rfl, rfl⟩

theorem execCollect_ok {arg : List Char} {r : PexecStatus} (ht : execCollect h arg s = .ok r t) :
    r.procOut = (newEvents s t).flatMap (fun e => text 0 (e.outData h)) ∧
      r.procErr = (newEvents s t).flatMap (fun e => text 0 (e.errData h)) := by
  unfold execCollect at ht
  rw [bind_of_ok (modify_apply ..), bind_of_ok (get_apply _)] at ht
  obtain ⟨⟨⟩, u, -, ht⟩ := bind_eq_ok.mp ht
  rw [bind_of_ok (get_apply _)] at ht
  cases ht
  have hoss := Collector.foldl_callback (h := h) Collector.onState_oss { ret := { args := arg } }
    (newEvents s t)
  simp only [List.nil_append] at hoss
  exact hoss

/-- At a terminal state the handle takes the strings from its streams. -/
theorem handleStatus_announced (args : List Char) {st : State} (hst : st.terminal = true) :
    (handleStatus h args (final (announce h st) s).trace).procOut =
        s.trace.flatMap (fun e => text 0 (e.outData h)) ∧
      (handleStatus h args (final (announce h st) s).trace).procErr =
        s.trace.flatMap (fun e => text 0 (e.errData h)) := by
  have hoss := Collector.foldl_callback (h := h) Collector.onHandleState_oss
    { ret := { args } } s.trace
  simp only [List.nil_append] at hoss
  rw [final_of_ok (announce_apply h st s)]
  simp only [handleStatus, World.announced, World.emit, List.foldl_append, List.foldl_cons,
    List.foldl_nil, Collector.callback, if_true, Collector.onHandleState, hst, Collector.str,
    Collector.onState]
  exact hoss

/-- What the user gets as output of a process: from `exec` when it returns, and from a handle when
the process has come to its end. -/
theorem collected_exact_iff {arg args : List Char} {r : PexecStatus} {st : State} (u : Sys)
    (ht : execCollect h arg s = .ok r t) (hst : st.terminal = true) :
    ((r.procOut = outOf h (newEvents s t) ↔ 0 ∉ outOf h (newEvents s t)) ∧
      (r.procErr = errOf h (newEvents s t) ↔ 0 ∉ errOf h (newEvents s t))) ∧
    (((handleStatus h args (final (announce h st) u).trace).procOut = outOf h u.trace ↔
        0 ∉ outOf h u.trace) ∧
      ((handleStatus h args (final (announce h st) u).trace).procErr = errOf h u.trace ↔
        0 ∉ errOf h u.trace)) := by
  obtain ⟨hout, herr⟩ := execCollect_ok ht
  obtain ⟨hhout, hherr⟩ := handleStatus_announced (h := h) (s := u) args hst
  rw [hout, herr, hhout, hherr]
  exact ⟨⟨flatMap_text_eq_iff _ _, flatMap_text_eq_iff _ _⟩,
    flatMap_text_eq_iff _ _, flatMap_text_eq_iff _ _⟩

/-- A process that writes three bytes, one of them zero, and exits. -/
def zeroByteRun : Sys :=
  { (boot {}).choose {} with
    selects := [.ready [.childOut 0 [97, 0, 98], .exit 1 ⟨0, terminated_zero⟩, .sigchld] [6]] }

/-- What `exec` returns for it. -/
def zeroByteStatus : PexecStatus := ((answer (execCollect 0 ['a'])) zeroByteRun).getD { args := [] }

theorem zeroByteRun_ok :
    execCollect 0 ['a'] zeroByteRun = .ok zeroByteStatus (final (execCollect 0 ['a']) zeroByteRun) :=
  ok_answer (by decide +kernel)

theorem collected_exact_zeroByte :
    ((zeroByteStatus.procOut =
          outOf 0 (newEvents zeroByteRun (final (execCollect 0 ['a']) zeroByteRun)) ↔
        0 ∉ outOf 0 (newEvents zeroByteRun (final (execCollect 0 ['a']) zeroByteRun))) ∧
      (zeroByteStatus.procErr =
          errOf 0 (newEvents zeroByteRun (final (execCollect 0 ['a']) zeroByteRun)) ↔
        0 ∉ errOf 0 (newEvents zeroByteRun (final (execCollect 0 ['a']) zeroByteRun)))) ∧
    (((handleStatus 0 ['a'] (final (announce 0 .stopped) zeroByteRun).trace).procOut =
          outOf 0 zeroByteRun.trace ↔ 0 ∉ outOf 0 zeroByteRun.trace) ∧
      ((handleStatus 0 ['a'] (final (announce 0 .stopped) zeroByteRun).trace).procErr =
          errOf 0 zeroByteRun.trace ↔ 0 ∉ errOf 0 zeroByteRun.trace)) :=
  collected_exact_iff zeroByteRun zeroByteRun_ok rfl

/-- Of the three bytes only the first is in `proc_out`; a handle that was given them loses the
other two as well. -/
theorem zeroByte_cut :
    zeroByteStatus.procOut ≠
        outOf 0 (newEvents zeroByteRun (final (execCollect 0 ['a']) zeroByteRun)) ∧
      (handleStatus 0 ['a'] [.out 0 [97, 0, 98], .state 0 .stopped {}]).procOut ≠
        outOf 0 [.out 0 [97, 0, 98]] := by
  decide +kernel

end Pexec
