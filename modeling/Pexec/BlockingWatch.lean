import Pexec.LoopCalls
import Pexec.Preparation
import Pexec.SignalMask

namespace Pexec

open Effect

/-- Opening or closing a file is the only thing others do to the descriptors. -/
def EnvAct.onFiles : EnvAct → Bool
  | .openFile _ | .closeFile _ => true
  | _ => false

/-- Nobody opens or closes a file while the loop of a blocking run waits. -/
def Sys.FilesKept (s : Sys) : Prop :=
  ∀ acts fds, SelectAnswer.ready acts fds ∈ s.selects → ∀ act ∈ acts, act.onFiles = false

/-- A chunk that is passed to one of the two output callbacks of the object. -/
def Event.IsData (h : Nat) : Event → Prop
  | .out owner _ | .err owner _ => owner = h
  | _ => False

/-- What a blocking run that started in `s` holds from the fork to the end; `loops` says whether
there is a loop. -/
structure Engaged (h : Nat) (s : Sys) (loops : Bool) (d : Sys) : Prop where
  alone : Standalone h d
  owns : d.Owns
  ledger : s.FilesKept → Ledger s.fds d.fds d.array (Mine h)
  held : ∀ slot, Mine h slot → slot ≠ .ioLoop → (d.array slot).rd ≠ -1
  loop : (d.array .ioLoop).rd = -1 ↔ loops = false
  saPrev : (d.procs h).saPrev = s.disposition
  disposition : d.disposition = .sigchldBlockingSignalHandler
  forks : d.forks = s.forks + 1

/-- The events up to the callback STARTED. -/
def startedEvents (h : Nat) (q : ProcStatus) : List Event :=
  [.handed h true true, .state h .started q]

/-- The loop of a run that started in `s` watches a process, and STARTED had the status `q`. -/
structure Underway (h : Nat) (s : Sys) (q : ProcStatus) (d : Sys) : Prop where
  engaged : Engaged h s true d
  proc : (d.procs h).proc = q
  stdin : q.stdinFd = (d.procs h).pipeStdin.wr
  userStop : q.userStopFd = (d.procs h).pipeCloseWatch.wr
  running : q.running = true
  alive : (d.procs h).procKilled = false
  wanted : (d.procs h).userStopped = false
  blocked : d.sigchldBlocked = s.sigchldBlocked
  trace : ∃ data, d.trace = s.trace ++ startedEvents h q ++ data ∧ ∀ e ∈ data, e.IsData h

/-- The errors that end the loop. -/
def loopErrors : List Error :=
  [.watchPipeReadError, .stdoutPipeReadError, .stderrPipeReadError, .signalPipeReadError, .selectError]

/-- An answer of `waitpid`, or the error of a call around it. -/
def Event.IsWait (h : Nat) : Event → Prop
  | .error owner e => owner = h ∧ e ∈ [.sigBlockError, .waitpidError, .sigUnblockError]
  | .waitpid .. => True
  | _ => False

/-- How the loop has come to its end: by the user's interrupt, by an error, or by the SIGCHLD that
made `handle_sigchld` take the process for dead. -/
inductive Ending (h : Nat) (s : Sys) (q : ProcStatus) (e : Sys) : Prop
  | interrupted {data : List Event} (proc : (e.procs h).proc = q)
      (wanted : (e.procs h).userStopped = true)
      (trace : e.trace = s.trace ++ startedEvents h q ++ data) (isData : ∀ x ∈ data, x.IsData h)
  | failed {data : List Event} (err : Error) (mem : err ∈ loopErrors) (proc : (e.procs h).proc = q)
      (wanted : (e.procs h).userStopped = false)
      (trace : e.trace = s.trace ++ startedEvents h q ++ data ++ [.error h err])
      (isData : ∀ x ∈ data, x.IsData h)
  | handled {data wait launch : List Event} (status : WaitStatus)
      (dead : (q.updateStatus status).running = false)
      (proc : (e.procs h).proc = { q.updateStatus status with stdinFd := -1 })
      (wanted : (e.procs h).userStopped = false)
      (trace : e.trace = s.trace ++ startedEvents h q ++ data ++ wait ++
        [.handed h true true, .state h .signaled (q.updateStatus status)] ++ launch)
      (isData : ∀ x ∈ data, x.IsData h) (isWait : ∀ x ∈ wait, x.IsWait h)
      (isLaunch : ∀ x ∈ launch, ∃ code err, launchError code = some err ∧ x = .error h err)

/-- The loop has been left. -/
structure Over (h : Nat) (s : Sys) (q : ProcStatus) (loops : Bool) (e : Sys) : Prop where
  engaged : Engaged h s loops e
  ending : Ending h s q e

/-- A step of the loop that passes on data at most. -/
structure Calm (h : Nat) (d e : Sys) : Prop where
  frame : ∃ pipes readFaults mapOrder selects ioLoop trace vigil,
    e = { d with pipes, readFaults, mapOrder, selects, ioLoop, trace, vigil }
  control : e.ioLoop.controlPipe = d.ioLoop.controlPipe
  trace : ∃ data, e.trace = d.trace ++ data ∧ ∀ x ∈ data, x.IsData h

variable {h : Nat} {s d e : Sys} {q : ProcStatus} {loops : Bool}

theorem EnvAct.fds_of_kept {act : EnvAct} (ha : act.onFiles = false) : (act.apply s).fds = s.fds := by
  have hwrite : ∀ fd data, (s.toWorld.write fd data).fds = s.fds := by
    intro fd data
    obtain ⟨pipes, hw⟩ := s.toWorld.write_frame fd data
    rw [hw]
  cases act with
  | childOut x data => simp only [EnvAct.apply]; split <;> rfl
  | childErr x data => simp only [EnvAct.apply]; split <;> rfl
  | userStop x => exact hwrite _ _
  | sigchld =>
    obtain ⟨pipes, hw⟩ := s.toWorld.deliverSigchld_frame
    simp only [EnvAct.apply, hw]
  | exit pid status => simp only [EnvAct.apply]; split <;> first | rfl | (split <;> rfl)
  | setpgid pid pgid => simp only [EnvAct.apply]; split <;> first | rfl | (split <;> rfl)
  | fork pid pgid => simp only [EnvAct.apply]; split <;> rfl
  | reap pid => simp only [EnvAct.apply]; split <;> rfl
  | openFile fd => cases ha
  | closeFile fd => cases ha

theorem EnvAct.array (act : EnvAct) (s : Sys) : (act.apply s).array = s.array := by
  obtain ⟨fds, pipes, children, hframe⟩ := act.frame s
  rw [hframe]
  funext slot
  cases slot <;> rfl

theorem EnvAct.owns (act : EnvAct) (ho : s.Owns) : (act.apply s).Owns := by
  cases act with
  | openFile fd =>
    simp only [EnvAct.apply]
    split
    next hfd => exact Owned.insertFile ho hfd.1 (by simp [FdTarget.pipe?]) hfd.2
    next => exact ho
  | closeFile fd =>
    simp only [EnvAct.apply]
    split
    next hfd => exact Owned.closeFile ho hfd
    next => exact ho
  | childOut | childErr | userStop | sigchld | exit | setpgid | fork | reap =>
    exact ho.congr (EnvAct.fds_of_kept rfl) (EnvAct.array ..)

/-- What does not concern the arrays, the object and the handler leaves the run engaged. -/
theorem Engaged.congr (hd : Engaged h s loops d) (howns : e.Owns) (hfds : s.FilesKept → e.fds = d.fds)
    (harray : e.array = d.array) (htype : (e.procs h).type = (d.procs h).type)
    (hsa : (e.procs h).saPrev = (d.procs h).saPrev) (hh : e.handles = d.handles)
    (hdisp : e.disposition = d.disposition) (hforks : e.forks = d.forks) : Engaged h s loops e where
  alone := ⟨hh ▸ hd.alone.handles, htype.trans hd.alone.type⟩
  owns := howns
  ledger hf := by
    rw [hfds hf, harray]
    exact hd.ledger hf
  held := harray ▸ hd.held
  loop := harray ▸ hd.loop
  saPrev := hsa.trans hd.saPrev
  disposition := hdisp.trans hd.disposition
  forks := hforks.trans hd.forks

theorem Calm.array (hc : Calm h d e) : e.array = d.array := by
  obtain ⟨_, _, _, _, _, _, _, hframe⟩ := hc.frame
  have hcontrol := hc.control
  subst hframe
  funext slot
  cases slot <;> first | rfl | exact hcontrol

theorem Calm.trans {f : Sys} (hde : Calm h d e) (hef : Calm h e f) : Calm h d f := by
  obtain ⟨data, htrace, hdata⟩ := hde.trace
  obtain ⟨data', htrace', hdata'⟩ := hef.trace
  refine ⟨?_, hef.control.trans hde.control, data ++ data', ?_, ?_⟩
  · obtain ⟨_, _, _, _, _, _, _, rfl⟩ := hde.frame
    obtain ⟨_, _, _, _, _, _, _, rfl⟩ := hef.frame
    exact ⟨_, _, _, _, _, _, _, rfl⟩
  · rw [htrace', htrace, List.append_assoc]
  · exact fun x hx => (List.mem_append.mp hx).elim (hdata x) (hdata' x)

theorem Underway.calm (hd : Underway h s q d) (hc : Calm h d e) : Underway h s q e := by
  have harray := hc.array
  obtain ⟨data, htrace, hdata⟩ := hd.trace
  obtain ⟨new, hnew, hnewdata⟩ := hc.trace
  have htrace' : e.trace = s.trace ++ startedEvents h q ++ (data ++ new) := by
    rw [hnew, htrace, List.append_assoc]
  obtain ⟨_, _, _, _, _, _, _, rfl⟩ := hc.frame
  refine ⟨hd.engaged.congr (hd.engaged.owns.congr rfl harray) (fun _ => rfl) harray rfl rfl rfl rfl rfl,
    hd.proc, hd.stdin, hd.userStop, hd.running, hd.alive, hd.wanted, hd.blocked, _, htrace', ?_⟩
  exact fun x hx => (List.mem_append.mp hx).elim (hdata x) (hnewdata x)

theorem Underway.act (hd : Underway h s q d) {act : EnvAct}
    (hact : s.FilesKept → act.onFiles = false) : Underway h s q (act.apply d) := by
  have howns := act.owns hd.engaged.owns
  have harray := act.array d
  have hfds := fun hf => EnvAct.fds_of_kept (s := d) (hact hf)
  obtain ⟨fds, pipes, children, hframe⟩ := act.frame d
  rw [hframe] at howns harray hfds ⊢
  exact ⟨hd.engaged.congr howns hfds harray rfl rfl rfl rfl rfl, hd.proc, hd.stdin, hd.userStop,
    hd.running, hd.alive, hd.wanted, hd.blocked, hd.trace⟩

theorem call_calm {α : Type} {f : World → α × World} (hf : ∀ w, ∃ readFaults pipes,
    (f w).2 = { w with readFaults, pipes }) (d : Sys) :
    Calm h d { d with toWorld := (f d.toWorld).2 } := by
  obtain ⟨readFaults, pipes, hw⟩ := hf d.toWorld
  exact ⟨⟨pipes, readFaults, d.mapOrder, d.selects, d.ioLoop, d.trace, d.vigil, by rw [hw]⟩, rfl,
    [], by rw [hw]; exact (List.append_nil _).symm, fun _ hx => absurd hx List.not_mem_nil⟩

theorem readRetry_calm (fd : Int) (count : Nat) (d : Sys) :
    ∃ a e, readRetry fd count d = .ok a e ∧ Calm h d e :=
  ⟨_, _, call_apply .., call_calm (fun w => World.readRetry_frame fd count w.readFaults w) d⟩

theorem emit_calm {x : Event} (hx : x.IsData h) (d : Sys) :
    Calm h d { d with toWorld := d.toWorld.emit x } :=
  ⟨⟨_, _, _, _, _, _, _, rfl⟩, rfl, [x], rfl, fun y hy => by rwa [List.mem_singleton.mp hy]⟩

theorem write_calm (fd : Int) (data : List UInt8) (d : Sys) :
    Calm h d { d with toWorld := d.toWorld.write fd data } := by
  obtain ⟨pipes, hw⟩ := d.toWorld.write_frame fd data
  exact ⟨⟨pipes, d.readFaults, d.mapOrder, d.selects, d.ioLoop, d.trace, d.vigil, by rw [hw]⟩, rfl,
    [], by rw [hw]; exact (List.append_nil _).symm, fun _ hx => absurd hx List.not_mem_nil⟩

theorem Calm.loop {ioLoop : SelectEvent IoSource} (hc : ioLoop.controlPipe = d.ioLoop.controlPipe) :
    Calm h d { d with ioLoop } :=
  ⟨⟨_, _, _, _, _, _, _, rfl⟩, hc, [], (List.append_nil _).symm, fun _ hx => absurd hx List.not_mem_nil⟩

/-- The object changes, but neither its arrays nor what the run was told to put back. -/
theorem Engaged.object (hd : Engaged h s loops d) {w : World} {p : PexecSingle}
    (hfds : w.fds = d.fds) (hblock : w.blockingPipe = d.blockingPipe)
    (hsig : w.sigchldPipe = d.sigchldPipe) (hdisp : w.disposition = d.disposition)
    (hforks : w.forks = d.forks) (hin : p.pipeStdin = (d.procs h).pipeStdin)
    (hout : p.pipeStdout = (d.procs h).pipeStdout) (herr : p.pipeStderr = (d.procs h).pipeStderr)
    (hwatch : p.pipeCloseWatch = (d.procs h).pipeCloseWatch) (htype : p.type = (d.procs h).type)
    (hsa : p.saPrev = (d.procs h).saPrev) :
    Engaged h s loops { d with toWorld := w, procs := Function.update d.procs h p } := by
  have harray : Sys.array { d with toWorld := w, procs := Function.update d.procs h p } = d.array := by
    rw [← Sys.array_congr (s := d) hin hout herr hwatch]
    funext slot
    cases slot <;> first | rfl | exact hblock | exact hsig
  exact hd.congr (hd.owns.congr hfds harray) (fun _ => hfds) harray (by simpa using htype)
    (by simpa using hsa) rfl hdisp hforks

/-- An error ends the loop. -/
theorem Underway.fails (hd : Underway h s q d) {err : Error} (hmem : err ∈ loopErrors) :
    Over h s q true (d.processed h err) := by
  obtain ⟨data, htrace, hdata⟩ := hd.trace
  refine ⟨hd.engaged.object rfl rfl rfl rfl rfl rfl rfl rfl rfl rfl rfl, ?_⟩
  refine .failed err hmem ?_ ?_ ?_ hdata
  · simpa [Sys.processed] using hd.proc
  · simpa [Sys.processed] using hd.wanted
  · rw [← htrace]
    rfl

/-- What a callback of the loop does with the run. -/
abbrev LoopStep (h : Nat) (s : Sys) (q : ProcStatus) (x : Prog EventReturn) : Prop :=
  Triple (Underway h s q) x
    (fun ret e => (ret = .stopLoop → Over h s q true e) ∧ (ret ≠ .stopLoop → Underway h s q e))
    (fun _ _ => True)

/-- What `read_std` makes of an answer in a blocking run. -/
theorem readStd_answers {fd : Int} {cb : List UInt8 → Event} {err : Error}
    {a : Except Errno (List UInt8)} {e : Sys} (ha : readRetry fd (bufferSize - 1) d = .ok a e)
    (htype : (e.procs h).type = .blocking) :
    readStd fd h cb err d = match a with
      | .error _ => .ok .stopLoop (e.processed h err)
      | .ok [] => .ok .skipOtherFd e
      | .ok data => .ok .nothing { e with toWorld := e.toWorld.emit (cb data) } := by
  unfold readStd
  rw [bind_of_ok ha]
  cases a with
  | error err' =>
    have htype' : ((e.processed h err).procs h).type = .blocking := by
      simpa [Sys.processed] using htype
    dsimp only
    rw [bind_of_ok (processError_apply err), bind_of_ok (get_apply _), htype']
    rfl
  | ok data =>
    cases data with
    | nil => rfl
    | cons b bs => rfl

/-- What `read_close` makes of an answer in a blocking run. -/
theorem ioCloseWatch_answers {a : Except Errno (List UInt8)} {e : Sys}
    (ha : readRetry (d.procs h).pipeCloseWatch.rd (bufferSize - 1) d = .ok a e)
    (htype : (e.procs h).type = .blocking) :
    ioCloseWatch h d = match a with
      | .error _ => .ok .stopLoop (e.processed h .watchPipeReadError)
      | .ok _ => .ok .nothing { e with toWorld := e.toWorld.write e.ioLoop.controlPipe.wr [0] } := by
  cases a with
  | error err' =>
    have htype' : ((e.processed h .watchPipeReadError).procs h).type = .blocking := by
      simpa [Sys.processed] using htype
    have hclose : readClose h d = .ok .stopLoop (e.processed h .watchPipeReadError) := by
      unfold readClose
      rw [bind_of_ok (get_apply _), bind_of_ok ha]
      dsimp only
      rw [bind_of_ok (processError_apply _), bind_of_ok (get_apply _), htype']
      rfl
    exact bind_of_ok hclose
  | ok data =>
    have hclose : readClose h d = .ok .nothing e := by
      unfold readClose
      rw [bind_of_ok (get_apply _), bind_of_ok ha]
      dsimp only
      rw [bind_of_ok (get_apply _), htype]
      rfl
    exact bind_of_ok hclose

theorem readStd_step (fd : Int) {cb : List UInt8 → Event} (hcb : ∀ data, (cb data).IsData h)
    {err : Error} (hmem : err ∈ loopErrors) : LoopStep h s q (readStd fd h cb err) := by
  intro d hd
  obtain ⟨a, e, he, hc⟩ := readRetry_calm (h := h) fd (bufferSize - 1) d
  have hd' := hd.calm hc
  rw [readStd_answers he hd'.engaged.alone.type]
  cases a with
  | error err' => exact ⟨fun _ => hd'.fails hmem, fun hne => absurd rfl hne⟩
  | ok data =>
    cases data with
    | nil => exact ⟨fun hret => (by cases hret), fun _ => hd'⟩
    | cons b bs => exact ⟨fun hret => (by cases hret), fun _ => hd'.calm (emit_calm (hcb _) e)⟩

theorem ioCloseWatch_step : LoopStep h s q (ioCloseWatch h) := by
  intro d hd
  obtain ⟨a, e, he, hc⟩ := readRetry_calm (h := h) (d.procs h).pipeCloseWatch.rd (bufferSize - 1) d
  have hd' := hd.calm hc
  rw [ioCloseWatch_answers he hd'.engaged.alone.type]
  cases a with
  | error err' => exact ⟨fun _ => hd'.fails (by decide), fun hne => absurd rfl hne⟩
  | ok data => exact ⟨fun hret => (by cases hret), fun _ => hd'.calm (write_calm _ _ e)⟩

theorem ioInterrupt_step (fd : Int) : LoopStep h s q (loopControl (ioInterrupt h) fd) := by
  intro d hd
  obtain ⟨a, e, he, hc⟩ := readRetry_calm (h := h) fd 1 d
  have hd' := hd.calm hc
  unfold loopControl
  rw [bind_of_ok he]
  cases a with
  | error err => trivial
  | ok bytes =>
    obtain ⟨data, htrace, hdata⟩ := hd'.trace
    refine ⟨fun _ => ⟨?_, ?_⟩, fun hne => absurd rfl hne⟩
    · exact hd'.engaged.object rfl rfl rfl rfl rfl rfl rfl rfl rfl rfl rfl
    · refine .interrupted ?_ ?_ htrace hdata
      · simpa using hd'.proc
      · simp

theorem ioReadSignal_step (fuel want : Nat) (got : List UInt8) :
    Triple (Underway h s q) (ioReadSignal h fuel want got)
      (fun answer e => (answer = none → Over h s q true e) ∧ (answer ≠ none → Underway h s q e))
      (fun _ _ => True) := by
  induction fuel generalizing want got with
  | zero => exact Triple.throw fun _ _ => trivial
  | succ fuel ih =>
    intro d hd
    have hd' := hd.calm (call_calm (fun w => World.read_frame w d.blockingPipe.rd want) d)
    unfold ioReadSignal
    rw [bind_of_ok (get_apply _), bind_of_ok (call_apply ..)]
    cases (d.toWorld.read d.blockingPipe.rd want).1 with
    | error err =>
      dsimp only
      rw [bind_of_ok (processError_apply _)]
      exact ⟨fun _ => hd'.fails (by decide), fun hne => absurd rfl hne⟩
    | ok data =>
      dsimp only
      split
      next => exact ⟨fun hret => (by cases hret), fun _ => hd'⟩
      next => exact ih _ _ _ hd'

/-- What is done before the status is passed on leaves of the object all but two fields. -/
def Handling (h : Nat) (d e : Sys) : Prop :=
  ∃ faults children sigchldBlocked trace vigil state_ status, e = { d with
    faults, children, sigchldBlocked, trace, vigil
    procs := Function.update d.procs h { d.procs h with state_, status } }

theorem Handling.trans {f : Sys} (hde : Handling h d e) (hef : Handling h e f) : Handling h d f := by
  obtain ⟨_, _, _, _, _, _, _, rfl⟩ := hde
  obtain ⟨faults, children, blocked, trace, vigil, state_, status, rfl⟩ := hef
  refine ⟨faults, children, blocked, trace, vigil, state_, status, ?_⟩
  simp only [Function.update_self, Function.update_idem]

theorem Handling.field {α : Type} (hde : Handling h d e) (f : Sys → α)
    (hf : ∀ v faults children sigchldBlocked trace vigil state_ status, f { v with
      faults, children, sigchldBlocked, trace, vigil
      procs := Function.update v.procs h { v.procs h with state_, status } } = f v) : f e = f d := by
  obtain ⟨_, _, _, _, _, _, _, rfl⟩ := hde
  exact hf ..

theorem Handling.engaged (hde : Handling h d e) (hd : Engaged h s loops d) : Engaged h s loops e := by
  obtain ⟨_, _, _, _, _, _, _, rfl⟩ := hde
  exact hd.object rfl rfl rfl rfl rfl rfl rfl rfl rfl rfl rfl

/-- A change of the signal mask, or the error of one that fails. -/
def Masks (h : Nat) (block : Bool) (err : Error) (d e : Sys) : Prop :=
  e = { d with faults := d.faults.tail, sigchldBlocked := block } ∨
    e = Sys.processed h err { d with faults := d.faults.tail }

theorem Masks.handling {block : Bool} {err : Error} (hm : Masks h block err d e) : Handling h d e := by
  rcases hm with rfl | rfl
  · exact ⟨_, _, _, _, _, (d.procs h).state_, (d.procs h).status, by rw [Function.update_eq_self]⟩
  · exact ⟨_, _, _, _, _, _, _, rfl⟩

theorem Masks.outcome {block : Bool} {err : Error} (hm : Masks h block err d e) :
    ∃ new, e.trace = d.trace ++ new ∧ (e.procs h).status = (d.procs h).status ∧
      ∀ x ∈ new, x = .error h err := by
  rcases hm with rfl | rfl
  · exact ⟨[], (List.append_nil _).symm, rfl, fun _ hx => absurd hx List.not_mem_nil⟩
  · exact ⟨_, rfl, by simp [Sys.processed], fun _ hx => List.mem_singleton.mp hx⟩

theorem sigprocmask_masks (block : Bool) (err : Error) (d : Sys) :
    ∃ e, (do if !(← call (World.sigprocmask · block)) then processError h err : Prog Unit) d = .ok () e ∧
      Masks h block err d e := by
  rw [bind_of_ok (call_apply ..)]
  cases hf : d.faults.head?.join with
  | some x =>
    simp only [World.sigprocmask, World.nextFault, hf]
    exact ⟨_, processError_apply err, .inr rfl⟩
  | none =>
    simp only [World.sigprocmask, World.nextFault, hf]
    exact ⟨_, rfl, .inl rfl⟩

/-- The process was waited for, and the status is that of a death. -/
structure Waited (h : Nat) (d e : Sys) : Prop where
  handling : Handling h d e
  blocked : e.sigchldBlocked = d.sigchldBlocked
  trace : ∃ wait, e.trace = d.trace ++ wait ∧ ∀ x ∈ wait, x.IsWait h
  dead : (e.procs h).status = 0 ∨ Terminated (e.procs h).status

theorem Waited.trans {f : Sys} (hde : Waited h d e) (hef : Waited h e f) : Waited h d f := by
  obtain ⟨wait, htrace, hwait⟩ := hde.trace
  obtain ⟨wait', htrace', hwait'⟩ := hef.trace
  refine ⟨hde.handling.trans hef.handling, hef.blocked.trans hde.blocked,
    ⟨wait ++ wait', ?_, ?_⟩, hef.dead⟩
  · rw [htrace', htrace, List.append_assoc]
  · exact fun x hx => (List.mem_append.mp hx).elim (hwait x) (hwait' x)

theorem waitpidOnce_waited (d : Sys) : ∃ r e, waitpidOnce h d = .ok r e ∧ Waited h d e := by
  unfold waitpidOnce
  rw [bind_of_ok (modifyProc_apply ..), bind_of_ok (get_apply _), bind_of_ok (call_apply ..),
    bind_of_ok (emit_apply ..)]
  simp only [Function.update_self]
  have hans := d.toWorld.waitpid_answer (d.procs h).procPid
  revert hans
  generalize (d.toWorld.waitpid (d.procs h).procPid).2 = w
  generalize (d.toWorld.waitpid (d.procs h).procPid).1 = result
  intro hans
  obtain ⟨faults, children, rfl⟩ := hans.frame
  have hdone : ∀ status, status = 0 ∨ Terminated status → Waited h d { d with
      toWorld := World.emit { d.toWorld with faults, children } (.waitpid (d.procs h).procPid result)
      procs := Function.update d.procs h { d.procs h with status } } := by
    intro status hdead
    refine ⟨⟨_, _, _, _, _, (d.procs h).state_, status, rfl⟩, rfl, ?_, by simpa using hdead⟩
    exact ⟨_, rfl, fun x hx => by rw [List.mem_singleton.mp hx]; trivial⟩
  have hfailed : ∃ r e, (do
      processError h .waitpidError
      return result : Prog WaitResult) { d with
        toWorld := World.emit { d.toWorld with faults, children } (.waitpid (d.procs h).procPid result)
        procs := Function.update d.procs h { d.procs h with status := 0 } } = .ok r e ∧
      Waited h d e := by
    obtain ⟨hhandling, hblocked, ⟨wait, htrace, hwait⟩, hdead⟩ := hdone 0 (.inl rfl)
    refine ⟨_, _, bind_of_ok (processError_apply _), ?_, hblocked,
      ⟨wait ++ [.error h .waitpidError], ?_, ?_⟩, by simp [Sys.processed]⟩
    · exact hhandling.trans ⟨_, _, _, _, _, _, _, rfl⟩
    · rw [← List.append_assoc, ← htrace]
      rfl
    · exact fun x hx => (List.mem_append.mp hx).elim (hwait x) fun hx => by
        rw [List.mem_singleton.mp hx]
        exact ⟨rfl, by simp⟩
  cases hans with
  | failed fault => exact hfailed
  | echild hnone => exact hfailed
  | unavailable hnone => exact hfailed
  | @reaped x child status hmem hlookup hsome =>
    refine ⟨_, _, bind_of_ok (modifyProc_apply ..), ?_⟩
    simp only [Function.update_self, Function.update_idem]
    exact hdone status (.inr status.2)

theorem waitpidRetry_waited (faults : List (Option Errno)) (d : Sys) :
    ∃ e, waitpidRetry h faults d = .ok () e ∧ Waited h d e := by
  induction faults generalizing d with
  | nil =>
    obtain ⟨r, e, he, hw⟩ := waitpidOnce_waited (h := h) d
    exact ⟨e, bind_of_ok he, hw⟩
  | cons fault faults ih =>
    obtain ⟨r, e, he, hw⟩ := waitpidOnce_waited (h := h) d
    unfold waitpidRetry
    rw [bind_of_ok he]
    by_cases hr : r = .failed .eintr
    · rw [if_pos hr]
      obtain ⟨f, hf, hw'⟩ := ih e
      exact ⟨f, hf, hw.trans hw'⟩
    · rw [if_neg hr]
      exact ⟨e, rfl, hw⟩

/-- The status that an answer of `waitpid` brings. -/
def Event.reapedStatus : Event → Option WaitStatus
  | .waitpid _ (.reaped _ status) => some status
  | _ => none

def reapedIn (events : List Event) : List WaitStatus := events.filterMap Event.reapedStatus

theorem reapedIn_append (xs ys : List Event) : reapedIn (xs ++ ys) = reapedIn xs ++ reapedIn ys :=
  List.filterMap_append ..

/-- The status of the object is the one that `waitpid` has brought, or zero. -/
def Heard (h : Nat) (d e : Sys) : Prop :=
  ∃ new, e.trace = d.trace ++ new ∧
    (reapedIn new = [] ∧ (e.procs h).status = 0 ∨ reapedIn new = [(e.procs h).status])

theorem waitpidOnce_heard {r : WaitResult} (he : waitpidOnce h d = .ok r e) :
    Heard h d e ∧ (r = .failed .eintr → ∃ new, e.trace = d.trace ++ new ∧ reapedIn new = []) := by
  unfold waitpidOnce at he
  rw [bind_of_ok (modifyProc_apply ..), bind_of_ok (get_apply _), bind_of_ok (call_apply ..),
    bind_of_ok (emit_apply ..)] at he
  simp only [Function.update_self] at he
  obtain ⟨faults, children, hw⟩ := (d.toWorld.waitpid_answer (d.procs h).procPid).frame
  rw [hw] at he
  cases hr : (d.toWorld.waitpid (d.procs h).procPid).1 with
  | reaped child status =>
    rw [hr] at he
    dsimp only at he
    rw [bind_of_ok (modifyProc_apply ..)] at he
    cases he
    exact ⟨⟨[.waitpid (d.procs h).procPid (.reaped child status)], rfl, .inr (by simp [reapedIn, Event.reapedStatus])⟩,
      fun hfail => by cases hfail⟩
  | unavailable | failed err =>
    rw [hr] at he
    dsimp only at he
    rw [bind_of_ok (processError_apply _)] at he
    cases he
    refine ⟨⟨_, List.append_assoc .., .inl ⟨rfl, by simp [Sys.processed]⟩⟩, fun _ => ⟨_, List.append_assoc .., rfl⟩⟩

theorem waitpidRetry_heard (faults : List (Option Errno)) {d e : Sys} (he : waitpidRetry h faults d = .ok () e) :
    Heard h d e := by
  induction faults generalizing d with
  | nil =>
    obtain ⟨r, u, hu, he⟩ := bind_eq_ok.mp he
    cases he
    exact (waitpidOnce_heard hu).1
  | cons fault faults ih =>
    obtain ⟨r, u, hu, he⟩ := bind_eq_ok.mp he
    obtain ⟨hheard, hnone⟩ := waitpidOnce_heard hu
    by_cases hr : r = .failed .eintr
    · rw [if_pos hr] at he
      obtain ⟨new, htrace, hnew⟩ := hnone hr
      obtain ⟨new', htrace', hnew'⟩ := ih he
      refine ⟨new ++ new', by rw [htrace', htrace, List.append_assoc], ?_⟩
      rwa [reapedIn_append, hnew, List.nil_append]
    · rw [if_neg hr] at he
      cases he
      exact hheard

theorem Engaged.offers (hd : Engaged h s loops d) {p : PexecSingle}
    (hin : p.pipeStdin = (d.procs h).pipeStdin) (hout : p.pipeStdout = (d.procs h).pipeStdout)
    (herr : p.pipeStderr = (d.procs h).pipeStderr)
    (hwatch : p.pipeCloseWatch = (d.procs h).pipeCloseWatch) (slot : Slot)
    (hslot : slot.owner = some h) : p.offers d.fds (d.array slot).wr = true :=
  hd.owns.offers hin hout herr hwatch slot hslot (hd.held slot (.inl hslot) (by rintro rfl; cases hslot))

theorem terminated_dead {q : ProcStatus} {status : WaitStatus} (hs : status = 0 ∨ Terminated status) :
    (q.updateStatus status).running = false := by
  rcases hs with rfl | hs
  · rfl
  · exact (updateStatus_running_iff q status).mpr hs

/-- The object once the status of a death was passed on. -/
def PexecSingle.killed (p : PexecSingle) (status : WaitStatus) : PexecSingle :=
  { p with
    status
    proc := { p.proc.updateStatus status with stdinFd := -1 }
    procKilled := true }

def Sys.killed (h : Nat) (status : WaitStatus) (d : Sys) : Sys :=
  { d with
    toWorld := { d.toWorld with
      trace := d.trace ++ [.handed h true true,
        .state h .signaled ((d.procs h).proc.updateStatus status)]
      vigil := d.vigil.note d.fds }
    procs := Function.update d.procs h ((d.procs h).killed status) }

theorem handleProcReturnCode_cases (d : Sys) :
    handleProcReturnCode h d = .ok () d ∨ ∃ code err, launchError code = some err ∧
      handleProcReturnCode h d = .ok () (d.processed h err) := by
  unfold handleProcReturnCode
  rw [bind_of_ok (get_apply _)]
  cases hl : launchError (d.procs h).proc.returnCode with
  | some err => exact .inr ⟨_, err, hl, processError_apply err⟩
  | none => exact .inl rfl

theorem updateStatus_dead {status : WaitStatus} (hd : Engaged h s loops d)
    (hin : (d.procs h).proc.stdinFd = (d.procs h).pipeStdin.wr)
    (hstop : (d.procs h).proc.userStopFd = (d.procs h).pipeCloseWatch.wr)
    (hs : status = 0 ∨ Terminated status) :
    updateStatus h status d = .ok () (d.killed h status) ∨
      ∃ code err, launchError code = some err ∧
        updateStatus h status d = .ok () ((d.killed h status).processed h err) := by
  set p : PexecSingle := { d.procs h with status, proc := (d.procs h).proc.updateStatus status } with hp
  have hdead : p.proc.running = false := terminated_dead hs
  have hoffer : p.offers d.fds p.proc.stdinFd = true := by
    have := hd.offers (p := p) rfl rfl rfl rfl (.stdin h) rfl
    rwa [show (d.array (.stdin h)).wr = p.proc.stdinFd from hin.symm] at this
  have hoffer' : p.offers d.fds p.proc.userStopFd = true := by
    have := hd.offers (p := p) rfl rfl rfl rfl (.watch h) rfl
    rwa [show (d.array (.watch h)).wr = p.proc.userStopFd from hstop.symm] at this
  have hrun : updateStatus h status d = (do
      handleProcReturnCode h
      if ((← get).procs h).type = .nonblocking then stopped h : Prog Unit) (d.killed h status) := by
    unfold updateStatus
    rw [bind_of_ok (modifyProc_apply ..)]
    refine (bind_of_ok (callState_apply _ h .signaled ?_)).trans ?_
    · exact hd.alone.handles
    · rw [bind_of_ok (get_apply _)]
      simp only [Function.update_self, ← hp, hdead, Bool.not_false, if_true]
      rw [bind_of_ok (modifyProc_apply ..)]
      simp only [Function.update_self, Function.update_idem, World.announced, World.emit, hoffer,
        hoffer', List.append_assoc]
      rfl
  have htype : ((d.killed h status).procs h).type = .blocking := by
    simpa [Sys.killed, PexecSingle.killed] using hd.alone.type
  rcases handleProcReturnCode_cases (h := h) (d.killed h status) with hcode | ⟨code, err, hl, hcode⟩
  · left
    rw [hrun, bind_of_ok hcode, bind_of_ok (get_apply _), htype]
    rfl
  · right
    have htype' : (((d.killed h status).processed h err).procs h).type = .blocking := by
      simpa [Sys.processed] using htype
    refine ⟨code, err, hl, ?_⟩
    rw [hrun, bind_of_ok hcode, bind_of_ok (get_apply _), htype']
    rfl

theorem Engaged.killed (hd : Engaged h s loops d) (status : WaitStatus) :
    Engaged h s loops (d.killed h status) :=
  hd.object rfl rfl rfl rfl rfl rfl rfl rfl rfl rfl rfl

theorem Engaged.processed (hd : Engaged h s loops d) (err : Error) : Engaged h s loops (d.processed h err) :=
  hd.object rfl rfl rfl rfl rfl rfl rfl rfl rfl rfl rfl

/-- What `handle_sigchld` has done, in the loop of the run, when it passes the status on. -/
structure Awaited (h : Nat) (s : Sys) (q : ProcStatus) (d e : Sys) : Prop where
  engaged : Engaged h s true e
  proc : (e.procs h).proc = q
  wanted : (e.procs h).userStopped = false
  stdin : (e.procs h).proc.stdinFd = (e.procs h).pipeStdin.wr
  userStop : (e.procs h).proc.userStopFd = (e.procs h).pipeCloseWatch.wr
  dead : (e.procs h).status = 0 ∨ Terminated (e.procs h).status
  blocked : e.sigchldBlocked = maskAfter d.faults d.sigchldBlocked
  trace : ∃ wait, e.trace = d.trace ++ wait ∧ ∀ x ∈ wait, x.IsWait h

theorem singleHandleSigchld_awaits (hd : Underway h s q d) : ∃ e, Awaited h s q d e ∧ Heard h d e ∧
    singleHandleSigchld h d = updateStatus h (e.procs h).status e := by
  obtain ⟨d₁, hd₁, hblock⟩ := sigprocmask_masks (h := h) true .sigBlockError d
  obtain ⟨d₂, hd₂, hwait⟩ := waitpidRetry_waited (h := h) d₁.faults d₁
  obtain ⟨d₃, hd₃, hunblock⟩ := sigprocmask_masks (h := h) false .sigUnblockError d₂
  have hhandling := (hblock.handling.trans hwait.handling).trans hunblock.handling
  obtain ⟨block, hblocktrace, _, hisblock⟩ := hblock.outcome
  obtain ⟨wait, hwaittrace, hiswait⟩ := hwait.trace
  obtain ⟨new, hnew, hheard⟩ := waitpidRetry_heard _ hd₂
  obtain ⟨unblock, hunblocktrace, hstatus, hisunblock⟩ := hunblock.outcome
  have hmask : ∀ {err events}, (∀ x ∈ events, x = .error h err) → reapedIn events = [] := fun hall =>
    List.filterMap_eq_nil_iff.mpr fun x hx => by rw [hall x hx]; rfl
  have hproc : (d₃.procs h).proc = q :=
    (hhandling.field (fun v => (v.procs h).proc) fun _ _ _ _ _ _ _ => by simp).trans hd.proc
  refine ⟨d₃, ⟨hhandling.engaged hd.engaged, hproc, ?_, ?_, ?_, hstatus ▸ hwait.dead, ?_,
    ⟨block ++ wait ++ unblock, ?_, ?_⟩⟩, ⟨block ++ new ++ unblock, ?_, ?_⟩, ?_⟩
  · exact (hhandling.field (fun v => (v.procs h).userStopped) fun _ _ _ _ _ _ _ => by simp).trans
      hd.wanted
  · rw [hproc, hd.stdin]
    exact (hhandling.field (fun v => (v.procs h).pipeStdin.wr) fun _ _ _ _ _ _ _ => by simp).symm
  · rw [hproc, hd.userStop]
    exact (hhandling.field (fun v => (v.procs h).pipeCloseWatch.wr) fun _ _ _ _ _ _ _ => by simp).symm
  · obtain ⟨hfaults, hset⟩ := sigprocmask_mask hd₁
    obtain ⟨_, hreset⟩ := sigprocmask_mask hd₃
    rw [hreset, waitpidRetry_answers rfl hd₂, hwait.blocked, hset, hfaults]
    rfl
  · rw [hunblocktrace, hwaittrace, hblocktrace]
    simp only [List.append_assoc]
  · intro x hx
    rcases List.mem_append.mp hx with hx | hx
    · rcases List.mem_append.mp hx with hx | hx
      · rw [hisblock x hx]
        exact ⟨rfl, by simp⟩
      · exact hiswait x hx
    · rw [hisunblock x hx]
      exact ⟨rfl, by simp⟩
  · rw [hunblocktrace, hnew, hblocktrace]
    simp only [List.append_assoc]
  · rw [reapedIn_append, reapedIn_append, hmask hisblock, hmask hisunblock, hstatus]
    simpa using hheard
  · unfold singleHandleSigchld
    rw [bind_of_ok (show blockSigchld h d = .ok () d₁ from hd₁), bind_of_ok (get_apply _),
      bind_of_ok hd₂, bind_of_ok (show unblockSigchld h d₂ = .ok () d₃ from hd₃),
      bind_of_ok (get_apply _)]

/-- `handle_sigchld` takes the process for dead, and the loop is to stop. -/
theorem singleHandleSigchld_over (hd : Underway h s q d) : ∃ e, singleHandleSigchld h d = .ok () e ∧
    Over h s q true e ∧ (e.procs h).procKilled = true ∧ (e.procs h).proc.running = false ∧
    (e.procs h).userStopped = false ∧ e.sigchldBlocked = maskAfter d.faults d.sigchldBlocked := by
  obtain ⟨data, htrace, hdata⟩ := hd.trace
  obtain ⟨d₃, hd₃, _, hrun⟩ := singleHandleSigchld_awaits hd
  obtain ⟨wait, hwaittrace, hwaits⟩ := hd₃.trace
  have hproc := hd₃.proc
  have hwanted (status : WaitStatus) : ((d₃.killed h status).procs h).userStopped = false := by
    simpa [Sys.killed, PexecSingle.killed] using hd₃.wanted
  have htrace₃ : d₃.trace = s.trace ++ startedEvents h q ++ data ++ wait := by rw [hwaittrace, htrace]
  have hdead' : (q.updateStatus (d₃.procs h).status).running = false := terminated_dead hd₃.dead
  rw [hrun]
  rcases updateStatus_dead hd₃.engaged hd₃.stdin hd₃.userStop hd₃.dead with he | ⟨code, err, hl, he⟩
  · refine ⟨_, he, ⟨hd₃.engaged.killed _, .handled (d₃.procs h).status hdead' ?_ (hwanted _) ?_ hdata
      hwaits fun x hx => absurd hx List.not_mem_nil⟩, ?_, ?_, hwanted _, hd₃.blocked⟩
    · simp [Sys.killed, PexecSingle.killed, hproc]
    · rw [← htrace₃, List.append_nil, ← hproc]
      rfl
    · simp [Sys.killed, PexecSingle.killed]
    · simpa [Sys.killed, PexecSingle.killed, hproc] using hdead'
  · have hwanted' : (((d₃.killed h (d₃.procs h).status).processed h err).procs h).userStopped = false := by
      simpa [Sys.processed] using hwanted (d₃.procs h).status
    refine ⟨_, he, ⟨(hd₃.engaged.killed _).processed err, .handled
      (d₃.procs h).status hdead' ?_ hwanted' ?_ hdata hwaits
      fun x hx => ⟨code, err, hl, List.mem_singleton.mp hx⟩⟩, ?_, ?_, hwanted', hd₃.blocked⟩
    · simp [Sys.killed, Sys.processed, PexecSingle.killed, hproc]
    · rw [← htrace₃, ← hproc]
      rfl
    · simp [Sys.killed, Sys.processed, PexecSingle.killed]
    · simpa [Sys.killed, Sys.processed, PexecSingle.killed, hproc] using hdead'

theorem ioSigchld_step : LoopStep h s q (ioSigchld h) := by
  refine Triple.bind (ioReadSignal_step 4 4 []) fun answer => ?_
  cases answer with
  | none => exact Triple.pure fun e he => ⟨fun _ => he.1 rfl, fun hne => absurd rfl hne⟩
  | some signal =>
    intro d hd
    replace hd := hd.2 (by simp)
    by_cases hsignal : signal = World.sigchldRecord
    · obtain ⟨e, he, hover, hkilled, _⟩ := singleHandleSigchld_over hd
      dsimp only
      rw [if_pos hsignal, bind_of_ok he, bind_of_ok (get_apply _), hkilled]
      exact ⟨fun _ => hover, fun hne => absurd rfl hne⟩
    · dsimp only
      rw [if_neg hsignal, bind_of_ok (get_apply _), hd.alive]
      exact ⟨fun hret => (by cases hret), fun _ => hd⟩

theorem ioCallback_step (cb : IoSource) (fd : Int) : LoopStep h s q (ioCallback h cb fd) := by
  cases cb with
  | interrupt => exact ioInterrupt_step fd
  | closeWatch => exact ioCloseWatch_step
  | stdout =>
    refine Triple.get_bind fun d hd e he => ?_
    exact readStd_step _ (show ∀ data, (Event.out h data).IsData h from fun _ => rfl) (by decide) e (he ▸ hd)
  | stderr =>
    refine Triple.get_bind fun d hd e he => ?_
    exact readStd_step _ (show ∀ data, (Event.err h data).IsData h from fun _ => rfl) (by decide) e (he ▸ hd)
  | sigchld => exact ioSigchld_step

theorem ioRef_begin : ∀ d, Underway h s q d → Underway h s q (ioRef.update SelectEvent.begin d) :=
  fun _ hd => hd.calm (Calm.loop rfl)

theorem ioRef_advance :
    ∀ d, Underway h s q d → Underway h s q (ioRef.update SelectEvent.advance d) := by
  intro d hd
  refine hd.calm (Calm.loop ?_)
  unfold SelectEvent.advance
  split <;> rfl

theorem Underway.waits : ∀ (answers : List SelectAnswer) (d : Sys), Underway h s q d →
    Underway h s q { d with selects := answers } := fun _ _ hd =>
  hd.calm ⟨⟨_, _, _, _, _, _, _, rfl⟩, rfl, [], (List.append_nil _).symm,
    fun _ hx => absurd hx List.not_mem_nil⟩

theorem selectError_over : Triple (Underway h s q) (processError h .selectError)
    (fun _ => Over h s q true) (fun _ _ => True) := fun d hd =>
  (processError_apply (h := h) (s := d) .selectError) ▸ hd.fails (by decide)

section Answers

variable {answers : List SelectAnswer}

/-- The loop of a blocking run, from the first `select` to the last callback. -/
theorem ioLoop_over (hanswers : s.FilesKept → ∀ acts fds, SelectAnswer.ready acts fds ∈ answers →
    ∀ act ∈ acts, act.onFiles = false) :
    Triple (Underway h s q) (selectLoop ioRef (ioCallback h) (processError h .selectError) answers)
      (fun _ => Over h s q true) (fun _ _ => True) :=
  selectLoop_triple (fun cb fd d hd => ioCallback_step cb fd d hd.1) ioRef_begin ioRef_advance
    Underway.waits selectError_over (fun _ _ => trivial) answers
    fun acts fds hm act ha _ hd => hd.act fun hf => hanswers hf acts fds hm act ha

variable {u : Sys} {cb : IoSource} {fd : Int}

theorem LoopCalls.underway (hc : LoopCalls ioRef (ioCallback h) answers d cb fd u)
    (hanswers : s.FilesKept → ∀ acts fds, SelectAnswer.ready acts fds ∈ answers → ∀ act ∈ acts,
      act.onFiles = false) (hd : Underway h s q d) : Underway h s q u :=
  hc.invariant ioCallback_step ioRef_begin ioRef_advance Underway.waits (fun _ _ => trivial)
    (fun acts fds hm act ha _ hd => hd.act fun hf => hanswers hf acts fds hm act ha) hd

theorem LoopFails.underway (hf : LoopFails ioRef (ioCallback h) answers d u)
    (hanswers : s.FilesKept → ∀ acts fds, SelectAnswer.ready acts fds ∈ answers → ∀ act ∈ acts,
      act.onFiles = false) (hd : Underway h s q d) : Underway h s q u :=
  hf.invariant ioCallback_step ioRef_begin ioRef_advance Underway.waits (fun _ _ => trivial)
    (fun acts fds hm act ha _ hd => hd.act fun hf => hanswers hf acts fds hm act ha) hd

end Answers

end Pexec
