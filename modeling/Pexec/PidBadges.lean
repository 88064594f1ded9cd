import Pexec.PidSafety

namespace Pexec

open Effect Runs

variable {h : Nat} {pid : Int} {s t u : Sys}

/-- Handle `h` has forked `pid`, and gives it to `on_proc_stopped` when the watching ends. -/
structure Badge (s : Sys) (pid : Int) (h : Nat) : Prop where
  type : (s.procs h).type = .nonblocking
  procPid : (s.procs h).procPid = pid
  proc : (s.procs h).proc.pid = pid
  handle : ∃ hd, s.handles h = some hd ∧ hd.onProcStopped = some pid ∧ hd.retProc.pid = pid

/-- Every active process has the badge of an unreaped child. -/
def Badged (s : Sys) : Prop := ∀ pid h, s.active.lookup pid = some h → Badge s pid h ∧ pid ∈ s.children

/-- No badge is lost, and nothing is started, reaped, signalled or reported. -/
structure SamePids (s t : Sys) : Prop where
  badge : ∀ pid h, Badge s pid h → Badge t pid h
  active : ∀ pid h, t.active.lookup pid = some h → s.active.lookup pid = some h
  children : t.children = s.children
  kills : t.kills = s.kills
  reports : reports t.calls = reports s.calls

instance : IsPreorder Sys SamePids where
  refl _ := ⟨fun _ _ => id, fun _ _ => id, rfl, rfl, rfl⟩
  trans _ _ _ hst htu := ⟨fun pid h hb => htu.badge pid h (hst.badge pid h hb),
    fun pid h hl => hst.active pid h (htu.active pid h hl), htu.children.trans hst.children,
    htu.kills.trans hst.kills, htu.reports.trans hst.reports⟩

theorem Badge.congr (hb : Badge s pid h) (hp : t.procs h = s.procs h) (hh : t.handles h = s.handles h) :
    Badge t pid h := by
  refine ⟨?_, ?_, ?_, ?_⟩
  · rw [hp]
    exact hb.type
  · rw [hp]
    exact hb.procPid
  · rw [hp]
    exact hb.proc
  · rw [hh]
    exact hb.handle

/-- A handle has forked one process. -/
theorem Badge.inj {pid' : Int} (hb : Badge s pid h) (hb' : Badge s pid' h) : pid' = pid :=
  hb'.procPid.symm.trans hb.procPid

theorem Badged.same (hs : Badged s) (h : SamePids s t) : Badged t := fun pid x hl => by
  obtain ⟨hb, hc⟩ := hs pid x (h.active pid x hl)
  exact ⟨h.badge pid x hb, h.children ▸ hc⟩

theorem Badged.pidsOwned (hs : Badged s) : PidsOwned s := by
  refine ⟨fun pid h hl => (hs pid h hl).2, fun pid h hl => ?_, fun pid pid' h hl hl' =>
    (hs pid h hl).1.inj (hs pid' h hl').1⟩
  obtain ⟨hb, _⟩ := hs pid h hl
  exact ⟨hb.procPid, hb.proc, hb.handle⟩

/-- Where the maps, the objects and the children are as before, the callbacks are what counts. -/
theorem SamePids.told (hp : t.procs = s.procs) (hh : t.handles = s.handles) (ha : t.active = s.active)
    (hc : t.children = s.children) (hq : Uncalled s t) : SamePids s t := by
  refine ⟨fun pid h hb => hb.congr (congrFun hp h) (congrFun hh h), fun _ _ hl => ha ▸ hl, hc, hq.kills, ?_⟩
  rw [hq.calls, List.append_nil]

/-- What `SamePids` looks at. -/
def Sys.pids (s : Sys) : (Nat → PexecSingle) × (Nat → Option Handle) × AList (fun _ : Int => Nat) ×
    AList (fun _ : Int => Child) × List Event :=
  (s.procs, s.handles, s.active, s.children, s.trace)

theorem SamePids.same (hs : t.pids = s.pids) : SamePids s t :=
  .told (congrArg (·.1) hs) (congrArg (·.2.1) hs) (congrArg (·.2.2.1) hs) (congrArg (·.2.2.2.1) hs)
    (Uncalled.same (congrArg (·.2.2.2.2) hs))

theorem modify_samePids {f : Sys → Sys} (hf : ∀ s, (f s).pids = s.pids) :
    Moves SamePids (modify f : Prog Unit) := Moves.modify fun s => .same (hf s)

theorem call_samePids {α : Type} {f : World → α × World}
    (hf : ∀ w, (f w).2.children = w.children ∧ (f w).2.trace = w.trace) : Moves SamePids (call f) :=
  fun s => .told rfl rfl rfl (hf s.toWorld).1 (Uncalled.same (hf s.toWorld).2)

theorem onWorld_samePids {f : World → World} (hf : ∀ w, (f w).children = w.children ∧ (f w).trace = w.trace) :
    Moves SamePids (onWorld f) :=
  fun s => .told rfl rfl rfl (hf s.toWorld).1 (Uncalled.same (hf s.toWorld).2)

theorem emit_samePids {e : Event} (he : e.call = none) (hk : e.killed = none) : Moves SamePids (emit e) :=
  Moves.modify fun _ => .told rfl rfl rfl rfl (Uncalled.snoc he hk rfl)

theorem modifyProc_samePids {f : PexecSingle → PexecSingle}
    (hf : ∀ p, (f p).type = p.type ∧ (f p).procPid = p.procPid ∧ (f p).proc.pid = p.proc.pid) :
    Moves SamePids (modifyProc h f) := by
  refine Moves.modify fun s => ⟨fun pid x hb => ?_, fun _ _ => id, rfl, rfl, rfl⟩
  by_cases hx : x = h
  · subst x
    obtain ⟨htype, hpid, hproc⟩ := hf (s.procs h)
    have hself : Function.update s.procs h (f (s.procs h)) h = f (s.procs h) := Function.update_self ..
    exact ⟨(congrArg PexecSingle.type hself).trans (htype.trans hb.type),
      (congrArg PexecSingle.procPid hself).trans (hpid.trans hb.procPid),
      (congrArg (·.proc.pid) hself).trans (hproc.trans hb.proc), hb.handle⟩
  · exact hb.congr (Function.update_of_ne hx ..) rfl

theorem closePipe_samePids (p : PipeFds) : Moves SamePids (onWorld (World.closePipe · p)) :=
  onWorld_samePids fun w => by
    obtain ⟨fds, hw⟩ := w.closePipe_frame p
    rw [hw]
    exact ⟨rfl, rfl⟩

theorem write_samePids (fd : Int) (data : List UInt8) : Moves SamePids (onWorld (World.write · fd data)) :=
  onWorld_samePids fun w => by
    obtain ⟨pipes, hw⟩ := w.write_frame fd data
    rw [hw]
    exact ⟨rfl, rfl⟩

theorem readRetry_samePids (fd : Int) (count : Nat) : Moves SamePids (readRetry fd count) :=
  call_samePids fun w => by
    obtain ⟨readFaults, pipes, hw⟩ := World.readRetry_frame fd count w.readFaults w
    rw [hw]
    exact ⟨rfl, rfl⟩

theorem pipe2_samePids (cloexec : Bool) : Moves SamePids (call (World.pipe2 · cloexec)) :=
  call_samePids fun w => by
    obtain ⟨faults, fds, pipes, hw⟩ := w.pipe2_frame cloexec
    rw [hw]
    exact ⟨rfl, rfl⟩

theorem sigaction_samePids (d : World → Disposition) : Moves SamePids (call fun w => w.sigaction (d w)) :=
  call_samePids fun w => by
    obtain ⟨faults, disposition, hw⟩ := w.sigaction_frame (d w)
    rw [hw]
    exact ⟨rfl, rfl⟩

theorem nextOrder_samePids : Moves SamePids nextOrder := call_samePids fun _ => ⟨rfl, rfl⟩

theorem multiProcessError_samePids (e : Error) : Moves SamePids (multiProcessError e) :=
  Moves.bind (modify_samePids fun _ => rfl) fun _ => emit_samePids rfl rfl

theorem processError_samePids (e : Error) : Moves SamePids (processError h e) :=
  Moves.bind (emit_samePids rfl rfl) fun _ => modifyProc_samePids fun _ => ⟨rfl, rfl, rfl⟩

theorem addReadEvent_samePids (fd : Int) (cb : Source) : Moves SamePids (addReadEvent fd cb) :=
  addReadEvent_moves (fun _ _ _ _ _ => .same rfl) (fun _ _ => emit_samePids rfl rfl) fd cb

theorem removeReadEvent_samePids (fd : Int) : Moves SamePids (removeReadEvent fd) :=
  removeReadEvent_moves (fun _ _ _ _ _ => .same rfl) (fun _ _ => emit_samePids rfl rfl) fd

theorem interrupt_samePids : Moves SamePids interrupt := by
  refine modify_samePids fun s => ?_
  obtain ⟨pipes, hw⟩ := s.toWorld.write_frame s.controlPipe.wr [0]
  rw [hw]
  rfl

theorem sendJob_samePids (job : Option Job) : Moves SamePids (sendJob job) :=
  Moves.bind (modify_samePids fun _ => rfl) fun _ => interrupt_samePids

theorem assert_samePids (c : Bool) (a : Assertion) : Moves SamePids (assert c a) :=
  Moves.ite (fun _ => Moves.pure _) fun _ => Moves.throw _

theorem erase_samePids (pid : Int) :
    Moves SamePids (modify fun s => { s with active := s.active.erase pid } : Prog Unit) :=
  Moves.modify fun _ => ⟨fun _ _ hb => hb.congr rfl rfl, fun _ _ => lookup_of_erase, rfl, rfl, rfl⟩

theorem onProcStopped_samePids (pid : Int) : Moves SamePids (onProcStopped h pid) := by
  refine Moves.bind Moves.get fun s => Moves.bind (assert_samePids _ _) fun _ => Moves.bind Moves.get fun s => ?_
  split
  · exact Moves.pure _
  · refine Moves.bind (removeReadEvent_samePids _) fun _ => Moves.bind (removeReadEvent_samePids _) fun _ =>
      Moves.bind (removeReadEvent_samePids _) fun _ => Moves.bind (erase_samePids pid) fun _ =>
        Moves.bind Moves.get fun s => ?_
    exact Moves.ite (fun _ => sendJob_samePids none) fun _ => Moves.pure _

/-- A handle stores what its object says. -/
theorem setHandle_samePids {hd : Handle} (hh : s.handles h = some hd) (st : State) : SamePids s { s with
    handles := Function.update s.handles h (some { hd with retProc := (s.procs h).proc, retState := st }) } := by
  refine ⟨fun pid x hb => ?_, fun _ _ => id, rfl, rfl, rfl⟩
  by_cases hx : x = h
  · subst x
    obtain ⟨hd', hh', hstop, _⟩ := hb.handle
    cases hh.symm.trans hh'
    exact ⟨hb.type, hb.procPid, hb.proc, _, Function.update_self .., hstop, hb.proc⟩
  · exact hb.congr rfl (Function.update_of_ne hx ..)

theorem announced_samePids {st : State} (hst : st ≠ .signaled ∧ st ≠ .stopped) (s : Sys) :
    SamePids s { s with toWorld := s.toWorld.announced h st (s.procs h) } := by
  have htrace : (s.toWorld.announced h st (s.procs h)).trace = s.trace ++
      [.handed h ((s.procs h).offers s.fds (s.procs h).proc.stdinFd)
        ((s.procs h).offers s.fds (s.procs h).proc.userStopFd), .state h st (s.procs h).proc] :=
    List.append_assoc ..
  refine ⟨fun _ _ hb => hb.congr rfl rfl, fun _ _ => id, rfl, ?_, ?_⟩
  · simp [Sys.kills, htrace, List.filterMap_cons, Event.killed]
  · simp [Sys.calls, htrace, List.filterMap_cons, Event.call, reports, hst.1, hst.2]

/-- What the handle does in a state callback. -/
theorem handleState_samePids {hd : Handle} (hh : s.handles h = some hd) (st : State) :
    Outcome (fun _ => SamePids s) (fun _ => SamePids s) (handleState h hd st (s.procs h).proc s) := by
  unfold handleState
  rw [bind_of_ok (modify_apply ..)]
  refine Outcome.after (setHandle_samePids hh st) (Moves.ite (fun _ => ?_) (fun _ => Moves.pure _) _)
  have hcall : Moves SamePids (emit (.onStop h st)) := emit_samePids rfl rfl
  cases hd.onProcStopped with
  | none => exact Moves.ite (fun _ => Moves.bind hcall fun _ => Moves.pure _) fun _ => Moves.pure _
  | some pid =>
    have hstop : Moves SamePids (onProcStopped h pid) := onProcStopped_samePids pid
    exact Moves.ite (fun _ => Moves.bind hcall fun _ => hstop) fun _ => hstop

theorem callState_samePids {st : State} (hst : st ≠ .signaled ∧ st ≠ .stopped) :
    Moves SamePids (callState h st) := by
  refine Moves.get_bind fun s => ?_
  rw [bind_of_ok (announce_apply ..)]
  refine Outcome.after (announced_samePids (h := h) hst s) ?_
  cases hh : s.handles h with
  | none => exact Std.Refl.refl _
  | some hd => exact handleState_samePids (s := { s with toWorld := s.toWorld.announced h st (s.procs h) }) hh st

theorem closeForkPipes_samePids : Moves SamePids (closeForkPipes h) := by
  intro s
  have hproc := (modifyProc_samePids (h := h) (f := PexecSingle.pipesClosed) fun _ => ⟨rfl, rfl, rfl⟩) s
  obtain ⟨fds, blockingPipe, hw⟩ := s.toWorld.closeForkPipes_frame (s.procs h)
  refine IsTrans.trans _ _ _ (show SamePids s _ from hproc) (.same ?_)
  show Sys.pids { s with
    toWorld := s.toWorld.closeForkPipes (s.procs h)
    procs := Function.update s.procs h (s.procs h).pipesClosed } = _
  rw [hw]
  rfl

theorem failStopped_samePids : Moves SamePids (failStopped h) :=
  Moves.bind closeForkPipes_samePids fun _ => callState_samePids ⟨by decide, by decide⟩

theorem userStopped_samePids : Moves SamePids (userStopped h) :=
  Moves.bind (modifyProc_samePids fun _ => ⟨rfl, rfl, rfl⟩) fun _ =>
    Moves.bind closeForkPipes_samePids fun _ => callState_samePids ⟨by decide, by decide⟩

theorem readClose_samePids : Moves SamePids (readClose h) := by
  refine Moves.bind Moves.get fun s => Moves.bind (readRetry_samePids _ _) fun answer => ?_
  split
  · refine Moves.bind (processError_samePids _) fun _ => Moves.bind Moves.get fun s => ?_
    exact Moves.ite (fun _ => Moves.bind failStopped_samePids fun _ => Moves.pure _) fun _ => Moves.pure _
  · refine Moves.bind Moves.get fun s => ?_
    exact Moves.ite (fun _ => Moves.bind userStopped_samePids fun _ => Moves.pure _) fun _ => Moves.pure _

section Std

variable {cb : List UInt8 → Event} (hcb : ∀ data, (cb data).call = none ∧ (cb data).killed = none) (e : Error)

include hcb

theorem readStd_samePids (fd : Int) : Moves SamePids (readStd fd h cb e) := by
  refine Moves.bind (readRetry_samePids _ _) fun answer => ?_
  split
  · refine Moves.bind (processError_samePids _) fun _ => Moves.bind Moves.get fun s => ?_
    exact Moves.ite (fun _ => Moves.bind failStopped_samePids fun _ => Moves.pure _) fun _ => Moves.pure _
  · exact Moves.pure _
  · exact Moves.bind (emit_samePids (hcb _).1 (hcb _).2) fun _ => Moves.pure _

end Std

theorem Aside.samePids (ha : Aside s t) : SamePids s t :=
  .told (ha.field Sys.procs fun _ => rfl) (ha.field Sys.handles fun _ => rfl) (ha.field Sys.active fun _ => rfl)
    (ha.field (·.children) fun _ => rfl) ha.uncalled

theorem loopInterrupt_samePids {κ : Type} (e : SelectEvent κ) : Moves SamePids (loopInterrupt e) :=
  write_samePids e.controlPipe.wr [0]

theorem loopControl_samePids {onInterrupt : Prog EventReturn} (hi : Moves SamePids onInterrupt) (fd : Int) :
    Moves SamePids (loopControl onInterrupt fd) := by
  refine Moves.bind (readRetry_samePids _ _) fun answer => ?_
  split
  · exact Moves.throw _
  · exact hi

theorem userStop_samePids (proc : ProcStatus) : Moves SamePids (userStop proc) :=
  Moves.bind (assert_samePids _ _) fun _ => write_samePids proc.userStopFd [0]

theorem cleanupUser_samePids (l : List ((_ : Int) × Nat)) : Moves SamePids (cleanupUser l) := by
  induction l with
  | nil => exact Moves.pure _
  | cons p l ih =>
    refine Moves.bind Moves.get fun s => ?_
    split
    · exact Moves.bind (userStop_samePids _) fun _ => ih
    · exact ih

theorem handleStop_samePids : Moves SamePids handleStop := by
  refine Moves.bind Moves.get fun s => Moves.bind (removeReadEvent_samePids _) fun _ => Moves.bind Moves.get fun s =>
    Moves.bind (removeReadEvent_samePids _) fun _ => Moves.bind (modify_samePids fun _ => rfl) fun _ =>
      Moves.bind Moves.get fun s => Moves.ite (fun _ => ?_) fun _ => modify_samePids fun _ => rfl
  split
  · exact loopInterrupt_samePids _
  · exact Moves.throw _

theorem closeSigchld_samePids (f : World → Bool) : Moves SamePids (onWorld fun w => { w.closePipe w.sigchldPipe with
    sigchldPipe := w.sigchldPipe.closed, sigchldActive := f w }) :=
  onWorld_samePids fun w => by
    obtain ⟨fds, hw⟩ := w.closePipe_frame w.sigchldPipe
    rw [hw]
    exact ⟨rfl, rfl⟩

theorem newSigchldHandler_samePids : Moves SamePids newSigchldHandler := by
  have hset : Moves SamePids sigchldSetSignalHandler := by
    refine Moves.bind (pipe2_samePids true) fun answer => ?_
    split
    · exact Moves.pure _
    · refine Moves.bind (modify_samePids fun _ => rfl) fun _ =>
        Moves.bind (sigaction_samePids fun _ => .sigchldSignalHandler) fun prev => ?_
      split
      · exact Moves.bind (closeSigchld_samePids _) fun _ => Moves.pure _
      · exact Moves.bind (modify_samePids fun _ => rfl) fun _ => Moves.pure _
  exact Moves.bind hset fun _ => Moves.ite (fun _ => Moves.pure _) fun _ => Moves.pure _

theorem destroySigchldHandler_samePids (handler : SigchldHandler) :
    Moves SamePids (destroySigchldHandler handler) := by
  have hreset : Moves SamePids sigchldResetSignalHandler := by
    refine Moves.bind Moves.get fun s => Moves.ite (fun _ => Moves.pure _) fun _ =>
      Moves.bind (sigaction_samePids _) fun prev => ?_
    split
    · exact Moves.pure _
    · exact Moves.bind (closeSigchld_samePids _) fun _ => Moves.pure _
  refine Moves.bind hreset fun _ => Moves.ite (fun _ => ?_) fun _ => Moves.pure _
  exact Moves.ite (fun _ => multiProcessError_samePids _) fun _ => Moves.pure _

theorem runFinish_samePids : Moves SamePids runFinish := by
  have hnone : Moves SamePids (modify fun s => { s with loop := none } : Prog Unit) := modify_samePids fun _ => rfl
  have hlast : Moves SamePids (modify fun s => { s with sigchld := none, running := false } : Prog Unit) :=
    modify_samePids fun _ => rfl
  refine Moves.bind Moves.get fun s => ?_
  split
  · refine Moves.bind (closePipe_samePids _) fun _ => Moves.bind hnone fun _ => Moves.bind Moves.get fun s => ?_
    split
    · exact Moves.bind (destroySigchldHandler_samePids _) fun _ => hlast
    · exact hlast
  · refine Moves.bind hnone fun _ => Moves.bind Moves.get fun s => ?_
    split
    · exact Moves.bind (destroySigchldHandler_samePids _) fun _ => hlast
    · exact hlast

theorem selectFails_samePids : Moves SamePids selectFails :=
  Moves.bind (multiProcessError_samePids _) fun _ => runFinish_samePids

theorem makeLoop_samePids : Moves SamePids makeLoop := by
  have hnew : Moves SamePids (newSelectEvent LoopSource.interrupt) := by
    refine Moves.bind (pipe2_samePids true) fun answer => ?_
    split
    · exact Moves.throw _
    · exact Moves.bind nextOrder_samePids fun _ => Moves.pure _
  refine Moves.bind hnew fun e => Moves.bind Moves.get fun s => Moves.bind (modify_samePids fun _ => rfl) fun _ => ?_
  split
  · exact closePipe_samePids _
  · exact Moves.pure _

theorem runHandler_samePids : Moves SamePids runHandler := by
  have hreplace : Moves SamePids replaceSigchld := by
    refine Moves.bind newSigchldHandler_samePids fun handler => Moves.bind Moves.get fun s =>
      Moves.bind (modify_samePids fun _ => rfl) fun _ => ?_
    split
    · exact destroySigchldHandler_samePids _
    · exact Moves.pure _
  refine Moves.bind hreplace fun _ => Moves.bind Moves.get fun s => ?_
  split
  · refine Moves.ite (fun _ => Moves.bind (multiProcessError_samePids _) fun _ => Moves.pure _) fun _ => ?_
    exact Moves.bind (modify_samePids fun _ => rfl) fun _ => Moves.bind Moves.get fun _ =>
      Moves.bind (addReadEvent_samePids _ _) fun _ => Moves.bind Moves.get fun _ =>
        Moves.bind (addReadEvent_samePids _ _) fun _ => Moves.bind (modify_samePids fun _ => rfl) fun _ => Moves.pure _
  · exact Moves.pure _

theorem startRun_samePids (type : LoopType) : Moves SamePids (startRun type) := by
  have hsetup : Moves SamePids runSetup := Moves.bind Moves.get fun s =>
    Moves.ite (fun _ => Moves.bind makeLoop_samePids fun _ => runHandler_samePids) fun _ => runHandler_samePids
  have hlast : Moves SamePids (do let _ ← runSetup : Prog Unit) := Moves.bind hsetup fun _ => Moves.pure _
  exact Moves.bind (modify_samePids fun _ => rfl) fun _ =>
    Moves.ite (fun _ => Moves.bind (modify_samePids fun _ => rfl) fun _ => hlast) fun _ => hlast

end Pexec
