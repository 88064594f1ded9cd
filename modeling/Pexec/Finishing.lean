import Pexec.Registering
import Pexec.VigilRules

namespace Pexec

open Effect

/-- The state callback that an event reports. -/
def Event.call : Event → Option (Nat × State × ProcStatus)
  | .state h st proc => some (h, st, proc)
  | _ => none

/-- The state callbacks that were made, in order. -/
def Sys.calls (s : Sys) : List (Nat × State × ProcStatus) := s.trace.filterMap Event.call

def Event.killed : Event → Option Int
  | .kill pid _ => some pid
  | _ => none

/-- The processes that a signal was sent to. -/
def Sys.kills (s : Sys) : List Int := s.trace.filterMap Event.killed

/-- The state callbacks `new` are made, and no signal is sent. -/
structure Called (new : List (Nat × State × ProcStatus)) (s t : Sys) : Prop where
  calls : t.calls = s.calls ++ new
  kills : t.kills = s.kills

abbrev Uncalled (s t : Sys) : Prop := Called [] s t

variable {h : Nat} {pid : Int} {s t u : Sys} {st : State}

theorem Called.trans {new new' : List (Nat × State × ProcStatus)} (hst : Called new s t)
    (htu : Called new' t u) : Called (new ++ new') s u :=
  ⟨by rw [htu.calls, hst.calls, List.append_assoc], htu.kills.trans hst.kills⟩

instance : IsPreorder Sys Uncalled where
  refl _ := ⟨(List.append_nil _).symm, rfl⟩
  trans _ _ _ hst htu := hst.trans htu

theorem Uncalled.same (ht : t.trace = s.trace) : Uncalled s t := by
  constructor <;> simp only [Sys.calls, Sys.kills, ht, List.append_nil]

theorem calls_told (s : Sys) :
    s.told.filterMap Event.call = s.calls ∧ s.told.filterMap Event.killed = s.kills := by
  unfold Sys.told Sys.calls Sys.kills
  simp only [List.filterMap_filter]
  constructor
  · congr 1
    funext e
    cases e <;> rfl
  · congr 1
    funext e
    cases e <;> rfl

/-- What is told of is told in callbacks and signals. -/
theorem Called.of_told {events : List Event} (ht : t.told = s.told ++ events)
    (hk : events.filterMap Event.killed = []) : Called (events.filterMap Event.call) s t := by
  constructor
  · rw [← (calls_told t).1, ht, List.filterMap_append, (calls_told s).1]
  · rw [← (calls_told t).2, ht, List.filterMap_append, (calls_told s).2, hk, List.append_nil]

theorem Hushed.uncalled (hq : Hushed s t) : Uncalled s t :=
  Called.of_told (hq.trans (List.append_nil _).symm) rfl

theorem Uncalled.snoc {e : Event} (he : e.call = none) (hk : e.killed = none)
    (ht : t.trace = s.trace ++ [e]) : Uncalled s t := by
  constructor <;> simp [Sys.calls, Sys.kills, ht, he, hk]

theorem emit_uncalled {e : Event} (he : e.call = none) (hk : e.killed = none) :
    Moves Uncalled (emit e) := Moves.modify fun _ => Uncalled.snoc he hk rfl

theorem call_uncalled {α : Type} {f : World → α × World} (hf : ∀ w, (f w).2.trace = w.trace) :
    Moves Uncalled (call f) := fun s => Uncalled.same (hf s.toWorld)

theorem Moves.uncalled {α : Type} {x : Prog α} (hx : Moves Hushed x) : Moves Uncalled x :=
  hx.mono fun _ _ => Hushed.uncalled

theorem readStdRest_uncalled {cb : List UInt8 → Event}
    (hcb : ∀ data, (cb data).call = none ∧ (cb data).killed = none) (fd : Int) (e : Error) (fuel : Nat) :
    Moves Uncalled (readStdRest fd h cb e fuel) := by
  induction fuel with
  | zero => exact Moves.throw _
  | succ fuel ih =>
    refine Moves.bind (call_uncalled fun w => ?_) fun a => ?_
    · obtain ⟨rf, pipes, hw⟩ := w.read_frame fd (bufferSize - 1)
      rw [hw]
    · match a with
      | .error e' =>
        exact Moves.ite (fun _ => Moves.uncalled (processError_hushed e)) fun _ => Moves.pure _
      | .ok [] => exact ih
      | .ok (b :: bs) => exact emit_uncalled (hcb _).1 (hcb _).2

theorem loopRestIo_uncalled : Moves Uncalled (loopRestIo h) := by
  refine Moves.bind Moves.get fun s => Moves.bind (readStdRest_uncalled (fun _ => ⟨rfl, rfl⟩) _ _ _) fun _ => ?_
  exact Moves.bind Moves.get fun s => readStdRest_uncalled (fun _ => ⟨rfl, rfl⟩) _ _ _

/-- What the objects say about their processes stays as it is. -/
def SameProcs (s t : Sys) : Prop := ∀ x, (t.procs x).proc = (s.procs x).proc

instance : IsPreorder Sys SameProcs where
  refl _ _ := rfl
  trans _ _ _ hst htu x := (htu x).trans (hst x)

theorem processError_sameProcs (e : Error) : Moves SameProcs (processError h e) := by
  intro s x
  by_cases hx : x = h
  · subst x
    simp
  · simp [Function.update_of_ne hx]

theorem readStdRest_sameProcs (fd : Int) (cb : List UInt8 → Event) (e : Error) (fuel : Nat) :
    Moves SameProcs (readStdRest fd h cb e fuel) := by
  induction fuel with
  | zero => exact Moves.throw _
  | succ fuel ih =>
    refine Moves.bind (fun s x => rfl) fun a => ?_
    match a with
    | .error e' => exact Moves.ite (fun _ => processError_sameProcs e) fun _ => Moves.pure _
    | .ok [] => exact ih
    | .ok (b :: bs) => exact fun s x => rfl

theorem loopRestIo_sameProcs : Moves SameProcs (loopRestIo h) := by
  refine Moves.bind Moves.get fun s => Moves.bind (readStdRest_sameProcs _ _ _ _) fun _ => ?_
  exact Moves.bind Moves.get fun s => readStdRest_sameProcs _ _ _ _

/-- A part of a callback about object `h` after which its process is still watched. -/
structure Idle (h : Nat) (s t : Sys) : Prop where
  acts : Acts h s t
  active : t.active = s.active
  buffer : t.buffer = s.buffer
  added : t.added = s.added
  desk : Desk s → Desk t
  control : s.Owns → t.stream .control = s.stream .control

instance : IsPreorder Sys (Idle h) where
  refl s := ⟨Std.Refl.refl s, rfl, rfl, rfl, id, fun _ => rfl⟩
  trans _ _ _ hst htu := ⟨IsTrans.trans _ _ _ hst.acts htu.acts, htu.active.trans hst.active,
    htu.buffer.trans hst.buffer, htu.added.trans hst.added, fun hs => htu.desk (hst.desk hs),
    fun hs => (htu.control (hst.acts.carries hs).1).trans (hst.control hs)⟩

theorem Local.idle (hl : Local h s t) : Idle h s t :=
  ⟨hl.acts, hl.field Sys.active fun _ => rfl, hl.field Sys.buffer fun _ => rfl,
    hl.field Sys.added fun _ => rfl, hl.desk, fun hs => hl.streams hs .control (by simp [Slot.owner])⟩

theorem closeForkPipes_idle (s : Sys) (h : Nat) : Idle h s { s with
    toWorld := s.toWorld.closeForkPipes (s.procs h)
    procs := Function.update s.procs h (s.procs h).pipesClosed } := by
  have hacts := closeForkPipes_acts (h := h) s
  have hstream := closeForkPipes_stream s h
  obtain ⟨fds, blockingPipe, hw⟩ := s.toWorld.closeForkPipes_frame (s.procs h)
  refine ⟨hacts, rfl, rfl, rfl, fun hs => hs.congr rfl rfl rfl ?_ rfl (fun _ => rfl) fun hm => ?_,
    fun _ => congrFun hstream .control⟩
  · rw [hw]
  · exact hm.congr rfl rfl rfl rfl

/-- The watching of a process ends with the callbacks `new`. -/
structure Finished (pid : Int) (h : Nat) (new : List (Nat × State × ProcStatus)) (s t : Sys) :
    Prop where
  gone : Unwatched pid s t
  acts : Acts h s t
  called : Called new s t

variable {new pre : List (Nat × State × ProcStatus)}

theorem Finished.after (hi : Idle h s u) (hpre : Called pre s u)
    (hf : Finished pid h new u t) : Finished pid h (pre ++ new) s t := by
  have hstopping : u.stopping = s.stopping := hi.acts.field Sys.stopping fun _ => rfl
  have hsent : u.sentinel pid = s.sentinel pid := by
    unfold Sys.sentinel
    rw [hstopping, hi.active]
  refine ⟨⟨hf.gone.desk, ?_, ?_, ?_⟩, IsTrans.trans _ _ _ hi.acts hf.acts, hpre.trans hf.called⟩
  · rw [hf.gone.active, hi.active]
  · rw [hf.gone.buffer, hi.buffer, hsent]
  · rw [hf.gone.added, hi.added, hsent]

/-- The callback about the end of the watching goes through. -/
theorem callState_ends (hs : Desk s) (hl : s.active.lookup pid = some h) (hst : st.terminal = true) :
    ∃ t, callState h st s = .ok () t ∧ Finished pid h [(h, st, (s.procs h).proc)] s t := by
  obtain ⟨hd, hh, hstop⟩ := hs.linked pid h hl
  have hreach : ∃ u, Local h s u ∧ callState h st s = onProcStopped h pid u := by
    set v : Sys := { s with toWorld := s.toWorld.announced h st (s.procs h) } with hv
    have hlv : Local h s v := announce_local (h := h) st s
    have hlw := setHandle_local (s := v) (h := h) hh
      (rfl : Handle.entry { hd with retProc := (s.procs h).proc, retState := st } = hd.entry)
    have hw := IsTrans.trans _ _ _ hlv hlw
    have hcall : callState h st s = handleState h hd st (s.procs h).proc v := by
      unfold callState
      rw [bind_of_ok (get_apply _), bind_of_ok (announce_apply ..)]
      simp only [hh]
      rfl
    rw [hcall]
    unfold handleState
    rw [bind_of_ok (modify_apply ..), if_pos hst]
    generalize ({ v with
      handles := Function.update v.handles h
        (some { hd with retProc := (s.procs h).proc, retState := st }) } : Sys) = w at hw ⊢
    simp only [hstop]
    cases hd.hasOnStop with
    | true =>
      have hstopped := emit_local (h := h) (e := .onStop h st) (fun _ => ⟨rfl, rfl⟩) w
      refine ⟨_, IsTrans.trans _ _ _ hw hstopped, ?_⟩
      rw [if_pos rfl, bind_of_ok (emit_apply ..)]
    | false =>
      refine ⟨_, hw, ?_⟩
      rw [if_neg (by decide)]
  obtain ⟨u, hu, hcall⟩ := hreach
  have hlu : u.active.lookup pid = some h := by
    rw [hu.idle.active]
    exact hl
  obtain ⟨t, ht, hgone⟩ := onProcStopped_ok (hu.desk hs) hlu
  rw [ht] at hcall
  refine ⟨t, hcall, ?_, (callState_acts st).ok hcall,
    Called.of_told ((callState_told st).ok hcall) rfl⟩
  · have hstopping : u.stopping = s.stopping := hu.field Sys.stopping fun _ => rfl
    have hsent : u.sentinel pid = s.sentinel pid := by
      unfold Sys.sentinel
      rw [hstopping, hu.idle.active]
    refine ⟨hgone.desk, ?_, ?_, ?_⟩
    · rw [hgone.active, hu.idle.active]
    · rw [hgone.buffer, hu.idle.buffer, hsent]
    · rw [hgone.added, hu.idle.added, hsent]

/-- All three ends of a watching close the pipes first. -/
theorem closed_ends (hs : Desk s) (hl : s.active.lookup pid = some h) (hst : st.terminal = true) :
    ∃ t, (do closeForkPipes h; callState h st : Prog Unit) s = .ok () t ∧
      Finished pid h [(h, st, (s.procs h).proc)] s t := by
  have hi := closeForkPipes_idle s h
  obtain ⟨t, ht, hf⟩ := callState_ends (hi.desk hs) (hi.active ▸ hl) hst
  have hproc : ((Function.update s.procs h (s.procs h).pipesClosed) h).proc = (s.procs h).proc := by
    rw [Function.update_self, pipesClosed_proc]
  rw [hproc] at hf
  refine ⟨t, ?_, hf.after hi ((closeForkPipes_hushed (h := h)).ok rfl).uncalled⟩
  unfold closeForkPipes
  rw [bind_of_ok (modify_apply ..)]
  exact ht

theorem failStopped_ends (hs : Desk s) (hl : s.active.lookup pid = some h) :
    ∃ t, failStopped h s = .ok () t ∧
      Finished pid h [(h, .failStopped, (s.procs h).proc)] s t :=
  closed_ends hs hl rfl

theorem userStopped_ends (hs : Desk s) (hl : s.active.lookup pid = some h) :
    ∃ t, userStopped h s = .ok () t ∧
      Finished pid h [(h, .userStopped, { (s.procs h).proc with userStopFd := -1 })] s t := by
  have hset := (modifyProc_local (h := h) (f := fun p => { p with
    userStopped := true, proc := { p.proc with userStopFd := -1 } }) fun _ => rfl).ok
    (modifyProc_apply h _ s)
  obtain ⟨t, ht, hf⟩ := closed_ends (hset.desk hs) (hset.idle.active ▸ hl)
    (rfl : State.terminal .userStopped = true)
  simp only [Function.update_self] at hf
  refine ⟨t, ?_, hf.after hset.idle (Uncalled.same rfl)⟩
  unfold userStopped
  rw [bind_of_ok (modifyProc_apply ..)]
  exact ht

/-- The last read of an output pipe comes back: the process holds a write end of it itself. -/
theorem readStdRest_ok (slot : Slot) {cb : List UInt8 → Event} (e : Error) (fuel : Nat) (hs : s.Owns) :
    ∃ t, readStdRest (s.array slot).rd h cb e (fuel + 1) s = .ok () t := by
  have ha := World.read_answer s.toWorld (s.array slot).rd (bufferSize - 1)
  have hr := Owned.reads hs ha
  unfold readStdRest
  rw [bind_of_ok (call_apply ..)]
  generalize s.toWorld.read (s.array slot).rd (bufferSize - 1) = r at hr ⊢
  obtain ⟨a, w⟩ := r
  dsimp only at hr
  cases hr with
  | failed e' rf =>
    dsimp only
    split
    next => exact ⟨_, rfl⟩
    next => exact ⟨_, rfl⟩
  | @data pipe rf hp hu =>
    have hpos := World.readLength_pos (w := s.toWorld) (show 0 < bufferSize - 1 by decide) hu
    have hlen := List.length_pos_iff.mpr hu
    cases hd : (s.pipes pipe).unread.take (s.readLength pipe (bufferSize - 1)) with
    | nil =>
      have := congrArg List.length hd
      rw [List.length_take, List.length_nil] at this
      omega
    | cons b bs => exact ⟨_, rfl⟩

theorem loopRestIo_ok (hs : s.Owns) : ∃ t, loopRestIo h s = .ok () t ∧ Local h s t ∧ Uncalled s t := by
  obtain ⟨t, ht⟩ := readStdRest_ok (h := h) (.stdout h)
    .stdoutPipeReadRestError s.readFaults.length hs
  have hl : Local h s t := by
    have := readStdRest_local (h := h) .stdout .stdoutPipeReadRestError (s.readFaults.length + 1) s
      (s.array (.stdout h)).rd rfl
    rwa [ht] at this
  obtain ⟨u, hu⟩ := readStdRest_ok (h := h) (.stderr h)
    .stderrPipeReadRestError t.readFaults.length (hl.carries hs).1
  have hrun : loopRestIo h s = .ok () u := by
    unfold loopRestIo
    exact (bind_of_ok (get_apply _)).trans ((bind_of_ok ht).trans ((bind_of_ok (get_apply _)).trans hu))
  exact ⟨u, hrun, loopRestIo_local.ok hrun, loopRestIo_uncalled.ok hrun⟩

theorem stopped_ends (hs : Desk s) (ho : s.Owns) (hl : s.active.lookup pid = some h) :
    ∃ t, stopped h s = .ok () t ∧ Finished pid h [(h, .stopped, (s.procs h).proc)] s t := by
  obtain ⟨u, hu, hlu, hq⟩ := loopRestIo_ok (h := h) ho
  obtain ⟨t, ht, hf⟩ := closed_ends (hlu.desk hs) (hlu.idle.active ▸ hl)
    (rfl : State.terminal .stopped = true)
  rw [loopRestIo_sameProcs.ok hu h] at hf
  refine ⟨t, ?_, hf.after hlu.idle hq⟩
  unfold stopped
  rw [bind_of_ok hu]
  exact ht

/-- A callback that does not end the watching changes the handle alone. -/
theorem callState_handles (hst : st.terminal = false) (s : Sys) :
    ∃ handles, callState h st s = .ok () { s with
      toWorld := s.toWorld.announced h st (s.procs h), handles } := by
  unfold callState
  rw [bind_of_ok (get_apply _), bind_of_ok (announce_apply ..)]
  cases hh : s.handles h with
  | none => exact ⟨s.handles, rfl⟩
  | some hd =>
    refine ⟨Function.update s.handles h
      (some { hd with retProc := (s.procs h).proc, retState := st }), ?_⟩
    dsimp only
    unfold handleState
    rw [bind_of_ok (modify_apply ..), if_neg (by rw [hst]; decide)]
    rfl

theorem handleProcReturnCode_ok (s : Sys) : ∃ state_ launch vigil, handleProcReturnCode h s = .ok () { s with
      trace := s.trace ++ launch
      vigil
      procs := Function.update s.procs h { s.procs h with state_ } } ∧
    ∀ e ∈ launch, ∃ err, e = .error h err := by
  unfold handleProcReturnCode
  rw [bind_of_ok (get_apply _)]
  cases launchError (s.procs h).proc.returnCode with
  | none =>
    refine ⟨(s.procs h).state_, [], s.vigil, ?_, fun _ hm => absurd hm List.not_mem_nil⟩
    simp
  | some e => exact ⟨e, [.error h e], s.vigil.note s.fds, rfl, fun _ hm => ⟨e, List.mem_singleton.mp hm⟩⟩

/-- A status is told that says that the process has ended; what is left to be done is `stopped`. -/
structure Reported (h : Nat) (status : WaitStatus) (s u : Sys) : Prop where
  inside : Local h s u
  called : Called [(h, .signaled, (s.procs h).proc.updateStatus status)] s u
  proc : (u.procs h).proc = { (s.procs h).proc.updateStatus status with stdinFd := -1 }
  notes : Notes s u
  pipes : u.pipes = s.pipes
  reads : u.readFaults = s.readFaults
  trace : ∃ stdin userStop launch, u.trace = s.trace ++
      [.handed h stdin userStop, .state h .signaled ((s.procs h).proc.updateStatus status)] ++ launch ∧
    ∀ e ∈ launch, ∃ err, e = .error h err

theorem updateStatus_reports (htype : (s.procs h).type = .nonblocking) {status : WaitStatus}
    (hterm : Terminated status) : ∃ u, updateStatus h status s = stopped h u ∧ Reported h status s u := by
  -- `proc_` takes the status
  have hset := (modifyProc_local (h := h) (f := fun p => { p with
    status, proc := p.proc.updateStatus status }) fun _ => rfl).ok (modifyProc_apply h _ s)
  set s₁ : Sys := { s with
    procs := Function.update s.procs h
      { s.procs h with status, proc := (s.procs h).proc.updateStatus status } } with hs₁
  have hproc₁ : (s₁.procs h).proc = (s.procs h).proc.updateStatus status := by simp [hs₁]
  -- SIGNALED
  obtain ⟨handles, hcall⟩ := callState_handles (h := h) (rfl : State.terminal .signaled = false) s₁
  have hlcall := (callState_local (h := h) rfl).ok hcall
  set s₂ : Sys := { s₁ with
    toWorld := s₁.toWorld.announced h .signaled (s₁.procs h), handles } with hs₂
  have hcalls₂ : Called [(h, .signaled, (s.procs h).proc.updateStatus status)] s s₂ := by
    rw [← hproc₁]
    have := Called.of_told ((callState_told (h := h) .signaled).ok hcall) rfl
    have hsame : Uncalled s s₁ := Uncalled.same rfl
    exact hsame.trans this
  -- the process is not running any more
  have hset₃ := (modifyProc_local (h := h) (f := fun p => { p with
    proc := { p.proc with stdinFd := -1 }, procKilled := true }) fun _ => rfl).ok
    (modifyProc_apply h _ s₂)
  set s₃ : Sys := { s₂ with
    procs := Function.update s₂.procs h { s₂.procs h with
      proc := { (s₂.procs h).proc with stdinFd := -1 }, procKilled := true } } with hs₃
  obtain ⟨state_, launch, vigil, hcode, hlaunch⟩ := handleProcReturnCode_ok (h := h) s₃
  have hlcode := handleProcReturnCode_local.ok hcode
  have hqcode := (handleProcReturnCode_hushed.ok hcode).uncalled
  set s₄ : Sys := { s₃ with
    trace := s₃.trace ++ launch
    vigil
    procs := Function.update s₃.procs h { s₃.procs h with state_ } } with hs₄
  have hrunning : (s₂.procs h).proc.running = false := by
    have : (s₂.procs h).proc = (s.procs h).proc.updateStatus status := hproc₁
    rw [this]
    exact (updateStatus_running_iff _ _).mpr hterm
  have htype₄ : (s₄.procs h).type = .nonblocking := by
    simpa [hs₄, hs₃, hs₂, hs₁] using htype
  obtain ⟨stdin, userStop, htold⟩ : ∃ stdin userStop, s₂.trace = s.trace ++
      [.handed h stdin userStop, .state h .signaled ((s.procs h).proc.updateStatus status)] := by
    rw [← hproc₁]
    exact ⟨_, _, List.append_assoc ..⟩
  refine ⟨s₄, ?_, IsTrans.trans _ _ _ hset (IsTrans.trans _ _ _ hlcall (IsTrans.trans _ _ _ hset₃ hlcode)),
    ?_, ?_, ?_, rfl, rfl, stdin, userStop, launch, congrArg (· ++ launch) htold, hlaunch⟩
  · unfold updateStatus
    rw [bind_of_ok (modifyProc_apply ..), bind_of_ok hcall, bind_of_ok (get_apply _),
      if_pos (by rw [hrunning]; rfl), bind_of_ok (modifyProc_apply ..), bind_of_ok hcode,
      bind_of_ok (get_apply _), if_pos htype₄]
  · have hq : Uncalled s₂ s₄ := IsTrans.trans _ s₃ _ (Uncalled.same rfl) hqcode
    exact hcalls₂.trans hq
  · rw [← hproc₁]
    simp [hs₄, hs₃, hs₂]
  · have hsame : Notes s s₁ := .same rfl rfl
    have hcalled := (callState_notes (h := h) (rfl : State.terminal .signaled = false)).ok hcall
    have hsame₃ : Notes s₂ s₃ := .same rfl rfl
    exact IsTrans.trans _ _ _ hsame (IsTrans.trans _ _ _ hcalled
      (IsTrans.trans _ _ _ hsame₃ (handleProcReturnCode_notes.ok hcode)))

/-- The status of a child that has terminated, where its process is still watched. -/
theorem updateStatus_ends (hs : Desk s) (ho : s.Owns) (hl : s.active.lookup pid = some h)
    (htype : (s.procs h).type = .nonblocking) {status : WaitStatus} (hterm : Terminated status) :
    ∃ t, updateStatus h status s = .ok () t ∧ Finished pid h
      [(h, .signaled, (s.procs h).proc.updateStatus status),
        (h, .stopped, { (s.procs h).proc.updateStatus status with stdinFd := -1 })] s t := by
  obtain ⟨u, hu, hr⟩ := updateStatus_reports htype hterm
  obtain ⟨t, ht, hf⟩ := stopped_ends (hr.inside.desk hs) (hr.inside.carries ho).1 (hr.inside.idle.active ▸ hl)
  rw [hr.proc] at hf
  exact ⟨t, hu.trans ht, hf.after hr.inside.idle hr.called⟩

/-- The watch pipe is readable: the watching ends, however the read comes out. -/
theorem readClose_ends (hs : Desk s) (hl : s.active.lookup pid = some h)
    (htype : (s.procs h).type = .nonblocking) :
    ∃ t, readClose h s = .ok .nothing t ∧
      (¬Unreadable (s.procs h).pipeCloseWatch.rd s ∧
        Finished pid h [(h, .userStopped, { (s.procs h).proc with userStopFd := -1 })] s t ∨
      Unreadable (s.procs h).pipeCloseWatch.rd s ∧
        Finished pid h [(h, .failStopped, (s.procs h).proc)] s t) := by
  obtain ⟨u, hu, hread⟩ := readRetry_watch_local (h := h) (s := s) (bufferSize - 1)
  obtain ⟨rf, pipes, hw⟩ := World.readRetry_frame (s.procs h).pipeCloseWatch.rd (bufferSize - 1)
    s.readFaults s.toWorld
  have hu' : u = { s with toWorld := (World.readRetry (s.procs h).pipeCloseWatch.rd
      (bufferSize - 1) s.readFaults s.toWorld).2 } := by
    have := hread.symm.trans (call_apply (fun w => World.readRetry (s.procs h).pipeCloseWatch.rd
      (bufferSize - 1) w.readFaults w) s)
    cases this
    rfl
  have hq : Uncalled s u := Uncalled.same (by rw [hu', hw])
  have hproc : (u.procs h).proc = (s.procs h).proc := by rw [hu']
  unfold readClose
  rw [bind_of_ok (get_apply _), bind_of_ok hread]
  revert hread
  cases (World.readRetry (s.procs h).pipeCloseWatch.rd (bufferSize - 1) s.readFaults s.toWorld).1 with
  | error e =>
    intro hread
    dsimp only
    obtain ⟨v, hv⟩ : ∃ v, processError h .watchPipeReadError u = .ok () v := ⟨_, rfl⟩
    have hlv := IsTrans.trans _ _ _ hu ((processError_local .watchPipeReadError).ok hv)
    have hqv := IsTrans.trans _ _ _ hq ((processError_hushed .watchPipeReadError).ok hv).uncalled
    obtain ⟨t, ht, hf⟩ := failStopped_ends (hlv.desk hs) (hlv.idle.active ▸ hl)
    rw [(processError_sameProcs _).ok hv h, hproc] at hf
    refine ⟨t, ?_, .inr ⟨⟨e, u, hread⟩, hf.after hlv.idle hqv⟩⟩
    rw [bind_of_ok hv, bind_of_ok (get_apply _), if_pos (by rw [hlv.type, htype]), bind_of_ok ht]
    rfl
  | ok data =>
    intro hread
    dsimp only
    obtain ⟨t, ht, hf⟩ := userStopped_ends (hu.desk hs) (hu.idle.active ▸ hl)
    rw [hproc] at hf
    refine ⟨t, ?_, .inl ⟨Unreadable.not_of_ok hread, hf.after hu.idle hq⟩⟩
    rw [bind_of_ok (get_apply _), if_pos (by rw [hu.type, htype]), bind_of_ok ht]
    rfl

/-- An output pipe is readable: its bytes are passed on, or the watching ends. -/
theorem readStd_ends {slot : Slot} {cb : List UInt8 → Event} (hstd : StdSlot h slot cb) (e : Error)
    (hs : Desk s) (hl : s.active.lookup pid = some h) (htype : (s.procs h).type = .nonblocking) :
    ∃ ret t, readStd (s.array slot).rd h cb e s = .ok ret t ∧ ret ≠ .stopLoop ∧
      (¬Unreadable (s.array slot).rd s ∧
        Local h s t ∧ Uncalled s t ∧ t.procs = s.procs ∧ t.handles = s.handles ∨
      Unreadable (s.array slot).rd s ∧
        Finished pid h [(h, .failStopped, (s.procs h).proc)] s t) := by
  have hread : readRetry (s.array slot).rd (bufferSize - 1) s = .ok _ _ := call_apply _ s
  have ha := World.readRetry_answer (s.array slot).rd (bufferSize - 1) s.readFaults s.toWorld
  have hlocal := readPass_local hstd ha
  have htrace : (World.readRetry (s.array slot).rd (bufferSize - 1) s.readFaults s.toWorld).2.trace =
      s.trace := by
    obtain ⟨rf, pipes, hw⟩ := ha.frame
    rw [hw]
  unfold readStd
  rw [bind_of_ok hread]
  generalize World.readRetry (s.array slot).rd (bufferSize - 1) s.readFaults s.toWorld = r
    at hlocal htrace hread ⊢
  obtain ⟨a, w⟩ := r
  match a, hlocal, hread with
  | .error e', hlocal, hread =>
    obtain ⟨v, hv⟩ : ∃ v, processError h e { s with toWorld := w } = .ok () v := ⟨_, rfl⟩
    have hlv := IsTrans.trans _ _ _ hlocal ((processError_local e).ok hv)
    have hqv : Uncalled s v := IsTrans.trans _ { s with toWorld := w } _ (Uncalled.same htrace)
      ((processError_hushed e).ok hv).uncalled
    obtain ⟨t, ht, hf⟩ := failStopped_ends (hlv.desk hs) (hlv.idle.active ▸ hl)
    rw [(processError_sameProcs _).ok hv h] at hf
    refine ⟨.nothing, t, ?_, by decide, .inr ⟨⟨e', _, hread⟩, hf.after hlv.idle hqv⟩⟩
    dsimp only
    rw [bind_of_ok hv, bind_of_ok (get_apply _), if_pos (by rw [hlv.type, htype]), bind_of_ok ht]
    rfl
  | .ok [], hlocal, hread =>
    exact ⟨.skipOtherFd, _, rfl, by decide,
      .inl ⟨Unreadable.not_of_ok hread, hlocal, Uncalled.same htrace, rfl, rfl⟩⟩
  | .ok (b :: bs), hlocal, hread =>
    refine ⟨.nothing, _, rfl, by decide,
      .inl ⟨Unreadable.not_of_ok hread, hlocal, ?_, rfl, rfl⟩⟩
    have hcall : (cb (b :: bs)).call = none ∧ (cb (b :: bs)).killed = none := by
      cases hstd <;> exact ⟨rfl, rfl⟩
    exact IsTrans.trans _ { s with toWorld := w } _ (Uncalled.same htrace)
      ((emit_uncalled hcall.1 hcall.2).ok (emit_apply ..))

end Pexec
