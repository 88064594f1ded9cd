import Pexec.Departures
import Pexec.DispatchOrder
import Pexec.EventRules

namespace Pexec

open Effect Runs

variable {h : Nat} {pid fd : Int} {s t u : Sys} {job : Option Job}

instance : IsPreorder Sys SameJobs where
  refl _ := ⟨rfl, rfl, rfl, rfl, id⟩
  trans _ _ _ hst htu := ⟨htu.buffer.trans hst.buffer, htu.array.trans hst.array,
    htu.announcements.trans hst.announcements, htu.capacity.trans hst.capacity, fun hc => htu.control (hst.control hc)⟩

theorem announcements_eq (s : Sys) : s.announcements = (s.stream .control).unread := by
  unfold Sys.announcements Sys.stream World.stream
  simp only [Sys.array]
  cases s.controlPipe.pipe with
  | none => rfl
  | some pipe => rfl

theorem controlOpen_iff (ho : s.Owns) : ControlOpen s ↔ s.controlPipe.rd ≠ -1 := by
  constructor
  · rintro ⟨pipe, _, hr, _⟩ he
    have := FdTable.target_nonneg hr
    omega
  · exact fun hne => (ho.ends .control).opened hne

/-- Where every array is closed or has a pipe of its own it is enough that the control pipe is left alone. -/
theorem SameJobs.owned (hs : s.Owns) (ht : t.Owns) (hbuffer : t.buffer = s.buffer)
    (harray : t.controlPipe = s.controlPipe) (hstream : t.stream .control = s.stream .control)
    (hcapacity : t.capacity = s.capacity) : SameJobs s t where
  buffer := hbuffer
  array := harray
  announcements := by rw [announcements_eq, announcements_eq, hstream]
  capacity := hcapacity
  control hc := by
    rw [controlOpen_iff ht, harray]
    exact (controlOpen_iff hs).mp hc

/-- What is done to jobs by who dispatches none. -/
def JobLabel.Sending : JobLabel → Prop
  | .add _ | .announce | .other => True
  | .readByte | .remove | .finish => False

/-- Jobs may have been sent, and none has been dispatched. -/
def Sends (s t : Sys) : Prop :=
  ∃ ls, (∀ l ∈ ls, l.Sending) ∧ ∀ n phase, Run JobStep ⟨s, n, phase⟩ ls ⟨t, n, phase⟩

instance : IsPreorder Sys Sends where
  refl _ := ⟨[], fun _ hm => absurd hm List.not_mem_nil, fun _ _ => .nil⟩
  trans _ _ _ hst htu := by
    obtain ⟨ls, hls, hrun⟩ := hst
    obtain ⟨ls', hls', hrun'⟩ := htu
    exact ⟨ls ++ ls', fun l hm => (List.mem_append.mp hm).elim (hls l) (hls' l),
      fun n phase => (hrun n phase).append (hrun' n phase)⟩

theorem SameJobs.sends (hs : SameJobs s t) : Sends s t :=
  ⟨[.other], fun l hm => by rw [List.mem_singleton.mp hm]; trivial, fun _ _ => .snoc .nil (.other hs)⟩

theorem sendJob_sends (job : Option Job) : Moves Sends (sendJob job) := by
  intro s
  refine ⟨[.add job, .announce], fun l hm => ?_, fun n phase => sendJob_run rfl⟩
  rcases List.mem_cons.mp hm with rfl | hm
  · trivial
  · rw [List.mem_singleton.mp hm]
    trivial

theorem removeReadEvent_sameJobs (fd : Int) : Moves SameJobs (removeReadEvent fd) :=
  removeReadEvent_moves (fun _ _ _ _ _ => ⟨rfl, rfl, rfl, rfl, id⟩)
    (fun _ _ => Moves.modify fun _ => ⟨rfl, rfl, rfl, rfl, id⟩) fd

/-- The end of the last process sends the sentinel if the run is to stop. -/
theorem onProcStopped_sends (pid : Int) : Moves Sends (onProcStopped h pid) := by
  have hremove : ∀ fd, Moves Sends (removeReadEvent fd) := fun fd =>
    (removeReadEvent_sameJobs fd).mono fun _ _ => SameJobs.sends
  have herase : Moves Sends (modify fun s => { s with active := s.active.erase pid } : Prog Unit) :=
    Moves.modify fun _ => SameJobs.sends ⟨rfl, rfl, rfl, rfl, id⟩
  have hassert : ∀ c a, Moves Sends (assert c a) := fun c a =>
    Moves.ite (fun _ => Moves.pure _) fun _ => Moves.throw _
  refine Moves.bind Moves.get fun s => Moves.bind (hassert _ _) fun _ => Moves.bind Moves.get fun s => ?_
  split
  · exact Moves.pure _
  · refine Moves.bind (hremove _) fun _ => Moves.bind (hremove _) fun _ => Moves.bind (hremove _) fun _ =>
      Moves.bind herase fun _ => Moves.bind Moves.get fun s => ?_
    exact Moves.ite (fun _ => sendJob_sends none) fun _ => Moves.pure _

theorem Says.sameJobs (hs : Says h s t) (ho : s.Owns) : SameJobs s t :=
  .owned ho (hs.idle.acts.carries ho).1 hs.idle.buffer (hs.idle.acts.field Sys.controlPipe fun _ => rfl)
    (hs.idle.control ho) (hs.idle.acts.field (·.capacity) fun _ => rfl)

theorem Departs.sends (hd : Departs h pid s t) (ho : s.Owns) : Sends s t := by
  obtain ⟨u, hsaid, _, ht⟩ := hd
  exact IsTrans.trans _ _ _ (hsaid.sameJobs ho).sends ((onProcStopped_sends pid).ok ht)

theorem Drained.sameJobs {slot : Slot} (hd : Drained slot s t) (hslot : slot ≠ .control) (ho : s.Owns) :
    SameJobs s t :=
  .owned ho (hd.owns ho) (hd.field Sys.buffer fun _ _ _ => rfl) (hd.field Sys.controlPipe fun _ _ _ => rfl)
    (hd.streams .control hslot.symm) (hd.field (·.capacity) fun _ _ _ => rfl)

theorem Aside.sameJobs (ha : Aside s t) : SameJobs s t where
  buffer := ha.field Sys.buffer fun _ => rfl
  array := ha.field Sys.controlPipe fun _ => rfl
  announcements := ha.field Sys.announcements fun _ => rfl
  capacity := ha.field (·.capacity) fun _ => rfl
  control hc := by rwa [ha.field ControlOpen fun _ => rfl]

theorem Told.sameJobs (ht : Told s t) (ho : s.Owns) : SameJobs s t :=
  .owned ho (ho.congr (ht.field (·.fds) fun _ _ _ _ => rfl) (ht.field Sys.array fun _ _ _ _ => rfl))
    (ht.field Sys.buffer fun _ _ _ _ => rfl) (ht.field Sys.controlPipe fun _ _ _ _ => rfl)
    (ht.streams .control rfl) (ht.field (·.capacity) fun _ _ _ _ => rfl)

theorem loopInterrupt_sameJobs {e : SelectEvent LoopSource} (ho : s.Owns) (hl : s.loop = some e) :
    SameJobs s { s with toWorld := s.toWorld.write e.controlPipe.wr [0] } := by
  have harray := loopInterrupt_array s e
  have hstream := loopInterrupt_stream hl ho (show Slot.control ≠ .loop by simp)
  obtain ⟨pipes, hw⟩ := s.toWorld.write_frame e.controlPipe.wr [0]
  exact .owned ho (ho.congr (by rw [hw]) harray) rfl rfl hstream (by rw [hw])

/-- `handle_stop` interrupts the loop, not `pexec_multi`. -/
theorem handleStop_sameJobs (ho : s.Owns) (ht : handleStop s = .ok () t) : SameJobs s t := by
  have hremove : ∀ {fd : Int} {v w : Sys}, v.Owns → removeReadEvent fd v = .ok () w → SameJobs v w ∧ w.Owns :=
    fun hv hw => ⟨(removeReadEvent_sameJobs _).ok hw, (((removeReadEvent_acts (h := 0) _).ok hw).carries hv).1⟩
  unfold handleStop at ht
  rw [bind_of_ok (get_apply _)] at ht
  obtain ⟨_, u, hu, ht⟩ := bind_eq_ok.mp ht
  rw [bind_of_ok (get_apply _)] at ht
  obtain ⟨_, v, hv, ht⟩ := bind_eq_ok.mp ht
  obtain ⟨hsu, hou⟩ := hremove ho hu
  obtain ⟨huv, hov⟩ := hremove hou hv
  rw [bind_of_ok (modify_apply ..)] at ht
  have hvw : SameJobs v { v with stopFlag := .stopWait, stopSignum := -1, stopping := false, watching := false } :=
    ⟨rfl, rfl, rfl, rfl, id⟩
  have how : Sys.Owns { v with stopFlag := .stopWait, stopSignum := -1, stopping := false, watching := false } :=
    hov.congr rfl rfl
  generalize ({ v with
    stopFlag := .stopWait, stopSignum := -1, stopping := false, watching := false } : Sys) = w at ht hvw how
  refine IsTrans.trans _ _ _ hsu (IsTrans.trans _ _ _ huv (IsTrans.trans _ _ _ hvw ?_))
  rw [bind_of_ok (get_apply _)] at ht
  by_cases hd : w.loopType = .default
  · rw [if_pos hd] at ht
    cases hl : w.loop with
    | none =>
      rw [hl] at ht
      cases ht
    | some e =>
      rw [hl] at ht
      cases ht
      exact loopInterrupt_sameJobs how hl
  · rw [if_neg hd] at ht
    cases ht
    exact ⟨rfl, rfl, rfl, rfl, id⟩

theorem onSignal_sends {status : WaitStatus} (hs : Sound s) (hdead : Terminated status)
    (ht : onSignal pid status (s.reaped pid status) = .ok () t) : Sends s t := by
  have hreaped : Sends s (s.reaped pid status) := SameJobs.sends ⟨rfl, rfl, rfl, rfl, id⟩
  unfold onSignal at ht
  rw [bind_of_ok (get_apply _), show (s.reaped pid status).active = s.active from rfl] at ht
  cases ha : s.active.lookup pid with
  | none =>
    rw [ha] at ht
    cases ht
    exact hreaped
  | some h =>
    rw [ha] at ht
    have hd := (updateStatus_leaves (s := s.reaped pid status) (hs.on.served pid h ha).type hdead ht).departs
      (reaped_desk hs.on.desk pid status) ha
    exact IsTrans.trans _ _ _ hreaped (hd.sends (hs.isolated.owns.congr rfl rfl))

theorem sigchldKeeps_sends (s₀ : Sys) : SigchldKeeps (Sends s₀) where
  read {s _ _} hs hj hr := by
    have hd := readSignalFrom_drained (s.readFaults.length + 4) 4 [] s hs.isolated.owns
    rw [hr] at hd
    exact IsTrans.trans _ _ _ hj (hd.sameJobs (by simp) hs.isolated.owns).sends
  mask {s} block _ hj := by
    obtain ⟨faults, sigchldBlocked, hw⟩ := s.toWorld.sigprocmask_frame block
    refine IsTrans.trans _ _ _ hj (SameJobs.sends ?_)
    rw [hw]
    exact ⟨rfl, rfl, rfl, rfl, id⟩
  error _ hj ht := IsTrans.trans _ _ _ hj ((handlerProcessError_aside _).ok ht).sameJobs.sends
  waited _ _ hj := IsTrans.trans _ _ _ hj (SameJobs.sends ⟨rfl, rfl, rfl, rfl, id⟩)
  signal {_ _ _ status} hs hj ht := IsTrans.trans _ _ _ hj (onSignal_sends hs status.2 ht)

theorem Enrolled.sameJobs (he : Enrolled h pid s t) (hs : s.Owns) (ht : t.Owns) : SameJobs s t :=
  .owned hs ht (he.field Sys.buffer fun _ => rfl) (he.field Sys.controlPipe fun _ => rfl) (he.control hs)
    (he.field (·.capacity) fun _ => rfl)

theorem jobNullptrStop_sameJobs {ret : EventReturn} (hs : On s) (ho : s.Owns)
    (ht : jobNullptrStop s = .ok ret t) : SameJobs s t := by
  rcases jobNullptrStop_cases hs ho with ⟨_, hrun⟩ | ⟨_, _, hrun⟩ | ⟨_, _, u, hrun, htold⟩
  · cases ht.symm.trans hrun
    exact Std.Refl.refl _
  · cases ht.symm.trans hrun
    exact Std.Refl.refl _
  · cases ht.symm.trans hrun
    exact htold.sameJobs ho

/-- A job is taken from the buffer, and what is then done about it sends none. -/
theorem dispatchJob_takes {ret : EventReturn} (hs : Sound s) (ht : dispatchJob s = .ok ret t) :
    ∃ job u, bufferRemove s = .ok job u ∧ SameJobs u t := by
  have hot : t.Owns := (dispatchJob_isolated.ok hs.isolated ht).owns
  obtain ⟨job, u, hu, hdo⟩ := bind_eq_ok.mp ht
  refine ⟨job, u, hu, ?_⟩
  have hou : u.Owns := (bufferRemove_isolated.ok hs.isolated hu).1.owns
  have hiso : Isolated u := (bufferRemove_isolated.ok hs.isolated hu).1
  obtain ⟨hb, hframe⟩ := bufferRemove_cases hu
  have hon : On u := hframe ▸ hs.on.queue ..
  match job, hdo, hb with
  | none, hdo, _ => exact jobNullptrStop_sameJobs hon hou hdo
  | some (.stop flag signum), hdo, _ =>
    have hstop : jobStop flag signum u = .ok ret t := hdo
    unfold jobStop at hstop
    rw [bind_of_ok (get_apply _)] at hstop
    split at hstop
    next =>
      cases hstop
      exact Std.Refl.refl _
    next =>
      have hset : SameJobs u { u with stopFlag := flag, stopSignum := signum } := ⟨rfl, rfl, rfl, rfl, id⟩
      exact IsTrans.trans _ _ _ hset (jobNullptrStop_sameJobs (hon.queue u.buffer flag signum) (hou.congr rfl rfl)
        ((bind_of_ok (modify_apply ..)).symm.trans hstop))
  | some (.spawn h), hdo, hb =>
    have hmem : some (Job.spawn h) ∈ s.buffer := hb ▸ List.mem_cons_self
    obtain ⟨_, hp, args, hasOnStop, hh⟩ := hs.isolated.fresh h hmem
    have hprocs : u.procs = s.procs := by rw [hframe]
    have hhandles : u.handles = s.handles := by rw [hframe]
    have hactive : u.active = s.active := by rw [hframe]
    have hunspawned : Unspawned h u :=
      ⟨⟨_, by rw [hhandles, hh], rfl, rfl⟩, by rw [hprocs, hp], by rw [hprocs, hp]⟩
    have hnew : ∀ p, u.active.lookup p ≠ some h := fun p hl => (hs.isolated.active p h (hactive ▸ hl)).2 hmem
    rcases jobSpawnProc_cases ⟨hiso, hon⟩ (by rw [hprocs, hp]) (by rw [hhandles, hh]) hunspawned hnew with
      ⟨_, ht'⟩ | ⟨_, ht'⟩ | ⟨_, pid, v, ht', hen⟩
    · cases ht'.symm.trans hdo
      exact Std.Refl.refl _
    · cases ht'.symm.trans hdo
    · cases ht'.symm.trans hdo
      exact hen.sameJobs hou hot

/-- The callback for the control pipe: a byte, a job, and what the job asks for. -/
theorem onControlReady_jobs (hs : Sound s) (ht : onControlReady (s.array .control).rd s = .ok () t) (n : Nat) :
    Run JobStep ⟨s, n, .idle⟩ [.readByte, .remove, .other, .finish] ⟨t, n, .idle⟩ := by
  obtain ⟨answer, u, hu, hd⟩ := readRetry_drained .control hs.isolated.owns 1
  have hsound : Sound u := ⟨(readRetry_isolated .control (fun x => ⟨by simp, by simp⟩) (s.array .control).rd 1).ok
    ⟨hs.isolated, rfl⟩ hu, hd.on hs.on⟩
  unfold onControlReady at ht
  rw [bind_of_ok hu] at ht
  cases answer with
  | error e => cases ht
  | ok data =>
    obtain ⟨ret, v, hv, ht⟩ := bind_eq_ok.mp ht
    obtain ⟨job, w, hw, hsame⟩ := dispatchJob_takes hsound hv
    have hvt : SameJobs v t := by
      split at ht
      next => exact handleStop_sameJobs (dispatchJob_isolated.ok hsound.isolated hv).owns ht
      next =>
        cases ht
        exact Std.Refl.refl _
    have hread : JobStep ⟨s, n, .idle⟩ .readByte ⟨u, n, .announced⟩ := .readByte rfl hu
    have hremove : JobStep ⟨u, n, .announced⟩ .remove ⟨w, n, .dispatching⟩ := .remove rfl hw
    have hdo : JobStep ⟨w, n, .dispatching⟩ .other ⟨t, n, .dispatching⟩ := .other (IsTrans.trans _ _ _ hsame hvt)
    have hfinish : JobStep ⟨t, n, .dispatching⟩ .finish ⟨t, n, .idle⟩ := .finish rfl
    exact (((Run.nil.snoc hread).snoc hremove).snoc hdo).snoc hfinish

/-- Pipes are opened and closed, and those that there were are not read or written. -/
structure Plumbed (s t : Sys) : Prop where
  buffer : t.buffer = s.buffer
  array : t.controlPipe = s.controlPipe
  capacity : t.capacity = s.capacity
  next : s.fds.nextPipe ≤ t.fds.nextPipe
  pipes : ∀ pipe < s.fds.nextPipe, t.pipes pipe = s.pipes pipe

instance : IsPreorder Sys Plumbed where
  refl _ := ⟨rfl, rfl, rfl, Nat.le_refl _, fun _ _ => rfl⟩
  trans _ _ _ hst htu := ⟨htu.buffer.trans hst.buffer, htu.array.trans hst.array, htu.capacity.trans hst.capacity,
    Nat.le_trans hst.next htu.next, fun pipe hp =>
      (htu.pipes pipe (Nat.lt_of_lt_of_le hp hst.next)).trans (hst.pipes pipe hp)⟩

theorem Plumbed.same (hb : t.buffer = s.buffer) (ha : t.controlPipe = s.controlPipe) (hc : t.capacity = s.capacity)
    (hn : t.fds.nextPipe = s.fds.nextPipe) (hp : t.pipes = s.pipes) : Plumbed s t :=
  ⟨hb, ha, hc, Nat.le_of_eq hn.symm, fun _ _ => by rw [hp]⟩

theorem Plumbed.sameJobs (hp : Plumbed s t) (hs : s.Owns) (ht : t.Owns) : SameJobs s t := by
  refine .owned hs ht hp.buffer hp.array ?_ hp.capacity
  have harr : t.array .control = s.array .control := hp.array
  unfold Sys.stream
  rw [harr]
  cases hpipe : (s.array .control).pipe with
  | none => simp only [World.stream, hpipe]
  | some pipe =>
    simp only [World.stream_of_pipe hpipe]
    exact hp.pipes pipe (Owned.below hs .control pipe hpipe)

theorem Rehandled.plumbed (hr : Rehandled s t) : Plumbed s t :=
  ⟨hr.field Sys.buffer fun _ => rfl, hr.field Sys.controlPipe fun _ => rfl, hr.field (·.capacity) fun _ => rfl,
    hr.next, hr.pipes⟩

theorem rehandled_plumbed {α : Type} {x : Prog α} (hx : Advances Rehandled x) : Moves Plumbed x :=
  hx.moves.mono fun _ _ => Rehandled.plumbed

theorem closePipe_plumbed (p : PipeFds) : Moves Plumbed (onWorld (World.closePipe · p)) := by
  intro s
  have hn := World.closePipe_nextPipe s.toWorld p
  obtain ⟨fds, hw⟩ := s.toWorld.closePipe_frame p
  rw [onWorld_apply]
  rw [hw] at hn ⊢
  exact .same rfl rfl rfl hn rfl

theorem addReadEvent_plumbed (fd : Int) (cb : Source) : Moves Plumbed (addReadEvent fd cb) :=
  addReadEvent_moves (fun _ _ _ _ _ => .same rfl rfl rfl rfl rfl)
    (fun _ _ => Moves.modify fun _ => .same rfl rfl rfl rfl rfl) fd cb

theorem runFinish_plumbed : Moves Plumbed runFinish := by
  have hnone : Moves Plumbed (modify fun s => { s with loop := none } : Prog Unit) :=
    fun _ => .same rfl rfl rfl rfl rfl
  have hlast : Moves Plumbed (modify fun s => { s with sigchld := none, running := false } : Prog Unit) :=
    fun _ => .same rfl rfl rfl rfl rfl
  have hdestroy := fun handler => rehandled_plumbed (destroySigchldHandler_rehandled handler)
  refine Moves.bind Moves.get fun s => ?_
  split
  · refine Moves.bind (closePipe_plumbed _) fun _ => Moves.bind hnone fun _ => Moves.bind Moves.get fun s => ?_
    split
    · exact Moves.bind (hdestroy _) fun _ => hlast
    · exact hlast
  · refine Moves.bind hnone fun _ => Moves.bind Moves.get fun s => ?_
    split
    · exact Moves.bind (hdestroy _) fun _ => hlast
    · exact hlast

theorem selectFails_plumbed : Moves Plumbed selectFails :=
  Moves.bind (rehandled_plumbed (multiProcessError_rehandled _)) fun _ => runFinish_plumbed

theorem makeLoop_plumbed : Moves Plumbed makeLoop := by
  have hset : ∀ e, Moves Plumbed (modify fun s => { s with loop := some e, registerFn := some .loop } : Prog Unit) :=
    fun _ _ => .same rfl rfl rfl rfl rfl
  have hnew : Moves Plumbed (newSelectEvent LoopSource.interrupt) := by
    refine Moves.bind (rehandled_plumbed (pipe2_rehandled true)) fun p => ?_
    cases p with
    | none => exact Moves.throw _
    | some p =>
      have horder : Moves Plumbed nextOrder := fun _ => .same rfl rfl rfl rfl rfl
      exact Moves.bind horder fun _ => Moves.pure _
  refine Moves.bind hnew fun e => Moves.bind Moves.get fun s => Moves.bind (hset e) fun _ => ?_
  split
  · exact closePipe_plumbed _
  · exact Moves.pure _

theorem runHandler_plumbed : Moves Plumbed runHandler := by
  have hset : ∀ f : Sys → Sys, (∀ s, Plumbed s (f s)) → Moves Plumbed (modify f : Prog Unit) := fun _ => Moves.modify
  refine Moves.bind (rehandled_plumbed replaceSigchld_rehandled) fun _ => Moves.bind Moves.get fun s => ?_
  split
  · refine Moves.ite (fun _ => Moves.bind (rehandled_plumbed (multiProcessError_rehandled _)) fun _ => Moves.pure _)
      fun _ => Moves.bind (hset _ fun _ => .same rfl rfl rfl rfl rfl) fun _ => Moves.bind Moves.get fun _ => ?_
    exact Moves.bind (addReadEvent_plumbed _ _) fun _ => Moves.bind Moves.get fun _ =>
      Moves.bind (addReadEvent_plumbed _ _) fun _ =>
        Moves.bind (hset _ fun _ => .same rfl rfl rfl rfl rfl) fun _ => Moves.pure _
  · exact Moves.pure _

theorem startRun_plumbed (type : LoopType) : Moves Plumbed (startRun type) := by
  have hset : ∀ f : Sys → Sys, (∀ s, Plumbed s (f s)) → Moves Plumbed (modify f : Prog Unit) := fun _ => Moves.modify
  have hsetup : Moves Plumbed runSetup := Moves.bind Moves.get fun s =>
    Moves.ite (fun _ => Moves.bind makeLoop_plumbed fun _ => runHandler_plumbed) fun _ => runHandler_plumbed
  have hlast : Moves Plumbed (do let _ ← runSetup : Prog Unit) := Moves.bind hsetup fun _ => Moves.pure _
  refine Moves.bind (hset _ fun _ => .same rfl rfl rfl rfl rfl) fun _ => Moves.ite (fun _ => ?_) fun _ => hlast
  exact Moves.bind (hset _ fun _ => .same rfl rfl rfl rfl rfl) fun _ => hlast

theorem Elsewhere.sameJobs (he : Elsewhere s t) (hs : s.Owns) (ht : t.Owns) : SameJobs s t :=
  .owned hs ht (he.field Sys.buffer fun _ _ _ _ => rfl) (he.field Sys.controlPipe fun _ _ _ _ => rfl)
    (he.streams hs .control (.inr rfl)) (he.field (·.capacity) fun _ _ _ _ => rfl)

/-- The callbacks but the one for the control pipe. -/
theorem runSource_sends {src : Source} (hs : Sound s) (hsrc : s.registered.lookup fd = some src)
    (hne : src ≠ .control) (ht : runSource fd src s = .ok () t) : Sends s t := by
  obtain ⟨hexp, hkey⟩ := (hs.on.desk.keys fd src).mp hsrc
  have ho := hs.isolated.owns
  have hwatched : ∀ {h pid slot cb err ret u}, s.active.lookup pid = some h → StdSlot h slot cb →
      readStd (s.array slot).rd h cb err s = .ok ret u → Sends s u := by
    intro h pid slot cb err ret u hl hstd hu
    rcases readStd_leaves hstd err (hs.on.served pid h hl).type hu with ⟨hsaid, _⟩ | hleft
    · exact (hsaid.sameJobs ho).sends
    · exact (hleft.departs hs.on.desk hl).sends ho
  cases src with
  | sigchld =>
    have hready : onSigchldReady s = .ok () t := ht
    exact (sigchldKeeps_sends s).ready_keeps hs (Std.Refl.refl s) hready fun u hu _ hj hstop =>
      IsTrans.trans _ _ _ hj (handleStop_sameJobs hu.isolated.owns hstop).sends
  | control => exact absurd rfl hne
  | readClose h =>
    obtain ⟨pid, hl⟩ := hexp
    obtain ⟨ret, u, hu, hlast⟩ := bind_eq_ok.mp (show (readClose h >>= fun _ => pure ()) s = _ from ht)
    cases hlast
    exact ((readClose_leaves (hs.on.served pid h hl).type hu).departs hs.on.desk hl).sends ho
  | readStdout h =>
    obtain ⟨pid, hl⟩ := hexp
    obtain ⟨ret, u, hu, hlast⟩ := bind_eq_ok.mp (show (readStdout h >>= fun _ => pure ()) s = _ from ht)
    cases hlast
    exact hwatched hl .stdout hu
  | readStderr h =>
    obtain ⟨pid, hl⟩ := hexp
    obtain ⟨ret, u, hu, hlast⟩ := bind_eq_ok.mp (show (readStderr h >>= fun _ => pure ()) s = _ from ht)
    cases hlast
    exact hwatched hl .stderr hu

/-- The interrupt of a DEFAULT loop ends the run. -/
theorem interrupted_sameJobs (hs : s.Owns) (ht : t.Owns)
    (hint : (do if (← loopCallback .interrupt (s.array .loop).rd) = .stopLoop then runFinish : Prog Unit) s =
      .ok () t) : SameJobs s t := by
  obtain ⟨answer, u, hu, hd⟩ := readRetry_drained .loop hs 1
  cases answer with
  | error e =>
    have hstop : loopCallback .interrupt (s.array .loop).rd s = .error (.assertion .loopRead) u := bind_of_ok hu
    rw [bind_of_error hstop] at hint
    cases hint
  | ok data =>
    have hstop : loopCallback .interrupt (s.array .loop).rd s = .ok .stopLoop u := bind_of_ok hu
    rw [bind_of_ok hstop, if_pos rfl] at hint
    exact IsTrans.trans _ _ _ (hd.sameJobs (by simp) hs) ((runFinish_plumbed.ok hint).sameJobs (hd.owns hs) ht)

/-- The steps that a step of the life of a `pexec_multi` is: a dispatch for the callback of the control pipe, and
some jobs sent for any other. -/
def Label.Deals (s : Sys) (ls : List JobLabel) : Label → Prop
  | .event fd _ => if s.registered.lookup fd = some .control then ls = [.other, .readByte, .remove, .other, .finish]
    else ∀ l ∈ ls, l.Sending
  | _ => ∀ l ∈ ls, l.Sending

theorem Life.deals {l : Label} (hs : Life s) (hstep : Under PreviousFinished Step s l t) :
    ∃ ls, l.Deals s ls ∧ ∀ n, Run JobStep ⟨s, n, .idle⟩ ls ⟨t, n, .idle⟩ := by
  obtain ⟨_, he, ht⟩ := hstep
  have ho := hs.isolated.owns
  have hot : t.Owns := ((label_isolated l).ok hs.isolated ht).owns
  have hchoose : ∀ c, SameJobs s (s.choose c) := fun _ => ⟨rfl, rfl, rfl, rfl, id⟩
  have hsends : Sends s t → ∃ ls, (∀ l ∈ ls, l.Sending) ∧ ∀ n, Run JobStep ⟨s, n, .idle⟩ ls ⟨t, n, .idle⟩ :=
    fun ⟨ls, hls, hrun⟩ => ⟨ls, hls, fun n => hrun n .idle⟩
  cases l with
  | exec args hasOnStop =>
    have hissue : SameJobs s (s.issue args hasOnStop) := ⟨rfl, rfl, rfl, rfl, id⟩
    exact hsends (IsTrans.trans _ _ _ hissue.sends ((sendJob_sends (some (.spawn s.nextHandle))).ok ht))
  | stop flag signum => exact hsends ((sendJob_sends (some (.stop flag signum))).ok ht)
  | env act =>
    cases ht
    exact hsends ((envAct_elsewhere act s).sameJobs ho hot).sends
  | run type c =>
    have hrun : startRun type (s.choose c) = .ok () t := ht
    exact hsends (IsTrans.trans _ _ _ (hchoose c).sends
      (((startRun_plumbed type).ok hrun).sameJobs (hs.choose c).isolated.owns hot).sends)
  | selectError => exact hsends ((selectFails_plumbed.ok ht).sameJobs ho hot).sends
  | event fd c =>
    obtain ⟨hon, hdue, _⟩ := hs.due he
    have hsound := Sound.choose ⟨hs.isolated, hon⟩ c
    by_cases hcontrol : s.registered.lookup fd = some .control
    · obtain ⟨_, hprog⟩ := hs.event_source he hcontrol
      have hfd : (Sys.array (s.choose c) .control).rd = fd := ((hon.desk.keys fd .control).mp hcontrol).2
      have hcall : onControlReady fd (s.choose c) = .ok () t := hprog.symm.trans ht
      rw [← hfd] at hcall
      have hset : ∀ n, JobStep ⟨s, n, .idle⟩ .other ⟨s.choose c, n, .idle⟩ := fun n => .other (hchoose c)
      exact ⟨_, (if_pos hcontrol).mpr rfl, fun n => (Run.nil.snoc (hset n)).append (onControlReady_jobs hsound hcall n)⟩
    · have hother : Sends (s.choose c) t := by
        rcases dispatch_split hsound hdue with ⟨hreg, _⟩ | ⟨_, hfd, hint⟩
        · obtain ⟨src, hsrc⟩ := Option.isSome_iff_exists.mp (AList.lookup_isSome.mpr hreg)
          obtain ⟨_, hprog⟩ := hs.event_source he hsrc
          exact runSource_sends hsound hsrc (fun hx => hcontrol (hx ▸ hsrc)) (hprog.symm.trans ht)
        · subst hfd
          exact (interrupted_sameJobs hsound.isolated.owns hot (hint.symm.trans ht)).sends
      obtain ⟨ls, hls, hrun⟩ := hsends (IsTrans.trans _ _ _ (hchoose c).sends hother)
      exact ⟨ls, (if_neg hcontrol).mpr hls, hrun⟩

/-- A whole life is a run of the threads of which one calls everything. -/
theorem life_jobs {w : World} {ls : List Label} (hnew : newMulti (boot w) = .ok () s)
    (hrun : Run (Under PreviousFinished Step) s ls t) : ∃ js, Run JobStep { sys := s } js { sys := t } := by
  have hall : Life t ∧ ∃ js, Run JobStep { sys := s } js { sys := t } := by
    refine hrun.invariant (I := fun u => Life u ∧ ∃ js, Run JobStep { sys := s } js { sys := u })
      ⟨newMulti_life hnew, [], .nil⟩ fun a l b ⟨hlife, js, hjs⟩ hstep => ?_
    have hnext := life_step hlife hstep.2.1 hstep.1
    rw [hstep.2.2] at hnext
    obtain ⟨ls', _, hrun'⟩ := hlife.deals hstep
    exact ⟨hnext, js ++ ls', hjs.append (hrun' 0)⟩
  exact hall.2

/-- A byte in the control pipe has its job, in a whole life. -/
theorem life_accounted {w : World} {ls : List Label} (hnew : newMulti (boot w) = .ok () s)
    (hrun : Run (Under PreviousFinished Step) s ls t) : Accounted { sys := t } := by
  obtain ⟨js, hjs⟩ := life_jobs hnew hrun
  exact (jobRun_accounted (newMulti_accounted hnew).1 hjs).1

theorem JobStep.dispatch {d : Dispatcher} {k : Threads} {l : JobLabel} (hstep : JobStep d.threads l k) :
    ∃ e, DispatchStep d l e ∧ e.threads = k := by
  cases l with
  | add job => exact ⟨_, .add hstep, rfl⟩
  | remove =>
    cases hstep with
    | remove hphase hrem => exact ⟨_, .remove hphase hrem, rfl⟩
  | announce | readByte | finish | other => exact ⟨_, .rest nofun nofun hstep, rfl⟩

theorem jobRun_dispatch {d : Dispatcher} {j k : Threads} {js : List JobLabel} (hd : d.threads = j)
    (hrun : Run JobStep j js k) : ∃ e, Run DispatchStep d js e ∧ e.threads = k := by
  induction hrun with
  | nil => exact ⟨d, .nil, hd⟩
  | snoc _ hstep ih =>
    obtain ⟨e, he, rfl⟩ := ih
    obtain ⟨e', hstep', hk⟩ := hstep.dispatch
    exact ⟨e', he.snoc hstep', hk⟩

theorem life_dispatches {w : World} {ls : List Label} (hnew : newMulti (boot w) = .ok () s)
    (hrun : Run (Under PreviousFinished Step) s ls t) :
    ∃ js d, Run DispatchStep { threads := { sys := s } } js d ∧ d.threads = { sys := t } := by
  obtain ⟨js, hjs⟩ := life_jobs hnew hrun
  exact ⟨js, jobRun_dispatch rfl hjs⟩

end Pexec
