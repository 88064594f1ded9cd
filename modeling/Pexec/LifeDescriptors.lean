import Pexec.BlockingWatch
import Pexec.Departures
import Pexec.EventRules
import Pexec.HandlerLife
import Pexec.SpawnPipes

namespace Pexec

open Effect Runs

/-- Where the descriptors are: `lost` are the pipes that were overwritten, and `pipe` is the pipe of the
handler for SIGCHLD. -/
structure Stocked (base : FdTable) (lost : List PipeFds) (pipe : Option Nat) (s : Sys) : Prop where
  books : Books base lost s.fds s.array
  lost : ∀ p ∈ lost, p.rd ≠ -1
  shut : ∀ slot, (s.array slot).rd ≠ -1 → slot ∈ [.control, .sigchld, .loop] ∨
    ∃ h pid, slot.owner = some h ∧ s.active.lookup pid = some h
  pipe : s.sigchldPipe.pipe = pipe

/-- Between the parts of a step, the pipe of the handler is open only while it is active. -/
structure Tidy (base : FdTable) (lost : List PipeFds) (pipe : Option Nat) (s : Sys) : Prop
    extends Stocked base lost pipe s where
  signal : s.sigchldPipe.rd ≠ -1 → s.sigchldActive = true

variable {base : FdTable} {lost : List PipeFds} {pipe : Option Nat} {h : Nat} {pid fd : Int} {slot : Slot}
  {s t u : Sys}

/-- A part that opens no pipe; a process that is not active any more has closed its own. -/
theorem Stocked.closes (hs : Stocked base lost pipe s) (hc : Closes s t) (hactive : ∀ h pid, s.active.lookup pid = some h →
    (∃ slot, slot.owner = some h ∧ (t.array slot).rd ≠ -1) → ∃ pid', t.active.lookup pid' = some h) :
    Stocked base lost pipe t := by
  refine ⟨hc.books base lost hs.books, hs.lost, fun slot hopen => ?_, ?_⟩
  · refine (hs.shut slot fun hclosed => hopen (hc.shut slot hclosed)).imp_right fun ⟨h, pid, ho, hl⟩ => ?_
    obtain ⟨pid', hl'⟩ := hactive h pid hl ⟨slot, ho, hopen⟩
    exact ⟨h, pid', ho, hl'⟩
  · rcases hc.signal with ⟨hpipe, _⟩ | hclosed
    · rw [hpipe, hs.pipe]
    · rw [hclosed]
      exact hs.pipe

theorem Tidy.closes (hs : Tidy base lost pipe s) (hc : Closes s t) (hactive : ∀ h pid, s.active.lookup pid = some h →
    (∃ slot, slot.owner = some h ∧ (t.array slot).rd ≠ -1) → ∃ pid', t.active.lookup pid' = some h) :
    Tidy base lost pipe t := by
  refine ⟨hs.toStocked.closes hc hactive, fun hopen => ?_⟩
  rcases hc.signal with ⟨hpipe, hact⟩ | hclosed
  · rw [hact]
    exact hs.signal (hpipe ▸ hopen)
  · exact absurd (hclosed ▸ rfl) hopen

theorem Tidy.quiet (hs : Tidy base lost pipe s) (hc : Closes s t) (ha : t.active = s.active) : Tidy base lost pipe t :=
  hs.closes hc fun _ pid hl _ => ⟨pid, ha ▸ hl⟩

theorem Tidy.same (hs : Tidy base lost pipe s) (hfds : t.fds = s.fds) (harray : t.array = s.array)
    (hactive : t.sigchldActive = s.sigchldActive) (ha : t.active = s.active) : Tidy base lost pipe t :=
  hs.quiet (Closes.same hfds harray hactive) ha

theorem loop_array {loop : Option (SelectEvent LoopSource)} (vigil : Vigil)
    (hl : loop.map SelectEvent.controlPipe = s.loop.map SelectEvent.controlPipe) :
    Sys.array { s with loop, vigil } = s.array := by
  funext slot
  cases slot with
  | loop => exact congrArg (Option.getD · {}) hl
  | stdin | stdout | stderr | watch | control | sigchld | blocking | ioLoop => rfl

theorem write_closes (f : Sys → Int) (data : List UInt8) :
    Moves Closes (modify fun s => { s with toWorld := s.toWorld.write (f s) data } : Prog Unit) := by
  refine Moves.modify fun s => ?_
  obtain ⟨pipes, hw⟩ := s.toWorld.write_frame (f s) data
  rw [hw]
  exact .same rfl rfl rfl

theorem loopAdd_closes (fd : Int) : Moves Closes (loopAdd fd) := by
  intro s
  unfold loopAdd
  rw [bind_of_ok (get_apply _)]
  cases hl : s.loop with
  | none => exact Std.Refl.refl _
  | some e =>
    dsimp only
    rw [bind_of_ok (show nextOrder s = .ok _ _ from call_apply _ _)]
    cases ha : e.addReadEvent (s.mapOrder.headD []) fd .doAction with
    | none => exact .same rfl rfl rfl
    | some e' =>
      refine .same rfl (loop_array (s := { s with mapOrder := s.mapOrder.tail }) _ ?_) rfl
      rw [hl]
      exact congrArg some (addReadEvent_cases ha).2.1

theorem loopRemove_closes (fd : Int) : Moves Closes (loopRemove fd) := by
  intro s
  unfold loopRemove
  rw [bind_of_ok (get_apply _)]
  cases hl : s.loop with
  | none => exact Std.Refl.refl _
  | some e =>
    dsimp only
    cases hr : e.removeReadEvent fd with
    | none => exact Std.Refl.refl _
    | some e' =>
      refine .same rfl (loop_array _ ?_) rfl
      rw [hl]
      exact congrArg some (removeReadEvent_cases hr).2.1

theorem addReadEvent_closes (fd : Int) (cb : Source) : Moves Closes (addReadEvent fd cb) := by
  refine Moves.bind (Moves.modify fun _ => .same rfl rfl rfl) fun _ => Moves.bind Moves.get fun s => ?_
  split
  · exact Moves.pure _
  · exact loopAdd_closes fd
  · exact Moves.modify fun _ => .same rfl rfl rfl

theorem removeReadEvent_closes (fd : Int) : Moves Closes (removeReadEvent fd) := by
  refine Moves.bind (Moves.modify fun _ => .same rfl rfl rfl) fun _ => Moves.bind Moves.get fun s => ?_
  split
  · exact Moves.pure _
  · exact loopRemove_closes fd
  · exact Moves.modify fun _ => .same rfl rfl rfl

theorem sendJob_closes (job : Option Job) : Moves Closes (sendJob job) :=
  have hadd : Moves Closes (bufferAdd job) := fun _ => .same rfl rfl rfl
  Moves.bind hadd fun _ => write_closes (·.controlPipe.wr) [0]

theorem onProcStopped_closes (pid : Int) : Moves Closes (onProcStopped h pid) := by
  have hassert : ∀ c a, Moves Closes (assert c a) := fun c a =>
    Moves.ite (fun _ => Moves.pure _) fun _ => Moves.throw _
  refine Moves.bind Moves.get fun s => Moves.bind (hassert _ _) fun _ => Moves.bind Moves.get fun s => ?_
  split
  · exact Moves.pure _
  · exact Moves.bind (removeReadEvent_closes _) fun _ => Moves.bind (removeReadEvent_closes _) fun _ =>
      Moves.bind (removeReadEvent_closes _) fun _ => Moves.bind (Moves.modify fun _ => .same rfl rfl rfl) fun _ =>
        Moves.bind Moves.get fun s => Moves.ite (fun _ => sendJob_closes none) fun _ => Moves.pure _

theorem multiProcessError_closes (e : Error) : Moves Closes (multiProcessError e) :=
  Moves.bind (Moves.modify fun _ => .same rfl rfl rfl) fun _ => Moves.modify fun _ => .same rfl rfl rfl

theorem readRetry_closes (fd : Int) (count : Nat) : Moves Closes (readRetry fd count) := by
  intro s
  obtain ⟨readFaults, pipes, hw⟩ := World.readRetry_frame fd count s.readFaults s.toWorld
  unfold readRetry
  rw [call_apply, hw]
  exact .same rfl rfl rfl

theorem sigaction_frame_closes (d : Sys → Disposition) (s : Sys) :
    Closes s { s with toWorld := (s.toWorld.sigaction (d s)).2 } := by
  obtain ⟨faults, disposition, hw⟩ := s.toWorld.sigaction_frame (d s)
  rw [hw]
  exact .same rfl rfl rfl

/-- An array is closed, and kept or given up. -/
theorem Closes.closePipe {p q : PipeFds} (hp : s.array slot = p) (hq : q = p.closed ∨ q = {})
    (hfds : t.fds = (s.toWorld.closePipe p).fds) (harray : t.array = Function.update s.array slot q)
    (hsignal : t.sigchldPipe = s.sigchldPipe ∧ t.sigchldActive = s.sigchldActive ∨ t.sigchldPipe = s.sigchldPipe.closed) :
    Closes s t := by
  refine ⟨fun base lost hb => ?_, fun x hc => ?_, hsignal⟩
  · rw [hfds, harray]
    have hclosed := hb.close hp
    rcases hq with rfl | rfl
    · exact hclosed
    · have hend : (Function.update s.array slot p.closed slot).rd = -1 := by rw [Function.update_self]; rfl
      have hforgot := hclosed.forget hend
      rwa [Function.update_idem] at hforgot
  · rw [harray]
    by_cases hx : x = slot
    · rw [hx, Function.update_self]
      rcases hq with rfl | rfl <;> rfl
    · rwa [Function.update_of_ne hx]

theorem closeSignal_closes (active : Bool) (s : Sys) : Closes s { s with
    toWorld := { s.toWorld.closePipe s.sigchldPipe with sigchldPipe := s.sigchldPipe.closed, sigchldActive := active } } := by
  refine Closes.closePipe (show s.array .sigchld = s.sigchldPipe from rfl) (.inl rfl) rfl ?_ (.inr rfl)
  obtain ⟨fds, hw⟩ := s.toWorld.closePipe_frame s.sigchldPipe
  rw [hw]
  funext slot
  cases slot <;> simp [Sys.array]

theorem closedLoop_closes {e : SelectEvent LoopSource} (hl : s.loop = some e) :
    Closes s { s with toWorld := s.toWorld.closePipe e.controlPipe, loop := none } := by
  have hp : s.array .loop = e.controlPipe := by simp [Sys.array, hl]
  obtain ⟨fds, hw⟩ := s.toWorld.closePipe_frame e.controlPipe
  refine Closes.closePipe hp (.inr rfl) rfl ?_ ?_
  · rw [hw]
    funext slot
    cases slot <;> simp [Sys.array]
  · rw [hw]
    exact .inl ⟨rfl, rfl⟩

theorem sigchldResetSignalHandler_closes : Moves Closes sigchldResetSignalHandler := by
  refine Moves.get_bind fun s => ?_
  split
  · exact Std.Refl.refl _
  · have hset := sigaction_frame_closes (·.sigchldSaPrev) s
    rw [bind_of_ok (call_apply ..)]
    generalize s.toWorld.sigaction s.sigchldSaPrev = r at hset ⊢
    obtain ⟨answer, w⟩ := r
    cases answer with
    | none => exact hset
    | some prev => exact IsTrans.trans _ _ _ hset (closeSignal_closes false { s with toWorld := w })

theorem destroySigchldHandler_closes (handler : SigchldHandler) : Moves Closes (destroySigchldHandler handler) :=
  Moves.bind sigchldResetSignalHandler_closes fun _ => Moves.ite (fun _ => Moves.ite
    (fun _ => multiProcessError_closes _) fun _ => Moves.pure _) fun _ => Moves.pure _

theorem runFinish_closes : Moves Closes runFinish := by
  have hset : Moves Closes (modify fun s => { s with sigchld := none, running := false } : Prog Unit) :=
    fun _ => .same rfl rfl rfl
  refine Moves.get_bind fun s => ?_
  cases hl : s.loop with
  | none =>
    refine Moves.bind_from (Closes.same rfl (loop_array s.vigil (by rw [hl])) rfl) fun _ => Moves.get_bind fun u => ?_
    cases u.sigchld with
    | none => exact hset u
    | some handler => exact Moves.bind (destroySigchldHandler_closes handler) (fun _ => hset) u
  | some e =>
    dsimp only
    rw [bind_of_ok (onWorld_apply ..), bind_of_ok (modify_apply ..)]
    refine Outcome.after (closedLoop_closes hl) (Moves.get_bind (fun u => ?_) _)
    cases u.sigchld with
    | none => exact hset u
    | some handler => exact Moves.bind (destroySigchldHandler_closes handler) (fun _ => hset) u

theorem Departs.tidy (hd : Departs h pid s t) (hdesk : Desk s) (hl : s.active.lookup pid = some h)
    (hs : Tidy base lost pipe s) : Tidy base lost pipe t := by
  obtain ⟨u, hsaid, hclosed, ht⟩ := hd
  obtain ⟨t', ht', hgone⟩ := onProcStopped_ok (hsaid.idle.desk hdesk) (hsaid.idle.active ▸ hl)
  cases ht.symm.trans ht'
  have hcloses := (onProcStopped_closes pid).ok ht
  refine hs.closes (IsTrans.trans _ _ _ hsaid.closes hcloses) fun x p hx ⟨slot, ho, hopen⟩ => ⟨p, ?_⟩
  have hne : p ≠ pid := by
    rintro rfl
    cases hl.symm.trans hx
    exact hopen (hcloses.shut slot (hclosed slot ho))
  rw [hgone.active, AList.lookup_erase_ne hne, hsaid.idle.active]
  exact hx

theorem Says.tidy (hsaid : Says h s t) (hs : Tidy base lost pipe s) : Tidy base lost pipe t :=
  hs.quiet hsaid.closes hsaid.idle.active

theorem Drained.tidy (hd : Drained slot s t) (hs : Tidy base lost pipe s) : Tidy base lost pipe t :=
  hs.same (hd.field (·.fds) fun _ _ _ => rfl) (hd.field Sys.array fun _ _ _ => rfl)
    (hd.field (·.sigchldActive) fun _ _ _ => rfl) (hd.field Sys.active fun _ _ _ => rfl)

theorem handleStop_tidy (hon : On s) (hw : s.watching = true) (hs : Tidy base lost pipe s)
    (ht : handleStop s = .ok () t) : Tidy base lost pipe t := by
  obtain ⟨t', ht', hh⟩ := handleStop_ok hon hw
  cases ht.symm.trans ht'
  obtain ⟨registered, loop, mapOrder, trace, vigil, pipes, hframe⟩ := hh.frame
  have hcontrol := hh.control
  rw [hframe] at hcontrol ⊢
  exact hs.same rfl (loop_array vigil hcontrol) rfl rfl

theorem sigchldKeeps_tidy : SigchldKeeps (Tidy base lost pipe) where
  read {s _ _} hs htidy hr := by
    have hd := readSignalFrom_drained (s.readFaults.length + 4) 4 [] s hs.isolated.owns
    rw [hr] at hd
    exact hd.tidy htidy
  mask {s} block _ htidy := by
    obtain ⟨faults, sigchldBlocked, hw⟩ := s.toWorld.sigprocmask_frame block
    rw [hw]
    exact htidy.same rfl rfl rfl rfl
  error _ htidy ht := by
    have haside := (handlerProcessError_aside _).ok ht
    exact htidy.same (haside.field (·.fds) fun _ => rfl) (haside.field Sys.array fun _ => rfl)
      (haside.field (·.sigchldActive) fun _ => rfl) (haside.field Sys.active fun _ => rfl)
  waited _ _ htidy := htidy.same rfl rfl rfl rfl
  signal {s t pid status} hs htidy ht := by
    have hreaped : Tidy base lost pipe (s.reaped pid status) := htidy.same rfl rfl rfl rfl
    unfold onSignal at ht
    rw [bind_of_ok (get_apply _), show (s.reaped pid status).active = s.active from rfl] at ht
    cases ha : s.active.lookup pid with
    | none =>
      rw [ha] at ht
      cases ht
      exact hreaped
    | some h =>
      rw [ha] at ht
      have hdesk : Desk (s.reaped pid status) := reaped_desk hs.on.desk pid status
      exact ((updateStatus_leaves (s := s.reaped pid status) (hs.on.served pid h ha).type status.2 ht).departs hdesk ha).tidy hdesk ha hreaped

/-- The arrays of a new process are filled. -/
theorem jobSpawnProc_fills {hd : Handle} {ret : EventReturn} (hgoing : s.stopping = false)
    (hh : s.handles h = some hd) (hu : Unspawned h s) (ht : jobSpawnProc h s = .ok ret t)
    (hs : Fillable base lost h [.stdin h, .stdout h, .stderr h, .watch h, .blocking] s) :
    Books base lost t.fds t.array ∧ (t.array .blocking).rd = -1 := by
  unfold jobSpawnProc at ht
  rw [bind_of_ok (get_apply _), if_neg (by rw [hgoing]; decide)] at ht
  obtain ⟨_, v, hexec, ht⟩ := bind_eq_ok.mp ht
  rw [bind_of_ok (get_apply _)] at ht
  obtain ⟨_, v', hassert, ht⟩ := bind_eq_ok.mp ht
  have hpos : 0 < handlePid v h := by
    by_contra hneg
    rw [decide_eq_false hneg] at hassert
    cases hassert
  rw [decide_eq_true hpos] at hassert
  cases hassert
  obtain ⟨hbooks, hclosed⟩ := handleExec_fills hh hu hexec (Int.ne_of_gt hpos) hs
  rw [bind_of_ok (modify_apply ..), bind_of_ok (modify_apply ..)] at ht
  have hrest := (Moves.bind Moves.get fun _ => Moves.bind (addReadEvent_closes _ _) fun _ =>
    Moves.bind (addReadEvent_closes _ _) fun _ => Moves.bind (addReadEvent_closes _ _) fun _ => Moves.pure _).ok ht
  exact ⟨hrest.books base lost hbooks, hrest.shut _ hclosed⟩

theorem Slot.not_owned (hslot : slot ∈ [Slot.control, .sigchld, .loop]) : slot.owner = none := by
  simp only [List.mem_cons, List.not_mem_nil, or_false] at hslot
  rcases hslot with rfl | rfl | rfl <;> rfl

theorem Tidy.closed (hs : Tidy base lost pipe s) (hslot : slot ∉ [Slot.control, .sigchld, .loop])
    (hactive : ∀ h pid, slot.owner = some h → s.active.lookup pid ≠ some h) : (s.array slot).rd = -1 := by
  by_contra hopen
  rcases hs.shut slot hopen with hown | ⟨h, pid, ho, hl⟩
  · exact hslot hown
  · exact hactive h pid ho hl

theorem Sys.apart_array (s : Sys) {slot : Slot} (ho : slot.owner ≠ some h) (hb : slot ≠ .blocking) :
    (s.apart h).array slot = s.array slot := by
  cases slot with
  | blocking => exact absurd rfl hb
  | stdin x | stdout x | stderr x | watch x =>
    have hx : x ≠ h := by
      rintro rfl
      exact ho rfl
    simp only [Sys.array, Sys.apart, Sys.beside, Function.update_of_ne hx]
  | loop =>
    cases hl : s.loop <;> simp [Sys.array, Sys.apart, hl]
  | control | sigchld | ioLoop => rfl

theorem jobSpawnProc_tidy {hd : Handle} {ret : EventReturn} (hp : s.procs h = { type := .nonblocking })
    (hh : s.handles h = some hd) (hu : Unspawned h s) (hnew : ∀ p, s.active.lookup p ≠ some h)
    (hgoing : s.stopping = false) (hs : Tidy base lost pipe s) (ht : jobSpawnProc h s = .ok ret t)
    (hen : Enrolled h pid s t) : Tidy base lost pipe t := by
  have hclosed : ∀ slot, slot.owner = some h → (s.array slot).rd = -1 := fun slot ho =>
    hs.closed (fun hslot => by rw [Slot.not_owned hslot] at ho; cases ho) fun x p hx => by
      cases ho.symm.trans hx
      exact hnew p
  have hblocking : (s.array .blocking).rd = -1 := hs.closed (by simp) fun _ _ ho => nomatch ho
  obtain ⟨hbooks, hblocked⟩ := jobSpawnProc_fills hgoing hh hu ht ⟨hs.books, fun slot hslot => by
    simp only [List.mem_cons, List.not_mem_nil, or_false] at hslot
    rcases hslot with rfl | rfl | rfl | rfl | rfl
    · exact hclosed _ rfl
    · exact hclosed _ rfl
    · exact hclosed _ rfl
    · exact hclosed _ rfl
    · exact hblocking, by rw [hp]⟩
  refine ⟨⟨hbooks, hs.lost, fun slot hopen => ?_, ?_⟩, ?_⟩
  · by_cases ho : slot.owner = some h
    · refine .inr ⟨h, pid, ho, ?_⟩
      rw [hen.active, AList.lookup_insert]
    · have hb : slot ≠ .blocking := by
        rintro rfl
        exact hopen hblocked
      rw [← Sys.apart_array t ho hb, hen.apart, Sys.apart_array s ho hb] at hopen
      refine (hs.shut slot hopen).imp_right fun ⟨x, p, hx, hl⟩ => ⟨x, p, hx, ?_⟩
      rw [hen.active, AList.lookup_insert_ne, hl]
      rintro rfl
      exact hen.inactive (AList.lookup_isSome.mp (by rw [hl]; rfl))
  · rw [← hs.pipe]
    exact hen.field (·.sigchldPipe.pipe) fun _ => rfl
  · rw [hen.field (·.sigchldActive) fun _ => rfl, hen.field (·.sigchldPipe) fun _ => rfl]
    exact hs.signal

theorem jobsKeep_tidy : JobsKeep (Tidy base lost pipe) where
  read hs hd := hd.tidy hs
  take _ hs := hs.same rfl rfl rfl rfl
  order _ _ hs := hs.same rfl rfl rfl rfl
  told _ hs htold _ := hs.same (htold.field (·.fds) fun _ _ _ _ => rfl) (htold.field Sys.array fun _ _ _ _ => rfl)
    (htold.field (·.sigchldActive) fun _ _ _ _ => rfl) (htold.field Sys.active fun _ _ _ _ => rfl)
  spawn _ hp hh hu hnew hgoing hs ht hen := jobSpawnProc_tidy hp hh hu hnew hgoing hs ht hen
  stop hon hw hs ht := handleStop_tidy hon hw hs ht

theorem runFinish_tidy (hs : Tidy base lost pipe s) (ht : runFinish s = .ok () t) : Tidy base lost pipe t := by
  obtain ⟨t', ht', hend⟩ := runFinish_ok s
  cases ht.symm.trans ht'
  exact hs.quiet (runFinish_closes.ok ht) (hend.field Sys.active fun _ => rfl)

theorem callbacksKeep_tidy : CallbacksKeep (Tidy base lost pipe) (Tidy base lost pipe) where
  sigchld hs hw htidy ht := sigchldKeeps_tidy.ready_keeps hs htidy ht fun _ hsound hwu htu hstop =>
    handleStop_tidy hsound.on (hwu.trans hw) htu hstop
  control hs hw htidy ht := jobsKeep_tidy.ready_keeps hs hw htidy ht
  close hs hl htidy ht :=
    ((readClose_leaves (hs.on.served _ _ hl).type ht).departs hs.on.desk hl).tidy hs.on.desk hl htidy
  output hs hl hstd htidy ht := by
    rcases readStd_leaves hstd _ (hs.on.served _ _ hl).type ht with ⟨hsaid, _⟩ | hleft
    · exact hsaid.tidy htidy
    · exact (hleft.departs hs.on.desk hl).tidy hs.on.desk hl htidy
  interrupt {s t fd} _ _ htidy ht := by
    obtain ⟨ret, u, hu, ht⟩ := bind_eq_ok.mp ht
    obtain ⟨answer, v, hv, hu⟩ := bind_eq_ok.mp (show loopControl (pure .stopLoop) fd s = _ from hu)
    have hread : Tidy base lost pipe v := htidy.quiet ((readRetry_closes fd 1).ok hv) (by
      have hcall := call_apply (fun w => World.readRetry fd 1 w.readFaults w) s
      cases hv.symm.trans hcall
      rfl)
    cases answer with
    | error e => cases hu
    | ok data =>
      cases hu
      exact runFinish_tidy hread ht

/-- The loop of a run takes the place of one that was left. -/
theorem makeLoop_books (hb : Books base lost s.fds s.array) (ht : makeLoop s = .ok () t) :
    Books base lost t.fds t.array := by
  unfold makeLoop at ht
  rcases newSelectEvent_cases LoopSource.interrupt s with ⟨u, hu⟩ | hnew
  · cases (bind_of_error hu).symm.trans ht
  rw [bind_of_ok hnew, bind_of_ok (get_apply _), bind_of_ok (modify_apply ..)] at ht
  obtain ⟨u, hu⟩ : ∃ u : Sys, u = { s with
      faults := s.faults.tail
      fds := (s.fds.openPipe (s.fdHint s.fds.nextPipe) true).2
      pipes := Function.update s.pipes s.fds.nextPipe {}
      mapOrder := s.mapOrder.tail
      loop := some {
        controlPipe := (s.fds.openPipe (s.fdHint s.fds.nextPipe) true).1
        cbs := [((s.fds.openPipe (s.fdHint s.fds.nextPipe) true).1.rd, LoopSource.interrupt)] }
      registerFn := some .loop } := ⟨_, rfl⟩
  have hopen : OpenedInto .loop s u := by
    subst hu
    refine ⟨⟨_, _, rfl, ?_⟩, rfl⟩
    funext slot
    cases slot <;> simp [Sys.array]
  obtain ⟨hfree, hlost⟩ := hopen.books hb
  dsimp only at ht
  rw [← hu] at ht
  cases hl : s.loop with
  | none =>
    rw [hl] at ht
    cases ht
    exact hfree (by simp [Sys.array, hl])
  | some e =>
    rw [hl] at ht
    have hold : s.array .loop = e.controlPipe := by simp [Sys.array, hl]
    rw [hold] at hlost
    dsimp only at ht
    rw [onWorld_apply] at ht
    cases ht
    obtain ⟨fds, hw⟩ := u.toWorld.closePipe_frame e.controlPipe
    have hclosed := hlost.recover
    rw [hw] at hclosed ⊢
    exact hclosed

theorem makeLoop_tidy (hs : Tidy base lost pipe s) (ht : makeLoop s = .ok () t) : Tidy base lost pipe t := by
  have hbooks := makeLoop_books hs.books ht
  rcases makeLoop_cases s with ⟨u, hu⟩ | ⟨u, hu, hl⟩
  · cases ht.symm.trans hu
  cases ht.symm.trans hu
  obtain ⟨fds, pipes, faults, mapOrder, loop, hframe⟩ := hl.frame
  subst hframe
  refine ⟨⟨hbooks, hs.lost, fun slot hopen => ?_, hs.pipe⟩, hs.signal⟩
  cases slot with
  | control | sigchld | loop => exact .inl (by simp)
  | blocking | ioLoop | stdin | stdout | stderr | watch => exact hs.shut _ hopen

theorem runPrelude_tidy {type : LoopType} (hs : Tidy base lost pipe s) (ht : runPrelude type s = .ok () t) :
    Tidy base lost pipe t := by
  cases type with
  | external =>
    cases ht
    exact hs.same rfl rfl rfl rfl
  | default =>
    have hset : Tidy base lost pipe { s with loopType := .default } := hs.same rfl rfl rfl rfl
    exact makeLoop_tidy hset (show makeLoop { s with loopType := .default } = .ok () t from ht)

/-- The pipe of the handler that is lost where another is put in its place. -/
def Sys.lostSignal (s : Sys) : List PipeFds := if s.sigchldPipe.rd = -1 then [] else [s.sigchldPipe]

theorem Stocked.handler (hs : Stocked base lost pipe s) (hopen : OpenedInto .sigchld s u) (ha : u.active = s.active) :
    Stocked base (lost ++ s.lostSignal) u.sigchldPipe.pipe u := by
  obtain ⟨hfree, hlost⟩ := hopen.books hs.books
  refine ⟨?_, fun p hp => ?_, fun slot ho => ?_, rfl⟩
  · unfold Sys.lostSignal
    split
    next hc =>
      rw [List.append_nil]
      exact hfree hc
    next => exact hlost
  · rcases List.mem_append.mp hp with hp | hp
    · exact hs.lost p hp
    · unfold Sys.lostSignal at hp
      split at hp
      next => cases hp
      next hc => rwa [List.mem_singleton.mp hp]
  · by_cases hsig : slot = .sigchld
    · exact .inl (by simp [hsig])
    · rw [hopen.array_ne hsig] at ho
      rw [ha]
      exact hs.shut slot ho

/-- A new handler has a new pipe, or it is not valid and leaves the one there is. -/
theorem newSigchldHandler_tidy {handler : SigchldHandler} (hs : Tidy base lost pipe s)
    (ht : newSigchldHandler s = .ok handler t) : Tidy base lost pipe t ∨
      ∃ n, pipe ≠ some n ∧ Tidy base (lost ++ s.lostSignal) (some n) t := by
  unfold newSigchldHandler at ht
  obtain ⟨done, v, hv, ht⟩ := bind_eq_ok.mp ht
  have htv : t = v := by
    cases done <;> cases ht <;> rfl
  subst htv
  cases hfault : s.faults.head?.join with
  | some e =>
    unfold sigchldSetSignalHandler at hv
    rw [bind_of_ok (call_apply ..), World.pipe2_of_fault hfault] at hv
    cases hv
    exact .inl (hs.same rfl rfl rfl rfl)
  | none =>
    rw [sigchldSetSignalHandler_piped hfault, bind_of_ok (call_apply ..)] at hv
    obtain ⟨u, hu⟩ : ∃ u : Sys, u = { s with
      faults := s.faults.tail
      fds := (s.fds.openPipe (s.fdHint s.fds.nextPipe) true).2
      pipes := Function.update s.pipes s.fds.nextPipe {}
      sigchldPipe := (s.fds.openPipe (s.fdHint s.fds.nextPipe) true).1 } := ⟨_, rfl⟩
    have hopen : OpenedInto .sigchld s u := by
      subst hu
      refine ⟨⟨_, _, rfl, ?_⟩, rfl⟩
      funext slot
      cases slot <;> simp [Sys.array]
    have hstocked := hs.toStocked.handler hopen (by rw [hu])
    have hpipe : u.sigchldPipe.pipe = some s.fds.nextPipe := by
      rw [hu]
      exact FdTable.openPipe_pipe ..
    rw [hpipe] at hstocked
    refine .inr ⟨s.fds.nextPipe, fun he => ?_, ?_⟩
    · exact Nat.lt_irrefl _ (hs.books.owned.below (.inl .sigchld) _ (hs.pipe.trans he))
    · rw [← hu] at hv
      have hset := hstocked.closes (sigaction_frame_closes (fun _ => .sigchldSignalHandler) u) fun _ p hp _ => ⟨p, hp⟩
      generalize u.toWorld.sigaction .sigchldSignalHandler = r at hset hv
      obtain ⟨answer, w⟩ := r
      cases answer with
      | none =>
        cases hv
        have hclosed := hset.closes (closeSignal_closes (w.closePipe w.sigchldPipe).sigchldActive { u with toWorld := w })
          fun _ p hp _ => ⟨p, hp⟩
        exact ⟨hclosed, fun hne => absurd rfl hne⟩
      | some prev =>
        cases hv
        exact ⟨⟨hset.books, hset.lost, hset.shut, hset.pipe⟩, fun _ => rfl⟩

theorem destroySigchldHandler_tidy {handler : SigchldHandler} (hs : Tidy base lost pipe s)
    (ht : destroySigchldHandler handler s = .ok () t) : Tidy base lost pipe t := by
  obtain ⟨_, t', ht', hr⟩ := destroySigchldHandler_rehandled handler s
  cases ht.symm.trans ht'
  exact hs.quiet ((destroySigchldHandler_closes handler).ok ht) (hr.field Sys.active fun _ => rfl)

theorem replaceSigchld_tidy (hs : Tidy base lost pipe s) (ht : replaceSigchld s = .ok () t) : Tidy base lost pipe t ∨
    ∃ n, pipe ≠ some n ∧ Tidy base (lost ++ s.lostSignal) (some n) t := by
  obtain ⟨handler, u, hu, ht⟩ := bind_eq_ok.mp ht
  rw [bind_of_ok (get_apply _), bind_of_ok (modify_apply ..)] at ht
  have hrest : ∀ {lost pipe}, Tidy base lost pipe u → Tidy base lost pipe t := by
    intro lost pipe hu
    have hset : Tidy base lost pipe { u with sigchld := some handler } := hu.same rfl rfl rfl rfl
    cases hl : u.sigchld with
    | none =>
      rw [hl] at ht
      cases ht
      exact hset
    | some old =>
      rw [hl] at ht
      exact destroySigchldHandler_tidy hset ht
  exact (newSigchldHandler_tidy hs hu).imp hrest fun ⟨n, hn, hn'⟩ => ⟨n, hn, hrest hn'⟩

theorem runHandler_tidy {done : Bool} (hs : Tidy base lost pipe s) (ht : runHandler s = .ok done t)
    (ha : t.active = s.active) :
    Tidy base lost pipe t ∨ ∃ n, pipe ≠ some n ∧ Tidy base (lost ++ s.lostSignal) (some n) t := by
  obtain ⟨_, u, hu, ht⟩ := bind_eq_ok.mp ht
  have hactive : t.active = u.active := by
    obtain ⟨_, u', hu', hr⟩ := replaceSigchld_rehandled s
    cases hu.symm.trans hu'
    exact ha.trans (hr.field Sys.active fun _ => rfl).symm
  rw [bind_of_ok (get_apply _)] at ht
  have hrest : Closes u t := by
    cases hl : u.sigchld with
    | none =>
      rw [hl] at ht
      cases ht
      exact Std.Refl.refl _
    | some handler =>
      rw [hl] at ht
      dsimp only at ht
      split at ht
      next => exact (Moves.bind (multiProcessError_closes _) fun _ => Moves.pure _).ok ht
      next =>
        rw [bind_of_ok (modify_apply ..), bind_of_ok (get_apply _)] at ht
        obtain ⟨_, v, hv, ht⟩ := bind_eq_ok.mp ht
        rw [bind_of_ok (get_apply _)] at ht
        obtain ⟨_, x, hx, ht⟩ := bind_eq_ok.mp ht
        rw [bind_of_ok (modify_apply ..)] at ht
        cases ht
        have hset : Closes u { u with sigchld := some { handler with callbacks := true } } := .same rfl rfl rfl
        have hadded := IsTrans.trans _ _ _ ((addReadEvent_closes _ _).ok hv) ((addReadEvent_closes _ _).ok hx)
        exact IsTrans.trans _ _ _ (IsTrans.trans _ _ _ hset hadded) (.same rfl rfl rfl)
  exact (replaceSigchld_tidy hs hu).imp (·.quiet hrest hactive) fun ⟨n, hn, hn'⟩ => ⟨n, hn, hn'.quiet hrest hactive⟩

theorem startRun_tidy {type : LoopType} (hiso : Isolated s) (hs : Tidy base lost pipe s) (ht : startRun type s = .ok () t)
    (ha : t.active = s.active) :
    Tidy base lost pipe t ∨ ∃ n, pipe ≠ some n ∧ Tidy base (lost ++ s.lostSignal) (some n) t := by
  cases hp : runPrelude type s with
  | error e u => cases (startRun_of_error hp).symm.trans ht
  | ok _ u =>
    rw [startRun_of_prelude hp] at ht
    obtain ⟨done, v, hv, ht⟩ := bind_eq_ok.mp ht
    cases ht
    have hready := runPrelude_readied hp
    have hsignal : u.lostSignal = s.lostSignal := by
      unfold Sys.lostSignal
      rw [show u.sigchldPipe = s.sigchldPipe from congrArg (·.1) hready.handler]
    have hactive : u.active = s.active := by
      rcases runPrelude_cases type hiso with ⟨v, hv⟩ | ⟨v, hv, hr⟩
      · cases hp.symm.trans hv
      · cases hp.symm.trans hv
        have hoff := congrArg Sys.active hr.frame
        exact hoff
    rw [← hsignal]
    exact runHandler_tidy (runPrelude_tidy hs hp) hv (ha.trans hactive.symm)

/-- The step has put a new pipe where one was that is still open. -/
def Overwrites (s t : Sys) : Prop := s.sigchldPipe.rd ≠ -1 ∧ t.sigchldPipe.pipe ≠ s.sigchldPipe.pipe

theorem EnvAct.books (act : EnvAct) (hb : Books base lost s.fds s.array) :
    Books base lost (act.apply s).fds (act.apply s).array := by
  rw [EnvAct.array]
  cases act with
  | openFile fd =>
    simp only [EnvAct.apply]
    split
    next hfd => exact hb.insertFile hfd.1 (by simp [FdTarget.pipe?]) hfd.2
    next => exact hb
  | closeFile fd =>
    simp only [EnvAct.apply]
    split
    next hfd => exact hb.closeFile hfd
    next => exact hb
  | childOut | childErr | userStop | sigchld | exit | setpgid | fork | reap =>
    rw [EnvAct.fds_of_kept rfl]
    exact hb

/-- Every step keeps the books, and only a run can lose a pipe. -/
theorem Tidy.step {l : Label} (hlife : Life s) (hs : Tidy base lost pipe s)
    (hstep : Under PreviousFinished Step s l t) :
    (¬Overwrites s t ∧ ∃ pipe', Tidy base lost pipe' t) ∨
      Overwrites s t ∧ ∃ pipe', Tidy base (lost ++ [s.sigchldPipe]) pipe' t := by
  have hkept : Tidy base lost pipe t → (¬Overwrites s t ∧ ∃ pipe', Tidy base lost pipe' t) ∨
      Overwrites s t ∧ ∃ pipe', Tidy base (lost ++ [s.sigchldPipe]) pipe' t := fun ht =>
    .inl ⟨fun ho => ho.2 (ht.pipe.trans hs.pipe.symm), pipe, ht⟩
  obtain ⟨hp, he, ht⟩ := hstep
  cases l with
  | exec args hasOnStop =>
    obtain ⟨t', ht', hsent⟩ := multiExec_ok hlife.isolated args hasOnStop
    cases (show multiExec args hasOnStop s = .ok () t from ht).symm.trans ht'
    refine hkept (hs.same (hsent.field (·.fds) fun _ _ _ _ => rfl) ?_ (hsent.field (·.sigchldActive) fun _ _ _ _ => rfl)
      (hsent.field Sys.active fun _ _ _ _ => rfl))
    exact (hsent.field Sys.array fun _ _ _ _ => rfl).trans (hlife.isolated.issue_array args hasOnStop)
  | stop flag signum =>
    obtain ⟨t', ht', hsent⟩ := sendJob_ok hlife.isolated.owns (some (.stop flag signum))
    cases (show sendJob (some (.stop flag signum)) s = .ok () t from ht).symm.trans ht'
    exact hkept (hs.same (hsent.field (·.fds) fun _ _ _ _ => rfl) (hsent.field Sys.array fun _ _ _ _ => rfl)
      (hsent.field (·.sigchldActive) fun _ _ _ _ => rfl) (hsent.field Sys.active fun _ _ _ _ => rfl))
  | env act =>
    cases ht
    have hel := envAct_elsewhere act s
    have harray := EnvAct.array act s
    have hactive : (act.apply s).active = s.active := hel.field Sys.active fun _ _ _ _ => rfl
    refine hkept ⟨⟨EnvAct.books act hs.books, hs.lost, ?_, ?_⟩, ?_⟩
    · rw [harray, hactive]
      exact hs.shut
    · rw [← hs.pipe]
      exact hel.field (·.sigchldPipe.pipe) fun _ _ _ _ => rfl
    · rw [hel.field (·.sigchldActive) fun _ _ _ _ => rfl, hel.field (·.sigchldPipe) fun _ _ _ _ => rfl]
      exact hs.signal
  | run type c =>
    have hchosen : Tidy base lost pipe (s.choose c) := hs.same rfl rfl rfl rfl
    have hactive : t.active = s.active := by
      rcases hlife.run_cases (c := c) hp with ⟨e, t', ht', _⟩ | ⟨t', ht', hcases⟩
      · cases ht.symm.trans ht'
      · cases ht.symm.trans ht'
        rcases hcases with hstarted | hrefused
        · exact hstarted.field Sys.active fun _ => rfl
        · exact hrefused.field Sys.active fun _ => rfl
    rcases startRun_tidy (hlife.choose c).isolated hchosen ht hactive with htidy | ⟨n, hn, htidy⟩
    · exact hkept htidy
    · unfold Sys.lostSignal at htidy
      split at htidy
      next hc =>
        rw [List.append_nil] at htidy
        exact .inl ⟨fun ho => ho.1 hc, _, htidy⟩
      next hopen =>
        refine .inr ⟨⟨hopen, fun he => hn ?_⟩, _, htidy⟩
        exact hs.pipe.symm.trans (he.symm.trans htidy.pipe)
  | event fd c =>
    exact hkept (callbacksKeep_tidy.event_keeps hlife he (hs.same rfl rfl rfl rfl) ht)
  | selectError =>
    obtain ⟨_, u, hu, hfin⟩ := bind_eq_ok.mp (show selectFails s = .ok () t from ht)
    cases hu
    exact hkept (runFinish_tidy (s := { s with
      toWorld := s.toWorld.emit (.multiError .selectError)
      err_ := .selectError }) (hs.same rfl rfl rfl rfl) hfin)

end Pexec
