import Pexec.BlockingWatch

namespace Pexec

open Attempts Effect

variable {h : Nat} {line : List Char} {s t c d e : Sys} {q : ProcStatus} {loops : Bool}

/-- The object has been started, and its loop has not been set up. -/
structure Poised (h : Nat) (s : Sys) (q : ProcStatus) (c : Sys) : Prop where
  engaged : Engaged h s false c
  proc : (c.procs h).proc = q
  stdin : q.stdinFd = (c.procs h).pipeStdin.wr
  userStop : q.userStopFd = (c.procs h).pipeCloseWatch.wr
  running : q.running = true
  blocked : c.sigchldBlocked = s.sigchldBlocked
  selects : c.selects = s.selects
  trace : c.trace = s.trace ++ startedEvents h q

theorem Stage.of_slot {slot : Slot} (hmine : Mine h slot) (hne : slot ≠ .ioLoop) :
    ∃ st : Stage, st.slot h = some slot := by
  rcases hmine with hown | rfl | rfl
  · cases slot with
    | stdin x => cases hown; exact ⟨.stdin, rfl⟩
    | stdout x => cases hown; exact ⟨.stdout, rfl⟩
    | stderr x => cases hown; exact ⟨.stderr, rfl⟩
    | watch x => cases hown; exact ⟨.watch, rfl⟩
    | control | sigchld | blocking | loop | ioLoop => cases hown
  · exact ⟨.signal, rfl⟩
  · exact absurd rfl hne

/-- All the stages are done. -/
theorem Preparing.engaged (halone : Standalone h s) (ht : Preparing h s [] t) :
    Engaged h s false t where
  alone := ⟨(ht.field Sys.handles fun _ => rfl) ▸ halone.handles, ht.type.trans halone.type⟩
  owns := ht.owns
  ledger _ := ht.ledger
  held slot hmine hne := by
    obtain ⟨st, hst⟩ := Stage.of_slot hmine hne
    exact (ht.opened st List.not_mem_nil slot hst).1
  loop := iff_of_true (ht.closed .ioLoop (.inr (.inr rfl)) (.inl rfl)) rfl
  saPrev := (ht.handled List.not_mem_nil).2
  disposition := (ht.handled List.not_mem_nil).1
  forks := (ht.forked List.not_mem_nil).1

theorem execStarted_apply (halone : t.handles h = none) : execStarted h t = .ok () { t with
    toWorld := t.toWorld.announced h .started (t.procs h).started
    procs := Function.update t.procs h (t.procs h).started } := by
  unfold execStarted
  rw [bind_of_ok (modifyProc_apply ..)]
  refine (callState_apply _ h .started ?_).trans ?_
  · exact halone
  · simp only [Function.update_self]

theorem execStarted_poised (halone : Standalone h s) (ht : Preparing h s [] t) :
    ∃ c, execStarted h t = .ok () c ∧ Poised h s (t.procs h).started.proc c := by
  have hengaged := ht.engaged halone
  set p := (t.procs h).started with hp
  have hoffer : p.offers t.fds p.proc.stdinFd = true :=
    hengaged.offers (p := p) rfl rfl rfl rfl (.stdin h) rfl
  have hoffer' : p.offers t.fds p.proc.userStopFd = true :=
    hengaged.offers (p := p) rfl rfl rfl rfl (.watch h) rfl
  have hrun := execStarted_apply (h := h) hengaged.alone.handles
  rw [← hp] at hrun
  refine ⟨_, hrun, hengaged.object rfl rfl rfl rfl rfl rfl rfl rfl rfl rfl rfl, ?_, ?_, ?_, rfl, ?_, ?_, ?_⟩
  · simp
  · simp [hp, PexecSingle.started]
  · simp [hp, PexecSingle.started]
  · exact ht.field (fun v => v.sigchldBlocked) fun _ => rfl
  · exact ht.field (fun v => v.selects) fun _ => rfl
  · have htrace : t.trace = s.trace := ht.field (fun v => v.trace) fun _ => rfl
    simp only [World.announced, World.emit, hoffer, hoffer', htrace, List.append_assoc]
    rfl

theorem ioAdd_step (fd : Int) (cb : IoSource) :
    Triple (Underway h s q) (ioAdd fd cb) (fun _ => Underway h s q) (fun _ _ => True) := by
  intro d hd
  unfold ioAdd
  rw [bind_of_ok (show nextOrder d = .ok _ _ from rfl), bind_of_ok (get_apply _)]
  cases he : d.ioLoop.addReadEvent (d.mapOrder.headD []) fd cb with
  | none => trivial
  | some e =>
    exact hd.calm ⟨⟨_, _, _, _, _, _, _, rfl⟩, (addReadEvent_cases he).2.1, [], (List.append_nil _).symm,
      fun _ hx => absurd hx List.not_mem_nil⟩

/-- The object as `loop_io` starts with it. -/
def PexecSingle.unflagged (p : PexecSingle) : PexecSingle :=
  { p with procKilled := false, userStopped := false, status := 0 }

/-- The loop is made, with a pipe of its own. -/
theorem Poised.underway (hc : Poised h s q c) {fds : FdTable} {pipes : Nat → ByteStream UInt8}
    {faults : List (Option Errno)} {mapOrder : List (List Int)} {ioLoop : SelectEvent IoSource}
    (ho : OpenedInto .ioLoop c { c with
      fds, pipes, faults, mapOrder, ioLoop
      procs := Function.update c.procs h (c.procs h).unflagged }) :
    Underway h s q { c with
      fds, pipes, faults, mapOrder, ioLoop
      procs := Function.update c.procs h (c.procs h).unflagged } := by
  have hclosed : (c.array .ioLoop).rd = -1 := hc.engaged.loop.mpr rfl
  refine ⟨⟨⟨hc.engaged.alone.handles, ?_⟩, ho.owns hc.engaged.owns, fun hf => ?_, fun slot hm hne => ?_,
    iff_of_false ho.rd_open (by simp), ?_, hc.engaged.disposition, hc.engaged.forks⟩, ?_, ?_, ?_,
    hc.running, ?_, ?_, hc.blocked, [], ?_, fun _ hx => absurd hx List.not_mem_nil⟩
  · simpa [PexecSingle.unflagged] using hc.engaged.alone.type
  · exact ho.ledger hc.engaged.owns (hc.engaged.ledger hf) (.inr (.inr rfl)) hclosed
  · rw [ho.array_ne hne]
    exact hc.engaged.held slot hm hne
  · simpa [PexecSingle.unflagged] using hc.engaged.saPrev
  · simpa [PexecSingle.unflagged] using hc.proc
  · simpa [PexecSingle.unflagged] using hc.stdin
  · simpa [PexecSingle.unflagged] using hc.userStop
  · simp [PexecSingle.unflagged]
  · simp [PexecSingle.unflagged]
  · rw [List.append_nil]
    exact hc.trace

theorem ioRegister_underway :
    Triple (Poised h s q) (ioRegister h) (fun _ => Underway h s q) (fun _ _ => True) := by
  intro c hc
  unfold ioRegister
  rw [bind_of_ok (modifyProc_apply ..)]
  have hadds : ∀ a b c d, Triple (Underway h s q) (do
      ioAdd a .closeWatch
      ioAdd b .stdout
      ioAdd c .stderr
      ioAdd d .sigchld) (fun _ => Underway h s q) (fun _ _ => True) := fun a b c d =>
    (ioAdd_step a _).bind fun _ => (ioAdd_step b _).bind fun _ => (ioAdd_step c _).bind fun _ =>
      ioAdd_step d _
  refine Triple.bind (P := (· = { c with procs := Function.update c.procs h (c.procs h).unflagged }))
    (Q := fun e d => Underway h s q { d with ioLoop := e }) ?_ (fun e => ?_) _ rfl
  · rintro _ rfl
    rcases newSelectEvent_cases IoSource.interrupt
      { c with procs := Function.update c.procs h (c.procs h).unflagged } with ⟨e, he⟩ | hnew
    · rw [he]
      trivial
    · rw [hnew]
      refine hc.underway ⟨⟨_, _, rfl, ?_⟩, rfl⟩
      funext slot
      cases slot with
      | ioLoop => simp [Sys.array]
      | stdin x | stdout x | stderr x | watch x =>
        by_cases hx : x = h
        · subst x
          simp [Sys.array, PexecSingle.unflagged]
        · simp [Sys.array, hx]
      | control | sigchld | blocking | loop => simp [Sys.array]
  · refine Triple.bind (Q := fun _ => Underway h s q) (Triple.modify fun _ hd => hd) fun _ => ?_
    exact Triple.get_bind fun d hd e he => hadds _ _ _ _ e (he ▸ hd)

theorem Ending.congr (he : Ending h s q d) (hproc : (e.procs h).proc = (d.procs h).proc)
    (hwanted : (e.procs h).userStopped = (d.procs h).userStopped) (htrace : e.trace = d.trace) :
    Ending h s q e := by
  cases he with
  | interrupted p w t i => exact .interrupted (hproc.trans p) (hwanted.trans w) (htrace.trans t) i
  | failed err m p w t i =>
    exact .failed err m (hproc.trans p) (hwanted.trans w) (htrace.trans t) i
  | handled status dead p w t i isWait isLaunch =>
    exact .handled status dead (hproc.trans p) (hwanted.trans w) (htrace.trans t) i isWait isLaunch

/-- The loop is destroyed with its pipe. -/
theorem ioDestroy_over (hd : Over h s q true d) : ∃ e, ioDestroy d = .ok () e ∧ Over h s q false e ∧
    e.procs = d.procs ∧ e.trace = d.trace ∧ e.sigchldBlocked = d.sigchldBlocked := by
  have ho := hd.engaged.owns
  have hrun : ioDestroy d = .ok () { d with
      toWorld := d.toWorld.closePipe d.ioLoop.controlPipe
      ioLoop := {} } := rfl
  refine ⟨_, hrun, ?_⟩
  obtain ⟨fds, hw⟩ := d.toWorld.closePipe_frame d.ioLoop.controlPipe
  have hfds : (d.toWorld.closePipe d.ioLoop.controlPipe).fds = d.fds.closePipe (d.array .ioLoop) :=
    World.closePipe_table ..
  have harray : Sys.array { d with
      toWorld := d.toWorld.closePipe d.ioLoop.controlPipe
      ioLoop := {} } = Function.update d.array .ioLoop {} := by
    funext slot
    rw [hw]
    cases slot <;> simp [Sys.array]
  have hne : ∀ {slot : Slot}, slot ≠ .ioLoop → Sys.array { d with
      toWorld := d.toWorld.closePipe d.ioLoop.controlPipe
      ioLoop := {} } slot = d.array slot := by
    intro slot hslot
    rw [harray, Function.update_of_ne hslot]
  refine ⟨⟨⟨⟨hd.engaged.alone.handles, hd.engaged.alone.type⟩, ?_, fun hf => ?_,
    fun slot hm hslot => ?_, ?_, hd.engaged.saPrev, ?_, ?_⟩, hd.ending.congr rfl rfl ?_⟩, rfl, ?_, ?_⟩
  · unfold Sys.Owns
    rw [harray]
    exact ho.close .ioLoop rfl rfl rfl fun _ hp => by cases hp
  · rw [hfds]
    refine ((hd.engaged.ledger hf).close ho (.inr (.inr rfl)) rfl).congr fun slot _ => ?_
    rw [harray]
    by_cases hslot : slot = .ioLoop
    · subst hslot
      simp
    · simp [hslot]
  · rw [hne hslot]
    exact hd.engaged.held slot hm hslot
  · rw [harray]
    simp
  · rw [hw]
    exact hd.engaged.disposition
  · rw [hw]
    exact hd.engaged.forks
  · rw [hw]
  · rw [hw]
  · rw [hw]

/-- What the resetting `sigaction` does, or the error of one that fails. -/
theorem resetSigchldSignalHandler_cases (d : Sys) :
    (∃ b, resetSigchldSignalHandler h d = .ok b
      { d with faults := d.faults.tail, disposition := (d.procs h).saPrev }) ∨
    ∃ b, resetSigchldSignalHandler h d = .ok b
      (Sys.processed h .sigactionResetError { d with faults := d.faults.tail }) := by
  unfold resetSigchldSignalHandler
  rw [bind_of_ok (get_apply _), bind_of_ok (call_apply ..)]
  cases hf : d.faults.head?.join with
  | some err =>
    right
    rw [World.sigaction_of_fault hf]
    exact ⟨_, bind_of_ok (processError_apply _)⟩
  | none =>
    left
    rw [World.sigaction_of_none hf]
    exact ⟨_, rfl⟩

/-- A chunk, or an error, of the last reads. -/
def Event.IsDrain (h : Nat) : Event → Prop
  | .out owner _ | .err owner _ | .error owner _ => owner = h
  | _ => False

/-- The pipes are drained. -/
structure Draining (h : Nat) (d e : Sys) : Prop where
  frame : ∃ pipes readFaults trace vigil state_, e = { d with
    pipes, readFaults, trace, vigil, procs := Function.update d.procs h { d.procs h with state_ } }
  trace : ∃ drain, e.trace = d.trace ++ drain ∧ ∀ x ∈ drain, x.IsDrain h

instance : IsPreorder Sys (Draining h) where
  refl s := ⟨⟨_, _, _, _, (s.procs h).state_, by rw [Function.update_eq_self]⟩,
    [], (List.append_nil _).symm, fun _ hx => absurd hx List.not_mem_nil⟩
  trans s t u hst htu := by
    obtain ⟨new, htrace, hnew⟩ := hst.trace
    obtain ⟨new', htrace', hnew'⟩ := htu.trace
    obtain ⟨_, _, _, _, _, rfl⟩ := hst.frame
    obtain ⟨pipes, readFaults, trace, vigil, state_, rfl⟩ := htu.frame
    refine ⟨⟨pipes, readFaults, trace, vigil, state_, ?_⟩, new ++ new', ?_, fun x hx => ?_⟩
    · simp only [Function.update_self, Function.update_idem]
    · rw [htrace', htrace, List.append_assoc]
    · exact (List.mem_append.mp hx).elim (hnew x) (hnew' x)

theorem emit_draining {x : Event} (hx : x.IsDrain h) : Moves (Draining h) (emit x) := fun d =>
  ⟨⟨_, _, _, _, (d.procs h).state_, by rw [Function.update_eq_self]; rfl⟩, [x], rfl,
    fun y hy => by rwa [List.mem_singleton.mp hy]⟩

theorem call_draining {α : Type} {f : World → α × World} (hf : ∀ w, ∃ readFaults pipes,
    (f w).2 = { w with readFaults, pipes }) : Moves (Draining h) (call f) := by
  intro d
  obtain ⟨readFaults, pipes, hw⟩ := hf d.toWorld
  rw [call_apply, hw]
  exact ⟨⟨pipes, readFaults, d.trace, d.vigil, (d.procs h).state_, by rw [Function.update_eq_self]⟩,
    [], (List.append_nil _).symm, fun _ hx => absurd hx List.not_mem_nil⟩

theorem processError_draining (err : Error) : Moves (Draining h) (processError h err) := fun d =>
  (processError_apply (h := h) (s := d) err).symm ▸
    ⟨⟨_, _, _, _, _, rfl⟩, [.error h err], rfl, fun y hy => by rw [List.mem_singleton.mp hy]; rfl⟩

theorem readStdRest_draining {cb : List UInt8 → Event} (hcb : ∀ data, (cb data).IsDrain h) (fd : Int)
    (err : Error) (fuel : Nat) : Moves (Draining h) (readStdRest fd h cb err fuel) := by
  induction fuel with
  | zero => exact Moves.throw _
  | succ fuel ih =>
    refine Moves.bind (call_draining fun w => World.read_frame w fd (bufferSize - 1))
      fun answer => ?_
    cases answer with
    | error e' => exact Moves.ite (fun _ => processError_draining err) fun _ => Moves.pure _
    | ok data =>
      cases data with
      | nil => exact ih
      | cons b bs => exact emit_draining (hcb _)

theorem loopRestIo_draining : Moves (Draining h) (loopRestIo h) := by
  refine Moves.bind Moves.get fun s => Moves.bind ?_ fun _ => Moves.bind Moves.get fun s => ?_
  · exact readStdRest_draining (show ∀ data, (Event.out h data).IsDrain h from fun _ => rfl) _ _ _
  · exact readStdRest_draining (show ∀ data, (Event.err h data).IsDrain h from fun _ => rfl) _ _ _

/-- What is left of a run whose loop is gone. -/
structure Winding (h : Nat) (s d : Sys) : Prop where
  alone : Standalone h d
  owns : d.Owns
  ledger : s.FilesKept → Ledger s.fds d.fds d.array (Mine h)
  loop : (d.array .ioLoop).rd = -1
  forks : d.forks = s.forks + 1

theorem Engaged.winding (hd : Engaged h s false d) : Winding h s d :=
  ⟨hd.alone, hd.owns, hd.ledger, hd.loop.mpr rfl, hd.forks⟩

theorem Winding.congr (hd : Winding h s d) (hfds : e.fds = d.fds) (harray : e.array = d.array)
    (htype : (e.procs h).type = (d.procs h).type) (hh : e.handles = d.handles)
    (hforks : e.forks = d.forks) : Winding h s e where
  alone := ⟨hh ▸ hd.alone.handles, htype.trans hd.alone.type⟩
  owns := hd.owns.congr hfds harray
  ledger hf := by
    rw [hfds, harray]
    exact hd.ledger hf
  loop := harray ▸ hd.loop
  forks := hforks.trans hd.forks

theorem Winding.object (hd : Winding h s d) {w : World} {p : PexecSingle} (hfds : w.fds = d.fds)
    (hblock : w.blockingPipe = d.blockingPipe) (hsig : w.sigchldPipe = d.sigchldPipe)
    (hforks : w.forks = d.forks) (hin : p.pipeStdin = (d.procs h).pipeStdin)
    (hout : p.pipeStdout = (d.procs h).pipeStdout) (herr : p.pipeStderr = (d.procs h).pipeStderr)
    (hwatch : p.pipeCloseWatch = (d.procs h).pipeCloseWatch) (htype : p.type = (d.procs h).type) :
    Winding h s { d with toWorld := w, procs := Function.update d.procs h p } := by
  refine hd.congr hfds ?_ (by simpa using htype) rfl hforks
  rw [← Sys.array_congr (s := d) hin hout herr hwatch]
  funext slot
  cases slot <;> first | rfl | exact hblock | exact hsig

theorem Draining.winding (hde : Draining h d e) (hd : Winding h s d) : Winding h s e := by
  obtain ⟨_, _, _, _, _, rfl⟩ := hde.frame
  exact hd.object rfl rfl rfl rfl rfl rfl rfl rfl rfl

/-- The last status, the last state and the last two events of a run that has ended so. -/
def PexecSingle.lastStatus (p : PexecSingle) : ProcStatus :=
  if p.userStopped then { p.proc with userStopFd := -1 } else p.proc

def PexecSingle.lastState (p : PexecSingle) : State :=
  if p.userStopped then .userStopped else .stopped

def PexecSingle.lastEvents (p : PexecSingle) (h : Nat) : List Event :=
  [.handed h (p.lastStatus.stdinFd == -1) (p.lastStatus.userStopFd == -1),
    .state h p.lastState p.lastStatus]

/-- The run has come to its end; `e` is the state in which its loop was left. -/
structure Completed (h : Nat) (s : Sys) (q : ProcStatus) (e t : Sys) : Prop where
  running : q.running = true
  stdin : 0 ≤ q.stdinFd
  userStop : 0 ≤ q.userStopFd
  ending : Ending h s q e
  resting : Resting h t
  neutral : s.FilesKept → Neutral s.fds t.fds
  forks : t.forks = s.forks + 1
  blocked : t.sigchldBlocked = e.sigchldBlocked
  trace : ∃ reset drain, t.trace = e.trace ++ reset ++ drain ++ (e.procs h).lastEvents h ∧
    (reset = [] ∧ t.disposition = s.disposition ∨ reset = [.error h .sigactionResetError]) ∧
    ∀ x ∈ drain, x.IsDrain h

/-- The last callback. -/
theorem Winding.closed (hd : Winding h s d) (st : State) : Resting h (d.closedCall h st) ∧
    (s.FilesKept → Neutral s.fds (d.closedCall h st).fds) ∧
    (d.closedCall h st).forks = s.forks + 1 ∧ (d.closedCall h st).trace = d.trace ++
      [.handed h ((d.procs h).proc.stdinFd == -1) ((d.procs h).proc.userStopFd == -1),
        .state h st (d.procs h).proc] := by
  have hrest := Sys.closedCall_resting hd.alone hd.owns hd.loop st
  refine ⟨hrest, fun hf => hrest.neutral (Ledger.closeForkPipes hd.owns (hd.ledger hf) st), ?_,
    Sys.closedCall_trace hd.alone hd.owns hd.loop st⟩
  exact (Sys.closedCall_field (fun v => v.forks) (fun _ _ _ _ _ _ => rfl) d st).trans hd.forks

/-- The end of `exec`, after the loop and the reset. -/
def execEnd (h : Nat) : Prog Unit := do
  if ((← get).procs h).userStopped then userStopped h else stopped h

theorem userStopped_apply (halone : d.handles h = none) : userStopped h d = .ok () (Sys.closedCall h
    .userStopped { d with procs := Function.update d.procs h { d.procs h with
      userStopped := true
      proc := { (d.procs h).proc with userStopFd := -1 } } }) := by
  unfold userStopped
  rw [bind_of_ok (modifyProc_apply ..)]
  exact closedCall_apply (s := { d with procs := Function.update d.procs h { d.procs h with
    userStopped := true
    proc := { (d.procs h).proc with userStopFd := -1 } } }) halone .userStopped

theorem Winding.ends (hd : Winding h s d) (hproc : (d.procs h).proc = q) (st : State) :
    Resting h (d.closedCall h st) ∧
    (s.FilesKept → Neutral s.fds (d.closedCall h st).fds) ∧ (d.closedCall h st).forks = s.forks + 1 ∧
    (d.closedCall h st).sigchldBlocked = d.sigchldBlocked ∧
    (d.closedCall h st).disposition = d.disposition ∧
    (d.closedCall h st).trace = d.trace ++
      [.handed h (q.stdinFd == -1) (q.userStopFd == -1), .state h st q] := by
  obtain ⟨hrest, hneutral, hforks, htrace⟩ := hd.closed st
  refine ⟨hrest, hneutral, hforks, ?_, ?_, hproc ▸ htrace⟩
  · exact Sys.closedCall_field (fun v => v.sigchldBlocked) (fun _ _ _ _ _ _ => rfl) d st
  · exact Sys.closedCall_field (fun v => v.disposition) (fun _ _ _ _ _ _ => rfl) d st

theorem execEnd_winding (hd : Winding h s d) (ht : execEnd h d = .ok () t) : Resting h t ∧
    (s.FilesKept → Neutral s.fds t.fds) ∧ t.forks = s.forks + 1 ∧
    t.sigchldBlocked = d.sigchldBlocked ∧ t.disposition = d.disposition ∧
    ∃ drain, t.trace = d.trace ++ drain ++ (d.procs h).lastEvents h ∧ ∀ x ∈ drain, x.IsDrain h := by
  unfold execEnd at ht
  rw [bind_of_ok (get_apply _)] at ht
  cases hu : (d.procs h).userStopped with
  | true =>
    rw [if_pos hu, userStopped_apply hd.alone.handles] at ht
    cases ht
    have hd' : Winding h s { d with procs := Function.update d.procs h { d.procs h with
        userStopped := true
        proc := { (d.procs h).proc with userStopFd := -1 } } } :=
      hd.object rfl rfl rfl rfl rfl rfl rfl rfl rfl
    obtain ⟨hrest, hneutral, hforks, hblocked, hdisp, htrace⟩ :=
      hd'.ends (q := (d.procs h).lastStatus) (by simp [PexecSingle.lastStatus, hu]) .userStopped
    refine ⟨hrest, hneutral, hforks, hblocked, hdisp, [], ?_, fun _ hx => absurd hx List.not_mem_nil⟩
    rw [htrace, List.append_nil, PexecSingle.lastEvents, PexecSingle.lastState, if_pos hu]
  | false =>
    rw [if_neg (by rw [hu]; exact Bool.false_ne_true)] at ht
    obtain ⟨⟨⟩, e, he, ht⟩ := bind_eq_ok.mp ht
    have hdrain := loopRestIo_draining.ok he
    have hd' := hdrain.winding hd
    cases (closedCall_apply hd'.alone.handles .stopped).symm.trans ht
    obtain ⟨drain, hdraintrace, hisdrain⟩ := hdrain.trace
    have hproc : (e.procs h).proc = (d.procs h).lastStatus ∧ e.sigchldBlocked = d.sigchldBlocked ∧
        e.disposition = d.disposition := by
      obtain ⟨_, _, _, _, _, rfl⟩ := hdrain.frame
      simp [PexecSingle.lastStatus, hu]
    obtain ⟨hrest, hneutral, hforks, hblocked, hdisp, htrace⟩ := hd'.ends hproc.1 .stopped
    refine ⟨hrest, hneutral, hforks, hblocked.trans hproc.2.1, hdisp.trans hproc.2.2, drain, ?_,
      hisdrain⟩
    rw [htrace, hdraintrace, PexecSingle.lastEvents, PexecSingle.lastState,
      if_neg (by rw [hu]; exact Bool.false_ne_true)]

/-- After the loop: the reset, and the last callback. -/
theorem Over.completed (hd : Over h s q false d) (hrunning : q.running = true)
    (hstdin : 0 ≤ q.stdinFd) (huserStop : 0 ≤ q.userStopFd)
    (ht : (do let _ ← resetSigchldSignalHandler h; execEnd h : Prog Unit) d = .ok () t) :
    Completed h s q d t := by
  rcases resetSigchldSignalHandler_cases (h := h) d with ⟨b, hb⟩ | ⟨b, hb⟩
  · rw [bind_of_ok hb] at ht
    have hw : Winding h s { d with faults := d.faults.tail, disposition := (d.procs h).saPrev } :=
      hd.engaged.winding.congr rfl rfl rfl rfl rfl
    obtain ⟨hrest, hneutral, hforks, hblocked, hdisp, drain, htrace, hdrain⟩ := execEnd_winding hw ht
    refine ⟨hrunning, hstdin, huserStop, hd.ending, hrest, hneutral, hforks, hblocked,
      [], drain, ?_, .inl ⟨rfl, hdisp.trans hd.engaged.saPrev⟩, hdrain⟩
    rw [List.append_nil]
    exact htrace
  · rw [bind_of_ok hb] at ht
    have hw : Winding h s
        (Sys.processed h .sigactionResetError { d with faults := d.faults.tail }) :=
      hd.engaged.winding.object rfl rfl rfl rfl rfl rfl rfl rfl rfl
    obtain ⟨hrest, hneutral, hforks, hblocked, _, drain, htrace, hdrain⟩ := execEnd_winding hw ht
    refine ⟨hrunning, hstdin, huserStop, hd.ending, hrest, hneutral, hforks, hblocked,
      [.error h .sigactionResetError], drain, ?_, .inr rfl, hdrain⟩
    simpa [Sys.processed, World.emit, PexecSingle.lastEvents, PexecSingle.lastStatus,
      PexecSingle.lastState] using htrace

theorem Stage.run_faults (st : Stage) : (st.run h line s).faults = st.spend s.faults := by
  cases st <;> rfl

/-- The command and the faults decide how far the preparations get. -/
theorem prepares_fst (s : Sys) : (prepares h line Stage.all s).1 = prepareFails line s.faults := by
  refine (attempts_simulates (R := fun _ u faults => u.faults = faults) ?_ ?_ rfl).1
  · rintro st rest u _ rfl
    rfl
  · rintro st rest u _ rfl _
    exact st.run_faults

theorem execPrepare_cases (hs : Resting h s) :
    (∃ st t, prepareFails line s.faults = some st ∧ execPrepare h line s = .ok false t ∧
      Abandoned h s st t) ∨
    ∃ t, prepareFails line s.faults = none ∧ execPrepare h line s = .ok true t ∧
      Preparing h s [] t := by
  have henacts : execPrepare h line s = .ok (prepares h line Stage.all s).1.isNone
    (prepares h line Stage.all s).2 := execPrepare_enacts hs.alone
  have hrule : ((prepares h line Stage.all s).1 = none →
      Preparing h s [] (prepares h line Stage.all s).2) ∧ ∀ st,
      (prepares h line Stage.all s).1 = some st → Abandoned h s st (prepares h line Stage.all s).2 :=
    attempts_rule (I := Preparing h s) (F := Abandoned h s)
    (fun _ _ _ hu hf => hu.run hf) (fun _ _ _ hu _ => hu.undo hs.alone) hs.preparing
  rw [← prepares_fst (h := h)]
  cases hp : (prepares h line Stage.all s).1 with
  | some st =>
    rw [hp] at henacts
    exact .inl ⟨st, _, rfl, henacts, hrule.2 st hp⟩
  | none =>
    rw [hp] at henacts
    exact .inr ⟨_, rfl, henacts, hrule.1 hp⟩

theorem Poised.offered (hc : Poised h s q c) : 0 ≤ q.stdinFd ∧ 0 ≤ q.userStopFd := by
  have hwr : ∀ slot, Mine h slot → slot ≠ .ioLoop → 0 ≤ (c.array slot).wr := by
    intro slot hm hne
    obtain ⟨_, _, _, hw⟩ := (hc.engaged.owns.ends slot).opened (hc.engaged.held slot hm hne)
    exact FdTable.target_nonneg hw
  exact ⟨hc.stdin ▸ hwr (.stdin h) (.inl rfl) (by simp),
    hc.userStop ▸ hwr (.watch h) (.inl rfl) (by simp)⟩

/-- `loop_io` waits with the answers of `select` that were there when `exec` was called. -/
theorem ioRegister_selects (answers : List SelectAnswer) :
    Triple (fun c => c.selects = answers) (ioRegister h) (fun _ d => d.selects = answers)
      (fun _ _ => True) := by
  have hadd : ∀ fd cb, Triple (fun c : Sys => c.selects = answers) (ioAdd fd cb)
      (fun _ d => d.selects = answers) (fun _ _ => True) := by
    intro fd cb d hd
    unfold ioAdd
    rw [bind_of_ok (show nextOrder d = .ok _ _ from rfl), bind_of_ok (get_apply _)]
    cases d.ioLoop.addReadEvent (d.mapOrder.headD []) fd cb with
    | none => trivial
    | some e => exact hd
  unfold ioRegister
  refine Triple.bind (Q := fun _ d => d.selects = answers) (Triple.modify fun _ hd => hd) fun _ => ?_
  refine Triple.bind (Q := fun _ d => d.selects = answers) (fun d hd => ?_) fun e => ?_
  · rcases newSelectEvent_cases IoSource.interrupt d with ⟨e, he⟩ | hnew
    · rw [he]
      trivial
    · rw [hnew]
      exact hd
  · refine Triple.bind (Q := fun _ d => d.selects = answers) (Triple.modify fun _ hd => hd) fun _ => ?_
    refine Triple.get_bind fun d hd e he => ?_
    exact ((hadd _ _).bind fun _ => (hadd _ _).bind fun _ => (hadd _ _).bind fun _ => hadd _ _) e
      (he ▸ hd)

theorem Completed.congr (ht : Completed h s q d t) (hprocs : d.procs = e.procs)
    (htrace : d.trace = e.trace) (hblocked : d.sigchldBlocked = e.sigchldBlocked) :
    Completed h s q e t where
  running := ht.running
  stdin := ht.stdin
  userStop := ht.userStop
  ending := ht.ending.congr (by rw [hprocs]) (by rw [hprocs]) htrace.symm
  resting := ht.resting
  neutral := ht.neutral
  forks := ht.forks
  blocked := ht.blocked.trans hblocked
  trace := by
    rw [← htrace, ← hprocs]
    exact ht.trace

/-- The process has been started, with the status `q` for STARTED; the loop is entered in the
state `d` and left in the state `e`. -/
structure Loops (h : Nat) (line : List Char) (s : Sys) (q : ProcStatus) (d e : Sys) : Prop where
  prepared : ∃ u c, execPrepare h line s = .ok true u ∧ Preparing h s [] u ∧
    q = (u.procs h).started.proc ∧ execStarted h u = .ok () c ∧ ioRegister h c = .ok () d
  underway : Underway h s q d
  answers : d.selects = s.selects
  looped : selectLoop ioRef (ioCallback h) (processError h .selectError) d.selects d = .ok () e

theorem loopIo_over (hc : Poised h s q c) (hd : loopIo h c = .ok () d) : ∃ c₁ c₂,
    ioRegister h c = .ok () c₁ ∧ Underway h s q c₁ ∧ c₁.selects = s.selects ∧
    selectLoop ioRef (ioCallback h) (processError h .selectError) c₁.selects c₁ = .ok () c₂ ∧
    Over h s q false d ∧ d.procs = c₂.procs ∧ d.trace = c₂.trace ∧
    d.sigchldBlocked = c₂.sigchldBlocked := by
  obtain ⟨⟨⟩, c₁, hregister, hd⟩ := bind_eq_ok.mp hd
  rw [bind_of_ok (get_apply _)] at hd
  obtain ⟨⟨⟩, c₂, hloop, hd⟩ := bind_eq_ok.mp hd
  have hanswers : c₁.selects = s.selects := (ioRegister_selects _).ok hc.selects hregister
  have hunder := ioRegister_underway.ok hc hregister
  have hover := (ioLoop_over fun hf => hanswers ▸ hf).ok hunder hloop
  obtain ⟨e, he, hover'⟩ := ioDestroy_over hover
  cases he.symm.trans hd
  exact ⟨c₁, c₂, hregister, hunder, hanswers, hloop, hover'⟩

/-- `exec` gives up before there is a process, or it starts one and watches it. -/
theorem execWatch_cases (hs : Resting h s) :
    (∃ st u, prepareFails line s.faults = some st ∧ execWatch h line s = .ok false u ∧ Abandoned h s st u) ∨
    ∃ u c, prepareFails line s.faults = none ∧ execPrepare h line s = .ok true u ∧ Preparing h s [] u ∧
      execStarted h u = .ok () c ∧ Poised h s (u.procs h).started.proc c ∧
      execWatch h line s = (do
        loopIo h
        let _ ← resetSigchldSignalHandler h
        return true : Prog Bool) c := by
  rcases execPrepare_cases hs with ⟨st, u, hfails, hprep, hu⟩ | ⟨u, hfails, hprep, hu⟩
  · exact .inl ⟨st, u, hfails, (bind_of_ok hprep).trans rfl, hu⟩
  · obtain ⟨c, hc, hpoised⟩ := execStarted_poised hs.alone hu
    refine .inr ⟨u, c, hfails, hprep, hu, hc, hpoised, (bind_of_ok hprep).trans ?_⟩
    simp only [Bool.not_true, Bool.false_eq_true, if_false]
    rw [bind_of_ok hc, bind_of_ok (get_apply _), hpoised.engaged.alone.type]
    rfl

/-- How a blocking `exec` that returns has gone: given up before there was a process, or through
the loop to the last callback. -/
theorem exec_course (hs : Resting h s) (ht : exec h line s = .ok () t) :
    (∃ st, prepareFails line s.faults = some st ∧ Abandoned h s st t) ∨
      ∃ q d e, prepareFails line s.faults = none ∧ Loops h line s q d e ∧ Completed h s q e t := by
  obtain ⟨watched, v, hwatch, ht⟩ := bind_eq_ok.mp ht
  rcases execWatch_cases hs with ⟨st, u, hfails, hrun, hu⟩ | ⟨u, c, hfails, hprep, hu, hc, hpoised, hrun⟩
  · left
    cases hrun.symm.trans hwatch
    cases ht
    exact ⟨st, hfails, hu⟩
  · right
    rw [hrun] at hwatch
    obtain ⟨⟨⟩, d, hloop, hwatch⟩ := bind_eq_ok.mp hwatch
    obtain ⟨b, e, hreset, hwatch⟩ := bind_eq_ok.mp hwatch
    cases hwatch
    obtain ⟨c₁, c₂, hregister, hunder, hanswers, hloops, hover, hprocs, htrace, hblocked⟩ :=
      loopIo_over hpoised hloop
    obtain ⟨hstdin, huserStop⟩ := hpoised.offered
    have hcompleted : Completed h s (u.procs h).started.proc d t := by
      refine hover.completed hpoised.running hstdin huserStop ?_
      rw [bind_of_ok hreset]
      exact ht
    exact ⟨_, c₁, c₂, hfails, ⟨⟨u, c, hprep, hu, rfl, hc, hregister⟩, hunder, hanswers, hloops⟩,
      hcompleted.congr hprocs htrace hblocked⟩

end Pexec
