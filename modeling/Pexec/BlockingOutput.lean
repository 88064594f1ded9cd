import Pexec.OutputAtStop

namespace Pexec

open Effect Runs

/-- What is read from the output pipes is passed on, and the loop of a blocking run is left alone. -/
structure Piped (s t : Sys) : Prop where
  carries : Carries s t
  ioLoop : t.ioLoop = s.ioLoop

/-- A blocking run in which all that has been read since `c` was passed on. The callback for the
interrupt is the one of the loop's own pipe. -/
structure Piping (c s : Sys) : Prop where
  carries : Carries c s
  interrupt : ∀ fd, (fd, IoSource.interrupt) ∈ s.ioLoop.cbs → fd = s.ioLoop.controlPipe.rd

variable {h : Nat} {line : List Char} {c d s t u : Sys} {q : ProcStatus}

instance : IsPreorder Sys Piped where
  refl s := ⟨Std.Refl.refl s, rfl⟩
  trans _ _ _ hst htu := ⟨IsTrans.trans _ _ _ hst.carries htu.carries, htu.ioLoop.trans hst.ioLoop⟩

theorem Acts.piped (ha : Acts h s t) : Piped s t := ⟨ha.carries, ha.field (·.ioLoop) fun _ => rfl⟩

theorem piped_of_acts {α : Type} {x : Prog α} (hx : Moves (Acts h) x) : Moves Piped x :=
  hx.mono fun _ _ => Acts.piped

theorem Piping.piped (hs : Piping c s) (hst : Piped s t) : Piping c t :=
  ⟨IsTrans.trans _ _ _ hs.carries hst.carries, hst.ioLoop ▸ hs.interrupt⟩

theorem processError_piped (e : Error) : Moves Piped (processError h e) :=
  piped_of_acts (Moves.acts (processError_local (h := h) e))

theorem modifyProc_piped {f : PexecSingle → PexecSingle} (hf : ∀ p, (f p).shell = p.shell) :
    Moves Piped (modifyProc h f) :=
  piped_of_acts (Moves.acts (modifyProc_local (h := h) hf))

theorem ioReadSignal_piped (fuel : Nat) : ∀ want got, Moves Piped (ioReadSignal h fuel want got) := by
  induction fuel with
  | zero => exact fun _ _ => Moves.throw _
  | succ fuel ih =>
    intro want got
    refine Moves.get_bind fun s => Moves.bind_from ?_ fun answer => ?_
    · exact ⟨read_carries .blocking (fun x => ⟨by simp, by simp⟩) (World.read_answer ..), rfl⟩
    · split
      · exact Moves.bind (processError_piped _) fun _ => Moves.pure _
      · exact Moves.ite (fun _ => Moves.pure _) fun _ => ih _ _

theorem sigprocmask_piped (block : Bool) : Moves Piped (call (World.sigprocmask · block)) := by
  intro s
  obtain ⟨faults, sigchldBlocked, hw⟩ := s.toWorld.sigprocmask_frame block
  rw [call_apply, hw]
  exact ⟨Carries.same rfl rfl rfl rfl, rfl⟩

theorem waitpid_piped (pid : Int) : Moves Piped (call (World.waitpid · pid)) := by
  intro s
  have ha := s.toWorld.waitpid_answer pid
  rw [call_apply]
  generalize s.toWorld.waitpid pid = r at ha ⊢
  obtain ⟨result, w⟩ := r
  cases ha <;> exact ⟨Carries.same rfl rfl rfl rfl, rfl⟩

theorem waitpidOnce_piped : Moves Piped (waitpidOnce h) := by
  refine Moves.bind (modifyProc_piped fun _ => rfl) fun _ => Moves.bind Moves.get fun s =>
    Moves.bind (waitpid_piped _) fun result => Moves.bind ?_ fun _ => ?_
  · exact Moves.modify fun _ => ⟨emit_carries fun _ => ⟨rfl, rfl⟩, rfl⟩
  · split
    · exact Moves.bind (modifyProc_piped fun _ => rfl) fun _ => Moves.pure _
    · exact Moves.bind (processError_piped _) fun _ => Moves.pure _

theorem singleHandleSigchld_piped : Moves Piped (singleHandleSigchld h) := by
  have hmask : ∀ (block : Bool) (e : Error), Moves Piped (do
      if !(← call (World.sigprocmask · block)) then processError h e : Prog Unit) := fun block e =>
    Moves.bind (sigprocmask_piped block) fun _ => Moves.ite (fun _ => processError_piped e) fun _ => Moves.pure _
  have hretry : ∀ faults, Moves Piped (waitpidRetry h faults) := by
    intro faults
    induction faults with
    | nil => exact Moves.bind waitpidOnce_piped fun _ => Moves.pure _
    | cons fault faults ih =>
      exact Moves.bind waitpidOnce_piped fun _ => Moves.ite (fun _ => ih) fun _ => Moves.pure _
  exact Moves.bind (hmask true _) fun _ => Moves.bind Moves.get fun s => Moves.bind (hretry _) fun _ =>
    Moves.bind (hmask false _) fun _ => Moves.bind Moves.get fun s => piped_of_acts (updateStatus_acts _)

theorem ioSigchld_piped : Moves Piped (ioSigchld h) := by
  refine Moves.bind (ioReadSignal_piped _ _ _) fun signal => ?_
  split
  · exact Moves.pure _
  · exact Moves.ite (fun _ => Moves.bind singleHandleSigchld_piped fun _ => Moves.bind Moves.get fun _ => Moves.pure _)
      fun _ => Moves.bind Moves.get fun _ => Moves.pure _

theorem ioCloseWatch_piped : Moves Piped (ioCloseWatch h) := by
  refine Moves.bind (piped_of_acts readClose_acts) fun ret => Moves.ite (fun _ => ?_) fun _ => Moves.pure _
  exact Moves.bind Moves.get fun s => Moves.bind (Moves.modify fun s => ⟨write_carries s _ _, rfl⟩) fun _ =>
    Moves.pure _

/-- The interrupt is read from the loop's own pipe. -/
theorem loopControl_piping :
    Moves Piped (do loopControl (ioInterrupt h) (← get).ioLoop.controlPipe.rd) := by
  refine Moves.get_bind fun s => Moves.bind_from ?_ fun answer => ?_
  · exact ⟨read_carries .ioLoop (fun x => ⟨by simp, by simp⟩) (World.readRetry_answer ..), rfl⟩
  · split
    · exact Moves.throw _
    · exact Moves.bind (modifyProc_piped fun _ => rfl) fun _ => Moves.pure _

theorem ioCallback_piped {cb : IoSource} {fd : Int} (hs : Piping c s) (hm : (fd, cb) ∈ s.ioLoop.cbs) :
    Outcome (fun _ => Piped s) (fun _ => Piped s) (ioCallback h cb fd s) := by
  cases cb with
  | interrupt =>
    rw [hs.interrupt fd hm]
    exact loopControl_piping s
  | closeWatch => exact ioCloseWatch_piped s
  | stdout => exact piped_of_acts readStdout_acts s
  | stderr => exact piped_of_acts readStderr_acts s
  | sigchld => exact ioSigchld_piped s

theorem execStarted_piped (ht : execStarted h s = .ok () t) : Piped s t := by
  have hset : Moves (Local h) (modifyProc h PexecSingle.started) := modifyProc_local fun _ => rfl
  have hcall : Moves (Local h) (callState h .started) := callState_local rfl
  exact ((Moves.bind hset fun _ => hcall).ok ht).acts.piped

theorem ioAdd_piping {cb : IoSource} (hcb : cb ≠ .interrupt) (fd : Int) :
    Triple (Piping c) (ioAdd fd cb) (fun _ => Piping c) (fun _ _ => True) := by
  intro s hs
  unfold ioAdd
  rw [bind_of_ok (show nextOrder s = .ok _ _ from rfl), bind_of_ok (get_apply _)]
  cases he : s.ioLoop.addReadEvent (s.mapOrder.headD []) fd cb with
  | none => trivial
  | some e =>
    obtain ⟨_, hcontrol, hcbs⟩ := addReadEvent_cases he
    refine ⟨IsTrans.trans _ _ _ hs.carries (Carries.same rfl ?_ rfl rfl), fun fd' hm => ?_⟩
    · funext slot
      cases slot <;> first | rfl | exact hcontrol
    · rcases (hcbs _).mp hm with hm | hm
      · exact (hs.interrupt fd' hm).trans (congrArg PipeFds.rd hcontrol.symm)
      · exact absurd (Prod.mk.inj hm).2.symm hcb

/-- A new loop has a pipe of its own, and the callback for it. -/
theorem ioRegister_piping : Triple (Carries c) (ioRegister h) (fun _ => Piping c) (fun _ _ => True) := by
  have hadds : ∀ w x y z, Triple (Piping c) (do
      ioAdd w .closeWatch
      ioAdd x .stdout
      ioAdd y .stderr
      ioAdd z .sigchld) (fun _ => Piping c) (fun _ _ => True) := fun w x y z =>
    (ioAdd_piping (by decide) w).bind fun _ => (ioAdd_piping (by decide) x).bind fun _ =>
      (ioAdd_piping (by decide) y).bind fun _ => ioAdd_piping (by decide) z
  unfold ioRegister
  refine Triple.bind (Q := fun _ => Carries c) (fun s hs => ?_) fun _ =>
    Triple.bind (Q := fun e s => Piping c { s with ioLoop := e }) (fun s hs => ?_) fun e => ?_
  · have hset : Moves (Local h) (modifyProc h fun p => { p with
        procKilled := false, userStopped := false, status := 0 }) := modifyProc_local fun _ => rfl
    exact IsTrans.trans _ _ _ hs (hset s).carries
  · rcases newSelectEvent_cases IoSource.interrupt s with ⟨e, he⟩ | hnew
    · rw [he]
      trivial
    · rw [hnew]
      have hopened : ∀ {t}, OpenedInto .ioLoop s t → t.trace = s.trace → Carries s t := fun ho =>
        ho.carries fun x => ⟨by simp, by simp⟩
      refine ⟨IsTrans.trans _ _ _ hs (hopened ⟨⟨_, _, rfl, ?_⟩, rfl⟩ rfl), fun fd hm => ?_⟩
      · funext slot
        cases slot <;> simp [Sys.array]
      · exact (Prod.mk.inj (List.mem_singleton.mp hm)).1
  · refine Triple.bind (Q := fun _ => Piping c) (Triple.modify fun _ hs => hs) fun _ => ?_
    exact Triple.get_bind fun s hs t ht => hadds _ _ _ _ t (ht ▸ hs)

theorem ioLoop_piping (answers : List SelectAnswer) :
    Triple (Piping c) (selectLoop ioRef (ioCallback h) (processError h .selectError) answers)
      (fun _ => Piping c) (fun _ _ => True) := by
  have hsame : ∀ {s t : Sys}, t.fds = s.fds → t.array = s.array → t.pipes = s.pipes → t.trace = s.trace →
      t.ioLoop.cbs = s.ioLoop.cbs → t.ioLoop.controlPipe = s.ioLoop.controlPipe → Piping c s → Piping c t := by
    intro s t hf ha hp ht hcbs hcontrol hs
    refine ⟨IsTrans.trans _ _ _ hs.carries (Carries.same hf ha hp ht), fun fd hm => ?_⟩
    rw [hcontrol]
    exact hs.interrupt fd (hcbs ▸ hm)
  refine selectLoop_triple (J := Piping c) (fun cb fd s hs => ?_) (fun s hs => hsame (s := s) rfl rfl rfl rfl rfl rfl hs)
    (fun s hs => ?_) (fun _ s hs => hsame (s := s) rfl rfl rfl rfl rfl rfl hs) (fun s hs => ?_) (fun _ _ => trivial)
    answers fun _ _ _ act _ s hs => ?_
  · exact (ioCallback_piped hs.1 hs.2).imp (fun _ _ hst => ⟨fun _ => hs.1.piped hst, fun _ => hs.1.piped hst⟩)
      fun _ _ _ => trivial
  · have hadvance : s.ioLoop.advance.cbs = s.ioLoop.cbs ∧ s.ioLoop.advance.controlPipe = s.ioLoop.controlPipe := by
      unfold SelectEvent.advance
      split <;> exact ⟨rfl, rfl⟩
    refine hsame (s := s) rfl ?_ rfl rfl hadvance.1 hadvance.2 hs
    funext slot
    cases slot <;> first | rfl | exact hadvance.2
  · exact (processError_piped (h := h) .selectError s).imp (fun _ _ hst => hs.piped hst) fun _ _ _ => trivial
  · have hcarries := envAct_carries act s
    obtain ⟨fds, pipes, children, hframe⟩ := act.frame s
    rw [hframe] at hcarries ⊢
    exact hs.piped ⟨hcarries, rfl⟩

theorem ioDestroy_carries : Moves Carries ioDestroy := by
  intro s
  obtain ⟨fds, hw⟩ := s.toWorld.closePipe_frame s.ioLoop.controlPipe
  refine closeSlot_carries .ioLoop {} (fun x => ⟨by simp, by simp⟩) rfl ?_ rfl rfl (fun _ hp => by cases hp) ?_ ?_
  · show Sys.array { s with toWorld := s.toWorld.closePipe s.ioLoop.controlPipe, ioLoop := {} } = _
    rw [hw]
    funext slot
    cases slot <;> simp [Sys.array]
  · show (s.toWorld.closePipe s.ioLoop.controlPipe).pipes = _
    rw [hw]
  · show (s.toWorld.closePipe s.ioLoop.controlPipe).trace = _
    rw [hw]

theorem resetSigchldSignalHandler_carries : Moves Carries (resetSigchldSignalHandler h) := by
  intro s
  rcases resetSigchldSignalHandler_cases (h := h) s with ⟨b, hb⟩ | ⟨b, hb⟩
  · rw [hb]
    exact Carries.same rfl rfl rfl rfl
  · have hspent : Carries s { s with faults := s.faults.tail } := Carries.same rfl rfl rfl rfl
    have htold := ((processError_local (h := h) .sigactionResetError).ok
      (processError_apply (s := { s with faults := s.faults.tail }) _)).carries
    rw [hb]
    exact IsTrans.trans _ _ _ hspent htold

theorem loopIo_carries {c₀ : Sys} : Triple (Carries c₀) (loopIo h) (fun _ => Carries c₀) (fun _ _ => True) := by
  unfold loopIo
  refine ioRegister_piping.bind fun _ => Triple.get_bind fun s hs => Triple.bind (Q := fun _ => Piping c₀)
    (fun t ht => ioLoop_piping _ t (ht ▸ hs)) fun _ t ht => ?_
  exact (ioDestroy_carries t).imp (fun _ _ hu => IsTrans.trans _ _ _ ht.carries hu) fun _ _ _ => trivial

/-- A blocking run whose loop has been left. -/
structure LoopLeft (h : Nat) (s d : Sys) : Prop where
  prepared : ∃ u, Preparing h s [] u ∧ Carries u d
  winding : Winding h s d
  output : d.OutputOpen h

/-- The resetting `sigaction` changes nothing of what the end of the run needs. -/
theorem Engaged.reset {b : Bool} (hs : Engaged h s false d) (ht : resetSigchldSignalHandler h d = .ok b t) :
    Winding h s t ∧ t.OutputOpen h := by
  have hopen : d.OutputOpen h := ⟨hs.held (.stdout h) (.inl rfl) (by simp), hs.held (.stderr h) (.inl rfl) (by simp)⟩
  rcases resetSigchldSignalHandler_cases (h := h) d with ⟨b', hb⟩ | ⟨b', hb⟩
  · cases hb.symm.trans ht
    exact ⟨hs.winding.congr rfl rfl rfl rfl rfl, hopen⟩
  · cases hb.symm.trans ht
    refine ⟨hs.winding.object rfl rfl rfl rfl rfl rfl rfl rfl rfl, ?_⟩
    simpa [Sys.OutputOpen, Sys.array, Sys.processed] using hopen

theorem execWatch_left (hs : Resting h s) (hd : execWatch h line s = .ok true d) : LoopLeft h s d := by
  rcases execWatch_cases hs with ⟨st, u, _, hrun, _⟩ | ⟨u, c, _, _, hu, hc, hpoised, hrun⟩
  · cases hrun.symm.trans hd
  · rw [hrun] at hd
    obtain ⟨⟨⟩, e, hloop, hd⟩ := bind_eq_ok.mp hd
    obtain ⟨b, e', hreset, hd⟩ := bind_eq_ok.mp hd
    cases hd
    obtain ⟨_, _, _, _, _, _, hover, _⟩ := loopIo_over hpoised hloop
    obtain ⟨hwinding, hopen⟩ := hover.engaged.reset hreset
    refine ⟨⟨u, hu, ?_⟩, hwinding, hopen⟩
    exact IsTrans.trans _ _ _ (loopIo_carries.ok (execStarted_piped hc).carries hloop)
      (resetSigchldSignalHandler_carries.ok hreset)

/-- All that the run has read from its output pipes, it has passed on. -/
theorem LoopLeft.passed (hd : LoopLeft h s d) (hdt : Carries d t) {new : List Event}
    (ht : t.trace = s.trace ++ new) :
    outOf h new = (t.stream (.stdout h)).read ∧ errOf h new = (t.stream (.stderr h)).read := by
  obtain ⟨u, hu, hud⟩ := hd.prepared
  obtain ⟨_, hpassed⟩ := (IsTrans.trans _ _ _ hud hdt : Carries u t) hu.owns
  obtain ⟨out, err, hout, houtRead, herr, herrRead⟩ := hpassed h
  have htrace : u.trace = s.trace := hu.field (fun v => v.trace) fun _ => rfl
  have hfresh : u.stream (.stdout h) = {} ∧ u.stream (.stderr h) = {} :=
    ⟨(hu.opened .stdout List.not_mem_nil _ rfl).2, (hu.opened .stderr List.not_mem_nil _ rfl).2⟩
  rw [ht, htrace, outOf_append] at hout
  rw [ht, htrace, errOf_append] at herr
  rw [hfresh.1] at houtRead
  rw [hfresh.2] at herrRead
  exact ⟨(List.append_cancel_left hout).trans houtRead.symm, (List.append_cancel_left herr).trans herrRead.symm⟩

variable {told rest : List Event}

/-- STOPPED is the last that a blocking run tells. -/
theorem exec_stopped_last (hs : Resting h s) (ht : exec h line s = .ok () t)
    (htold : t.trace = s.trace ++ told ++ .state h .stopped q :: rest) : rest = [] := by
  have hnew : newEvents s t = told ++ .state h .stopped q :: rest :=
    newEvents_eq (htold.trans (List.append_assoc ..))
  rcases exec_course hs ht with ⟨st, _, ha⟩ | ⟨q', _, d, _, _, hc⟩
  · have hgiven := ha.givenUp.states
    rw [hnew] at hgiven
    have hmem : State.stopped ∈ statesOf h (told ++ .state h .stopped q :: rest) :=
      List.mem_filterMap.mpr ⟨.state h .stopped q, by simp, by simp [Event.told]⟩
    rw [hgiven] at hmem
    simp at hmem
  · obtain ⟨mid, hevents, hwatching⟩ := hc.events
    have hmid : Event.state h .stopped q ∉ mid := fun hm => by cases (hwatching _ hm).2
    cases rest with
    | nil => rfl
    | cons e rest =>
      have hlast : ∃ stdin userStop last, (d.procs h).lastEvents h =
          [.handed h stdin userStop] ++ [.state h (d.procs h).lastState last] := ⟨_, _, _, rfl⟩
      obtain ⟨stdin, userStop, last, hlast⟩ := hlast
      have hmem : Event.state h .stopped q ∈ (told ++ .state h .stopped q :: e :: rest).dropLast := by
        simp [List.dropLast_append_of_ne_nil]
      rw [← hnew, hevents, hlast, ← List.append_assoc, List.dropLast_concat] at hmem
      simp [startedEvents, hmid] at hmem

/-- Nobody has asked a run to stop at whose end STOPPED is told. -/
theorem Winding.wanted (hd : Winding h s d) (ht : execEnd h d = .ok () t)
    (hlast : t.trace.getLast? = some (.state h .stopped q)) : (d.procs h).userStopped = false := by
  obtain ⟨_, _, _, _, _, drain, htrace, _⟩ := execEnd_winding hd ht
  rw [htrace, PexecSingle.lastEvents, List.getLast?_append] at hlast
  have hstate : (d.procs h).lastState = .stopped := by
    simp at hlast
    exact hlast.1
  unfold PexecSingle.lastState at hstate
  cases hu : (d.procs h).userStopped with
  | false => rfl
  | true =>
    rw [hu] at hstate
    cases hstate

/-- In a blocking run the output is told completely before STOPPED if one read of each pipe gets what
is left when the loop has ended. -/
theorem exec_complete_iff (hs : Resting h s) (hd : execWatch h line s = .ok true d)
    (ht : exec h line s = .ok () t) (hreads : d.ReadsWell)
    (htold : t.trace = s.trace ++ told ++ .state h .stopped q :: rest) :
    Complete h told t ↔ d.OutputFits h := by
  have hleft := execWatch_left hs hd
  obtain rfl := exec_stopped_last hs ht htold
  have hend : execEnd h d = .ok () t := by
    unfold exec at ht
    rw [bind_of_ok hd] at ht
    exact ht
  have hwanted := hleft.winding.wanted (q := q) hend (by rw [htold]; simp)
  have hstopped : stopped h d = .ok () t := by
    unfold execEnd at hend
    rw [bind_of_ok (get_apply _), if_neg (by rw [hwanted]; exact Bool.false_ne_true)] at hend
    exact hend
  obtain ⟨_, _, _, hstops⟩ := stopped_stops hleft.winding.owns hleft.output hreads hstopped
  obtain ⟨hout, herr⟩ := hleft.passed (stopped_acts.ok hstopped).carries (htold.trans (List.append_assoc ..))
  refine (passed_complete_iff ?_ ?_).trans hstops.fits
  · rw [← hout, outOf_append, outOf_singleton]
    exact (List.append_nil _).symm
  · rw [← herr, errOf_append, errOf_singleton]
    exact (List.append_nil _).symm

/-- A child writes a byte, which is read, then 1500 bytes, and exits; only the signal pipe is reported. -/
def lossyRun : Sys :=
  { (boot {}).choose {} with
    selects := [.ready [.childOut 0 [97]] [2],
      .ready [.childOut 0 (List.replicate 1500 98), .exit 1 ⟨0, terminated_zero⟩, .sigchld] [6]] }

theorem lossyRun_run : Run (BlockingStep 0) (boot {}) ([] ++ [.choose {} [.ready [.childOut 0 [97]] [2],
    .ready [.childOut 0 (List.replicate 1500 98), .exit 1 ⟨0, terminated_zero⟩, .sigchld] [6]]]) lossyRun :=
  .snoc .nil rfl

def lossyLeft : Sys := final (execWatch 0 ['a']) lossyRun

def lossyAfter : Sys := final (exec 0 ['a']) lossyRun

theorem lossyLeft_ok : execWatch 0 ['a'] lossyRun = .ok true lossyLeft := ok_answer (by decide +kernel)

theorem lossyAfter_ok : exec 0 ['a'] lossyRun = .ok () lossyAfter := ok_final (by decide +kernel)

theorem Sys.ReadsWell.of_nil (hs : s.readFaults = []) : s.ReadsWell := by
  intro fault hm
  rw [hs] at hm
  exact absurd hm List.not_mem_nil

theorem lossyAfter_told : lossyAfter.trace = lossyRun.trace ++ lossyAfter.trace.dropLast ++
    .state 0 .stopped (lossyAfter.procs 0).proc :: [] := by decide +kernel

/-- In a `pexec_multi` a process that has been read writes as much, and exits. -/
def lossyLife : List Label :=
  pairLife.take 10 ++ [.env (.childOut 0 (List.replicate 1500 98)), .env (.exit 1 ⟨0, terminated_zero⟩), .env .sigchld]

def lossyMulti : Sys := freshMulti.after lossyLife

def lossyReaped : Sys := lossyMulti.after [.event 4 {}]

theorem lossyMulti_run : Run (Under PreviousFinished Step) freshMulti lossyLife lossyMulti :=
  run_after _ finished_sound lossyLife (by decide +kernel)

theorem lossyReaped_step : Under PreviousFinished Step lossyMulti (.event 4 {}) lossyReaped :=
  ⟨trivial, step_after (by decide +kernel)⟩

/-- Where STOPPED is told in a step, the events of the step are split there. -/
theorem Uses.stopped_told {x : Nat} (hs : Uses s t) (hbefore : State.stopped ∉ statesOf x s.trace)
    (hafter : State.stopped ∈ statesOf x t.trace) :
    ∃ told q rest, t.trace = s.trace ++ told ++ .state x .stopped q :: rest := by
  obtain ⟨new, htrace, _⟩ := hs.events
  rw [htrace, statesOf, List.filterMap_append] at hafter
  obtain ⟨e, he, hstate⟩ := List.mem_filterMap.mp ((List.mem_append.mp hafter).resolve_left hbefore)
  obtain ⟨told, rest, rfl⟩ := List.append_of_mem he
  cases e with
  | state owner st q =>
    by_cases howner : owner = x
    · rw [Event.told, if_pos howner] at hstate
      cases hstate
      exact ⟨told, q, rest, by rw [htrace, List.append_assoc, howner]⟩
    · rw [Event.told, if_neg howner] at hstate
      cases hstate
  | handed | error | out | err | onStop | waitpid | kill | multiError | register => cases hstate

theorem lossyReaped_told : ∃ told q rest,
    lossyReaped.trace = lossyMulti.trace ++ told ++ .state 0 .stopped q :: rest :=
  ((label_uses (.event 4 {})).ok lossyReaped_step.2.2).stopped_told (by decide +kernel) (by decide +kernel)

theorem Sys.Fits.unread_le {slot : Slot} {pipe : Nat} (hs : s.Fits slot) (hp : (s.array slot).pipe = some pipe) :
    (s.stream slot).unread.length ≤ s.toWorld.readLength pipe (bufferSize - 1) := by
  have hle := hs pipe hp
  simpa only [Sys.stream, World.stream, hp] using hle

end Pexec
