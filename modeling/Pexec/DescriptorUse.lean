import Pexec.MultiRun
import Pexec.ObjectActs

namespace Pexec

open Effect

/-- What a program can do to the descriptor table: it opens pipes and closes descriptors. The
application opens files of its own. -/
inductive FdSteps (t : FdTable) : FdTable → Prop
  | refl : FdSteps t t
  | close {u} (fd : Int) : FdSteps t u → FdSteps t (u.close fd)
  | openPipe {u} (hint : Int × Int) (cloexec : Bool) : FdSteps t u →
      FdSteps t (u.openPipe hint cloexec).2
  | openFile {u fd d} (hfd : 0 ≤ fd) (hd : ∀ pipe, d.target.pipe? = some pipe → pipe < u.nextPipe) :
      d.target = .file → FdSteps t u → FdSteps t (u.insert fd d hfd hd)

variable {t u v : FdTable}

theorem FdSteps.trans (h : FdSteps t u) (h' : FdSteps u v) : FdSteps t v := by
  induction h' with
  | refl => exact h
  | close fd _ ih => exact .close fd ih
  | openPipe hint cloexec _ ih => exact .openPipe hint cloexec ih
  | openFile hfd hd hfile _ ih => exact .openFile hfd hd hfile ih

theorem FdSteps.next (h : FdSteps t u) : t.nextPipe ≤ u.nextPipe := by
  induction h with
  | refl => exact Nat.le_refl _
  | close _ _ ih => exact ih
  | openPipe _ _ _ ih => exact Nat.le_succ_of_le ih
  | openFile _ _ _ _ ih => exact ih

/-- An end of an old pipe was there before, under its number. -/
theorem FdSteps.old (h : FdSteps t u) {fd : Int} {d : Descriptor} {pipe : Nat}
    (hd : u.get fd = some d) (hp : d.target.pipe? = some pipe) (hlt : pipe < t.nextPipe) :
    t.get fd = some d := by
  induction h with
  | refl => exact hd
  | @close u x _ ih =>
    by_cases hx : fd = x
    · subst hx
      simp at hd
    · rw [FdTable.close_get_ne u hx] at hd
      exact ih hd
  | @openPipe u hint cloexec hu ih =>
    have hle := hu.next
    by_cases hr : fd = (u.openPipe hint cloexec).1.rd
    · rw [hr, FdTable.openPipe_get_rd] at hd
      cases hd
      simp only [FdTarget.pipe?, Option.some.injEq] at hp
      omega
    by_cases hw : fd = (u.openPipe hint cloexec).1.wr
    · rw [hw, FdTable.openPipe_get_wr] at hd
      cases hd
      simp only [FdTarget.pipe?, Option.some.injEq] at hp
      omega
    rw [FdTable.openPipe_get_ne u hint cloexec hr hw] at hd
    exact ih hd
  | @openFile u x d' hfd hd' hfile _ ih =>
    by_cases hx : fd = x
    · subst hx
      rw [FdTable.insert_get_self] at hd
      cases hd
      rw [hfile] at hp
      cases hp
    · rw [FdTable.insert_get_ne hfd hd' hx] at hd
      exact ih hd

theorem FdSteps.closeFd (t : FdTable) (fd : Int) : FdSteps t (t.closeFd fd) := by
  unfold FdTable.closeFd
  split
  · exact .close fd .refl
  · exact .refl

theorem FdSteps.closePipe (w : World) (p : PipeFds) : FdSteps w.fds (w.closePipe p).fds := by
  rw [World.closePipe_table]
  exact (FdSteps.closeFd _ p.rd).trans (FdSteps.closeFd _ p.wr)

/-- Reports, before a state callback, on the descriptors that it hands over. -/
def Event.hands : Event → Bool
  | .handed .. => true
  | _ => false

/-- The errors that a child of `spawn_proc` ends with before its program is executed. -/
def Error.isLaunch : Error → Bool
  | .forkExecError | .forkStdinNonblockError | .forkStdoutNonblockError | .forkStderrNonblockError
  | .forkDup2StdinError | .forkDup2StdoutError | .forkDup2StderrError => true
  | _ => false

/-- The launch error that an error callback of the object tells. -/
def Event.launchTold (h : Nat) : Event → Option Error
  | .error owner e => if owner = h ∧ e.isLaunch then some e else none
  | _ => none

/-- The launch error that the return code in a SIGNALED callback stands for, once the process has
ended. -/
def Event.launchDecoded (h : Nat) : Event → Option Error
  | .state owner .signaled q => if owner = h ∧ q.running = false then launchError q.returnCode else none
  | _ => none

/-- Neither a state callback with its report nor an error callback for a launch. -/
def Event.plain : Event → Bool
  | .handed .. | .state .. => false
  | .error _ e => !e.isLaunch
  | _ => true

/-- Every program of the library does no more: it hands descriptors over in state callbacks, and
the launch errors it tells are those of the return codes it has told. -/
structure Uses (s t : Sys) : Prop where
  table : FdSteps s.fds t.fds
  events : ∃ new, t.trace = s.trace ++ new ∧
    ((∀ h st q, Event.state h st q ∉ new) → ∀ e ∈ new, e.hands = false) ∧
    ∀ h, new.filterMap (Event.launchTold h) = new.filterMap (Event.launchDecoded h)

instance : IsPreorder Sys Uses where
  refl s := ⟨.refl, [], (List.append_nil _).symm, fun _ _ hm => absurd hm List.not_mem_nil, fun _ => rfl⟩
  trans _ _ _ hst htu := by
    obtain ⟨new, ht, hnew, htold⟩ := hst.events
    obtain ⟨new', hu, hnew', htold'⟩ := htu.events
    refine ⟨hst.table.trans htu.table, new ++ new', by rw [hu, ht, List.append_assoc],
      fun hnone e hm => ?_, fun h => ?_⟩
    · rcases List.mem_append.mp hm with hm | hm
      · exact hnew (fun h st q hs => hnone h st q (List.mem_append_left _ hs)) e hm
      · exact hnew' (fun h st q hs => hnone h st q (List.mem_append_right _ hs)) e hm
    · rw [List.filterMap_append, List.filterMap_append, htold, htold']

theorem Uses.quiet {s t : Sys} (h : FdSteps s.fds t.fds) (ht : t.trace = s.trace) : Uses s t :=
  ⟨h, [], by rw [ht, List.append_nil], fun _ _ hm => absurd hm List.not_mem_nil, fun _ => rfl⟩

theorem FdSteps.same {w w' : World} (h : w'.fds = w.fds) : FdSteps w.fds w'.fds := by
  rw [h]
  exact .refl

theorem Uses.same {s t : Sys} (h : t.fds = s.fds) (ht : t.trace = s.trace) : Uses s t :=
  .quiet (.same h) ht

theorem Uses.congr {s t u : Sys} (h : Uses s t) (hf : u.fds = t.fds) (ht : u.trace = t.trace) : Uses s u :=
  IsTrans.trans _ _ _ h (.same hf ht)

theorem modify_uses {f : Sys → Sys} (hf : ∀ s, (f s).fds = s.fds ∧ (f s).trace = s.trace) :
    Moves Uses (modify f : Prog Unit) :=
  Moves.modify fun s => .same (hf s).1 (hf s).2

theorem call_uses {α : Type} {f : World → α × World}
    (hf : ∀ w, FdSteps w.fds (f w).2.fds ∧ (f w).2.trace = w.trace) : Moves Uses (call f) :=
  fun s => .quiet (hf s.toWorld).1 (hf s.toWorld).2

theorem onWorld_uses {f : World → World} (hf : ∀ w, FdSteps w.fds (f w).fds ∧ (f w).trace = w.trace) :
    Moves Uses (onWorld f) := fun s => .quiet (hf s.toWorld).1 (hf s.toWorld).2

variable {h : Nat}

theorem Event.plain_hands {e : Event} (he : e.plain = true) : e.hands = false := by
  cases e <;> first | rfl | cases he

theorem Event.plain_launch {e : Event} (he : e.plain = true) (h : Nat) :
    e.launchTold h = none ∧ e.launchDecoded h = none := by
  cases e with
  | error owner e =>
    have hlaunch : e.isLaunch = false := by simpa [Event.plain] using he
    exact ⟨if_neg fun hh => Bool.false_ne_true (hlaunch.symm.trans hh.2), rfl⟩
  | handed | state => cases he
  | _ => exact ⟨rfl, rfl⟩

theorem emit_uses {e : Event} (he : e.plain = true) : Moves Uses (emit e) := by
  refine Moves.modify fun s => ⟨.refl, [e], rfl, fun _ _ hm => ?_, fun h => ?_⟩
  · rw [List.mem_singleton.mp hm]
    exact Event.plain_hands he
  · rw [List.filterMap_cons_none (Event.plain_launch he h).1, List.filterMap_cons_none (Event.plain_launch he h).2]
    rfl

theorem modifyProc_uses (f : PexecSingle → PexecSingle) : Moves Uses (modifyProc h f) :=
  modify_uses fun _ => ⟨rfl, rfl⟩

theorem pipe2_uses (cloexec : Bool) : Moves Uses (call (World.pipe2 · cloexec)) := by
  refine call_uses fun w => ?_
  cases hf : w.faults.head?.join with
  | some e =>
    rw [World.pipe2_of_fault hf]
    exact ⟨.refl, rfl⟩
  | none =>
    rw [World.pipe2_of_none hf]
    exact ⟨.openPipe _ _ .refl, rfl⟩

theorem World.closePipe_trace (w : World) (p : PipeFds) : (w.closePipe p).trace = w.trace := by
  obtain ⟨fds, hw⟩ := w.closePipe_frame p
  rw [hw]

theorem closePipe_uses (p : PipeFds) : Moves Uses (onWorld (World.closePipe · p)) :=
  onWorld_uses fun w => ⟨.closePipe w p, World.closePipe_trace w p⟩

theorem write_uses (f : World → Int) (data : List UInt8) :
    Moves Uses (onWorld fun w => w.write (f w) data) :=
  onWorld_uses fun w => by
    obtain ⟨pipes, hw⟩ := w.write_frame (f w) data
    rw [hw]
    exact ⟨.refl, rfl⟩

theorem read_uses (fd : Int) (count : Nat) : Moves Uses (call (World.read · fd count)) :=
  call_uses fun w => by
    obtain ⟨readFaults, pipes, hw⟩ := w.read_frame fd count
    rw [hw]
    exact ⟨.refl, rfl⟩

theorem readRetry_uses (fd : Int) (count : Nat) : Moves Uses (readRetry fd count) :=
  call_uses fun w => by
    obtain ⟨readFaults, pipes, hw⟩ := World.readRetry_frame fd count w.readFaults w
    rw [hw]
    exact ⟨.refl, rfl⟩

theorem sigaction_uses (d : World → Disposition) : Moves Uses (call fun w => w.sigaction (d w)) :=
  call_uses fun w => by
    obtain ⟨faults, disposition, hw⟩ := w.sigaction_frame (d w)
    rw [hw]
    exact ⟨.refl, rfl⟩

theorem sigprocmask_uses (block : Bool) : Moves Uses (call (World.sigprocmask · block)) :=
  call_uses fun w => by
    obtain ⟨faults, sigchldBlocked, hw⟩ := w.sigprocmask_frame block
    rw [hw]
    exact ⟨.refl, rfl⟩

theorem waitpid_uses (pid : Int) : Moves Uses (call (World.waitpid · pid)) :=
  call_uses fun w => by
    obtain ⟨faults, children, hw⟩ := (World.waitpid_answer w pid).frame
    rw [hw]
    exact ⟨.refl, rfl⟩

theorem fork_uses : Moves Uses (call World.fork) :=
  call_uses fun w => by
    obtain ⟨faults, children, forks, hw⟩ := w.fork_frame
    rw [hw]
    exact ⟨.refl, rfl⟩

theorem nextOrder_uses : Moves Uses nextOrder := call_uses fun _ => ⟨.refl, rfl⟩

theorem discard_uses {α : Type} {x : Prog α} (hx : Moves Uses x) : Moves Uses (discard x) :=
  Moves.bind hx fun _ => Moves.pure _

theorem processError_uses {e : Error} (he : e.isLaunch = false) : Moves Uses (processError h e) :=
  Moves.bind (emit_uses (by simp [Event.plain, he])) fun _ => modifyProc_uses _

theorem multiProcessError_uses (e : Error) : Moves Uses (multiProcessError e) :=
  Moves.bind (modify_uses fun _ => ⟨rfl, rfl⟩) fun _ => emit_uses rfl

/-- The descriptors that are handed over are still those of the run. -/
def Event.Current : Event → Prop
  | .handed _ stdin userStop => stdin = true ∧ userStop = true
  | _ => True

instance : DecidablePred Event.Current
  | .handed _ stdin userStop => inferInstanceAs (Decidable (stdin = true ∧ userStop = true))
  | .state .. | .error .. | .out .. | .err .. | .onStop .. | .waitpid .. | .kill .. | .multiError ..
  | .register .. => isTrue trivial

/-- No stale descriptor is handed over. -/
def HandsCurrent (s t : Sys) : Prop := ∃ new, t.trace = s.trace ++ new ∧ ∀ e ∈ new, e.Current

instance : IsPreorder Sys HandsCurrent where
  refl s := ⟨[], (List.append_nil _).symm, fun _ hm => absurd hm List.not_mem_nil⟩
  trans _ _ _ hst htu := by
    obtain ⟨new, ht, hnew⟩ := hst
    obtain ⟨new', hu, hnew'⟩ := htu
    refine ⟨new ++ new', by rw [hu, ht, List.append_assoc], fun e hm => ?_⟩
    rcases List.mem_append.mp hm with hm | hm
    · exact hnew e hm
    · exact hnew' e hm

theorem HandsCurrent.same {s t : Sys} (ht : t.trace = s.trace) : HandsCurrent s t :=
  ⟨[], by rw [ht, List.append_nil], fun _ hm => absurd hm List.not_mem_nil⟩

theorem addReadEvent_uses (fd : Int) (cb : Source) : Moves Uses (addReadEvent fd cb) :=
  addReadEvent_moves (fun _ _ _ _ _ => .same rfl rfl) (fun _ _ => emit_uses rfl) fd cb

theorem removeReadEvent_uses (fd : Int) : Moves Uses (removeReadEvent fd) :=
  removeReadEvent_moves (fun _ _ _ _ _ => .same rfl rfl) (fun _ _ => emit_uses rfl) fd

theorem interrupt_uses : Moves Uses interrupt := by
  refine modify_uses fun s => ?_
  obtain ⟨pipes, hw⟩ := s.toWorld.write_frame s.controlPipe.wr [0]
  rw [hw]
  exact ⟨rfl, rfl⟩

theorem sendJob_uses (job : Option Job) : Moves Uses (sendJob job) :=
  Moves.bind (modify_uses fun _ => ⟨rfl, rfl⟩) fun _ => interrupt_uses

theorem assert_uses (c : Bool) (a : Assertion) : Moves Uses (assert c a) :=
  Moves.ite (fun _ => Moves.pure _) fun _ => Moves.throw _

theorem onProcStopped_uses (pid : Int) : Moves Uses (onProcStopped h pid) := by
  refine Moves.bind Moves.get fun s => Moves.bind (assert_uses _ _) fun _ => Moves.bind Moves.get fun s => ?_
  split
  · exact Moves.pure _
  · refine Moves.bind (removeReadEvent_uses _) fun _ => Moves.bind (removeReadEvent_uses _) fun _ =>
      Moves.bind (removeReadEvent_uses _) fun _ => Moves.bind (modify_uses fun _ => ⟨rfl, rfl⟩) fun _ =>
        Moves.bind Moves.get fun s => ?_
    exact Moves.ite (fun _ => sendJob_uses none) fun _ => Moves.pure _

theorem handleState_uses (hd : Handle) (st : State) (proc : ProcStatus) :
    Moves Uses (handleState h hd st proc) := by
  refine Moves.bind (modify_uses fun _ => ⟨rfl, rfl⟩) fun _ => Moves.ite (fun _ => ?_) fun _ => Moves.pure _
  cases hd.onProcStopped with
  | none =>
    exact Moves.ite (fun _ => Moves.bind (emit_uses rfl) fun _ => Moves.pure _) fun _ => Moves.pure _
  | some pid =>
    have hstop : Moves Uses (onProcStopped h pid) := onProcStopped_uses pid
    exact Moves.ite (fun _ => Moves.bind (emit_uses rfl) fun _ => hstop) fun _ => hstop

/-- The events of a state callback. -/
theorem Uses.announced {s t : Sys} {st : State} {stdin userStop : Bool} {q : ProcStatus}
    (hst : st = .signaled → q.running = true) (hf : t.fds = s.fds)
    (ht : t.trace = s.trace ++ [.handed h stdin userStop, .state h st q]) : Uses s t := by
  refine ⟨.same hf, _, ht, fun hnone => absurd ?_ (hnone h st q), fun owner => ?_⟩
  · exact List.mem_cons_of_mem _ List.mem_cons_self
  · cases st with
    | signaled =>
      have hrunning := hst rfl
      simp [List.filterMap_cons, Event.launchTold, Event.launchDecoded, hrunning]
    | _ => rfl

theorem announce_uses {st : State} (hst : st ≠ .signaled) : Moves Uses (announce h st) := by
  intro s
  rw [announce_apply]
  exact .announced (fun he => absurd he hst) rfl (List.append_assoc ..)

theorem callState_uses {st : State} (hst : st ≠ .signaled) : Moves Uses (callState h st) := by
  refine Moves.bind Moves.get fun s => Moves.bind (announce_uses hst) fun _ => ?_
  split
  · exact handleState_uses _ _ _
  · exact Moves.pure _

theorem FdSteps.closeForkPipes (w : World) (p : PexecSingle) :
    FdSteps w.fds (w.closeForkPipes p).fds := by
  have hthree : FdSteps w.fds (((w.closePipe p.pipeStdin).closePipe p.pipeStdout).closePipe
      p.pipeStderr).fds :=
    ((FdSteps.closePipe w _).trans (FdSteps.closePipe _ _)).trans (FdSteps.closePipe _ _)
  unfold World.closeForkPipes
  refine FdSteps.trans ?_ (FdSteps.closePipe _ _)
  split
  · exact hthree.trans (FdSteps.closePipe _ _)
  · exact hthree

theorem closeForkPipes_uses : Moves Uses (closeForkPipes h) :=
  Moves.modify fun s => .quiet (FdSteps.closeForkPipes s.toWorld (s.procs h)) (by
    obtain ⟨fds, blockingPipe, hw⟩ := s.toWorld.closeForkPipes_frame (s.procs h)
    rw [hw])

theorem failStopped_uses : Moves Uses (failStopped h) :=
  Moves.bind closeForkPipes_uses fun _ => callState_uses (by decide)

theorem userStopped_uses : Moves Uses (userStopped h) :=
  Moves.bind (modifyProc_uses _) fun _ => Moves.bind closeForkPipes_uses fun _ => callState_uses (by decide)

/-- What is done where a call of `exec` fails. -/
theorem failWith_uses {e : Error} (he : e.isLaunch = false) :
    Moves Uses (do processError h e; failStopped h; return false) :=
  Moves.bind (processError_uses he) fun _ => Moves.bind failStopped_uses fun _ => Moves.pure _

theorem guard_uses {x y : Prog Bool} (hx : Moves Uses x) (hy : Moves Uses y) :
    Moves Uses (x >>= fun b => if (!b) = true then pure false else y) :=
  Moves.bind hx fun _ => Moves.ite (fun _ => Moves.pure _) fun _ => hy

theorem preparePipe_uses {cloexec : Bool} {store : PipeFds → Sys → Sys} {e : Error}
    (he : e.isLaunch = false) (hs : ∀ p s, (store p s).fds = s.fds ∧ (store p s).trace = s.trace) :
    Moves Uses (preparePipe h cloexec store e) := by
  refine Moves.bind (pipe2_uses cloexec) fun answer => ?_
  cases answer with
  | some p => exact Moves.bind (modify_uses (hs p)) fun _ => Moves.pure _
  | none => exact failWith_uses he

theorem prepareForkPipes_uses : Moves Uses (prepareForkPipes h) := by
  refine guard_uses (preparePipe_uses rfl fun _ _ => ⟨rfl, rfl⟩) (guard_uses (preparePipe_uses rfl fun _ _ => ⟨rfl, rfl⟩)
    (guard_uses (preparePipe_uses rfl fun _ _ => ⟨rfl, rfl⟩) (Moves.bind Moves.get fun s => ?_)))
  refine Moves.ite (fun _ => ?_) fun _ => preparePipe_uses rfl fun _ _ => ⟨rfl, rfl⟩
  exact guard_uses (preparePipe_uses rfl fun _ _ => ⟨rfl, rfl⟩) (preparePipe_uses rfl fun _ _ => ⟨rfl, rfl⟩)

theorem prepareArgs_uses : Moves Uses (prepareArgs h) := by
  refine Moves.bind (modifyProc_uses _) fun _ => Moves.bind Moves.get fun s =>
    Moves.ite (fun _ => failWith_uses rfl) fun _ => ?_
  refine Moves.bind (modifyProc_uses _) fun _ => Moves.bind Moves.get fun s =>
    Moves.ite (fun _ => failWith_uses rfl) fun _ => Moves.pure _

theorem setSigchldSignalHandler_uses : Moves Uses (setSigchldSignalHandler h) := by
  refine Moves.bind (sigaction_uses fun _ => .sigchldBlockingSignalHandler) fun prev => ?_
  cases prev with
  | some prev => exact Moves.bind (modifyProc_uses _) fun _ => Moves.pure _
  | none => exact failWith_uses rfl

theorem spawnProc_uses : Moves Uses (spawnProc h) := by
  refine Moves.bind fork_uses fun answer => ?_
  cases answer with
  | some pid => exact Moves.bind (modifyProc_uses _) fun _ => Moves.pure _
  | none => exact Moves.bind (modifyProc_uses _) fun _ => failWith_uses rfl

theorem execPrepare_uses (args : List Char) : Moves Uses (execPrepare h args) := by
  refine Moves.bind (modifyProc_uses _) fun _ => guard_uses prepareArgs_uses
    (guard_uses prepareForkPipes_uses (Moves.bind Moves.get fun s => ?_))
  exact Moves.ite (fun _ => guard_uses setSigchldSignalHandler_uses spawnProc_uses) fun _ => spawnProc_uses

theorem execStarted_uses : Moves Uses (execStarted h) :=
  Moves.bind (modifyProc_uses _) fun _ => callState_uses (by decide)

theorem readStdRest_uses {cb : List UInt8 → Event} (hcb : ∀ data, (cb data).plain = true) {e : Error}
    (he : e.isLaunch = false) (fd : Int) (fuel : Nat) : Moves Uses (readStdRest fd h cb e fuel) := by
  induction fuel with
  | zero => exact Moves.throw _
  | succ fuel ih =>
    unfold readStdRest
    refine Moves.bind (read_uses _ _) fun answer => ?_
    split
    · exact Moves.ite (fun _ => processError_uses he) fun _ => Moves.pure _
    · exact ih
    · exact emit_uses (hcb _)

theorem loopRestIo_uses : Moves Uses (loopRestIo h) :=
  Moves.bind Moves.get fun _ => Moves.bind (readStdRest_uses (fun _ => rfl) rfl _ _) fun _ =>
    Moves.bind Moves.get fun _ => readStdRest_uses (fun _ => rfl) rfl _ _

theorem stopped_uses : Moves Uses (stopped h) :=
  Moves.bind loopRestIo_uses fun _ => Moves.bind closeForkPipes_uses fun _ => callState_uses (by decide)

theorem launchError_isLaunch {code : Nat} {e : Error} (h : launchError code = some e) : e.isLaunch = true := by
  unfold launchError at h
  split at h <;> first | (cases h; rfl) | cases h

theorem callState_signaled (s : Sys) : ∃ t stdin userStop, callState h .signaled s = .ok () t ∧
    t.fds = s.fds ∧ t.procs = s.procs ∧
    t.trace = s.trace ++ [.handed h stdin userStop, .state h .signaled (s.procs h).proc] := by
  unfold callState
  rw [bind_of_ok (get_apply _), bind_of_ok (announce_apply ..)]
  cases s.handles h with
  | none => exact ⟨_, _, _, rfl, rfl, rfl, List.append_assoc ..⟩
  | some hd => exact ⟨_, _, _, rfl, rfl, rfl, List.append_assoc ..⟩

/-- The SIGNALED callback and the launch error behind it go together. -/
theorem reported_uses {x : Prog Unit} (hx : Moves Uses x) : Moves Uses (do
    callState h .signaled
    if !((← get).procs h).proc.running then
      modifyProc h fun p => { p with proc := { p.proc with stdinFd := -1 }, procKilled := true }
      handleProcReturnCode h
      x : Prog Unit) := by
  intro s
  obtain ⟨t, stdin, userStop, ht, hfds, hprocs, htrace⟩ := callState_signaled (h := h) s
  rw [bind_of_ok ht, bind_of_ok (get_apply _), hprocs]
  cases hrunning : (s.procs h).proc.running with
  | true => exact .announced (fun _ => hrunning) hfds htrace
  | false =>
    rw [if_pos (show (!false) = true from rfl), bind_of_ok (modifyProc_apply ..)]
    unfold handleProcReturnCode
    rw [bind_apply, bind_of_ok (get_apply _)]
    have hcode : ((Function.update t.procs h
        { t.procs h with proc := { (t.procs h).proc with stdinFd := -1 }, procKilled := true }) h).proc.returnCode =
        (s.procs h).proc.returnCode := by
      rw [Function.update_self, hprocs]
    rw [hcode]
    cases hl : launchError (s.procs h).proc.returnCode with
    | none =>
      refine Outcome.after (R := Uses) ?_ (hx _)
      refine ⟨.same hfds, _, htrace, fun hnone => absurd ?_ (hnone h .signaled (s.procs h).proc), fun owner => ?_⟩
      · exact List.mem_cons_of_mem _ List.mem_cons_self
      · simp [List.filterMap_cons, Event.launchTold, Event.launchDecoded, hl]
    | some e =>
      refine Outcome.after (R := Uses) ?_ (hx _)
      refine ⟨.same hfds, [.handed h stdin userStop, .state h .signaled (s.procs h).proc, .error h e], ?_,
        fun hnone => absurd ?_ (hnone h .signaled (s.procs h).proc), fun owner => ?_⟩
      · have htold := congrArg (· ++ [Event.error h e]) htrace
        exact htold.trans (List.append_assoc ..)
      · exact List.mem_cons_of_mem _ List.mem_cons_self
      · by_cases ho : h = owner
        · subst ho
          simp [List.filterMap_cons, Event.launchTold, Event.launchDecoded, hl, hrunning, launchError_isLaunch hl]
        · simp [List.filterMap_cons, Event.launchTold, Event.launchDecoded, ho]

theorem updateStatus_uses (status : WaitStatus) : Moves Uses (updateStatus h status) := by
  refine Moves.bind (modifyProc_uses _) fun _ => reported_uses (Moves.bind Moves.get fun s => ?_)
  exact Moves.ite (fun _ => stopped_uses) fun _ => Moves.pure _

theorem readClose_uses : Moves Uses (readClose h) := by
  refine Moves.bind Moves.get fun s => Moves.bind (readRetry_uses _ _) fun answer => ?_
  split
  · refine Moves.bind (processError_uses rfl) fun _ => Moves.bind Moves.get fun s => ?_
    exact Moves.ite (fun _ => Moves.bind failStopped_uses fun _ => Moves.pure _) fun _ => Moves.pure _
  · refine Moves.bind Moves.get fun s => ?_
    exact Moves.ite (fun _ => Moves.bind userStopped_uses fun _ => Moves.pure _) fun _ => Moves.pure _

theorem readStd_uses {cb : List UInt8 → Event} (hcb : ∀ data, (cb data).plain = true) {e : Error}
    (he : e.isLaunch = false) (fd : Int) : Moves Uses (readStd fd h cb e) := by
  refine Moves.bind (readRetry_uses _ _) fun answer => ?_
  split
  · refine Moves.bind (processError_uses he) fun _ => Moves.bind Moves.get fun s => ?_
    exact Moves.ite (fun _ => Moves.bind failStopped_uses fun _ => Moves.pure _) fun _ => Moves.pure _
  · exact Moves.pure _
  · exact Moves.bind (emit_uses (hcb _)) fun _ => Moves.pure _

theorem envAct_uses {s : Sys} (act : EnvAct) : Uses s (act.apply s) := by
  cases act with
  | childOut x data => simp only [EnvAct.apply]; split <;> exact .same rfl rfl
  | childErr x data => simp only [EnvAct.apply]; split <;> exact .same rfl rfl
  | userStop x =>
    obtain ⟨pipes, hw⟩ := s.toWorld.write_frame (s.procs x).pipeCloseWatch.wr [0]
    simp only [EnvAct.apply, hw]
    exact .same rfl rfl
  | sigchld =>
    obtain ⟨pipes, hw⟩ := s.toWorld.deliverSigchld_frame
    simp only [EnvAct.apply, hw]
    exact .same rfl rfl
  | exit pid status => simp only [EnvAct.apply]; split <;> [split; skip] <;> exact .same rfl rfl
  | setpgid pid pgid => simp only [EnvAct.apply]; split <;> [split; skip] <;> exact .same rfl rfl
  | fork pid pgid => simp only [EnvAct.apply]; split <;> exact .same rfl rfl
  | reap pid => simp only [EnvAct.apply]; split <;> exact .same rfl rfl
  | openFile fd =>
    simp only [EnvAct.apply]
    split
    next hfd => exact .quiet (.openFile hfd.1 (by simp [FdTarget.pipe?]) rfl .refl) rfl
    next => exact .same rfl rfl
  | closeFile fd =>
    simp only [EnvAct.apply]
    split
    · exact .quiet (.close fd .refl) rfl
    · exact .same rfl rfl

theorem waitpidOnce_uses : Moves Uses (waitpidOnce h) := by
  refine Moves.bind (modifyProc_uses _) fun _ => Moves.bind Moves.get fun s =>
    Moves.bind (waitpid_uses _) fun result => Moves.bind (emit_uses rfl) fun _ => ?_
  split
  · exact Moves.bind (modifyProc_uses _) fun _ => Moves.pure _
  · exact Moves.bind (processError_uses rfl) fun _ => Moves.pure _

theorem waitpidRetry_uses (faults : List (Option Errno)) : Moves Uses (waitpidRetry h faults) := by
  induction faults with
  | nil => exact Moves.bind waitpidOnce_uses fun _ => Moves.pure _
  | cons f faults ih =>
    exact Moves.bind waitpidOnce_uses fun _ => Moves.ite (fun _ => ih) fun _ => Moves.pure _

theorem singleHandleSigchld_uses : Moves Uses (singleHandleSigchld h) := by
  have hlast : Moves Uses (do updateStatus h ((← get).procs h).status : Prog Unit) :=
    Moves.bind Moves.get fun _ => updateStatus_uses _
  have hrest : Moves Uses (do
      waitpidRetry h (← get).faults
      unblockSigchld h
      updateStatus h ((← get).procs h).status : Prog Unit) :=
    Moves.bind Moves.get fun _ => Moves.bind (waitpidRetry_uses _) fun _ =>
      Moves.bind (Moves.bind (sigprocmask_uses false) fun _ =>
        Moves.ite (fun _ => processError_uses rfl) fun _ => Moves.pure _) fun _ => hlast
  exact Moves.bind (Moves.bind (sigprocmask_uses true) fun _ =>
    Moves.ite (fun _ => processError_uses rfl) fun _ => Moves.pure _) fun _ => hrest

theorem ioReadSignal_uses (fuel : Nat) : ∀ want got, Moves Uses (ioReadSignal h fuel want got) := by
  induction fuel with
  | zero => exact fun _ _ => Moves.throw _
  | succ fuel ih =>
    intro want got
    unfold ioReadSignal
    refine Moves.bind Moves.get fun s => Moves.bind (read_uses _ _) fun answer => ?_
    split
    · exact Moves.bind (processError_uses rfl) fun _ => Moves.pure _
    · exact Moves.ite (fun _ => Moves.pure _) fun _ => ih _ _

theorem loopControl_uses {onInterrupt : Prog EventReturn} (hi : Moves Uses onInterrupt) (fd : Int) :
    Moves Uses (loopControl onInterrupt fd) := by
  refine Moves.bind (readRetry_uses _ _) fun answer => ?_
  split
  · exact Moves.throw _
  · exact hi

theorem loopInterrupt_uses {κ : Type} (e : SelectEvent κ) : Moves Uses (loopInterrupt e) :=
  write_uses (fun _ => e.controlPipe.wr) [0]

theorem ioCallback_uses (cb : IoSource) (fd : Int) : Moves Uses (ioCallback h cb fd) := by
  cases cb with
  | interrupt =>
    exact loopControl_uses (Moves.bind (modifyProc_uses _) fun _ => Moves.pure _) fd
  | closeWatch =>
    refine Moves.bind readClose_uses fun ret => Moves.ite (fun _ => ?_) fun _ => Moves.pure _
    exact Moves.bind Moves.get fun s => Moves.bind (loopInterrupt_uses _) fun _ => Moves.pure _
  | stdout => exact Moves.bind Moves.get fun _ => readStd_uses (fun _ => rfl) rfl _
  | stderr => exact Moves.bind Moves.get fun _ => readStd_uses (fun _ => rfl) rfl _
  | sigchld =>
    refine Moves.bind (ioReadSignal_uses 4 4 []) fun signal => ?_
    split
    · exact Moves.pure _
    · have hlast : Moves Uses (do
          return if ((← get).procs h).procKilled then EventReturn.stopLoop else .nothing : Prog EventReturn) :=
        Moves.bind Moves.get fun _ => Moves.pure _
      exact Moves.ite (fun _ => Moves.bind singleHandleSigchld_uses fun _ => hlast) fun _ => hlast

theorem newSelectEvent_uses {κ : Type} (interrupt : κ) : Moves Uses (newSelectEvent interrupt) := by
  refine Moves.bind (pipe2_uses true) fun answer => ?_
  split
  · exact Moves.throw _
  · exact Moves.bind nextOrder_uses fun _ => Moves.pure _

theorem ioAdd_uses (fd : Int) (cb : IoSource) : Moves Uses (ioAdd fd cb) := by
  refine Moves.bind nextOrder_uses fun order => Moves.bind Moves.get fun s => ?_
  split
  · exact modify_uses fun _ => ⟨rfl, rfl⟩
  · exact Moves.throw _

theorem ioRegister_uses : Moves Uses (ioRegister h) :=
  Moves.bind (modifyProc_uses _) fun _ => Moves.bind (newSelectEvent_uses _) fun _ =>
    Moves.bind (modify_uses fun _ => ⟨rfl, rfl⟩) fun _ => Moves.bind Moves.get fun _ =>
      Moves.bind (ioAdd_uses _ _) fun _ => Moves.bind (ioAdd_uses _ _) fun _ =>
        Moves.bind (ioAdd_uses _ _) fun _ => ioAdd_uses _ _

theorem loopIo_uses : Moves Uses (loopIo h) := by
  have hdestroy : Moves Uses ioDestroy :=
    Moves.bind Moves.get fun s => Moves.bind (closePipe_uses _) fun _ => modify_uses fun _ => ⟨rfl, rfl⟩
  have hkeeps : ∀ {α : Type} {x : Prog α}, Moves Uses x → ∀ s₀, Keeps (Uses s₀) x :=
    fun hx s₀ => hx.keeps fun _ _ hst hs => IsTrans.trans _ _ _ hs hst
  have hloop : ∀ answers, Moves Uses (selectLoop ioRef (ioCallback h) (processError h .selectError) answers) := by
    intro answers s
    refine selectLoop_triple (I := Uses s) (J := Uses s) (E := fun _ => Uses s) (fun cb fd => ?_)
      (fun _ hu => hu.congr rfl rfl) (fun _ hu => hu.congr rfl rfl) (fun _ _ hu => hu.congr rfl rfl) (hkeeps (processError_uses rfl) s) (fun _ => id) answers
      (fun _ _ _ act _ u hu => IsTrans.trans _ _ _ hu (envAct_uses act)) s (Std.Refl.refl s)
    exact (hkeeps (ioCallback_uses cb fd) s).conseq (fun _ hu => hu.1) (fun _ _ ht => ⟨fun _ => ht, fun _ => ht⟩)
      fun _ _ => id
  exact Moves.bind ioRegister_uses fun _ => Moves.bind Moves.get fun s => Moves.bind (hloop _) fun _ => hdestroy

theorem exec_uses (args : List Char) : Moves Uses (exec h args) := by
  have hreset : Moves Uses (resetSigchldSignalHandler h) := by
    refine Moves.bind Moves.get fun s => Moves.bind (sigaction_uses _) fun answer => ?_
    split
    · exact Moves.pure _
    · exact Moves.bind (processError_uses rfl) fun _ => Moves.pure _
  have hwatch : Moves Uses (execWatch h args) := by
    refine guard_uses (execPrepare_uses args) (Moves.bind execStarted_uses fun _ =>
      Moves.bind Moves.get fun s => Moves.ite (fun _ => Moves.pure _) fun _ => ?_)
    exact Moves.bind loopIo_uses fun _ => Moves.bind hreset fun _ => Moves.pure _
  refine Moves.bind hwatch fun b => Moves.ite (fun _ => Moves.bind Moves.get fun s => ?_) fun _ => Moves.pure _
  exact Moves.ite (fun _ => userStopped_uses) fun _ => stopped_uses

theorem handleExec_uses : Moves Uses (handleExec h) := by
  refine Moves.bind Moves.get fun s => ?_
  split
  · exact Moves.pure _
  · exact Moves.bind (exec_uses _) fun _ => modify_uses fun _ => ⟨rfl, rfl⟩

theorem jobSpawnProc_uses : Moves Uses (jobSpawnProc h) := by
  refine Moves.bind Moves.get fun s => Moves.ite (fun _ => Moves.pure _) fun _ => ?_
  refine Moves.bind handleExec_uses fun _ => Moves.bind Moves.get fun s => Moves.bind (assert_uses _ _) fun _ =>
    Moves.bind (modify_uses fun _ => ⟨rfl, rfl⟩) fun _ => Moves.bind (modify_uses fun _ => ⟨rfl, rfl⟩) fun _ =>
      Moves.bind Moves.get fun s => ?_
  exact Moves.bind (addReadEvent_uses _ _) fun _ => Moves.bind (addReadEvent_uses _ _) fun _ =>
    Moves.bind (addReadEvent_uses _ _) fun _ => Moves.pure _

theorem userStop_uses (proc : ProcStatus) : Moves Uses (userStop proc) :=
  Moves.bind (assert_uses _ _) fun _ => write_uses (fun _ => proc.userStopFd) [0]

theorem cleanup_uses : Moves Uses cleanup := by
  have huser : ∀ l, Moves Uses (cleanupUser l) := by
    intro l
    induction l with
    | nil => exact Moves.pure _
    | cons p l ih =>
      refine Moves.bind Moves.get fun s => ?_
      split
      · exact Moves.bind (userStop_uses _) fun _ => ih
      · exact ih
  have hkill : ∀ signum l, Moves Uses (cleanupKill signum l) := by
    intro signum l
    induction l with
    | nil => exact Moves.pure _
    | cons p l ih => exact Moves.bind (emit_uses rfl) fun _ => ih
  refine Moves.bind (modify_uses fun _ => ⟨rfl, rfl⟩) fun _ => Moves.bind Moves.get fun s => ?_
  split
  · exact huser _
  · exact hkill _ _
  · exact Moves.pure _

theorem jobNullptrStop_uses : Moves Uses jobNullptrStop := by
  refine Moves.bind Moves.get fun s => Moves.ite (fun _ => ?_) fun _ => ?_
  · exact Moves.bind cleanup_uses fun _ => Moves.pure _
  · exact Moves.ite (fun _ => Moves.pure _) fun _ => Moves.pure _

theorem dispatchJob_uses : Moves Uses dispatchJob := by
  have hremove : Moves Uses bufferRemove := by
    refine Moves.bind Moves.get fun s => ?_
    split
    · exact Moves.throw _
    · exact Moves.bind (modify_uses fun _ => ⟨rfl, rfl⟩) fun _ => Moves.pure _
  refine Moves.bind hremove fun job => ?_
  match job with
  | none => exact jobNullptrStop_uses
  | some (.stop flag signum) =>
    refine Moves.bind Moves.get fun s => Moves.ite (fun _ => Moves.pure _) fun _ => ?_
    exact Moves.bind (modify_uses fun _ => ⟨rfl, rfl⟩) fun _ => jobNullptrStop_uses
  | some (.spawn h) => exact jobSpawnProc_uses

theorem handleStop_uses : Moves Uses handleStop := by
  refine Moves.bind Moves.get fun s => Moves.bind (removeReadEvent_uses _) fun _ => Moves.bind Moves.get fun s =>
    Moves.bind (removeReadEvent_uses _) fun _ => Moves.bind (modify_uses fun _ => ⟨rfl, rfl⟩) fun _ =>
      Moves.bind Moves.get fun s => Moves.ite (fun _ => ?_) fun _ => modify_uses fun _ => ⟨rfl, rfl⟩
  split
  · exact loopInterrupt_uses _
  · exact Moves.throw _

theorem onControlReady_uses (fd : Int) : Moves Uses (onControlReady fd) := by
  refine Moves.bind (readRetry_uses _ _) fun answer => ?_
  split
  · exact Moves.throw _
  · exact Moves.bind dispatchJob_uses fun _ => Moves.ite (fun _ => handleStop_uses) fun _ => Moves.pure _

theorem handlerProcessError_uses (e : Error) : Moves Uses (handlerProcessError e) := by
  refine Moves.bind Moves.get fun s => ?_
  split
  · exact Moves.pure _
  · refine Moves.bind (modify_uses fun _ => ⟨rfl, rfl⟩) fun _ => ?_
    exact Moves.ite (fun _ => multiProcessError_uses _) fun _ => Moves.pure _

theorem sigchldLoop_uses (fuel : Nat) : Moves Uses (sigchldLoop fuel) := by
  have hsignal : ∀ pid status, Moves Uses (onSignal pid status) := by
    intro pid status
    refine Moves.bind Moves.get fun s => ?_
    split
    · exact updateStatus_uses _
    · exact Moves.pure _
  induction fuel with
  | zero => exact Moves.throw _
  | succ fuel ih =>
    unfold sigchldLoop
    refine Moves.bind (waitpid_uses 0) fun result => Moves.bind (emit_uses rfl) fun _ => ?_
    split
    · exact Moves.pure _
    · exact handlerProcessError_uses _
    · exact ih
    · exact Moves.bind (hsignal _ _) fun _ => ih

theorem handleSigchld_uses : Moves Uses handleSigchld := by
  have hrest : Moves Uses (do
      let s ← get
      sigchldLoop (s.faults.length + s.children.keys.length + 1)
      if !(← call (World.sigprocmask · false)) then handlerProcessError .sigUnblockError) :=
    Moves.bind Moves.get fun _ => Moves.bind (sigchldLoop_uses _) fun _ =>
      Moves.bind (sigprocmask_uses false) fun _ =>
        Moves.ite (fun _ => handlerProcessError_uses _) fun _ => Moves.pure _
  exact Moves.bind (sigprocmask_uses true) fun _ =>
    Moves.ite (fun _ => Moves.bind (handlerProcessError_uses _) fun _ => hrest) fun _ => hrest

theorem onSigchldReady_uses : Moves Uses onSigchldReady := by
  have hfrom : ∀ fd fuel want got, Moves Uses (readSignalFrom fd fuel want got) := by
    intro fd fuel
    induction fuel with
    | zero => exact fun _ _ => Moves.throw _
    | succ fuel ih =>
      intro want got
      unfold readSignalFrom
      refine Moves.bind (read_uses _ _) fun answer => ?_
      split
      · exact ih _ _
      · exact Moves.pure _
      · exact Moves.ite (fun _ => Moves.pure _) fun _ => ih _ _
  have hread : Moves Uses readSignal := by
    refine Moves.bind Moves.get fun s => Moves.bind (hfrom _ _ _ _) fun signal => ?_
    split
    · exact Moves.pure _
    · exact Moves.ite (fun _ => Moves.bind handleSigchld_uses fun _ => Moves.pure _) fun _ => Moves.pure _
  exact Moves.bind hread fun _ => Moves.ite (fun _ => handleStop_uses) fun _ => Moves.pure _

theorem doAction_uses (fd : Int) : Moves Uses (doAction fd) := by
  refine Moves.bind Moves.get fun s => ?_
  split
  next source _ =>
    cases source with
    | sigchld => exact onSigchldReady_uses
    | control => exact onControlReady_uses fd
    | readClose x => exact discard_uses readClose_uses
    | readStdout x => exact discard_uses (Moves.bind Moves.get fun _ => readStd_uses (fun _ => rfl) rfl _)
    | readStderr x => exact discard_uses (Moves.bind Moves.get fun _ => readStd_uses (fun _ => rfl) rfl _)
  next => exact Moves.throw _

theorem closeSigchld_uses (f : World → Bool) : Moves Uses (onWorld fun w => { w.closePipe w.sigchldPipe with
    sigchldPipe := w.sigchldPipe.closed, sigchldActive := f w }) :=
  onWorld_uses fun w => ⟨FdSteps.closePipe w w.sigchldPipe, World.closePipe_trace w w.sigchldPipe⟩

theorem newSigchldHandler_uses : Moves Uses newSigchldHandler := by
  have hset : Moves Uses sigchldSetSignalHandler := by
    refine Moves.bind (pipe2_uses true) fun answer => ?_
    split
    · exact Moves.pure _
    · refine Moves.bind (modify_uses fun _ => ⟨rfl, rfl⟩) fun _ =>
        Moves.bind (sigaction_uses fun _ => .sigchldSignalHandler) fun prev => ?_
      split
      · exact Moves.bind (onWorld_uses fun w =>
          ⟨FdSteps.closePipe w w.sigchldPipe, World.closePipe_trace w w.sigchldPipe⟩) fun _ => Moves.pure _
      · exact Moves.bind (modify_uses fun _ => ⟨rfl, rfl⟩) fun _ => Moves.pure _
  exact Moves.bind hset fun _ => Moves.ite (fun _ => Moves.pure _) fun _ => Moves.pure _

theorem destroySigchldHandler_uses (handler : SigchldHandler) :
    Moves Uses (destroySigchldHandler handler) := by
  have hreset : Moves Uses sigchldResetSignalHandler := by
    refine Moves.bind Moves.get fun s => Moves.ite (fun _ => Moves.pure _) fun _ =>
      Moves.bind (sigaction_uses _) fun prev => ?_
    split
    · exact Moves.pure _
    · exact Moves.bind (closeSigchld_uses _) fun _ => Moves.pure _
  refine Moves.bind hreset fun _ => Moves.ite (fun _ => ?_) fun _ => Moves.pure _
  exact Moves.ite (fun _ => multiProcessError_uses _) fun _ => Moves.pure _

theorem finishHandler_uses : Moves Uses (do
    modify fun s => { s with loop := none }
    match (← get).sigchld with
    | some handler => destroySigchldHandler handler
    | none => pure ()
    modify fun s => { s with sigchld := none, running := false } : Prog Unit) := by
  have hlast : Moves Uses (modify fun s => { s with sigchld := none, running := false } : Prog Unit) :=
    modify_uses fun _ => ⟨rfl, rfl⟩
  refine Moves.bind (modify_uses fun _ => ⟨rfl, rfl⟩) fun _ => Moves.bind Moves.get fun s => ?_
  split
  · exact Moves.bind (destroySigchldHandler_uses _) fun _ => hlast
  · exact hlast

theorem runFinish_uses : Moves Uses runFinish := by
  refine Moves.bind Moves.get fun s => ?_
  split
  · exact Moves.bind (closePipe_uses _) fun _ => finishHandler_uses
  · exact finishHandler_uses

theorem makeLoop_uses : Moves Uses makeLoop := by
  refine Moves.bind (newSelectEvent_uses _) fun e => Moves.bind Moves.get fun s =>
    Moves.bind (modify_uses fun _ => ⟨rfl, rfl⟩) fun _ => ?_
  split
  · exact closePipe_uses _
  · exact Moves.pure _

theorem replaceSigchld_uses : Moves Uses replaceSigchld := by
  refine Moves.bind newSigchldHandler_uses fun handler => Moves.bind Moves.get fun s =>
    Moves.bind (modify_uses fun _ => ⟨rfl, rfl⟩) fun _ => ?_
  split
  · exact destroySigchldHandler_uses _
  · exact Moves.pure _

theorem runHandler_uses : Moves Uses runHandler := by
  refine Moves.bind replaceSigchld_uses fun _ => Moves.bind Moves.get fun s => ?_
  split
  · refine Moves.ite (fun _ => Moves.bind (multiProcessError_uses _) fun _ => Moves.pure _) fun _ => ?_
    exact Moves.bind (modify_uses fun _ => ⟨rfl, rfl⟩) fun _ => Moves.bind Moves.get fun _ =>
      Moves.bind (addReadEvent_uses _ _) fun _ => Moves.bind Moves.get fun _ =>
        Moves.bind (addReadEvent_uses _ _) fun _ => Moves.bind (modify_uses fun _ => ⟨rfl, rfl⟩) fun _ => Moves.pure _
  · exact Moves.pure _

theorem startRun_uses (type : LoopType) : Moves Uses (startRun type) := by
  have hsetup : Moves Uses runSetup := Moves.bind Moves.get fun s =>
    Moves.ite (fun _ => Moves.bind makeLoop_uses fun _ => runHandler_uses) fun _ => runHandler_uses
  have hlast : Moves Uses (do let _ ← runSetup : Prog Unit) := Moves.bind hsetup fun _ => Moves.pure _
  exact Moves.bind (modify_uses fun _ => ⟨rfl, rfl⟩) fun _ =>
    Moves.ite (fun _ => Moves.bind (modify_uses fun _ => ⟨rfl, rfl⟩) fun _ => hlast) fun _ => hlast

theorem dispatch_uses (fd : Int) : Moves Uses (dispatch fd) := by
  have hcall : ∀ cb, Moves Uses (loopCallback cb fd) := by
    intro cb
    cases cb with
    | interrupt => exact loopControl_uses (Moves.pure _) fd
    | doAction => exact Moves.bind (doAction_uses fd) fun _ => Moves.pure _
  refine Moves.bind Moves.get fun s => ?_
  split
  · split
    · exact Moves.bind (hcall _) fun _ => Moves.ite (fun _ => runFinish_uses) fun _ => Moves.pure _
    · exact Moves.pure _
  · exact Moves.pure _
  · exact doAction_uses fd

/-- Every step opens pipes and closes descriptors, no more. -/
theorem label_uses (l : Label) : Moves Uses l.prog := by
  cases l with
  | exec args hasOnStop =>
    exact Moves.bind Moves.get fun s => Moves.bind (modify_uses fun _ => ⟨rfl, rfl⟩) fun _ => sendJob_uses _
  | stop flag signum => exact sendJob_uses _
  | env act => exact Moves.modify fun s => envAct_uses act
  | run type c => exact Moves.bind (modify_uses fun _ => ⟨rfl, rfl⟩) fun _ => startRun_uses type
  | event fd c => exact Moves.bind (modify_uses fun _ => ⟨rfl, rfl⟩) fun _ => dispatch_uses fd
  | selectError => exact Moves.bind (multiProcessError_uses _) fun _ => runFinish_uses

end Pexec
