import Pexec.BlockingRuns

namespace Pexec

open Attempts Effect Runs

/-- The process with a freshly constructed object in the place of `h`. -/
def Sys.renewed (s : Sys) (h : Nat) : Sys := { s with procs := Function.update s.procs h {} }

/-- The calls of the callbacks of object `h`. -/
def Event.tells (h : Nat) : Event → Bool
  | .state owner .. | .error owner _ | .out owner _ | .err owner _ => owner == h
  | _ => false

/-- What the callbacks of object `h` are told, in order and with the contents of the status. -/
def toldTo (h : Nat) (events : List Event) : List Event := events.filter (Event.tells h)

/-- The part of `proc_` that `exec` does not set before the first callback. -/
def ProcStatus.residue (p : ProcStatus) : ProcStatus :=
  { p with pid := 0, stdinFd := -1, userStopFd := -1, running := false }

variable {h : Nat} {line : List Char} {s t u : Sys} {w : World} {ls : List BlockingLabel}

theorem Sys.renewed_array (s : Sys) (h : Nat) (slot : Slot) :
    (s.renewed h).array slot = if slot.owner = some h then {} else s.array slot := by
  cases slot with
  | stdin x | stdout x | stderr x | watch x =>
    by_cases hx : x = h
    · subst x
      simp [Sys.renewed, Sys.array, Slot.owner]
    · simp [Sys.renewed, Sys.array, Slot.owner, hx]
  | control | sigchld | blocking | loop | ioLoop => simp [Sys.renewed, Sys.array, Slot.owner]

/-- A fresh object owns nothing. -/
theorem Resting.renewed (hs : Resting h s) : Resting h (s.renewed h) := by
  have hpipe : ∀ {slot pipe}, ((s.renewed h).array slot).pipe = some pipe →
      (s.renewed h).array slot = s.array slot := by
    intro slot pipe hp
    rw [Sys.renewed_array] at hp ⊢
    by_cases ho : slot.owner = some h
    · rw [if_pos ho] at hp
      cases hp
    · rw [if_neg ho]
  refine ⟨⟨hs.alone.handles, by simp [Sys.renewed]⟩, ⟨?_, ?_, ?_, ?_⟩, ?_⟩
  · intro slot
    rw [Sys.renewed_array]
    split
    · exact .inl ⟨rfl, rfl⟩
    · exact hs.owns.ends slot
  · intro i j pipe hi hj
    rw [hpipe hi] at hi
    rw [hpipe hj] at hj
    exact hs.owns.apart i j pipe hi hj
  · intro i pipe hi
    rw [hpipe hi] at hi
    exact hs.owns.below i pipe hi
  · intro i pipe x target hi hx ht
    have heq := hpipe hi
    rw [heq] at hi ⊢
    exact hs.owns.only i pipe x target hi hx ht
  · intro slot hslot
    rw [Sys.renewed_array]
    split
    · rfl
    · exact hs.closed slot hslot

def Stage.both (line : List Char) (steps : List Stage) (c : World × PexecSingle) :
    World × PexecSingle :=
  steps.foldl (fun c st => (st.kernel c.1, st.object line c.1 c.2)) c

theorem Stage.foldl_run (steps : List Stage) (s : Sys) :
    steps.foldl (fun u st => st.run h line u) s = { s with
      toWorld := (Stage.both line steps (s.toWorld, s.procs h)).1
      procs := Function.update s.procs h (Stage.both line steps (s.toWorld, s.procs h)).2 } := by
  induction steps generalizing s with
  | nil => simp [Stage.both]
  | cons st steps ih =>
    rw [List.foldl_cons, ih]
    simp [Stage.run, Stage.both]

/-- The stages set all of the object but its type, its status and the flags. -/
theorem Stage.both_all (w : World) (p : PexecSingle) :
    Stage.both line Stage.all (w, p) = ((Stage.both line Stage.all (w, {})).1,
      { (Stage.both line Stage.all (w, {})).2 with
        type := p.type
        proc := p.proc
        procKilled := p.procKilled
        userStopped := p.userStopped
        status := p.status }) := rfl

/-- The object with what the stages leave alone as in a fresh one. -/
def Sys.wiped (u : Sys) (h : Nat) : Sys :=
  { u with procs := Function.update u.procs h { (u.procs h).unflagged with proc := {} } }

theorem execPrepare_renewed (hs : Resting h s) (hnone : prepareFails line s.faults = none) :
    ∃ u, execPrepare h line s = .ok true u ∧ (u.procs h).proc = (s.procs h).proc ∧
      Preparing h s [] u ∧ execPrepare h line (s.renewed h) = .ok true (u.wiped h) := by
  have hprepared : ∀ {v}, Resting h v → v.faults = s.faults →
      execPrepare h line v = .ok true (Stage.all.foldl (fun u st => st.run h line u) v) := by
    intro v hv hf
    have henacts : execPrepare h line v = .ok (prepares h line Stage.all v).1.isNone
      (prepares h line Stage.all v).2 := execPrepare_enacts hv.alone
    have hfst : (prepares h line Stage.all v).1 = none := by rw [prepares_fst, hf, hnone]
    rw [henacts, hfst]
    exact congrArg _ (attempts_of_none hfst)
  rcases execPrepare_cases hs with ⟨st, _, hfails, _⟩ | ⟨u, _, hu, hprep⟩
  · rw [hnone] at hfails
    cases hfails
  cases (hprepared hs rfl).symm.trans hu
  refine ⟨_, hu, hprep.proc, hprep, (hprepared hs.renewed rfl).trans ?_⟩
  rw [Stage.foldl_run, Stage.foldl_run]
  simp only [Sys.renewed, Sys.wiped, Function.update_self, Function.update_idem,
    Stage.both_all s.toWorld (s.procs h), hs.alone.type]
  rfl

theorem ProcStatus.residue_eq_iff {p q : ProcStatus} : p.residue = q.residue ↔
    ∀ pid stdinFd userStopFd running, { p with pid, stdinFd, userStopFd, running } =
      { q with pid, stdinFd, userStopFd, running } := by
  constructor
  · intro heq pid stdinFd userStopFd running
    exact congrArg (fun r : ProcStatus => { r with pid, stdinFd, userStopFd, running }) heq
  · intro hall
    exact hall 0 (-1) (-1) false

/-- `loop_io` resets the flags. -/
theorem loopIo_unflagged {c : Sys} {p : PexecSingle} (hp : p.unflagged = (c.procs h).unflagged) :
    loopIo h { c with procs := Function.update c.procs h p } = loopIo h c := by
  have hregister : ioRegister h { c with procs := Function.update c.procs h p } = ioRegister h c := by
    unfold ioRegister
    rw [bind_of_ok (modifyProc_apply ..), bind_of_ok (modifyProc_apply ..)]
    have hp' := hp
    simp only [PexecSingle.unflagged] at hp'
    simp only [Function.update_self, Function.update_idem, hp']
  unfold loopIo
  rw [bind_apply, bind_apply, hregister]

theorem exec_of_refused (hu : execPrepare h line s = .ok false u) : exec h line s = .ok () u :=
  bind_of_ok (show execWatch h line s = .ok false u from bind_of_ok hu)

theorem exec_of_started {c : Sys} (hu : execPrepare h line s = .ok true u)
    (hc : execStarted h u = .ok () c) (htype : (c.procs h).type = .blocking) :
    exec h line s = (do
      loopIo h
      let _ ← resetSigchldSignalHandler h
      execEnd h : Prog Unit) c := by
  have hwatch : execWatch h line s = (do
      loopIo h
      let _ ← resetSigchldSignalHandler h
      return true : Prog Bool) c := by
    refine (bind_of_ok hu).trans ?_
    simp only [Bool.not_true, Bool.false_eq_true, if_false]
    rw [bind_of_ok hc, bind_of_ok (get_apply _), htype]
    rfl
  unfold exec
  rw [bind_apply, hwatch]
  simp only [bind_apply]
  cases loopIo h c with
  | error e v => rfl
  | ok a v =>
    dsimp only
    cases resetSigchldSignalHandler h v <;> rfl

theorem Sys.wiped_started (hres : (u.procs h).proc.residue = ({} : ProcStatus).residue) :
    ((u.wiped h).procs h).started = (u.procs h).started.unflagged := by
  have hproc := ProcStatus.residue_eq_iff.mp hres (u.procs h).procPid (u.procs h).pipeStdin.wr
    (u.procs h).pipeCloseWatch.wr true
  simp only [Sys.wiped, Function.update_self, PexecSingle.started, PexecSingle.unflagged]
  rw [hproc]

theorem World.announced_unflagged (w : World) (st : State) (p : PexecSingle) :
    w.announced h st p.unflagged = w.announced h st p := rfl

/-- With nothing left in `proc_` the run is that of a fresh object. -/
theorem exec_renewed (hs : Resting h s) (hnone : prepareFails line s.faults = none)
    (hres : (s.procs h).proc.residue = ({} : ProcStatus).residue) :
    exec h line (s.renewed h) = exec h line s := by
  obtain ⟨u, hu, hproc, hprep, hu'⟩ := execPrepare_renewed hs hnone
  have halone := (hprep.engaged hs.alone).alone
  have hstart := execStarted_apply (h := h) (t := u) halone.handles
  have hstart' := execStarted_apply (h := h) (t := u.wiped h) halone.handles
  rw [Sys.wiped_started (hproc ▸ hres), World.announced_unflagged] at hstart'
  rw [exec_of_started hu hstart (by simpa [PexecSingle.started] using halone.type),
    exec_of_started hu' hstart'
      (by simpa [PexecSingle.started, PexecSingle.unflagged] using halone.type),
    bind_apply, bind_apply]
  have hloop := loopIo_unflagged (h := h) (p := (u.procs h).started.unflagged) (c := { u with
    toWorld := u.toWorld.announced h .started (u.procs h).started
    procs := Function.update u.procs h (u.procs h).started }) (by simp [PexecSingle.unflagged])
  rw [← hloop]
  simp [Sys.wiped]

theorem Abandoned.told {st : Stage} (ht : Abandoned h s st t) : toldTo h (newEvents s t) =
    [.error h st.error, .state h .failStopped (s.procs h).proc] := by
  rw [newEvents_eq ht.trace]
  simp [toldTo, Event.tells]

theorem Completed.told {q : ProcStatus} {e : Sys} (ht : Completed h s q e t) :
    (toldTo h (newEvents s t)).head? = some (.state h .started q) := by
  obtain ⟨mid, hevents, _⟩ := ht.events
  rw [hevents]
  simp [toldTo, startedEvents, Event.tells]

theorem Loops.residue {q : ProcStatus} {d e : Sys} (hl : Loops h line s q d e) :
    q.residue = (s.procs h).proc.residue := by
  obtain ⟨u, _, _, hprep, rfl, _⟩ := hl.prepared
  rw [← hprep.proc]
  rfl

/-- A further call on an object that was run before is told what a fresh object would be, exactly
when the earlier runs have left nothing in `proc_` that the call does not set again. -/
theorem exec_independent_iff (hrun : Run (BlockingStep h) (boot w) ls s)
    (ht : exec h line s = .ok () t) :
    (∃ t', exec h line (s.renewed h) = .ok () t' ∧
      toldTo h (newEvents (s.renewed h) t') = toldTo h (newEvents s t)) ↔
    if prepareFails line s.faults = none then (s.procs h).proc.residue = ({} : ProcStatus).residue
    else (s.procs h).proc = {} := by
  have hs := run_resting hrun
  have hfresh : ((s.renewed h).procs h).proc = {} := by simp [Sys.renewed]
  rcases exec_course hs ht with ⟨st, hfails, ha⟩ | ⟨q, d, e, hnone, hl, hc⟩
  · rw [if_neg (by rw [hfails]; exact Option.some_ne_none st), ha.told]
    constructor
    · rintro ⟨t', ht', htold⟩
      rcases exec_course hs.renewed ht' with ⟨st', hfails', ha'⟩ | ⟨_, _, _, hnone', _⟩
      · rw [ha'.told, hfresh] at htold
        simp only [List.cons.injEq, Event.state.injEq, true_and, and_true] at htold
        exact htold.2.symm
      · rw [show (s.renewed h).faults = s.faults from rfl, hfails] at hnone'
        cases hnone'
    · intro hproc
      rcases @execPrepare_cases h line _ hs.renewed with ⟨st', t', hfails', hprep, ha'⟩ |
        ⟨_, hnone', _⟩
      · rw [show (s.renewed h).faults = s.faults from rfl, hfails] at hfails'
        cases hfails'
        exact ⟨t', exec_of_refused hprep, by rw [ha'.told, hfresh, hproc]⟩
      · rw [show (s.renewed h).faults = s.faults from rfl, hfails] at hnone'
        cases hnone'
  · rw [if_pos hnone]
    constructor
    · rintro ⟨t', ht', htold⟩
      rcases exec_course hs.renewed ht' with ⟨st', hfails', ha'⟩ | ⟨q', _, _, _, hl', hc'⟩
      · rw [show (s.renewed h).faults = s.faults from rfl, hnone] at hfails'
        cases hfails'
      · have hhead := hc.told
        rw [← htold, hc'.told] at hhead
        have hq : q' = q := by simpa using hhead
        rw [← hl.residue, ← hq, hl'.residue, hfresh]
    · intro hres
      refine ⟨t, (exec_renewed hs hnone hres).trans ht, rfl⟩

/-- A program that could not be executed, and then one that is killed by signal 9. -/
def missingRun : Sys :=
  { (boot {}).choose {} with selects := [.ready [.exit 1 ⟨0x6400, by decide⟩, .sigchld] [6]] }

def missedRun : Sys := final (exec 0 ['a']) missingRun

def killingRun : Sys :=
  { missedRun.choose {} with selects := [.ready [.exit 1 ⟨9, terminated_killed⟩, .sigchld] [6]] }

def killedRun : Sys := final (exec 0 ['a']) killingRun

theorem missedRun_ok : exec 0 ['a'] missingRun = .ok () missedRun := ok_final (by decide +kernel)

theorem killedRun_ok : exec 0 ['a'] killingRun = .ok () killedRun := ok_final (by decide +kernel)

theorem killingRun_run : Run (BlockingStep 0) (boot {})
    ([] ++ [.choose {} [.ready [.exit 1 ⟨0x6400, by decide⟩, .sigchld] [6]]] ++ [.exec ['a']] ++
      [.choose {} [.ready [.exit 1 ⟨9, terminated_killed⟩, .sigchld] [6]]]) killingRun :=
  .snoc (.snoc (.snoc .nil rfl) missedRun_ok) rfl

/-- The second run reports the launch error of the first. -/
theorem second_run_differs : toldTo 0 (newEvents (killingRun.renewed 0)
      (final (exec 0 ['a']) (killingRun.renewed 0))) ≠ toldTo 0 (newEvents killingRun killedRun) ∧
    .error 0 .forkExecError ∈ newEvents killingRun killedRun := by
  decide +kernel

theorem exec_independent_killed :
    (∃ t', exec 0 ['a'] (killingRun.renewed 0) = .ok () t' ∧
      toldTo 0 (newEvents (killingRun.renewed 0) t') = toldTo 0 (newEvents killingRun killedRun)) ↔
    if prepareFails ['a'] killingRun.faults = none then
      (killingRun.procs 0).proc.residue = ({} : ProcStatus).residue
    else (killingRun.procs 0).proc = {} :=
  exec_independent_iff killingRun_run killedRun_ok

end Pexec
