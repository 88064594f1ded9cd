import Pexec.Enrolling
import Pexec.MultiEmissions

namespace Pexec

open Effect

/-- Nothing is told, and what is open stays open. -/
structure World.Expands (w w' : World) : Prop where
  trace : w'.trace = w.trace
  vigil : w'.vigil = w.vigil
  held : ∀ fd x, w.fds.target fd = some x → w'.fds.target fd = some x

instance : IsPreorder World World.Expands where
  refl _ := ⟨rfl, rfl, fun _ _ => id⟩
  trans _ _ _ hst htu := ⟨htu.trace.trans hst.trace, htu.vigil.trans hst.vigil, fun fd x hx =>
    htu.held fd x (hst.held fd x hx)⟩

theorem World.Expands.same {w w' : World} (ht : w'.trace = w.trace) (hv : w'.vigil = w.vigil) (hf : w'.fds = w.fds) :
    w.Expands w' := ⟨ht, hv, fun _ _ hx => hf ▸ hx⟩

/-- Where the program succeeds it has told nothing and closed nothing. -/
def Tacit (x : Prog Bool) : Prop := ∀ s t, x s = .ok true t → s.toWorld.Expands t.toWorld

variable {h : Nat} {pid : Int} {s t u : Sys} {x y : Prog Bool}

theorem Tacit.fails {x : Prog Unit} : Tacit (do x; return false) := by
  intro s t ht
  obtain ⟨_, u, _, ht⟩ := bind_eq_ok.mp ht
  cases ht

theorem Tacit.pure : Tacit (pure true) := by
  intro s t ht
  cases ht
  exact Std.Refl.refl s.toWorld

theorem Tacit.modify {f : Sys → Sys} (hf : ∀ s : Sys, s.toWorld.Expands (f s).toWorld) (hx : Tacit x) :
    Tacit (do modify f; x) := fun s t ht => IsTrans.trans _ _ _ (hf s) (hx (f s) t ht)

theorem Tacit.get {f : Sys → Prog Bool} (hf : ∀ s, Tacit (f s)) : Tacit (get >>= f) := fun s t ht => hf s s t ht

theorem Tacit.ite {c : Prop} [Decidable c] (hx : c → Tacit x) (hy : ¬c → Tacit y) :
    Tacit (if c then x else y) := by
  split
  next hc => exact hx hc
  next hc => exact hy hc

theorem Tacit.guard (hx : Tacit x) (hy : Tacit y) :
    Tacit (x >>= fun b => if (!b) = true then Pure.pure false else y) := by
  intro s t ht
  obtain ⟨u, hu, ht⟩ := guard_eq_true ht
  exact IsTrans.trans _ _ _ (hx s u hu) (hy u t ht)

/-- A system call that tells nothing, and what is done with its answer. -/
theorem Tacit.call {α : Type} {f : World → α × World} {g : α → Prog Bool} (hf : ∀ w : World, w.Expands (f w).2)
    (hg : ∀ a, Tacit (g a)) : Tacit (call f >>= g) := fun s t ht => IsTrans.trans _ _ _ (hf s.toWorld) (hg _ _ t ht)

theorem pipe2_expands (w : World) (cloexec : Bool) : w.Expands (w.pipe2 cloexec).2 := by
  cases hf : w.faults.head?.join with
  | some e =>
    rw [World.pipe2_of_fault hf]
    exact .same rfl rfl rfl
  | none =>
    rw [World.pipe2_of_none hf]
    refine ⟨rfl, rfl, fun fd x hx => ?_⟩
    obtain ⟨d, hd, rfl⟩ := FdTable.target_eq.mp hx
    refine FdTable.target_eq.mpr ⟨d, ?_, rfl⟩
    rw [← hd]
    exact FdTable.openPipe_get_old w.fds _ cloexec (by rw [hd]; exact Option.some_ne_none d)

theorem preparePipe_tacit {cloexec : Bool} {store : PipeFds → Sys → Sys} {e : Error}
    (hstore : ∀ p (s : Sys), s.toWorld.Expands (store p s).toWorld) : Tacit (preparePipe h cloexec store e) := by
  refine Tacit.call (pipe2_expands · cloexec) fun answer => ?_
  cases answer with
  | some p => exact Tacit.modify (hstore p) .pure
  | none => exact Tacit.fails (x := do processError h e; failStopped h)

theorem prepareForkPipes_tacit : Tacit (prepareForkPipes h) := by
  have hsame : ∀ {w w' : World}, w' = w → w.Expands w' := fun he => he ▸ Std.Refl.refl _
  have hwatch : Tacit (preparePipeWatch h) := preparePipe_tacit fun _ _ => hsame rfl
  have hsignal : Tacit (preparePipeSignal h) := preparePipe_tacit fun _ _ => .same rfl rfl rfl
  refine Tacit.guard (preparePipe_tacit fun _ _ => hsame rfl) (Tacit.guard (preparePipe_tacit fun _ _ => hsame rfl)
    (Tacit.guard (preparePipe_tacit fun _ _ => hsame rfl) (Tacit.get fun s => Tacit.ite (fun _ => ?_) fun _ => hwatch)))
  exact hsignal.guard hwatch

theorem prepareArgs_tacit : Tacit (prepareArgs h) :=
  have hfail : ∀ e, Tacit (do processError h e; failStopped h; return false) := fun e =>
    Tacit.fails (x := do processError h e; failStopped h)
  Tacit.modify (fun _ => Std.Refl.refl _) (Tacit.get fun _ => Tacit.ite (fun _ => hfail _) fun _ =>
    Tacit.modify (fun _ => Std.Refl.refl _) (Tacit.get fun _ => Tacit.ite (fun _ => hfail _) fun _ => .pure))

theorem setSigchldSignalHandler_tacit : Tacit (setSigchldSignalHandler h) := by
  refine Tacit.call (fun w => ?_) fun answer => ?_
  · obtain ⟨faults, disposition, hw⟩ := w.sigaction_frame .sigchldBlockingSignalHandler
    rw [hw]
    exact .same rfl rfl rfl
  · cases answer with
    | some prev => exact Tacit.modify (fun _ => Std.Refl.refl _) .pure
    | none => exact Tacit.fails (x := do processError h .sigactionSetError; failStopped h)

theorem spawnProc_tacit : Tacit (spawnProc h) := by
  refine Tacit.call (fun w => ?_) fun answer => ?_
  · cases hf : w.faults.head?.join with
    | some e =>
      rw [World.fork_of_fault hf]
      exact .same rfl rfl rfl
    | none =>
      rw [World.fork_of_none hf]
      exact .same rfl rfl rfl
  · cases answer with
    | some pid => exact Tacit.modify (fun _ => Std.Refl.refl _) .pure
    | none => exact Tacit.modify (fun _ => Std.Refl.refl _) (Tacit.fails (x := do processError h .forkError; failStopped h))

theorem execPrepare_tacit (args : List Char) : Tacit (execPrepare h args) :=
  Tacit.modify (fun _ => Std.Refl.refl _) (prepareArgs_tacit.guard (prepareForkPipes_tacit.guard (Tacit.get fun _ =>
    Tacit.ite (fun _ => setSigchldSignalHandler_tacit.guard spawnProc_tacit) fun _ => spawnProc_tacit)))

/-- STARTED is told first, of a process that is running, and then what is registered. -/
structure Introduced (h : Nat) (s t : Sys) : Prop where
  trace : ∃ stdin userStop proc rest, t.trace = s.trace ++ [.handed h stdin userStop, .state h .started proc] ++ rest ∧
    proc.running = true ∧ ∀ e ∈ rest, e.owner = none

/-- `exec` of a handle whose process was started. -/
theorem handleExec_started {hd : Handle} (hh : s.handles h = some hd) (hu : Unspawned h s)
    (ht : handleExec h s = .ok () t) (hpid : handlePid t h ≠ 0) : ∃ u handles, execPrepare h hd.args s = .ok true u ∧
      t = { u with
        toWorld := u.toWorld.announced h .started (u.procs h).started
        procs := Function.update u.procs h (u.procs h).started
        handles } := by
  obtain ⟨b, u, hprep, hun, _⟩ := (execPrepare_through hd.args (F := s.faults)).total ⟨hu, rfl⟩
  cases b with
  | false =>
    obtain ⟨t', ht', hzero⟩ := handleExec_failed hh hprep hun
    cases ht.symm.trans ht'
    exact absurd hzero hpid
  | true =>
    have htype : (u.procs h).type = .nonblocking := hun.type
    set u₁ : Sys := { u with procs := Function.update u.procs h (u.procs h).started } with hu₁
    have hproc : u₁.procs h = (u.procs h).started := Function.update_self ..
    obtain ⟨handles, hcall⟩ := callState_handles (h := h) (rfl : State.terminal .started = false) u₁
    rw [hproc] at hcall
    set u₂ : Sys := { u₁ with toWorld := u₁.toWorld.announced h .started (u.procs h).started, handles } with hu₂
    have hstart : execStarted h u = .ok () u₂ := by
      unfold execStarted
      rw [bind_of_ok (modifyProc_apply h PexecSingle.started u), hcall]
    have htype₂ : (u₂.procs h).type = .nonblocking := by
      rw [show u₂.procs h = (u.procs h).started from hproc]
      exact htype
    have hrun : exec h hd.args s = .ok () u₂ := by
      simp only [exec, execWatch, bind_apply, hprep, Bool.not_true, Bool.false_eq_true, if_false, hstart,
        get_apply, htype₂, if_true, pure_apply]
    unfold handleExec at ht
    rw [bind_of_ok (get_apply _)] at ht
    simp only [hh] at ht
    rw [bind_of_ok hrun] at ht
    cases ht
    exact ⟨u, _, hprep, rfl⟩

theorem handleExec_told {hd : Handle} (hh : s.handles h = some hd) (hu : Unspawned h s)
    (ht : handleExec h s = .ok () t) (hpid : handlePid t h ≠ 0) : ∃ stdin userStop proc,
      t.trace = s.trace ++ [.handed h stdin userStop, .state h .started proc] ∧ proc.running = true := by
  obtain ⟨u, handles, hprep, rfl⟩ := handleExec_started hh hu ht hpid
  obtain ⟨stdin, userStop, htold⟩ := World.announced_trace u.toWorld h .started (u.procs h).started
  refine ⟨stdin, userStop, (u.procs h).started.proc, ?_, rfl⟩
  rw [← (execPrepare_tacit hd.args s u hprep).trace]
  exact htold

/-- A spawn job that is not refused. -/
theorem jobSpawnProc_introduces {hd : Handle} {ret : EventReturn} (hgoing : s.stopping = false)
    (hh : s.handles h = some hd) (hu : Unspawned h s) (ht : jobSpawnProc h s = .ok ret t) :
    Introduced h s t := by
  unfold jobSpawnProc at ht
  rw [bind_of_ok (get_apply _), if_neg (by rw [hgoing]; decide)] at ht
  obtain ⟨_, v, hexec, ht⟩ := bind_eq_ok.mp ht
  rw [bind_of_ok (get_apply _)] at ht
  obtain ⟨_, v', hassert, ht⟩ := bind_eq_ok.mp ht
  have hpos : 0 < handlePid v h := by
    by_contra hneg
    rw [decide_eq_false hneg] at hassert
    cases hassert
  rw [decide_eq_true hpos] at hassert
  cases hassert
  obtain ⟨stdin, userStop, proc, htrace, hrunning⟩ := handleExec_told hh hu hexec (Int.ne_of_gt hpos)
  obtain ⟨_, _, hactive, ht⟩ := bind_eq_ok.mp ht
  cases hactive
  obtain ⟨_, _, hhandles, ht⟩ := bind_eq_ok.mp ht
  cases hhandles
  have hadd : ∀ fd cb, Moves (Tells fun e => e.owner = none) (addReadEvent fd cb) :=
    addReadEvent_tells fun _ _ => rfl
  obtain ⟨new, hnew, hnone⟩ := ((Moves.bind Moves.get fun _ => Moves.bind (hadd _ _) fun _ =>
    Moves.bind (hadd _ _) fun _ => Moves.bind (hadd _ _) fun _ => Moves.pure _).ok ht).events
  exact ⟨stdin, userStop, proc, new, hnew.trans (congrArg (· ++ new) htrace), hrunning, hnone⟩

end Pexec
