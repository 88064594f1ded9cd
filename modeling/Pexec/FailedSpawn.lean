import Pexec.Lib.Effect
import Pexec.MultiRun
import Pexec.WorldRules

namespace Pexec

open Effect

/-- What makes `pexec::exec` fail before it has a child: no arguments, or an error of one of the
five calls (four `pipe2` and `fork`) that it makes. -/
def SpawnFails (args : List Char) (faults : List (Option Errno)) : Prop :=
  str2arg args = [] ∨ ∃ i < 5, (faults[i]?).join ≠ none

/-- A handle whose process has not been started. -/
structure Unspawned (h : Nat) (s : Sys) : Prop where
  handle : ∃ hd, s.handles h = some hd ∧ hd.retProc.pid = 0 ∧ hd.onProcStopped = none
  pid : (s.procs h).proc.pid = 0
  type : (s.procs h).type = .nonblocking

/-- What the failure is to leave: no failing assertion, the maps as they were, one FAIL_STOPPED
callback, and a process that a later `stop` can end. -/
def Contained (h : Nat) (s : Sys) : Prop :=
  ∃ t events, jobSpawnProc h s = .ok .nothing t ∧ t.active = s.active ∧
    t.registered = s.registered ∧ t.trace = s.trace ++ events ∧
    events.count (.onStop h .failStopped) = 1 ∧
    (s.active.keys = [] → ∀ flag signum, ∃ u, jobStop flag signum t = .ok .stopLoop u)

variable {h : Nat} {s t : Sys} {F : List (Option Errno)}

theorem Unspawned.congr (hs : Unspawned h s) (hh : t.handles h = s.handles h)
    (hpid : (t.procs h).proc.pid = (s.procs h).proc.pid)
    (htype : (t.procs h).type = (s.procs h).type) : Unspawned h t :=
  ⟨hh ▸ hs.handle, hpid.trans hs.pid, htype.trans hs.type⟩

theorem processError_unspawned (e : Error) :
    Triple (Unspawned h) (processError h e) (fun _ => Unspawned h) (fun _ _ => False) :=
  fun _ hs => hs.congr rfl (by simp) (by simp)

theorem failStopped_unspawned :
    Triple (Unspawned h) (failStopped h) (fun _ => Unspawned h) (fun _ _ => False) := by
  rintro s ⟨⟨hd, hh, hpid, hstop⟩, hp, ht⟩
  have hproc : (s.procs h).pipesClosed.proc.pid = 0 := hp
  cases hon : hd.hasOnStop <;>
    simp only [failStopped, closeForkPipes, callState, handleState, bind_apply, modify_apply,
      get_apply, emit_apply, pure_apply, hh, hstop, hon, State.terminal, Function.update_self,
      if_true, if_false, Bool.false_eq_true] <;>
    exact ⟨⟨_, Function.update_self .., hproc, rfl⟩, by simpa using hproc,
      by simpa [PexecSingle.pipesClosed] using ht⟩

/-- The first `n` of the five calls have gone through. -/
def Through (h n : Nat) (F : List (Option Errno)) (b : Bool) (t : Sys) : Prop :=
  Unspawned h t ∧ (b = true → (∀ i < n, (F[i]?).join = none) ∧ t.faults = F.drop n)

theorem Through.false {n m : Nat} (ht : Through h n F false t) : Through h m F false t :=
  ⟨ht.1, fun hb => (by cases hb)⟩

theorem failWith_through (e : Error) (n : Nat) (F : List (Option Errno)) :
    Triple (Unspawned h) (do processError h e; failStopped h; return false) (Through h n F)
      (fun _ _ => False) :=
  (processError_unspawned e).bind fun _ => failStopped_unspawned.bind fun _ =>
    Triple.pure fun _ hs => ⟨hs, fun hb => (by cases hb)⟩

theorem Through.succ {n : Nat} (hs : Through h n F true s) (ht : Unspawned h t)
    (hfault : s.faults.head?.join = none) (hf : t.faults = s.faults.tail) :
    Through h (n + 1) F true t := by
  obtain ⟨hn, hsf⟩ := hs.2 rfl
  rw [hsf] at hfault hf
  rw [List.head?_drop] at hfault
  refine ⟨ht, fun _ => ⟨fun i hi => ?_, hf.trans List.tail_drop⟩⟩
  rcases Nat.lt_succ_iff_lt_or_eq.mp hi with hi | rfl
  · exact hn i hi
  · exact hfault

/-- One `pipe2` after the first `n` calls. -/
theorem preparePipe_through {n : Nat} {cloexec : Bool} {store : PipeFds → Sys → Sys} (e : Error)
    (hstore : ∀ p s, Unspawned h s → Unspawned h (store p s) ∧ (store p s).faults = s.faults) :
    Triple (Through h n F true) (preparePipe h cloexec store e) (Through h (n + 1) F)
      (fun _ _ => False) := by
  intro s hs
  unfold preparePipe
  rw [bind_of_ok (call_apply ..)]
  cases hfault : s.faults.head?.join with
  | some e' =>
    rw [World.pipe2_of_fault hfault]
    exact failWith_through e (n + 1) F _ (hs.1.congr rfl rfl rfl)
  | none =>
    rw [World.pipe2_of_none hfault]
    have hs' := hstore (s.fds.openPipe (s.fdHint s.fds.nextPipe) cloexec).1 { s with
      faults := s.faults.tail
      fds := (s.fds.openPipe (s.fdHint s.fds.nextPipe) cloexec).2
      pipes := Function.update s.pipes s.fds.nextPipe {} } (hs.1.congr rfl rfl rfl)
    exact hs.succ hs'.1 hfault hs'.2

theorem storePipe_unspawned {f : PipeFds → PexecSingle → PexecSingle}
    (hpid : ∀ p x, (f p x).proc.pid = x.proc.pid) (htype : ∀ p x, (f p x).type = x.type)
    (p : PipeFds) (s : Sys) (hs : Unspawned h s) :
    Unspawned h (storePipe h f p s) ∧ (storePipe h f p s).faults = s.faults :=
  ⟨hs.congr rfl (by simp [storePipe, hpid]) (by simp [storePipe, htype]), rfl⟩

theorem prepareForkPipes_through :
    Triple (Through h 0 F true) (prepareForkPipes h) (Through h 4 F) (fun _ _ => False) := by
  unfold prepareForkPipes
  refine Triple.guard (Q := Through h 1 F) ?_ (fun _ => Through.false) ?_
  · exact preparePipe_through _ (storePipe_unspawned (fun _ _ => rfl) fun _ _ => rfl)
  refine Triple.guard (Q := Through h 2 F) ?_ (fun _ => Through.false) ?_
  · exact preparePipe_through _ (storePipe_unspawned (fun _ _ => rfl) fun _ _ => rfl)
  refine Triple.guard (Q := Through h 3 F) ?_ (fun _ => Through.false) ?_
  · exact preparePipe_through _ (storePipe_unspawned (fun _ _ => rfl) fun _ _ => rfl)
  refine Triple.get_bind fun s hs => ?_
  have ht := hs.1.type
  rw [if_neg (by rw [ht]; decide)]
  have hwatch : Triple (Through h 3 F true) (preparePipeWatch h) (Through h 4 F) fun _ _ => False :=
    preparePipe_through _ (storePipe_unspawned (fun _ _ => rfl) fun _ _ => rfl)
  exact hwatch.conseq (fun _ he => he ▸ hs) (fun _ _ h => h) (fun _ _ h => h)

theorem spawnProc_through :
    Triple (Through h 4 F true) (spawnProc h) (Through h 5 F) (fun _ _ => False) := by
  intro s hs
  unfold spawnProc
  rw [bind_of_ok (call_apply ..)]
  cases hfault : s.faults.head?.join with
  | some e =>
    simp only [World.fork, World.nextFault, hfault]
    rw [bind_of_ok (modifyProc_apply ..)]
    exact failWith_through .forkError 5 F _ (hs.1.congr rfl (by simp) (by simp))
  | none =>
    simp only [World.fork, World.nextFault, hfault]
    rw [bind_of_ok (modifyProc_apply ..)]
    exact hs.succ (hs.1.congr rfl (by simp) (by simp)) hfault rfl

theorem prepareArgs_through (args : List Char) :
    Triple (fun s => Through h 0 F true s ∧ (s.procs h).spawnProcessArg = args) (prepareArgs h)
      (fun b t => Through h 0 F b t ∧ (b = true → str2arg args ≠ [])) (fun _ _ => False) := by
  rintro s ⟨hs, harg⟩
  have hfail : ∀ e, Triple (Unspawned h)
      (do processError h e; failStopped h; return false)
      (fun b t => Through h 0 F b t ∧ (b = true → str2arg args ≠ [])) (fun _ _ => False) := fun e =>
    (processError_unspawned e).bind fun _ => failStopped_unspawned.bind fun _ =>
      Triple.pure fun _ hs => ⟨⟨hs, fun hb => (by cases hb)⟩, fun hb => (by cases hb)⟩
  unfold prepareArgs
  rw [bind_of_ok (modifyProc_apply ..), bind_of_ok (get_apply _)]
  simp only [Function.update_self, harg]
  by_cases hempty : (str2arg args).isEmpty = true
  · rw [if_pos hempty]
    exact hfail _ _ (hs.1.congr rfl (by simp) (by simp))
  · rw [if_neg hempty, bind_of_ok (modifyProc_apply ..), bind_of_ok (get_apply _)]
    simp only [Function.update_self]
    split
    next => exact hfail _ _ (hs.1.congr rfl (by simp) (by simp))
    next =>
      exact ⟨⟨hs.1.congr rfl (by simp) (by simp), hs.2⟩, fun _ he => hempty (by rw [he]; rfl)⟩

/-- `exec` gets to its child only where nothing makes it fail. -/
theorem execPrepare_through (args : List Char) :
    Triple (fun s => Unspawned h s ∧ s.faults = F) (execPrepare h args)
      (fun b t => Unspawned h t ∧ (b = true → ¬SpawnFails args F)) (fun _ _ => False) := by
  rintro s ⟨hs, hf⟩
  unfold execPrepare
  rw [bind_of_ok (modifyProc_apply ..)]
  refine Triple.guard (prepareArgs_through args (F := F))
    (fun t ht => ⟨ht.1.1, fun hb => (by cases hb)⟩) ?_ _
    ⟨⟨hs.congr rfl (by simp) (by simp), fun _ => ⟨fun i hi => absurd hi (Nat.not_lt_zero i), hf⟩⟩,
      by simp⟩
  rintro t ⟨ht, hargs⟩
  have hargs := hargs rfl
  refine Triple.guard prepareForkPipes_through
    (fun t ht => ⟨ht.1, fun hb => (by cases hb)⟩) ?_ _ ht
  refine Triple.get_bind fun u hu => ?_
  rw [if_neg (by rw [hu.1.type]; decide)]
  refine spawnProc_through.conseq (fun _ he => he ▸ hu) (fun b v hv => ⟨hv.1, ?_⟩) (fun _ _ h => h)
  rintro hb (hempty | ⟨i, hi, hfault⟩)
  · exact hargs hempty
  · exact hfault ((hv.2 hb).1 i hi)

/-- A spawn that fails never gets past the assertion on the pid. -/
theorem failed_spawn_asserts {hd : Handle} (hstopping : s.stopping = false) (hs : Unspawned h s)
    (hh : s.handles h = some hd) (hfails : SpawnFails hd.args s.faults) :
    ∃ t, jobSpawnProc h s = .error (.assertion .pidPositive) t := by
  obtain ⟨b, t, hprep, ht, hthrough⟩ := (execPrepare_through hd.args).total ⟨hs, rfl⟩
  have hb : b = false := Bool.eq_false_iff.mpr fun hb => hthrough hb hfails
  subst hb
  have hexec : exec h hd.args s = .ok () t := by
    simp only [exec, execWatch, bind_apply, hprep, Bool.not_false, if_true, pure_apply,
      Bool.false_eq_true, if_false]
  obtain ⟨hd', hh', hpid, _⟩ := ht.handle
  have hrun : handleExec h s = .ok () { t with
      handles := Function.update t.handles h (some { hd' with fds := (t.procs h).getFds }) } := by
    simp only [handleExec, bind_apply, get_apply, hh, hexec, modify_apply, hh', Option.map_some]
  unfold jobSpawnProc
  rw [bind_of_ok (get_apply _), if_neg (by simp [hstopping]), bind_of_ok hrun,
    bind_of_ok (get_apply _)]
  have hzero : handlePid { t with
      handles := Function.update t.handles h (some { hd' with fds := (t.procs h).getFds }) } h = 0 := by
    simpa [handlePid] using hpid
  exact ⟨_, bind_of_error (by rw [hzero]; rfl)⟩

/-- The containment of a failed spawn holds for no command and no failure. -/
theorem failed_spawn_not_contained {hd : Handle} (hstopping : s.stopping = false)
    (hs : Unspawned h s) (hh : s.handles h = some hd) (hfails : SpawnFails hd.args s.faults) :
    ¬Contained h s := by
  obtain ⟨t, ht⟩ := failed_spawn_asserts hstopping hs hh hfails
  rintro ⟨u, _, hu, _⟩
  rw [ht] at hu
  cases hu

/-- `pexec_multi::exec` makes such a handle. -/
theorem multiExec_unspawned {args : List Char} {hasOnStop : Bool} {s t : Sys}
    (h : multiExec args hasOnStop s = .ok () t) : Unspawned s.nextHandle t := by
  cases h
  exact ⟨⟨_, Function.update_self .., rfl, rfl⟩, by simp, by simp⟩

/-- The empty command, passed to `exec` before a DEFAULT run. -/
theorem failed_spawn_empty :
    ∃ s₁ s₂ s₃ t, newMulti (boot {}) = .ok () s₁ ∧ multiExec [] true s₁ = .ok () s₂ ∧
      startRun .default s₂ = .ok () s₃ ∧
      dispatch s₃.controlPipe.rd s₃ = .error (.assertion .pidPositive) t :=
  ⟨_, _, _, _, rfl, rfl, rfl, rfl⟩

/-- The empty command, in a process that has done nothing else. -/
theorem failed_spawn_not_contained_empty :
    ∃ s, multiExec [] true {} = .ok () s ∧ ¬Contained 0 s := by
  obtain ⟨s, hs⟩ : ∃ s, multiExec [] true {} = .ok () s := ⟨_, rfl⟩
  have hstopping : s.stopping = false := by cases hs; rfl
  have hh : s.handles 0 = some { args := [], hasOnStop := true } := by cases hs; rfl
  exact ⟨s, hs, failed_spawn_not_contained hstopping (multiExec_unspawned hs) hh (.inl rfl)⟩

end Pexec
