import Pexec.BlockingCourse

namespace Pexec

open Effect

variable {h : Nat} {s t u v d e : Sys} {q : ProcStatus} {line : List Char} {cb : IoSource} {fd : Int}

/-- The loop of the call makes the call of `cb`, in the state `u`. -/
def ExecCalls (h : Nat) (line : List Char) (s : Sys) (cb : IoSource) (fd : Int) (u : Sys) : Prop :=
  ∃ v c d, execPrepare h line s = .ok true v ∧ execStarted h v = .ok () c ∧
    ioRegister h c = .ok () d ∧ LoopCalls ioRef (ioCallback h) d.selects d cb fd u

/-- `select` fails in the loop of the call. -/
def ExecFails (h : Nat) (line : List Char) (s u : Sys) : Prop :=
  ∃ v c d, execPrepare h line s = .ok true v ∧ execStarted h v = .ok () c ∧
    ioRegister h c = .ok () d ∧ LoopFails ioRef (ioCallback h) d.selects d u

/-- The callback does not get what it reads from its pipe. -/
def ReadFails (h : Nat) (u : Sys) : IoSource → Prop
  | .interrupt => False
  | .closeWatch => Unreadable (u.procs h).pipeCloseWatch.rd u
  | .stdout => Unreadable (u.procs h).pipeStdout.rd u
  | .stderr => Unreadable (u.procs h).pipeStderr.rd u
  | .sigchld => ∃ v, ioReadSignal h 4 4 [] u = .ok none v

/-- The callback of the signal pipe finds a SIGCHLD there. -/
def ReadsSigchld (h : Nat) (u : Sys) : Prop :=
  ∃ v, ioReadSignal h 4 4 [] u = .ok (some World.sigchldRecord) v

/-- How the call of `cb` in the state `u` has ended the loop. -/
inductive LoopEnd (h : Nat) (q : ProcStatus) (u v : Sys) : IoSource → Prop
  | interrupted (wanted : (v.procs h).userStopped = true) (blocked : v.sigchldBlocked = u.sigchldBlocked) :
      LoopEnd h q u v .interrupt
  | unread {x : IoSource} (fails : ReadFails h u x) (proc : (v.procs h).proc = q)
      (wanted : (v.procs h).userStopped = false) (blocked : v.sigchldBlocked = u.sigchldBlocked) :
      LoopEnd h q u v x
  | reaped (reads : ReadsSigchld h u) (dead : (v.procs h).proc.running = false)
      (wanted : (v.procs h).userStopped = false)
      (blocked : v.sigchldBlocked = maskAfter u.faults u.sigchldBlocked) : LoopEnd h q u v .sigchld

theorem Calm.blocked (hc : Calm h d e) : e.sigchldBlocked = d.sigchldBlocked := by
  obtain ⟨_, _, _, _, _, _, _, rfl⟩ := hc.frame
  rfl

theorem Calm.faults (hc : Calm h d e) : e.faults = d.faults := by
  obtain ⟨_, _, _, _, _, _, _, rfl⟩ := hc.frame
  rfl

theorem Underway.unread (hu : Underway h s q u) (hc : Calm h u e) {err : Error}
    (hf : ReadFails h u cb) : LoopEnd h q u (e.processed h err) cb := by
  have he := hu.calm hc
  refine .unread hf ?_ ?_ hc.blocked
  · simpa [Sys.processed] using he.proc
  · simpa [Sys.processed] using he.wanted

theorem readStd_halts (hu : Underway h s q u) {data : List UInt8 → Event} {err : Error}
    (hfd : Unreadable fd u → ReadFails h u cb)
    (hv : readStd fd h data err u = .ok .stopLoop v) : LoopEnd h q u v cb := by
  obtain ⟨a, e, he, hc⟩ := readRetry_calm (h := h) fd (bufferSize - 1) u
  rw [readStd_answers he (hu.calm hc).engaged.alone.type] at hv
  cases a with
  | error errno =>
    cases hv
    exact hu.unread hc (hfd ⟨_, _, he⟩)
  | ok bytes => cases bytes <;> cases hv

theorem readStd_stops (hu : Underway h s q u) (data : List UInt8 → Event) (err : Error)
    (hf : Unreadable fd u) :
    ∃ w, readStd fd h data err u = .ok .stopLoop w := by
  obtain ⟨a, e, he, hc⟩ := readRetry_calm (h := h) fd (bufferSize - 1) u
  obtain ⟨_, _, hw⟩ := hf
  cases he.symm.trans hw
  exact ⟨_, readStd_answers he (hu.calm hc).engaged.alone.type⟩

theorem ioCloseWatch_halts (hu : Underway h s q u) (hv : ioCloseWatch h u = .ok .stopLoop v) :
    LoopEnd h q u v .closeWatch := by
  obtain ⟨a, e, he, hc⟩ := readRetry_calm (h := h) (u.procs h).pipeCloseWatch.rd (bufferSize - 1) u
  rw [ioCloseWatch_answers he (hu.calm hc).engaged.alone.type] at hv
  cases a with
  | error errno =>
    cases hv
    have hf : ReadFails h u .closeWatch := ⟨_, _, he⟩
    exact hu.unread hc hf
  | ok bytes => cases hv

theorem ioCloseWatch_stops (hu : Underway h s q u) (hf : ReadFails h u .closeWatch) :
    ∃ w, ioCloseWatch h u = .ok .stopLoop w := by
  obtain ⟨a, e, he, hc⟩ := readRetry_calm (h := h) (u.procs h).pipeCloseWatch.rd (bufferSize - 1) u
  obtain ⟨_, _, hw⟩ := hf
  cases he.symm.trans hw
  exact ⟨_, ioCloseWatch_answers he (hu.calm hc).engaged.alone.type⟩

theorem ioInterrupt_halts (hv : loopControl (ioInterrupt h) fd u = .ok .stopLoop v) : LoopEnd h q u v .interrupt := by
  obtain ⟨a, e, he, hc⟩ := readRetry_calm (h := h) fd 1 u
  replace hv := (bind_of_ok he).symm.trans hv
  cases a with
  | error errno => cases hv
  | ok bytes =>
    cases hv
    exact .interrupted (by simp) hc.blocked

/-- The reading of the signal pipe, up to the error that ends it. -/
theorem ioReadSignal_calm {fuel want : Nat} {got : List UInt8} {answer : Option (List UInt8)}
    (he : ioReadSignal h fuel want got u = .ok answer e) :
    ∃ c, Calm h u c ∧ e = if answer = none then c.processed h .signalPipeReadError else c := by
  induction fuel generalizing u want got with
  | zero => cases he
  | succ fuel ih =>
    have hc := call_calm (h := h) (fun w => World.read_frame w u.blockingPipe.rd want) u
    unfold ioReadSignal at he
    rw [bind_of_ok (get_apply _), bind_of_ok (call_apply ..)] at he
    revert he
    cases (u.toWorld.read u.blockingPipe.rd want).1 with
    | error err =>
      intro he
      dsimp only at he
      rw [bind_of_ok (processError_apply _)] at he
      cases he
      exact ⟨_, hc, rfl⟩
    | ok data =>
      intro he
      dsimp only at he
      split at he
      next =>
        cases he
        exact ⟨_, hc, rfl⟩
      next =>
        obtain ⟨c, hc', hce⟩ := ih he
        exact ⟨c, hc.trans hc', hce⟩

theorem ioSigchld_halts (hu : Underway h s q u) (hv : ioSigchld h u = .ok .stopLoop v) :
    LoopEnd h q u v .sigchld := by
  obtain ⟨answer, e, he, hv⟩ := bind_eq_ok.mp hv
  obtain ⟨c, hc, rfl⟩ := ioReadSignal_calm he
  cases answer with
  | none =>
    cases hv
    have hf : ReadFails h u .sigchld := ⟨_, he⟩
    exact hu.unread hc hf
  | some signal =>
    have hc' := hu.calm hc
    by_cases hsignal : signal = World.sigchldRecord
    · subst hsignal
      obtain ⟨w, hw, _, hkilled, hdead, hwanted, hblocked⟩ := singleHandleSigchld_over hc'
      rw [if_neg (by simp)] at he hv
      dsimp only at hv
      rw [if_pos rfl, bind_of_ok hw, bind_of_ok (get_apply _), hkilled] at hv
      cases hv
      rw [hc.faults, hc.blocked] at hblocked
      exact .reaped ⟨_, he⟩ hdead hwanted hblocked
    · rw [if_neg (by simp)] at hv
      dsimp only at hv
      rw [if_neg hsignal, bind_of_ok (get_apply _), hc'.alive] at hv
      cases hv

theorem ioSigchld_stops (hu : Underway h s q u) (hreads : ReadFails h u .sigchld ∨ ReadsSigchld h u) :
    ∃ w, ioSigchld h u = .ok .stopLoop w := by
  rcases hreads with ⟨w, hw⟩ | ⟨w, hw⟩
  · exact ⟨w, bind_of_ok hw⟩
  · obtain ⟨c, hc, rfl⟩ := ioReadSignal_calm hw
    obtain ⟨v, hv, _, hkilled, _⟩ := singleHandleSigchld_over (hu.calm hc)
    refine ⟨v, (bind_of_ok hw).trans ?_⟩
    dsimp only
    rw [if_pos rfl, bind_of_ok hv, bind_of_ok (get_apply _), hkilled]
    rfl

/-- A callback that stops the loop says how it ends. -/
theorem ioCallback_halts (hu : Underway h s q u) (hv : ioCallback h cb fd u = .ok .stopLoop v) :
    LoopEnd h q u v cb := by
  cases cb with
  | interrupt => exact ioInterrupt_halts hv
  | closeWatch => exact ioCloseWatch_halts hu hv
  | stdout => exact readStd_halts hu id hv
  | stderr => exact readStd_halts hu id hv
  | sigchld => exact ioSigchld_halts hu hv

/-- A read that fails stops the loop, and so does a SIGCHLD. -/
theorem ioCallback_stops (hu : Underway h s q u)
    (hread : ReadFails h u cb ∨ cb = .sigchld ∧ ReadsSigchld h u) :
    ∃ v, ioCallback h cb fd u = .ok .stopLoop v := by
  rcases hread with hf | ⟨rfl, hreads⟩
  · cases cb with
    | interrupt => cases hf
    | closeWatch => exact ioCloseWatch_stops hu hf
    | stdout => exact readStd_stops hu (.out h) .stdoutPipeReadError hf
    | stderr => exact readStd_stops hu (.err h) .stderrPipeReadError hf
    | sigchld => exact ioSigchld_stops hu (.inl hf)
  · exact ioSigchld_stops hu (.inr hreads)

theorem ReadsSigchld.gets (hr : ReadsSigchld h u) : ¬ReadFails h u .sigchld := by
  rintro ⟨w, hw⟩
  obtain ⟨v, hv⟩ := hr
  cases hv.symm.trans hw

theorem Loops.calls (hl : Loops h line s q d e) :
    ExecCalls h line s cb fd u ↔ LoopCalls ioRef (ioCallback h) d.selects d cb fd u := by
  obtain ⟨v, c, hv, _, _, hc, hd⟩ := hl.prepared
  refine ⟨fun ⟨v', c', d', hv', hc', hd', hcall⟩ => ?_, fun hcall => ⟨v, c, d, hv, hc, hd, hcall⟩⟩
  cases hv.symm.trans hv'
  cases hc.symm.trans hc'
  cases hd.symm.trans hd'
  exact hcall

theorem Loops.fails (hl : Loops h line s q d e) :
    ExecFails h line s u ↔ LoopFails ioRef (ioCallback h) d.selects d u := by
  obtain ⟨v, c, hv, _, _, hc, hd⟩ := hl.prepared
  refine ⟨fun ⟨v', c', d', hv', hc', hd', hfail⟩ => ?_, fun hfail => ⟨v, c, d, hv, hc, hd, hfail⟩⟩
  cases hv.symm.trans hv'
  cases hc.symm.trans hc'
  cases hd.symm.trans hd'
  exact hfail

theorem Loops.kept (hl : Loops h line s q d e) : s.FilesKept → ∀ acts fds,
    SelectAnswer.ready acts fds ∈ d.selects → ∀ act ∈ acts, act.onFiles = false := by
  rw [hl.answers]
  exact fun hkept => hkept

theorem Loops.called (hl : Loops h line s q d e) (hc : ExecCalls h line s cb fd u) :
    Underway h s q u :=
  (hl.calls.mp hc).underway hl.kept hl.underway

theorem Loops.failed (hl : Loops h line s q d e) (hf : ExecFails h line s u) : Underway h s q u :=
  (hl.fails.mp hf).underway hl.kept hl.underway

/-- The loop ends in a callback, or when `select` fails. -/
theorem Loops.ends (hl : Loops h line s q d e) :
    (∃ cb fd u, ExecCalls h line s cb fd u ∧ LoopEnd h q u e cb) ∨
      ∃ u, ExecFails h line s u ∧ e = u.processed h .selectError := by
  rcases selectLoop_stopped hl.looped with ⟨cb, fd, u, hc, hstop⟩ | ⟨u, hf, he⟩
  · have hcall := hl.calls.mpr hc
    exact .inl ⟨cb, fd, u, hcall, ioCallback_halts (hl.called hcall) hstop⟩
  · refine .inr ⟨u, hl.fails.mpr hf, ?_⟩
    cases (processError_apply .selectError).symm.trans he
    rfl

/-- A call that does not get what it reads, or that finds a SIGCHLD, is the last one. -/
theorem Loops.ends_at (hl : Loops h line s q d e) (hc : ExecCalls h line s cb fd u)
    (hread : ReadFails h u cb ∨ cb = .sigchld ∧ ReadsSigchld h u) : LoopEnd h q u e cb := by
  obtain ⟨v, hv⟩ : ∃ v, ioCallback h cb fd u = .ok .stopLoop v := ioCallback_stops (hl.called hc) hread
  obtain rfl := (hl.calls.mp hc).last hv hl.looped
  exact ioCallback_halts (hl.called hc) hv

/-- So is a `select` that fails. -/
theorem Loops.fails_at (hl : Loops h line s q d e) (hf : ExecFails h line s u) :
    e = u.processed h .selectError := by
  cases (processError_apply .selectError).symm.trans ((hl.fails.mp hf).last hl.looped)
  rfl

/-- Only a call whose preparation succeeds has a loop. -/
theorem execPrepare_prepared (hs : Resting h s) (hv : execPrepare h line s = .ok true v) :
    prepareFails line s.faults = none := by
  rcases execPrepare_cases hs with ⟨st, t, _, ht, _⟩ | ⟨_, hnone, _⟩
  · cases hv.symm.trans ht
  · exact hnone

theorem ExecCalls.prepared (hs : Resting h s) (hc : ExecCalls h line s cb fd u) :
    prepareFails line s.faults = none :=
  have ⟨_, _, _, hv, _⟩ := hc
  execPrepare_prepared hs hv

theorem ExecFails.prepared (hs : Resting h s) (hf : ExecFails h line s u) :
    prepareFails line s.faults = none :=
  have ⟨_, _, _, hv, _⟩ := hf
  execPrepare_prepared hs hv

end Pexec
