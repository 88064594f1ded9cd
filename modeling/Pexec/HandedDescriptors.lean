import Pexec.GroupReaping
import Pexec.TerminalStates

namespace Pexec

open Runs Effect

variable {h : Nat} {pid : Int} {s t u : Sys} {rs : List (Int × WaitStatus)}

/-- The callback that is due ends the watching of no process: it is not that of a watch pipe, what it
reads can be read, and `waitpid` returns no process that is active. -/
def Source.GoesOn (s : Sys) : Source → Prop
  | .readClose _ => False
  | .readStdout h => ¬ReadFails h s .stdout
  | .readStderr h => ¬ReadFails h s .stderr
  | .sigchld => ∀ u, readSignalFrom s.sigchldPipe.rd (s.readFaults.length + 4) 4 [] s =
      .ok (some World.sigchldRecord) u → ∀ pid ∈ (u.toWorld.sigprocmask true).2.reaps, pid ∉ s.active
  | .control => True

/-- Before such a step every watched process goes on being watched. -/
def WatchGoesOn (s : Sys) : Label → Prop
  | .event fd c => ∀ src, s.registered.lookup fd = some src → src.GoesOn (s.choose c)
  | _ => True

/-- Children of others are waited for without a callback. -/
theorem Reaps.uncalled (hr : Reaps s rs t) (hrs : ∀ pid ∈ rs.map Prod.fst, pid ∉ s.active) :
    Uncalled s t := by
  induction hr with
  | nil => exact Std.Refl.refl _
  | @cons s t u o rs ht _ ih =>
    rw [List.map_append] at hrs
    have hrest := fun pid hm => hrs pid (List.mem_append_right _ hm)
    cases ht with
    | again => exact IsTrans.trans _ _ _ (waited_aside _ _).uncalled (ih hrest)
    | foreign => exact IsTrans.trans _ _ _ (reaped_uncalled ..) (ih hrest)
    | own _ _ _ ha =>
      have hm := hrs _ (List.mem_append_left _ (List.mem_singleton_self _))
      exact absurd (AList.lookup_isSome.mp (by rw [ha]; rfl)) hm

theorem handleSigchld_uncalled (hs : Sound s)
    (hgo : ∀ pid ∈ (s.toWorld.sigprocmask true).2.reaps, pid ∉ s.active) :
    ∃ t, handleSigchld s = .ok () t ∧ Sound t ∧ Uncalled s t := by
  obtain ⟨a, rs, b, c, t, ht, ⟨haside, _⟩, ⟨hr, hpids⟩, hlast, haside', hsound⟩ := handleSigchld_reaps hs
  have hactive : a.active = s.active := haside.field Sys.active fun _ => rfl
  refine ⟨t, ht, hsound, ?_⟩
  refine IsTrans.trans _ _ _ haside.uncalled (IsTrans.trans _ _ _ (hr.uncalled fun pid hm => ?_)
    (IsTrans.trans _ _ _ hlast.aside.uncalled haside'.uncalled))
  rw [hactive]
  exact hgo pid (hpids ▸ hm)

theorem readSignal_uncalled {ret : EventReturn} (hs : Sound s) (hgo : Source.GoesOn s .sigchld)
    (ht : readSignal s = .ok ret t) : Sound t ∧ Uncalled s t := by
  have hsound : Sound t := by
    have := readSignal_serves hs
    rw [ht] at this
    exact this.1
  refine ⟨hsound, ?_⟩
  have hread := readSignalFrom_drained (s.readFaults.length + 4) 4 [] s hs.isolated.owns
  have hiso := readSignalFrom_isolated (s.readFaults.length + 4) s.sigchldPipe.rd 4 [] s ⟨hs.isolated, rfl⟩
  unfold readSignal at ht
  rw [bind_of_ok (get_apply _)] at ht
  obtain ⟨signal, u, hr, ht⟩ := bind_eq_ok.mp ht
  rw [hr] at hread hiso
  have hq : Uncalled s u := hread.quiet.2.2
  cases signal with
  | none =>
    cases ht
    exact hq
  | some signal =>
    dsimp only at ht
    split at ht
    next hrecord =>
      have hactive : u.active = s.active := hread.quiet.2.1
      obtain ⟨v, hv, _, hqv⟩ := handleSigchld_uncalled ⟨hiso, hread.on hs.on⟩
        (hactive ▸ hgo u (hrecord ▸ hr))
      rw [bind_of_ok hv] at ht
      cases ht
      exact IsTrans.trans _ _ _ hq hqv
    next =>
      cases ht
      exact hq

/-- After the reading there is only the stop of the loop. -/
theorem onSigchldReady_reads (hs : Sound s) (hw : s.watching = true) (ht : onSigchldReady s = .ok () t) :
    ∃ ret u, readSignal s = .ok ret u ∧ t.active = u.active ∧ Uncalled u t := by
  unfold onSigchldReady at ht
  obtain ⟨ret, u, hr, ht⟩ := bind_eq_ok.mp ht
  refine ⟨ret, u, hr, ?_⟩
  split at ht
  next =>
    have hserves := readSignal_serves hs
    rw [hr] at hserves
    have hwu : u.watching = true := (congrArg (·.2.2.2.1) hserves.2.1.core).trans hw
    obtain ⟨v, hv, hhalted⟩ := handleStop_ok hserves.1.on hwu
    cases ht.symm.trans hv
    exact ⟨hhalted.quiet.2, hhalted.uncalled⟩
  next =>
    cases ht
    exact ⟨rfl, Std.Refl.refl _⟩

theorem onSigchldReady_uncalled (hs : Sound s) (hw : s.watching = true)
    (hgo : Source.GoesOn s .sigchld) (ht : onSigchldReady s = .ok () t) : Uncalled s t := by
  obtain ⟨ret, u, hr, _, hq⟩ := onSigchldReady_reads hs hw ht
  exact IsTrans.trans _ _ _ (readSignal_uncalled hs hgo hr).2 hq

theorem Controlled.current (hc : Controlled s t) (hu : Uses s t) : HandsCurrent s t := by
  cases hc with
  | jobbed hread hjob =>
    exact IsTrans.trans _ _ _ (.same (hread.field (·.trace) fun _ _ _ => rfl)) hjob.current
  | @emptied u v hread hempty hhalted =>
    have hv : Uncalled u v := Uncalled.same (by rw [hempty.frame])
    exact hu.current (IsTrans.trans _ _ _ hread.quiet.2.2 (IsTrans.trans _ _ _ hv hhalted.uncalled))

/-- A callback that ends the watching of no process hands over current descriptors. -/
theorem runSource_current {fd : Int} {src : Source} (hs : Sound s) (hl : s.registered.lookup fd = some src)
    (hgo : src.GoesOn s) (hu : Uses s t) (ht : runSource fd src s = .ok () t) : HandsCurrent s t := by
  obtain ⟨hexp, hkey⟩ := (hs.on.desk.keys fd src).mp hl
  cases src with
  | sigchld => exact hu.current (onSigchldReady_uncalled hs hexp hgo ht)
  | control =>
    have hc := onControlReady_controlled hs hexp hkey.symm
    have ht' : onControlReady fd s = .ok () t := ht
    rw [ht'] at hc
    exact Controlled.current hc hu
  | readClose x => exact hgo.elim
  | readStdout x =>
    obtain ⟨pid, hl⟩ := hexp
    obtain ⟨ret, v, hv, _, ⟨_, _, hq, _⟩ | ⟨hfail, _⟩⟩ := readStd_ends .stdout .stdoutPipeReadError
      hs.on.desk hl (hs.on.served pid _ hl).type
    · cases ht.symm.trans (discard_of_ok (x := readStdout _) hv)
      exact hu.current hq
    · exact absurd hfail hgo
  | readStderr x =>
    obtain ⟨pid, hl⟩ := hexp
    obtain ⟨ret, v, hv, _, ⟨_, _, hq, _⟩ | ⟨hfail, _⟩⟩ := readStd_ends .stderr .stderrPipeReadError
      hs.on.desk hl (hs.on.served pid _ hl).type
    · cases ht.symm.trans (discard_of_ok (x := readStderr _) hv)
      exact hu.current hq
    · exact absurd hfail hgo

/-- A step makes a registered callback, or it tells nobody anything. -/
theorem Life.step_split {l : Label} (hs : Life s) (hp : PreviousFinished s l) (hstep : Step s l t) :
    (∃ fd c src, l = .event fd c ∧ s.registered.lookup fd = some src ∧ Sound (s.choose c) ∧
      runSource fd src (s.choose c) = .ok () t) ∨
    (∀ fd c src, l = .event fd c → s.registered.lookup fd ≠ some src) ∧ t.active = s.active ∧ Uncalled s t := by
  by_cases hl : ∃ fd c, l = .event fd c
  · obtain ⟨fd, c, rfl⟩ := hl
    obtain ⟨he, ht⟩ := hstep
    cases hsrc : s.registered.lookup fd with
    | some src =>
      obtain ⟨hsound, hprog⟩ := hs.event_source he hsrc
      exact .inl ⟨fd, c, src, rfl, hsrc, hsound, hprog.symm.trans ht⟩
    | none =>
      refine .inr ⟨fun fd' c' src he' hsrc' => ?_, ?_⟩
      · cases he'
        cases hsrc.symm.trans hsrc'
      · obtain ⟨hon, hdue, _⟩ := hs.due he
        have hsound := Sound.choose ⟨hs.isolated, hon⟩ c
        rcases dispatch_split hsound hdue with ⟨hreg, _⟩ | ⟨hd, hfd, hint⟩
        · have hnone : (s.choose c).registered.lookup fd = none := hsrc
          exact absurd (AList.lookup_isSome.mpr hreg) (by simp [hnone])
        · have hcases := loopCallback_interrupted hsound.isolated.owns hd hfd
          have ht' : dispatch fd (s.choose c) = .ok () t := ht
          rw [← hint, ht'] at hcases
          obtain ⟨_, hactive, hq⟩ := hcases.quiet
          exact ⟨hactive, hq.calls, hq.kills⟩
  · refine .inr ⟨fun fd c _ he => absurd ⟨fd, c, he⟩ hl, ?_⟩
    exact (hs.quiet_step hp hstep fun fd c he => hl ⟨fd, c, he⟩).imp_right And.right

theorem Life.step_current {l : Label} (hs : Life s) (hp : PreviousFinished s l) (hw : WatchGoesOn s l)
    (hstep : Step s l t) : HandsCurrent s t := by
  have huses : Uses s t := (label_uses l).ok hstep.2
  rcases hs.step_split hp hstep with ⟨fd, c, src, rfl, hsrc, hsound, ht⟩ | ⟨_, _, hq⟩
  · have hcurrent := runSource_current hsound hsrc (hw src hsrc) ⟨huses.table, huses.events⟩ ht
    exact hcurrent
  · exact huses.current hq

theorem run_hands_current {w : World} {ls : List Label} (hnew : newMulti (boot w) = .ok () s)
    (hrun : Run (Under (fun s l => PreviousFinished s l ∧ WatchGoesOn s l) Step) s ls t) :
    ∀ e ∈ t.trace, e.Current := by
  have hstart : Life s ∧ ∀ e ∈ s.trace, e.Current := by
    refine ⟨newMulti_life hnew, fun e hm => ?_⟩
    rw [newMulti_ok hnew] at hm
    cases hm
  have hkept : ∀ a l b, (Life a ∧ ∀ e ∈ a.trace, e.Current) →
      Under (fun s l => PreviousFinished s l ∧ WatchGoesOn s l) Step a l b →
      Life b ∧ ∀ e ∈ b.trace, e.Current := by
    intro a l b ⟨hlife, ha⟩ ⟨⟨hp, hw⟩, hstep⟩
    have hb := life_step hlife hstep.1 hp
    rw [hstep.2] at hb
    obtain ⟨new, htrace, hnew⟩ := hlife.step_current hp hw hstep
    refine ⟨hb, fun e hm => ?_⟩
    rw [htrace] at hm
    exact (List.mem_append.mp hm).elim (ha e) (hnew e)
  exact (hrun.invariant (I := fun a => Life a ∧ ∀ e ∈ a.trace, e.Current) hstart hkept).2

variable {w : World} {e : Sys} {q : ProcStatus} {line : List Char}

/-- A run that is abandoned tells FAIL_STOPPED with what the object has kept from the run before. -/
theorem Abandoned.current_iff {st : Stage} (ht : Abandoned h s st t) :
    (∀ e ∈ newEvents s t, e.Current) ↔
      (s.procs h).proc.stdinFd = -1 ∧ (s.procs h).proc.userStopFd = -1 := by
  rw [newEvents_eq ht.trace]
  simp [Event.Current]

theorem Ending.lastStatus_stale (he : Ending h s q e) (hin : 0 ≤ q.stdinFd) (hstop : 0 ≤ q.userStopFd) :
    (e.procs h).lastStatus.stdinFd ≠ -1 ∨ (e.procs h).lastStatus.userStopFd ≠ -1 := by
  unfold PexecSingle.lastStatus
  cases he with
  | interrupted hproc hwanted =>
    refine .inl ?_
    rw [if_pos hwanted, hproc]
    show q.stdinFd ≠ -1
    omega
  | failed _ _ hproc hwanted =>
    refine .inr ?_
    rw [if_neg (by rw [hwanted]; decide), hproc]
    omega
  | handled status _ hproc hwanted =>
    refine .inr ?_
    rw [if_neg (by rw [hwanted]; decide), hproc]
    show (q.updateStatus status).userStopFd ≠ -1
    rw [updateStatus_userStopFd]
    omega

/-- A run that is seen through ends with a callback after the pipes have been closed. -/
theorem Completed.not_current (ht : Completed h s q e t) : ¬∀ e ∈ newEvents s t, e.Current := by
  intro hall
  obtain ⟨mid, hevents, _⟩ := ht.events
  have hlast : Event.Current (.handed h ((e.procs h).lastStatus.stdinFd == -1)
      ((e.procs h).lastStatus.userStopFd == -1)) := by
    refine hall _ ?_
    rw [hevents]
    exact List.mem_append_right _ List.mem_cons_self
  obtain ⟨hin, hstop⟩ := hlast
  rcases ht.ending.lastStatus_stale ht.stdin ht.userStop with hne | hne
  · exact hne (beq_iff_eq.mp hin)
  · exact hne (beq_iff_eq.mp hstop)

/-- A blocking run hands over no stale descriptor exactly if it fails before its process runs and
the object keeps none from an earlier run; a `pexec_multi` does not before a step that ends the
watching of a process. -/
theorem hands_current {bs : List BlockingLabel} {ls : List Label} {w' : World} {a b : Sys}
    (hrun : Run (BlockingStep h) (boot w) bs s) (ht : exec h line s = .ok () t)
    (hnew : newMulti (boot w') = .ok () a)
    (hlife : Run (Under (fun s l => PreviousFinished s l ∧ WatchGoesOn s l) Step) a ls b) :
    ((∀ e ∈ newEvents s t, e.Current) ↔ (prepareFails line s.faults).isSome = true ∧
      (s.procs h).proc.stdinFd = -1 ∧ (s.procs h).proc.userStopFd = -1) ∧
    ∀ e ∈ b.trace, e.Current := by
  refine ⟨?_, run_hands_current hnew hlife⟩
  rcases exec_course (run_resting hrun) ht with ⟨st, hfails, hu⟩ | ⟨q, d, e, hfails, _, hc⟩
  · rw [hu.current_iff, hfails]
    simp
  · refine iff_of_false hc.not_current fun hcond => ?_
    rw [hfails] at hcond
    cases hcond.1

def readable (fd : Int) (s : Sys) : Bool :=
  match readRetry fd (bufferSize - 1) s with
  | .ok (.ok _) _ => true
  | _ => false

theorem readable_sound {fd : Int} (hc : readable fd s = true) : ¬Unreadable fd s := by
  rintro ⟨e, v, hread⟩
  rw [readable, hread] at hc
  cases hc

/-- The check of `WatchGoesOn` for a step in which no signal is read. -/
def watchGoesOn (s : Sys) : Label → Bool
  | .event fd c => match s.registered.lookup fd with
    | some (.readStdout h) => readable ((s.choose c).procs h).pipeStdout.rd (s.choose c)
    | some (.readStderr h) => readable ((s.choose c).procs h).pipeStderr.rd (s.choose c)
    | some (.readClose _) | some .sigchld => false
    | some .control | none => true
  | _ => true

theorem watchGoesOn_sound (s : Sys) (l : Label) (hc : watchGoesOn s l = true) : WatchGoesOn s l := by
  cases l with
  | event fd c =>
    intro src hsrc
    simp only [watchGoesOn, hsrc] at hc
    cases src with
    | readStdout h | readStderr h => exact readable_sound hc
    | readClose | sigchld => cases hc
    | control => trivial
  | exec | stop | env | run | selectError => trivial

/-- A blocking run whose process exits, and two processes that are spawned, write and are read. -/
theorem hands_current_pair : (pairAt 10).active.keys.length = 2 ∧
    .handed 1 true true ∈ (pairAt 10).trace ∧
    ((∀ e ∈ newEvents exitingRun exitedRun, e.Current) ↔
      (prepareFails ['a'] exitingRun.faults).isSome = true ∧
        (exitingRun.procs 0).proc.stdinFd = -1 ∧ (exitingRun.procs 0).proc.userStopFd = -1) ∧
    ∀ e ∈ (pairAt 10).trace, e.Current :=
  ⟨by decide +kernel, by decide +kernel, hands_current exitingRun_run exitedRun_ok freshMulti_ok
    (run_after (fun s l => finished s l && watchGoesOn s l)
      (fun s l hc => ⟨finished_sound s l ((Bool.and_eq_true _ _).mp hc).1,
        watchGoesOn_sound s l ((Bool.and_eq_true _ _).mp hc).2⟩) (pairLife.take 10) (by decide +kernel))⟩

/-- STOPPED is handed the watch pipe, and FAIL_STOPPED both pipes, after they have been closed. -/
theorem stale_handed : (¬∀ (h : Nat) (w : World) (bs : List BlockingLabel) (s t : Sys) (line : List Char),
      Run (BlockingStep h) (boot w) bs s → exec h line s = .ok () t →
      ∀ e ∈ newEvents s t, e.Current) ∧
    ¬∀ (w : World) (ls : List Label) (a b : Sys), newMulti (boot w) = .ok () a →
      Run (Under PreviousFinished Step) a ls b → ∀ e ∈ b.trace, e.Current := by
  constructor
  · intro hall
    have hstopped := hall 0 {} _ _ _ ['a'] exitingRun_run exitedRun_ok (.handed 0 true false)
      (by decide +kernel)
    cases hstopped.2
  · intro hall
    have hfailed := hall {} _ _ _ freshMulti_ok detachedMulti_run (.handed 0 false false)
      (by decide +kernel)
    cases hfailed.1

end Pexec
