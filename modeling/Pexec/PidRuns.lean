import Pexec.PidBadges

namespace Pexec

open Effect Runs

variable {h : Nat} {pid : Int} {s t u : Sys} {l : Label}

theorem PidStep.still (ha : ∀ pid h, t.active.lookup pid = some h → s.active.lookup pid = some h)
    (hc : t.children = s.children) (hk : t.kills = s.kills) (hr : reports t.calls = reports s.calls) :
    PidStep s l t :=
  ⟨fun p x hl => .inl (ha p x hl), ⟨[], hk.trans (List.append_nil _).symm, by simp⟩, [],
    List.nodup_nil, by simp, by simpa using hr, fun p hm hn => absurd (hc ▸ hm) hn⟩

theorem SamePids.pidStep (hp : SamePids s t) : PidStep s l t :=
  .still hp.active hp.children hp.kills hp.reports

/-- The rest of a step, where it is about no process that is started, reaped or signalled. -/
theorem PidStep.after (hst : PidStep s l t) (htu : SamePids t u) : PidStep s l u := by
  refine ⟨fun p x hl => ?_, ?_, ?_⟩
  · rw [htu.children]
    exact hst.hires p x (htu.active p x hl)
  · rw [htu.kills]
    exact hst.kills
  · rw [htu.reports, htu.children]
    exact hst.reaps

/-- What comes before it in the step. -/
theorem PidStep.before (htu : PidStep t l u) (hp : t.procs = s.procs) (ha : t.active = s.active)
    (hc : t.children = s.children) (hq : Uncalled s t) : PidStep s l u := by
  have hcalls : t.calls = s.calls := hq.calls.trans (List.append_nil _)
  have hverdict : t.verdict = s.verdict := by
    funext r
    exact Sys.verdict_congr (by rw [ha]) fun h _ => congrFun hp h
  obtain ⟨hhires, hk, hrs⟩ := htu
  rw [ha, hc] at hhires
  rw [hq.kills, ha, hc] at hk
  rw [hcalls, hc, hverdict] at hrs
  exact ⟨hhires, hk, hrs⟩

theorem PidStep.choose {c : Choices} (hst : PidStep (s.choose c) l t) : PidStep s l t :=
  hst.before rfl rfl rfl (Uncalled.same rfl)

def SameActive (s t : Sys) : Prop := t.active = s.active

instance : IsPreorder Sys SameActive where
  refl _ := rfl
  trans _ _ _ hst htu := htu.trans hst

theorem removeReadEvent_sameActive (fd : Int) : Moves SameActive (removeReadEvent fd) :=
  removeReadEvent_moves (fun _ _ _ _ _ => rfl) (fun _ _ => Moves.modify fun _ => rfl) fd

/-- `on_proc_stopped` takes the pid out of `active_procs_`. -/
theorem onProcStopped_erases (hh : ∃ hd, s.handles h = some hd)
    (ht : onProcStopped h pid s = .ok () t) : t.active = s.active.erase pid := by
  obtain ⟨hd, hh⟩ := hh
  obtain ⟨_, v, hassert, ht⟩ := bind_eq_ok.mp ((bind_of_ok (get_apply _)).symm.trans ht)
  have hv : v = s := by
    unfold assert at hassert
    split at hassert <;> cases hassert
    rfl
  subst v
  rw [bind_of_ok (get_apply _), hh] at ht
  obtain ⟨_, a, ha, ht⟩ := bind_eq_ok.mp ht
  obtain ⟨_, b, hb, ht⟩ := bind_eq_ok.mp ht
  obtain ⟨_, c, hc, ht⟩ := bind_eq_ok.mp ht
  have hactive : c.active = s.active := ((removeReadEvent_sameActive _).ok hc).trans
    (((removeReadEvent_sameActive _).ok hb).trans ((removeReadEvent_sameActive _).ok ha))
  rw [bind_of_ok (modify_apply ..), bind_of_ok (get_apply _)] at ht
  have hlast : t.active = c.active.erase pid := by
    split at ht
    · cases ht
      rfl
    · cases ht
      rfl
  rw [hlast, hactive]

/-- A terminal callback of a handle that has been given a pid. -/
theorem callState_erases {hd : Handle} {st : State} (hst : st.terminal = true) (hh : s.handles h = some hd)
    (hstop : hd.onProcStopped = some pid) (ht : callState h st s = .ok () t) :
    t.active = s.active.erase pid := by
  unfold callState at ht
  rw [bind_of_ok (get_apply _), bind_of_ok (announce_apply ..), hh] at ht
  dsimp only at ht
  unfold handleState at ht
  rw [bind_of_ok (modify_apply ..), if_pos hst, hstop] at ht
  split at ht
  · rw [bind_of_ok (emit_apply ..)] at ht
    have herased := onProcStopped_erases (by exact ⟨_, Function.update_self h _ s.handles⟩) ht
    exact herased
  · have herased := onProcStopped_erases (by exact ⟨_, Function.update_self h _ s.handles⟩) ht
    exact herased

/-- A callback that leaves the process watched leaves the handle its pid. -/
theorem Local.stops {hd : Handle} (hl : Local h s t) (hh : s.handles h = some hd) :
    ∃ hd', t.handles h = some hd' ∧ hd'.onProcStopped = hd.onProcStopped := by
  have hentry := hl.entry h
  rw [hh] at hentry
  obtain ⟨hd', hh', he⟩ := Option.map_eq_some_iff.mp hentry
  have hstop : hd'.entry.onProcStopped = hd.entry.onProcStopped := by rw [he]
  exact ⟨hd', hh', hstop⟩

/-- `stopped` of a process whose handle has been given its pid. -/
theorem stopped_erases {hd : Handle} (hh : s.handles h = some hd) (hstop : hd.onProcStopped = some pid)
    (ht : stopped h s = .ok () t) :
    t.active = s.active.erase pid ∧ Called [(h, .stopped, (s.procs h).proc)] s t := by
  obtain ⟨_, a, ha, ht⟩ := bind_eq_ok.mp ht
  obtain ⟨_, b, hb, ht⟩ := bind_eq_ok.mp ht
  have hlocal := loopRestIo_local.ok ha
  obtain ⟨hd', hh', hstop'⟩ := hlocal.stops hh
  have hproc : (b.procs h).proc = (s.procs h).proc := by
    rw [← loopRestIo_sameProcs.ok ha h]
    cases hb
    show (Function.update a.procs h (a.procs h).pipesClosed h).proc = _
    rw [Function.update_self]
    rfl
  have hactive : b.active = s.active := by
    have ha' : a.active = s.active := hlocal.field Sys.active fun _ => rfl
    cases hb
    exact ha'
  have hhb : b.handles h = some hd' := by
    cases hb
    exact hh'
  have hquiet : Uncalled s b := IsTrans.trans _ _ _ (loopRestIo_uncalled.ok ha)
    (closeForkPipes_hushed.ok hb).uncalled
  refine ⟨hactive ▸ callState_erases rfl hhb (hstop'.trans hstop) ht, ?_⟩
  rw [← hproc]
  exact hquiet.trans (Called.of_told ((callState_told .stopped).ok ht) rfl)

/-- A status that is taken reaches the process with its pid, which is not active any more then. -/
theorem updateStatus_erases {status : WaitStatus} (hb : Badge s pid h) (hdead : Terminated status)
    (ht : updateStatus h status s = .ok () t) :
    t.active = s.active.erase pid ∧ Called [(h, .signaled, (s.procs h).proc.updateStatus status),
      (h, .stopped, { (s.procs h).proc.updateStatus status with stdinFd := -1 })] s t := by
  obtain ⟨u, hu, hr⟩ := updateStatus_reports hb.type hdead
  obtain ⟨hd, hh, hstop, _⟩ := hb.handle
  obtain ⟨hd', hh', hstop'⟩ := hr.inside.stops hh
  obtain ⟨hactive, hcalled⟩ := stopped_erases hh' (hstop'.trans hstop) (hu.symm.trans ht)
  rw [hr.proc] at hcalled
  refine ⟨hactive.trans ?_, hr.called.trans hcalled⟩
  rw [hr.inside.field Sys.active fun _ => rfl]

/-- One turn of the loop in `handle_sigchld`, in which a child is reaped. -/
theorem onSignal_harvests {child : Child}
    {status : { status : WaitStatus // Terminated status }} (hs : Badged s)
    (hl : s.children.lookup pid = some child) (hst : child.status = some status)
    (ht : onSignal pid status (s.reaped pid status) = .ok () t) :
    Badged t ∧ t.kills = s.kills ∧
      ∀ {rs u}, Harvested rs t u → Harvested ((pid, (status : WaitStatus)) :: rs) s u := by
  have hquiet := reaped_uncalled s pid status
  have hcalls : (s.reaped pid status).calls = s.calls := hquiet.calls.trans (List.append_nil _)
  have herased : ∀ {p x}, s.active.lookup p = some x → p ≠ pid → p ∈ (s.reaped pid status).children := by
    intro p x hp hne
    exact AList.mem_erase.mpr ⟨hne, (hs p x hp).2⟩
  unfold onSignal at ht
  rw [bind_of_ok (get_apply _)] at ht
  cases ha : s.active.lookup pid with
  | none =>
    rw [show (s.reaped pid status).active.lookup pid = none from ha] at ht
    cases ht
    refine ⟨fun p x hp => ⟨(hs p x hp).1.congr rfl rfl, herased hp ?_⟩, hquiet.kills, fun hr => ?_⟩
    · rintro rfl
      exact absurd (hp.symm.trans ha) (by simp)
    · refine hr.cons hl hst rfl (fun _ _ => id) (fun _ _ => rfl) ?_
      rw [hcalls]
      simp [Sys.verdict, ha]
  | some h =>
    rw [show (s.reaped pid status).active.lookup pid = some h from ha] at ht
    have hb : Badge (s.reaped pid status) pid h := (hs pid h ha).1.congr rfl rfl
    obtain ⟨hactive, hcalled⟩ := updateStatus_erases hb status.2 ht
    have hacts := (updateStatus_acts (h := h) (status : WaitStatus)).ok ht
    have hchildren : t.children = s.children.erase pid := hacts.field (·.children) fun _ => rfl
    have hactive' : t.active = s.active.erase pid := hactive
    have hother : ∀ {p x}, p ≠ pid → s.active.lookup p = some x → x ≠ h := by
      rintro p x hne hp rfl
      exact hne ((hs pid x ha).1.inj (hs p x hp).1)
    refine ⟨fun p x hp => ?_, hcalled.kills.trans hquiet.kills, fun hr => ?_⟩
    · have hne : p ≠ pid := by
        rintro rfl
        rw [hactive', AList.lookup_erase] at hp
        cases hp
      have hp' := lookup_of_erase (hactive' ▸ hp)
      obtain ⟨hprocs, hhandles⟩ := Sys.off_objects hacts.off (hother hne hp')
      exact ⟨(hs p x hp').1.congr hprocs hhandles, hchildren ▸ AList.mem_erase.mpr ⟨hne, (hs p x hp').2⟩⟩
    · refine hr.cons hl hst hchildren (fun p x hp => lookup_of_erase (hactive' ▸ hp)) (fun r hne => ?_) ?_
      · refine Sys.verdict_congr (by rw [hactive']; exact AList.lookup_erase_ne hne) fun x hx => ?_
        exact (Sys.off_objects hacts.off (hother hne hx)).1
      · rw [hcalled.calls, hcalls, reports_append]
        simp [Sys.verdict, ha, reports, Sys.reaped]

/-- What the loop of `handle_sigchld` comes to. -/
theorem sigchldLoop_harvests (fuel : Nat) : ∀ {s t}, Badged s → sigchldLoop fuel s = .ok () t →
    Badged t ∧ t.kills = s.kills ∧ ∃ rs, Harvested rs s t := by
  induction fuel with
  | zero =>
    intro s t _ ht
    cases ht
  | succ fuel ih =>
    intro s t hs ht
    have ha := s.toWorld.waitpid_answer 0
    unfold sigchldLoop at ht
    rw [bind_of_ok (call_apply ..)] at ht
    generalize s.toWorld.waitpid 0 = r at ha ht
    obtain ⟨result, w⟩ := r
    dsimp only at ha ht
    rw [bind_of_ok (emit_apply ..)] at ht
    -- an answer that ends the loop
    have hend : ∀ {u}, Aside s u → Badged u ∧ u.kills = s.kills ∧ ∃ rs, Harvested rs s u := fun hu =>
      ⟨hs.same hu.samePids, hu.samePids.kills, [], .none hu.samePids.children hu.samePids.active hu.samePids.reports⟩
    cases ha with
    | @failed e hfault =>
      have hfail : handlerProcessError .waitpidError (s.waited (.failed e)) = .ok () t →
          Badged t ∧ t.kills = s.kills ∧ ∃ rs, Harvested rs s t := fun ht =>
        hend (IsTrans.trans _ _ _ (waited_aside s (.failed e)) ((handlerProcessError_aside _).ok ht))
      cases e with
      | echild =>
        cases ht
        exact hend (waited_aside s _)
      | eintr =>
        have haside := waited_aside s (.failed .eintr)
        obtain ⟨hb, hk, rs, hr⟩ := ih (hs.same haside.samePids) ht
        exact ⟨hb, hk.trans haside.uncalled.kills, rs, hr.before rfl rfl rfl haside.uncalled⟩
      | eagain | ebadf | other code => exact hfail ht
    | echild hz =>
      cases ht
      exact hend (waited_aside s _)
    | unavailable hz =>
      cases ht
      exact hend (waited_aside s _)
    | @reaped x child status hm hl hst =>
      obtain ⟨_, v, hv, ht⟩ := bind_eq_ok.mp ht
      obtain ⟨hb, hk, hcons⟩ := onSignal_harvests hs hl hst hv
      obtain ⟨hb', hk', rs, hr⟩ := ih hb ht
      exact ⟨hb', hk'.trans hk, _, hcons hr⟩

theorem handleSigchld_pids (hs : Badged s) (ht : handleSigchld s = .ok () t) : Badged t ∧ PidStep s l t := by
  have hmask : ∀ (block : Bool) (e : Error), Moves Aside (do
      if !(← call (World.sigprocmask · block)) then handlerProcessError e : Prog Unit) := fun block e =>
    Moves.bind (sigprocmask_aside block) fun _ => Moves.ite (fun _ => handlerProcessError_aside e) fun _ => Moves.pure _
  rw [handleSigchld_split] at ht
  obtain ⟨_, a, ha, ht⟩ := bind_eq_ok.mp ht
  rw [bind_of_ok (get_apply _)] at ht
  obtain ⟨_, b, hb, ht⟩ := bind_eq_ok.mp ht
  have hbefore := (hmask _ _).ok ha
  have hafter := (hmask _ _).ok ht
  obtain ⟨hbadged, hkills, rs, hr⟩ := sigchldLoop_harvests _ (hs.same hbefore.samePids) hb
  refine ⟨hbadged.same hafter.samePids, PidStep.after (t := b) ?_ hafter.samePids⟩
  exact (hr.pidStep hkills).before (hbefore.field Sys.procs fun _ => rfl) (hbefore.field Sys.active fun _ => rfl)
    (hbefore.field (·.children) fun _ => rfl) hbefore.uncalled

/-- STOP_KILL signals the children of the active processes. -/
theorem cleanup_pids (hs : Badged s) (ht : cleanup s = .ok () t) : Badged t ∧ PidStep s l t := by
  unfold cleanup at ht
  rw [bind_of_ok (modify_apply ..), bind_of_ok (get_apply _)] at ht
  have hset : SamePids s { s with stopping := true } := .same rfl
  generalize hv : ({ s with stopping := true } : Sys) = v at hset ht
  have hmoved : ∀ {w}, SamePids v w → Badged w ∧ PidStep s l w := fun hw => by
    have hsame := IsTrans.trans _ _ _ hset hw
    exact ⟨hs.same hsame, hsame.pidStep⟩
  cases hflag : v.stopFlag with
  | stopUser =>
    rw [hflag] at ht
    exact hmoved ((cleanupUser_samePids _).ok ht)
  | stopKill =>
    rw [hflag] at ht
    obtain ⟨vigil, hkill⟩ := cleanupKill_ok v.stopSignum v.active.entries v
    cases hkill.symm.trans ht
    subst v
    have hnone : (s.active.entries.map fun p => Event.kill p.1 s.stopSignum).filterMap Event.call = [] := by
      simp [Event.call]
    have hkeys : (s.active.entries.map fun p => Event.kill p.1 s.stopSignum).filterMap Event.killed =
        s.active.keys := by
      rw [List.filterMap_map]
      exact List.filterMap_eq_map_iff_forall_eq_some.mpr fun p _ => rfl
    refine ⟨fun p x hl => ⟨(hs p x hl).1.congr rfl rfl, (hs p x hl).2⟩, fun p x hl => .inl hl,
      ⟨s.active.keys, ?_, fun p hm => ?_⟩, [], List.nodup_nil, by simp, ?_, fun p hm hn => absurd hm hn⟩
    · simp only [Sys.kills, List.filterMap_append, hkeys]
    · obtain ⟨x, hx⟩ := Option.isSome_iff_exists.mp (AList.lookup_isSome.mpr (AList.mem_keys.mpr hm))
      exact ⟨AList.mem_keys.mpr hm, (hs p x hx).2⟩
    · simp only [Sys.calls, List.filterMap_append, hnone, List.append_nil, List.flatMap_nil]
  | stopWait =>
    rw [hflag] at ht
    cases ht
    exact hmoved (Std.Refl.refl _)

theorem jobNullptrStop_pids {ret : EventReturn} (hs : Badged s) (ht : jobNullptrStop s = .ok ret t) :
    Badged t ∧ PidStep s l t := by
  unfold jobNullptrStop at ht
  rw [bind_of_ok (get_apply _)] at ht
  have hnone : Badged s ∧ PidStep s l s := ⟨hs, (Std.Refl.refl (r := SamePids) s).pidStep⟩
  split at ht
  · obtain ⟨_, v, hv, ht⟩ := bind_eq_ok.mp ht
    cases ht
    exact cleanup_pids hs hv
  · split at ht
    · cases ht
      exact hnone
    · cases ht
      exact hnone

theorem jobStop_pids {ret : EventReturn} {flag : StopFlag} {signum : Int} (hs : Badged s)
    (ht : jobStop flag signum s = .ok ret t) : Badged t ∧ PidStep s l t := by
  unfold jobStop at ht
  rw [bind_of_ok (get_apply _)] at ht
  split at ht
  · cases ht
    exact ⟨hs, (Std.Refl.refl (r := SamePids) s).pidStep⟩
  · rw [bind_of_ok (modify_apply ..)] at ht
    have hset : SamePids s { s with stopFlag := flag, stopSignum := signum } := .same rfl
    obtain ⟨hb, hstep⟩ := jobNullptrStop_pids (l := l) (hs.same hset) ht
    exact ⟨hb, hstep.before rfl rfl rfl (Uncalled.same rfl)⟩

/-- The child of a spawn job that succeeds is a new one, and so is its entry. -/
theorem Spawned.pids (hs : Badged s) (hnew : ∀ p, s.active.lookup p ≠ some h) (hsp : Spawned h pid s u) :
    Badged (u.activated h pid) ∧ PidStep s l (u.activated h pid) := by
  have hactive : u.active = s.active := hsp.field Sys.active fun _ => rfl
  have hactive' : (u.activated h pid).active = s.active.insert pid h := by
    show u.active.insert pid h = _
    rw [hactive]
  have hinactive : pid ∉ s.active := by
    intro hm
    obtain ⟨x, hx⟩ := Option.isSome_iff_exists.mp (AList.lookup_isSome.mpr hm)
    exact hsp.fresh (hs pid x hx).2
  have hgrown : ∀ {p}, p ∈ s.children ∨ p = pid → p ∈ (u.activated h pid).children := by
    intro p hp
    show p ∈ u.children
    rw [hsp.children]
    exact (AList.mem_insert _).mpr hp.symm
  have hserved := hsp.served.activated
  refine ⟨fun p x hl => ?_, fun p x hl => ?_, ⟨[], ?_, by simp⟩, [], List.nodup_nil, by simp, ?_, fun p hm hn => ?_⟩
  · rw [hactive', lookup_insert_fresh hinactive] at hl
    rcases hl with ⟨rfl, rfl⟩ | hl
    · obtain ⟨hd, hh, hret⟩ := hsp.served.handle
      have hpid : (u.procs x).proc.pid = p := by rw [hsp.served.proc]
      refine ⟨⟨hserved.type, hserved.procPid, hpid, { hd with onProcStopped := some p }, ?_, rfl, hret ▸ hpid⟩,
        hgrown (.inr rfl)⟩
      show Function.update u.handles x _ x = _
      rw [Function.update_self, hh]
      rfl
    · have hx : x ≠ h := fun he => hnew p (he ▸ hl)
      obtain ⟨hprocs, hhandles⟩ := hsp.opens.objects hx
      refine ⟨(hs p x hl).1.congr hprocs ?_, hgrown (.inl (hs p x hl).2)⟩
      exact (Function.update_of_ne hx ..).trans hhandles
  · rw [hactive', lookup_insert_fresh hinactive] at hl
    rcases hl with ⟨rfl, rfl⟩ | hl
    · exact .inr ⟨hinactive, hnew, hsp.fresh, hgrown (.inr rfl)⟩
    · exact .inl hl
  · exact hsp.called.kills.trans (List.append_nil _).symm
  · show reports u.calls = _
    rw [hsp.called.calls, reports_append]
    simp [reports]
  · exact absurd (hgrown (.inl hm)) hn

theorem jobSpawnProc_pids {ret : EventReturn} {args : List Char} {hasOnStop : Bool} (hs : Badged s)
    (hp : s.procs h = { type := .nonblocking }) (hh : s.handles h = some { args, hasOnStop })
    (ht : jobSpawnProc h s = .ok ret t) : Badged t ∧ PidStep s l t := by
  have hunspawned : Unspawned h s := ⟨⟨_, hh, rfl, rfl⟩, by rw [hp], by rw [hp]⟩
  have hnew : ∀ p, s.active.lookup p ≠ some h := by
    intro p hl
    obtain ⟨hd, hh', hstop, _⟩ := (hs p h hl).1.handle
    cases hh.symm.trans hh'
    cases hstop
  unfold jobSpawnProc at ht
  rw [bind_of_ok (get_apply _)] at ht
  split at ht
  · cases ht
    exact ⟨hs, (Std.Refl.refl (r := SamePids) s).pidStep⟩
  rcases handleExec_cases hh hp hunspawned with ⟨u, hu, hpid⟩ | ⟨pid, u, hu, hsp⟩
  · -- the assertion on the pid fails
    rw [bind_of_ok hu, bind_of_ok (get_apply _), hpid] at ht
    cases ht
  · have hassert : assert (0 < pid) .pidPositive u = .ok () u := by
      unfold assert
      rw [if_pos (decide_eq_true hsp.pos)]
      rfl
    rw [bind_of_ok hu, bind_of_ok (get_apply _), hsp.handlePid, bind_of_ok hassert, bind_of_ok (modify_apply ..),
      bind_of_ok (modify_apply ..), bind_of_ok (get_apply _)] at ht
    obtain ⟨hb, hstep⟩ := hsp.pids (l := l) hs hnew
    have hadds : SamePids (u.activated h pid) t := (Moves.bind (addReadEvent_samePids _ _) fun _ =>
      Moves.bind (addReadEvent_samePids _ _) fun _ => Moves.bind (addReadEvent_samePids _ _) fun _ =>
        Moves.pure _).ok ht
    exact ⟨hb.same hadds, hstep.after hadds⟩

/-- The handle of a spawn job that is still to come. -/
def Unissued (s : Sys) : Prop := ∀ h, some (.spawn h) ∈ s.buffer →
  s.procs h = { type := .nonblocking } ∧ ∃ args hasOnStop, s.handles h = some { args, hasOnStop }

theorem dispatchJob_pids {ret : EventReturn} (hs : Badged s) (hi : Unissued s)
    (ht : dispatchJob s = .ok ret t) : Badged t ∧ PidStep s l t := by
  unfold dispatchJob bufferRemove at ht
  rw [bind_apply, bind_of_ok (get_apply _)] at ht
  cases hb : s.buffer with
  | nil =>
    rw [hb] at ht
    cases ht
  | cons job rest =>
    rw [hb] at ht
    have hset : SamePids s { s with buffer := rest } := .same rfl
    have hfrom : Badged t ∧ PidStep { s with buffer := rest } l t → Badged t ∧ PidStep s l t := fun ⟨hb, hstep⟩ =>
      ⟨hb, hstep.before rfl rfl rfl (Uncalled.same rfl)⟩
    match job, hb with
    | none, _ => exact hfrom (jobNullptrStop_pids (hs.same hset) ht)
    | some (.stop flag signum), _ => exact hfrom (jobStop_pids (hs.same hset) ht)
    | some (.spawn h), hb =>
      obtain ⟨hp, args, hasOnStop, hh⟩ := hi h (by rw [hb]; exact List.mem_cons_self)
      exact hfrom (jobSpawnProc_pids (hs.same hset) hp hh ht)

/-- The control callback. -/
theorem onControlReady_pids {fd : Int} (hs : Badged s) (hi : Unissued s)
    (ht : onControlReady fd s = .ok () t) : Badged t ∧ PidStep s l t := by
  obtain ⟨answer, u, hu, ht⟩ := bind_eq_ok.mp ht
  have hread := (readRetry_samePids fd 1).ok hu
  obtain ⟨readFaults, pipes, hw⟩ := World.readRetry_frame fd 1 s.readFaults s.toWorld
  have hframe : u = { s with toWorld := (World.readRetry fd 1 s.readFaults s.toWorld).2 } := by
    cases (call_apply (fun w => World.readRetry fd 1 w.readFaults w) s).symm.trans hu
    rfl
  rw [hw] at hframe
  cases answer with
  | error e => cases ht
  | ok data =>
    obtain ⟨ret, v, hv, ht⟩ := bind_eq_ok.mp ht
    have hiu : Unissued u := by
      rw [hframe]
      exact hi
    obtain ⟨hb, hstep⟩ := dispatchJob_pids (l := l) (hs.same hread) hiu hv
    have hlast : SamePids v t := (Moves.ite (fun _ => handleStop_samePids) fun _ => Moves.pure _).ok ht
    refine ⟨hb.same hlast, PidStep.after (t := v) (hstep.before ?_ ?_ ?_ ?_) hlast⟩
    · rw [hframe]
    · rw [hframe]
    · rw [hframe]
    · exact Uncalled.same (by rw [hframe])

def Unmoved (s t : Sys) : Prop := t.pids = s.pids

instance : IsPreorder Sys Unmoved where
  refl _ := rfl
  trans _ _ _ hst htu := htu.trans hst

/-- What `read_signal` does before it comes to the children. -/
theorem readSignalFrom_unmoved (fd : Int) (fuel : Nat) : ∀ want got,
    Moves Unmoved (readSignalFrom fd fuel want got) := by
  induction fuel with
  | zero => exact fun _ _ => Moves.throw _
  | succ fuel ih =>
    intro want got
    unfold readSignalFrom
    refine Moves.bind (fun s => ?_) fun answer => ?_
    · obtain ⟨readFaults, pipes, hw⟩ := s.toWorld.read_frame fd want
      rw [call_apply, hw]
      rfl
    · split
      · exact ih _ _
      · exact Moves.pure _
      · exact Moves.ite (fun _ => Moves.pure _) fun _ => ih _ _

theorem readSignal_pids {ret : EventReturn} (hs : Badged s) (ht : readSignal s = .ok ret t) :
    Badged t ∧ PidStep s l t := by
  unfold readSignal at ht
  rw [bind_of_ok (get_apply _)] at ht
  obtain ⟨signal, u, hu, ht⟩ := bind_eq_ok.mp ht
  have hpids : u.pids = s.pids := (readSignalFrom_unmoved _ _ _ _).ok hu
  have hread : SamePids s u := .same hpids
  have hnone : Badged u ∧ PidStep s l u := ⟨hs.same hread, hread.pidStep⟩
  cases signal with
  | none =>
    cases ht
    exact hnone
  | some signal =>
    dsimp only at ht
    split at ht
    · obtain ⟨_, v, hv, ht⟩ := bind_eq_ok.mp ht
      cases ht
      obtain ⟨hb, hstep⟩ := handleSigchld_pids (l := l) hnone.1 hv
      exact ⟨hb, hstep.before (congrArg (·.1) hpids) (congrArg (·.2.2.1) hpids) (congrArg (·.2.2.2.1) hpids)
        (Uncalled.same (congrArg (·.2.2.2.2) hpids))⟩
    · cases ht
      exact hnone

theorem onSigchldReady_pids (hs : Badged s) (ht : onSigchldReady s = .ok () t) : Badged t ∧ PidStep s l t := by
  obtain ⟨ret, u, hu, ht⟩ := bind_eq_ok.mp ht
  obtain ⟨hb, hstep⟩ := readSignal_pids (l := l) hs hu
  have hlast : SamePids u t := (Moves.ite (fun _ => handleStop_samePids) fun _ => Moves.pure _).ok ht
  exact ⟨hb.same hlast, hstep.after hlast⟩

theorem doAction_pids {fd : Int} (hs : Badged s) (hi : Unissued s) (ht : doAction fd s = .ok () t) :
    Badged t ∧ PidStep s l t := by
  have hmoved : ∀ {x : Prog EventReturn}, Moves SamePids x → discard x s = .ok () t → Badged t ∧ PidStep s l t := by
    intro x hx ht
    have hsame : SamePids s t := (Moves.bind hx fun _ => Moves.pure _).ok ht
    exact ⟨hs.same hsame, hsame.pidStep⟩
  unfold doAction at ht
  rw [bind_of_ok (get_apply _)] at ht
  cases hl : s.registered.lookup fd with
  | none =>
    rw [hl] at ht
    cases ht
  | some src =>
    rw [hl] at ht
    cases src with
    | sigchld => exact onSigchldReady_pids hs ht
    | control => exact onControlReady_pids hs hi ht
    | readClose h => exact hmoved readClose_samePids ht
    | readStdout h => exact hmoved (Moves.bind Moves.get fun _ => readStd_samePids (fun _ => ⟨rfl, rfl⟩) _ _) ht
    | readStderr h => exact hmoved (Moves.bind Moves.get fun _ => readStd_samePids (fun _ => ⟨rfl, rfl⟩) _ _) ht

theorem dispatch_pids {fd : Int} (hs : Badged s) (hi : Unissued s) (ht : dispatch fd s = .ok () t) :
    Badged t ∧ PidStep s l t := by
  have hfinish : ∀ ret : EventReturn, Moves SamePids (if ret = .stopLoop then runFinish else pure () : Prog Unit) :=
    fun _ => Moves.ite (fun _ => runFinish_samePids) fun _ => Moves.pure _
  have hnone : Badged s ∧ PidStep s l s := ⟨hs, (Std.Refl.refl (r := SamePids) s).pidStep⟩
  unfold dispatch at ht
  rw [bind_of_ok (get_apply _)] at ht
  cases htype : s.loopType with
  | external =>
    simp only [htype] at ht
    exact doAction_pids hs hi ht
  | default =>
    cases hloop : s.loop with
    | none =>
      simp only [htype, hloop] at ht
      cases ht
      exact hnone
    | some e =>
      simp only [htype, hloop] at ht
      cases hfind : e.cbs.find? (·.1 = fd) with
      | none =>
        rw [hfind] at ht
        cases ht
        exact hnone
      | some p =>
        obtain ⟨_, cb⟩ := p
        rw [hfind] at ht
        obtain ⟨ret, u, hu, ht⟩ := bind_eq_ok.mp ht
        have hlast : SamePids u t := (hfinish ret).ok ht
        cases cb with
        | interrupt =>
          have hread : SamePids s u := (loopControl_samePids (Moves.pure _) fd).ok hu
          have hsame := IsTrans.trans _ _ _ hread hlast
          exact ⟨hs.same hsame, hsame.pidStep⟩
        | doAction =>
          obtain ⟨_, v, hv, hu⟩ := bind_eq_ok.mp hu
          cases hu
          obtain ⟨hb, hstep⟩ := doAction_pids (l := l) hs hi hv
          exact ⟨hb.same hlast, hstep.after hlast⟩

/-- A new handle is not one of those that are active. -/
theorem multiExec_pids {args : List Char} {hasOnStop : Bool} (hi : Isolated s) (hs : Badged s)
    (ht : multiExec args hasOnStop s = .ok () t) : Badged t ∧ PidStep s l t := by
  unfold multiExec at ht
  rw [bind_of_ok (get_apply _), bind_of_ok (modify_apply ..)] at ht
  have hsent := (sendJob_samePids _).ok ht
  have hb : Badged { s with
      nextHandle := s.nextHandle + 1
      procs := Function.update s.procs s.nextHandle { type := .nonblocking }
      handles := Function.update s.handles s.nextHandle (some { args, hasOnStop }) } := by
    intro p x hl
    have hne : x ≠ s.nextHandle := Nat.ne_of_lt (hi.active p x hl).1
    obtain ⟨hbadge, hc⟩ := hs p x hl
    exact ⟨hbadge.congr (Function.update_of_ne hne ..) (Function.update_of_ne hne ..), hc⟩
  exact ⟨hb.same hsent, .still hsent.active hsent.children hsent.kills hsent.reports⟩

/-- What one step does with pids, in any life. -/
theorem step_pids (hi : Isolated s) (hs : Badged s) (hstep : Step s l t) : Badged t ∧ PidStep s l t := by
  obtain ⟨_, ht⟩ := hstep
  have hmoved : SamePids s t → Badged t ∧ PidStep s l t := fun hsame => ⟨hs.same hsame, hsame.pidStep⟩
  cases l with
  | exec args hasOnStop => exact multiExec_pids hi hs ht
  | stop flag signum => exact hmoved ((sendJob_samePids _).ok ht)
  | env act =>
    cases ht
    have hact := envAct_elsewhere act s
    have ha : (act.apply s).active = s.active := hact.field Sys.active fun _ _ _ _ => rfl
    refine ⟨fun p x hl => ?_, .quiet ha (fun _ _ _ => ⟨act, rfl⟩) (Uncalled.same (hact.field (·.trace) fun _ _ _ _ => rfl))⟩
    obtain ⟨hb, hc⟩ := hs p x (ha ▸ hl)
    refine ⟨hb.congr (congrFun (hact.field Sys.procs fun _ _ _ _ => rfl) x)
      (congrFun (hact.field Sys.handles fun _ _ _ _ => rfl) x), hact.children p ?_ hc⟩
    exact AList.lookup_isSome.mp (Option.isSome_of_eq_some (ha ▸ hl))
  | run type c =>
    have hchosen : Moves SamePids (modify (Sys.choose · c) : Prog Unit) := modify_samePids fun _ => rfl
    exact hmoved ((Moves.bind hchosen fun _ => startRun_samePids type).ok ht)
  | event fd c =>
    have hchosen : SamePids s (s.choose c) := .same rfl
    obtain ⟨hb, hstep⟩ := dispatch_pids (l := .event fd c) (hs.same hchosen) (fun h hm => (hi.fresh h hm).2) ht
    exact ⟨hb, hstep.choose⟩
  | selectError => exact hmoved (selectFails_samePids.ok ht)

theorem run_badged {w : World} {ls : List Label} (hnew : newMulti (boot w) = .ok () s)
    (hrun : Run Step s ls t) : Isolated t ∧ Badged t := by
  refine hrun.invariant (I := fun s => Isolated s ∧ Badged s) ⟨newMulti_isolated hnew, fun p x hl => ?_⟩
    fun a l b ha hstep => ⟨(label_isolated l).ok ha.1 hstep.2, (step_pids ha.1 ha.2 hstep).1⟩
  rw [newMulti_ok hnew] at hl
  cases hl

/-- In every state of a run the active pids are those of children of the object that have not been
waited for, and every step respects that. -/
theorem pid_safety {w : World} {ls : List Label} (hnew : newMulti (boot w) = .ok () s)
    (hrun : Run Step s ls t) : PidsOwned t ∧ ∀ l u, Step t l u → PidStep t l u := by
  obtain ⟨hi, hs⟩ := run_badged hnew hrun
  exact ⟨hs.pidsOwned, fun l u hstep => (step_pids hi hs hstep).2⟩

/-- The second process is started, the first one is reaped, and the second one is killed. -/
theorem pid_safety_pair :
    ((pairAt 4).active.lookup 2 = none ∧ (pairAt 5).active.lookup 2 = some 1 ∧ PidsOwned (pairAt 4) ∧
        PidStep (pairAt 4) (.event 0 {}) (pairAt 5)) ∧
      (1 ∈ (pairAt 12).children ∧ 1 ∉ (pairAt 13).children ∧ PidsOwned (pairAt 12) ∧
        PidStep (pairAt 12) (.event 4 {}) (pairAt 13)) ∧
      (pairAt 14).kills = [] ∧ (pairAt 15).kills = [2] ∧ PidsOwned (pairAt 14) ∧
        PidStep (pairAt 14) (.event 0 {}) (pairAt 15) := by
  have hspawn := pid_safety freshMulti_ok (pair_run (n := 4) (by decide +kernel))
  have hreap := pid_safety freshMulti_ok (pair_run (n := 12) (by decide +kernel))
  have hkill := pid_safety freshMulti_ok (pair_run (n := 14) (by decide +kernel))
  exact ⟨⟨by decide +kernel, by decide +kernel, hspawn.1, hspawn.2 _ _ (pair_step rfl (by decide +kernel))⟩,
    ⟨by decide +kernel, by decide +kernel, hreap.1, hreap.2 _ _ (pair_step rfl (by decide +kernel))⟩,
    by decide +kernel, by decide +kernel, hkill.1, hkill.2 _ _ (pair_step rfl (by decide +kernel))⟩

end Pexec
