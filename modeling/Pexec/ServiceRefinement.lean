import Pexec.EventRules
import Pexec.JobTiming
import Pexec.LaunchErrors
import Pexec.Lib.ServiceRuns

namespace Pexec

open Effect GracefulStop Runs

variable {h x : Nat} {pid fd : Int} {s t u : Sys} {c : Choices}
  {base : Service Nat (StopFlag × Int)} {acts : List (Act Nat (StopFlag × Int))}

/-- What the service does while the object takes a step: a call sends a ticket, a callback for the
control pipe takes one, and any other callback is about processes that end. Only a run whose SIGCHLD
pipe cannot be read breaks off. -/
inductive Realizes (s : Sys) : Label → List (Act Nat (StopFlag × Int)) → Prop
  | exec {args : List Char} {hasOnStop : Bool} : Realizes s (.exec args hasOnStop) [.send (.start s.nextHandle)]
  | stop {flag : StopFlag} {signum : Int} : Realizes s (.stop flag signum) [.send (.stop (flag, signum))]
  | env {act : EnvAct} : Realizes s (.env act) []
  | opened {type : LoopType} {c : Choices} : Realizes s (.run type c) [.begin]
  | refused {type : LoopType} {c : Choices} : Realizes s (.run type c) []
  | job {fd : Int} {c : Choices} {x : Ticket Nat (StopFlag × Int)}
      (source : s.registered.lookup fd = some .control) : Realizes s (.event fd c) [.take x]
  | ends {fd : Int} {c : Choices} {hs : List Nat} (source : s.registered.lookup fd ≠ some .control) :
      Realizes s (.event fd c) (hs.map .finish)
  | breaks {fd : Int} {c : Choices} {hs : List Nat} (source : s.registered.lookup fd = some .sigchld)
      (failed : ∃ t, readSignal (s.choose c) = .ok .stopLoop t) :
      Realizes s (.event fd c) (hs.map .finish ++ [.abort])
  | selectError : Realizes s .selectError []

/-- The tickets that the `exec` and `stop` calls among the labels send, if the next handle is `n`. -/
def tickets : Nat → List Label → List (Ticket Nat (StopFlag × Int))
  | _, [] => []
  | n, .exec _ _ :: ls => .start n :: tickets (n + 1) ls
  | n, .stop flag signum :: ls => .stop (flag, signum) :: tickets n ls
  | n, _ :: ls => tickets n ls

/-- Nothing but jobs that end. -/
def JobsEnd (base : Service Nat (StopFlag × Int)) (t : Sys) : Prop :=
  ∃ hs : List Nat, Run Performs base (hs.map .finish) t.service

theorem JobsEnd.same (hs : JobsEnd base s) (hservice : t.service = s.service) : JobsEnd base t := by
  unfold JobsEnd
  rw [hservice]
  exact hs

theorem JobsEnd.start (s : Sys) : JobsEnd s.service s := ⟨[], .nil⟩

theorem Finished.performs {new : List (Nat × State × ProcStatus)} (hs : Desk s)
    (hl : s.active.lookup pid = some h) (hf : Finished pid h new s t)
    (hstart : new.filterMap startedBy = []) (hend : new.filterMap endedBy = [h]) :
    Performs s.service (.finish h) t.service := by
  refine .finish (hf.move hs hl hstart hend) ?_
  simp only [Sys.service, hf.called.calls, List.filterMap_append, hend]

theorem JobsEnd.finished {new : List (Nat × State × ProcStatus)} (hj : JobsEnd base s) (hs : Desk s)
    (hl : s.active.lookup pid = some h) (hf : Finished pid h new s t)
    (hstart : new.filterMap startedBy = []) (hend : new.filterMap endedBy = [h]) : JobsEnd base t := by
  obtain ⟨hs', hrun⟩ := hj
  exact ⟨hs' ++ [h], run_finishes hrun (hf.performs hs hl hstart hend)⟩

theorem Aside.service (ha : Aside s t) : t.service = s.service :=
  Sys.service_eq (ha.field Sys.buffer fun _ => rfl) (ha.field Sys.added fun _ => rfl)
    (ha.field Sys.active fun _ => rfl) (ha.field Sys.nextHandle fun _ => rfl)
    (ha.field Sys.stopping fun _ => rfl) (ha.field Sys.stopFlag fun _ => rfl)
    (ha.field Sys.stopSignum fun _ => rfl) (ha.field Sys.watching fun _ => rfl) ha.uncalled

theorem onSignal_jobsEnd {status : { status : WaitStatus // Terminated status }} (hs : Sound s)
    (hj : JobsEnd base s) (ht : onSignal pid status (s.reaped pid status) = .ok () t) : JobsEnd base t := by
  have hservice : (s.reaped pid status).service = s.service :=
    Sys.service_eq rfl rfl rfl rfl rfl rfl rfl rfl (reaped_uncalled s pid status)
  have hdesk := reaped_desk hs.on.desk pid status
  have howns := (hs.isolated.reaped pid status).owns
  unfold onSignal at ht
  rw [bind_of_ok (get_apply _), show (s.reaped pid status).active = s.active from rfl] at ht
  cases ha : s.active.lookup pid with
  | none =>
    rw [ha] at ht
    cases ht
    exact hj.same hservice
  | some h =>
    rw [ha] at ht
    obtain ⟨t', ht', hf⟩ := updateStatus_ends hdesk howns ha (hs.on.served pid h ha).type status.2
    cases ht.symm.trans ht'
    exact (hj.same hservice).finished hdesk ha hf rfl rfl

theorem jobsEnd_keeps : SigchldKeeps (JobsEnd base) where
  read {s _ _} hs hj hr := by
    have hdrained := readSignalFrom_drained (s.readFaults.length + 4) 4 [] s hs.isolated.owns
    rw [hr] at hdrained
    exact hj.same hdrained.service
  mask block _ hj := hj.same ((sigprocmask_aside block).ok (call_apply ..)).service
  error _ hj ht := hj.same ((handlerProcessError_aside _).ok ht).service
  waited r _ hj := hj.same (waited_aside _ r).service
  signal hs hj ht := onSignal_jobsEnd hs hj ht

theorem readClose_jobsEnd {ret : EventReturn} (hs : Sound s) (hl : s.active.lookup pid = some h)
    (ht : readClose h s = .ok ret t) : JobsEnd s.service t := by
  obtain ⟨t', ht', ⟨_, hf⟩ | ⟨_, hf⟩⟩ := readClose_ends hs.on.desk hl (hs.on.served pid h hl).type
  · cases ht.symm.trans ht'
    exact (JobsEnd.start s).finished hs.on.desk hl hf rfl rfl
  · cases ht.symm.trans ht'
    exact (JobsEnd.start s).finished hs.on.desk hl hf rfl rfl

theorem Local.service (hl : Local h s t) (hq : Uncalled s t) : t.service = s.service :=
  Sys.service_eq (hl.field Sys.buffer fun _ => rfl) (hl.field Sys.added fun _ => rfl)
    (hl.field Sys.active fun _ => rfl) (hl.field Sys.nextHandle fun _ => rfl)
    (hl.field Sys.stopping fun _ => rfl) (hl.field Sys.stopFlag fun _ => rfl)
    (hl.field Sys.stopSignum fun _ => rfl) (hl.field Sys.watching fun _ => rfl) hq

theorem readStd_jobsEnd {slot : Slot} {cb : List UInt8 → Event} {err : Error} {ret : EventReturn}
    (hs : Sound s) (hl : s.active.lookup pid = some h) (hstd : StdSlot h slot cb)
    (ht : readStd (s.array slot).rd h cb err s = .ok ret t) : JobsEnd s.service t := by
  obtain ⟨ret', t', ht', _, ⟨_, hlocal, hq, _, _⟩ | ⟨_, hf⟩⟩ :=
    readStd_ends hstd err hs.on.desk hl (hs.on.served pid h hl).type
  · cases ht.symm.trans ht'
    exact (JobsEnd.start s).same (hlocal.service hq)
  · cases ht.symm.trans ht'
    exact (JobsEnd.start s).finished hs.on.desk hl hf rfl rfl

/-- The control pipe has announced a job: the first one is taken from the queue. -/
theorem onControlReady_takes (hs : Sound s) (hw : s.watching = true)
    (ht : onControlReady (s.array .control).rd s = .ok () t) :
    ∃ x, Performs s.service (.take x) t.service := by
  obtain ⟨a, u, hu, hd⟩ := readRetry_drained .control hs.isolated.owns 1
  have hiso : Isolated u := (readRetry_isolated .control (fun x => ⟨by simp, by simp⟩) (s.array .control).rd 1).ok
    ⟨hs.isolated, rfl⟩ hu
  have hsound : Sound u := ⟨hiso, hd.on hs.on⟩
  have hwu : u.watching = true := (hd.field Sys.watching fun _ _ _ => rfl).trans hw
  have hservice : u.service = s.service := hd.service
  unfold onControlReady at ht
  rw [bind_of_ok hu] at ht
  cases a with
  | error e => cases ht
  | ok data =>
    obtain ⟨ret, v, hv, ht⟩ := bind_eq_ok.mp ht
    obtain ⟨job, hjob⟩ := (dispatchJob_frame hsound hv).2
    have hqueue : s.service.queue = ticket job :: v.service.queue := by
      rw [← hservice]
      simp only [Sys.service, hjob, List.map_cons]
    rcases dispatchJob_cases hsound hwu with ⟨_, _, hv', _⟩ | ⟨_, _, hv', ⟨rfl, hjobbed⟩ | ⟨rfl, hempty⟩⟩
    · cases hv.symm.trans hv'
    · cases hv.symm.trans hv'
      cases ht
      exact ⟨_, .take (hservice ▸ hjobbed.move) hqueue⟩
    · cases hv.symm.trans hv'
      have hon : On v := by
        rw [hempty.frame]
        exact hsound.on.queue ..
      have hwv : v.watching = true := by
        rw [hempty.frame]
        exact hwu
      obtain ⟨t', ht', hhalted⟩ := handleStop_ok hon hwv
      cases (show handleStop v = .ok () t from ht).symm.trans ht'
      refine ⟨_, .take (x := ticket job) (hservice ▸ hempty.move hhalted hwu) ?_⟩
      rw [hhalted.service]
      exact hqueue

theorem onSigchldReady_realizes (hs : Sound s) (hw : s.watching = true) (ht : onSigchldReady s = .ok () t) :
    (∃ hs : List Nat, Run Performs s.service (hs.map .finish) t.service) ∨
      (∃ u, readSignal s = .ok .stopLoop u) ∧
        ∃ hs : List Nat, Run Performs s.service (hs.map .finish ++ [.abort]) t.service := by
  unfold onSigchldReady at ht
  obtain ⟨ret, u, hu, ht⟩ := bind_eq_ok.mp ht
  obtain ⟨hsound, hends⟩ := jobsEnd_keeps.read_keeps.ok ⟨hs, JobsEnd.start s⟩ hu
  split at ht
  next hret =>
    subst hret
    have hread := readSignal_serves hs
    rw [hu] at hread
    have hwu : u.watching = true := (congrArg (·.2.2.2.1) hread.2.1.core).trans hw
    obtain ⟨t', ht', hhalted⟩ := handleStop_ok hsound.on hwu
    cases ht.symm.trans ht'
    obtain ⟨hs', hrun⟩ := hends
    refine .inr ⟨⟨u, hu⟩, hs', .snoc hrun ?_⟩
    rw [hhalted.service]
    exact .abort hwu
  next =>
    cases ht
    exact .inl hends

/-- A callback of the loop. -/
theorem Life.event_realizes (hs : Life s) (he : (Label.event fd c).enabled s)
    (ht : (Label.event fd c).prog s = .ok () t) :
    ∃ acts, Realizes s (.event fd c) acts ∧ Run Performs s.service acts t.service := by
  obtain ⟨hon, hdue, _⟩ := hs.due he
  have hsound := Sound.choose ⟨hs.isolated, hon⟩ c
  rcases dispatch_split hsound hdue with ⟨hreg, _⟩ | ⟨hdefault, hfd, hint⟩
  · obtain ⟨src, hsrc⟩ := Option.isSome_iff_exists.mp (AList.lookup_isSome.mpr hreg)
    have hsource : s.registered.lookup fd = some src := hsrc
    obtain ⟨hexp, hkey⟩ := (hsound.on.desk.keys fd src).mp hsrc
    obtain ⟨_, hprog⟩ := hs.event_source he hsrc
    rw [hprog] at ht
    have hother : src ≠ .control → JobsEnd (s.choose c).service t →
        ∃ acts, Realizes s (.event fd c) acts ∧ Run Performs s.service acts t.service := by
      rintro hne ⟨hs', hrun⟩
      exact ⟨_, .ends fun hl => hne (Option.some.inj (hsource.symm.trans hl)), hrun⟩
    cases src with
    | sigchld =>
      rcases onSigchldReady_realizes hsound hexp ht with hends | ⟨hfailed, hs', hrun⟩
      · exact hother (by simp) hends
      · exact ⟨_, .breaks hsource hfailed, hrun⟩
    | control =>
      obtain rfl : (s.choose c).controlPipe.rd = fd := hkey
      obtain ⟨x, hx⟩ := onControlReady_takes hsound hexp ht
      exact ⟨_, .job hsource, .snoc .nil hx⟩
    | readClose h =>
      obtain ⟨pid, hl⟩ := hexp
      obtain ⟨ret, u, hu, hlast⟩ := bind_eq_ok.mp (show (readClose h >>= fun _ => pure ()) (s.choose c) = _ from ht)
      cases hlast
      exact hother (by simp) (readClose_jobsEnd hsound hl hu)
    | readStdout h =>
      obtain ⟨pid, hl⟩ := hexp
      obtain ⟨ret, u, hu, hlast⟩ := bind_eq_ok.mp (show (readStdout h >>= fun _ => pure ()) (s.choose c) = _ from ht)
      cases hlast
      exact hother (by simp) (readStd_jobsEnd hsound hl .stdout hu)
    | readStderr h =>
      obtain ⟨pid, hl⟩ := hexp
      obtain ⟨ret, u, hu, hlast⟩ := bind_eq_ok.mp (show (readStderr h >>= fun _ => pure ()) (s.choose c) = _ from ht)
      cases hlast
      exact hother (by simp) (readStd_jobsEnd hsound hl .stderr hu)
  · -- the loop's own pipe is not registered
    have hrun : (do if (← loopCallback .interrupt fd) = .stopLoop then runFinish : Prog Unit) (s.choose c) =
        .ok () t := hint.symm.trans ht
    have hend := loopCallback_interrupted hsound.isolated.owns hdefault hfd
    rw [hrun] at hend
    obtain ⟨v, hdr, hended⟩ := hend.ended
    have hservice : t.service = s.service := hended.service.trans hdr.service
    refine ⟨[], @Realizes.ends s fd c [] fun hl => ?_, hservice ▸ .nil⟩
    rcases hsound.on.desk.mirrored with ⟨hext, _⟩ | ⟨_, _, e, hloop, hwatch⟩
    · exact absurd (hext.symm.trans hdefault) (by decide)
    · have hown : fd = e.controlPipe.rd := by
        rw [hfd]
        simp only [Sys.array, hloop]
        rfl
      have hmem : fd ∈ (s.choose c).registered := AList.lookup_isSome.mp (hl ▸ rfl)
      exact absurd hmem (hown ▸ hwatch.own)

/-- An object that is being run has something registered. -/
def Sys.Attended (s : Sys) : Prop := s.watching = true → s.registered ≠ ∅

theorem On.attended (hs : On s) : s.Attended := by
  intro hw hreg
  have hmem : (s.array .sigchld).rd ∈ s.registered := hs.mem_registered.mpr ⟨.sigchld, hw, rfl⟩
  rw [hreg] at hmem
  exact AList.notMem_empty _ hmem

theorem Sys.Attended.same (hs : s.Attended) (hw : t.watching = s.watching)
    (hreg : t.registered = s.registered) : t.Attended := by
  unfold Sys.Attended
  rw [hw, hreg]
  exact hs

theorem Life.attended {l : Label} (hs : Life s) (hstep : Under PreviousFinished Step s l t)
    (ha : s.Attended) : t.Attended := by
  obtain ⟨hp, he, ht⟩ := hstep
  cases l with
  | exec args hasOnStop =>
    obtain ⟨t', ht', hsent⟩ := multiExec_ok hs.isolated args hasOnStop
    cases (show multiExec args hasOnStop s = .ok () t from ht).symm.trans ht'
    exact ha.same (hsent.field Sys.watching fun _ _ _ _ => rfl) (hsent.field Sys.registered fun _ _ _ _ => rfl)
  | stop flag signum =>
    obtain ⟨t', ht', hsent⟩ := sendJob_ok hs.isolated.owns (some (.stop flag signum))
    cases (show sendJob (some (.stop flag signum)) s = .ok () t from ht).symm.trans ht'
    exact ha.same (hsent.field Sys.watching fun _ _ _ _ => rfl) (hsent.field Sys.registered fun _ _ _ _ => rfl)
  | env act =>
    cases ht
    have hel := envAct_elsewhere act s
    exact ha.same (hel.field Sys.watching fun _ _ _ _ => rfl) (hel.field Sys.registered fun _ _ _ _ => rfl)
  | run type c =>
    rcases hs.run_cases hp with ⟨e, t', ht', _⟩ | ⟨t', ht', hcases⟩
    · cases ht.symm.trans ht'
    · cases ht.symm.trans ht'
      rcases hcases with hstarted | hrefused
      · exact hstarted.on.attended
      · exact ha.same hrefused.watching hrefused.registered
  | event fd c =>
    have hcases := hs.event_cases he
    rw [ht] at hcases
    rcases hcases with ⟨hon, _⟩ | hint
    · exact hon.attended
    · obtain ⟨u, hd, hend⟩ := hint.ended
      exact ha.same ((hend.field Sys.watching fun _ => rfl).trans (hd.field Sys.watching fun _ _ _ => rfl))
        ((hend.field Sys.registered fun _ => rfl).trans (hd.field Sys.registered fun _ _ _ => rfl))
  | selectError =>
    obtain ⟨t', ht', hend⟩ := selectFails_ok s
    cases (show selectFails s = .ok () t from ht).symm.trans ht'
    exact ha.same (hend.field Sys.watching fun _ => rfl) (hend.field Sys.registered fun _ => rfl)

/-- One step of the object is a run of the service. -/
theorem Life.realizes {l : Label} (hs : Life s) (ha : s.Attended) (hstep : Under PreviousFinished Step s l t) :
    ∃ acts, Realizes s l acts ∧ Run Performs s.service acts t.service := by
  obtain ⟨hp, he, ht⟩ := hstep
  cases l with
  | exec args hasOnStop =>
    obtain ⟨t', ht', hsent⟩ := multiExec_ok hs.isolated args hasOnStop
    cases (show multiExec args hasOnStop s = .ok () t from ht).symm.trans ht'
    obtain ⟨pipes, hframe⟩ := hsent.frame
    refine ⟨_, .exec, .snoc .nil (.send hsent.issue_move rfl ?_)⟩
    rw [hframe]
    exact List.map_append
  | stop flag signum =>
    obtain ⟨t', ht', hsent⟩ := sendJob_ok hs.isolated.owns (some (.stop flag signum))
    cases (show sendJob (some (.stop flag signum)) s = .ok () t from ht).symm.trans ht'
    obtain ⟨pipes, hframe⟩ := hsent.frame
    refine ⟨_, .stop, .snoc .nil (.send hsent.stop_move rfl ?_)⟩
    rw [hframe]
    exact List.map_append
  | env act =>
    cases ht
    exact ⟨_, .env, (envAct_elsewhere act s).service ▸ .nil⟩
  | run type c =>
    rcases hs.run_cases hp with ⟨e, t', ht', _⟩ | ⟨t', ht', hcases⟩
    · cases ht.symm.trans ht'
    · cases ht.symm.trans ht'
      rcases hcases with hstarted | hrefused
      · have hclosed : s.service.isOpen = false := Bool.eq_false_iff.mpr fun hw => ha hw hp.2
        refine ⟨_, .opened, .snoc .nil ?_⟩
        rw [hstarted.service]
        exact .begin hclosed
      · exact ⟨_, .refused, hrefused.service ▸ .nil⟩
  | event fd c => exact hs.event_realizes he ht
  | selectError =>
    obtain ⟨t', ht', hend⟩ := selectFails_ok s
    cases (show selectFails s = .ok () t from ht).symm.trans ht'
    exact ⟨_, .selectError, hend.service ▸ .nil⟩

theorem tickets_append (n : Nat) (ls ms : List Label) :
    tickets n (ls ++ ms) = tickets n ls ++ tickets (n + (jobs (tickets n ls)).length) ms := by
  induction ls generalizing n with
  | nil => rfl
  | cons l ls ih =>
    cases l with
    | exec args hasOnStop =>
      have hlen : n + (jobs (.start n :: tickets (n + 1) ls)).length = n + 1 + (jobs (tickets (n + 1) ls)).length := by
        rw [jobs_cons]
        simp [Ticket.job?]
        omega
      simp only [List.cons_append, tickets, ih, hlen]
    | stop flag signum => simp only [List.cons_append, tickets, ih, jobs_cons, Ticket.job?, Option.toList_none,
        List.nil_append]
    | env | run | event | selectError => exact ih n

theorem sends_finish (hs : List Nat) : sends (hs.map (Act.finish (φ := StopFlag × Int))) = [] := by
  rw [sends, List.filterMap_map]
  exact List.filterMap_eq_nil_iff.mpr fun _ _ => rfl

theorem Realizes.tickets {l : Label} (he : Realizes s l acts) : sends acts = Pexec.tickets s.nextHandle [l] := by
  cases he with
  | exec | stop | env | opened | refused | job | selectError => rfl
  | ends => exact sends_finish _
  | breaks =>
    rw [sends_append, sends_finish]
    rfl

theorem Life.nextHandle {l : Label} (hs : Life s) (hstep : Under PreviousFinished Step s l t)
    (he : Realizes s l acts) (hrun : Run Performs s.service acts t.service) :
    t.nextHandle = s.nextHandle + (jobs (tickets s.nextHandle [l])).length := by
  have hsame : tickets s.nextHandle [l] = [] → t.nextHandle = s.nextHandle := by
    intro hnone
    have hissued : {h | h < t.nextHandle} = {h | h < s.nextHandle} := run_issued hrun (he.tickets.trans hnone)
    have hmem := Set.ext_iff.mp hissued
    refine Nat.le_antisymm ?_ ?_
    · exact Nat.le_of_not_lt fun hlt => Nat.lt_irrefl _ ((hmem s.nextHandle).mp hlt)
    · exact Nat.le_of_not_lt fun hlt => Nat.lt_irrefl _ ((hmem t.nextHandle).mpr hlt)
  obtain ⟨_, _, ht⟩ := hstep
  cases l with
  | exec args hasOnStop =>
    obtain ⟨t', ht', hsent⟩ := multiExec_ok hs.isolated args hasOnStop
    cases (show multiExec args hasOnStop s = .ok () t from ht).symm.trans ht'
    exact hsent.field Sys.nextHandle fun _ _ _ _ => rfl
  | stop flag signum =>
    obtain ⟨t', ht', hsent⟩ := sendJob_ok hs.isolated.owns (some (.stop flag signum))
    cases (show sendJob (some (.stop flag signum)) s = .ok () t from ht).symm.trans ht'
    exact hsent.field Sys.nextHandle fun _ _ _ _ => rfl
  | env | run | event | selectError => exact hsame rfl

/-- At any point of a life, the service has done what the steps of the object ask of it. -/
structure Realized (ls : List Label) (s : Sys) : Prop where
  life : Life s
  attended : s.Attended
  next : s.nextHandle = (jobs (tickets 0 ls)).length
  acts : ∃ acts, Run Performs (Service.fresh (.stopWait, 0)) acts s.service ∧ sends acts = tickets 0 ls

theorem Realized.step {ls : List Label} {l : Label} (hs : Realized ls s)
    (hstep : Under PreviousFinished Step s l t) : Realized (ls ++ [l]) t := by
  obtain ⟨acts', he, hrun'⟩ := hs.life.realizes hs.attended hstep
  obtain ⟨acts, hrun, hsends⟩ := hs.acts
  have hlife : Life t := by
    have := life_step hs.life hstep.2.1 hstep.1
    rwa [hstep.2.2] at this
  have hnext := hs.life.nextHandle hstep he hrun'
  have htickets : tickets 0 (ls ++ [l]) = tickets 0 ls ++ tickets s.nextHandle [l] := by
    rw [tickets_append, Nat.zero_add, ← hs.next]
  refine ⟨hlife, hs.life.attended hstep hs.attended, ?_, acts ++ acts', hrun.append hrun', ?_⟩
  · rw [hnext, htickets, jobs_append, List.length_append, hs.next]
  · rw [sends_append, hsends, he.tickets, htickets]

theorem run_realized {w : World} {ls : List Label} (hnew : newMulti (boot w) = .ok () s)
    (hrun : Run (Under PreviousFinished Step) s ls t) : Realized ls t := by
  induction hrun with
  | nil =>
    have hlife := newMulti_life hnew
    rw [newMulti_ok hnew] at hlife ⊢
    have hidle : ({h | ∃ pid, AList.lookup pid (∅ : AList fun _ : Int => Nat) = some h} : Set Nat) = ∅ :=
      Set.eq_empty_iff_forall_notMem.mpr fun h ⟨pid, hl⟩ => nomatch hl
    have hnone : ({h | h < 0} : Set Nat) = ∅ :=
      Set.eq_empty_iff_forall_notMem.mpr fun h hh => absurd hh (Nat.not_lt_zero h)
    refine ⟨hlife, (fun hw => nomatch hw), rfl, [], ?_, rfl⟩
    simp only [Sys.service, Sys.calls, boot, hidle, hnone]
    exact .nil
  | snoc _ hstep ih => exact ih.step hstep

/-- Every life of a `pexec_multi` is a life of the service that it is meant to be, step by step. -/
theorem multi_refines_service {w : World} {ls : List Label} {l : Label} (hnew : newMulti (boot w) = .ok () s)
    (hrun : Run (Under PreviousFinished Step) s ls t) (hstep : Under PreviousFinished Step t l u) :
    ∃ acts acts', Run Performs (Service.fresh (.stopWait, 0)) acts t.service ∧ sends acts = tickets 0 ls ∧
      Run Performs t.service acts' u.service ∧ Realizes t l acts' := by
  have ht := run_realized hnew hrun
  obtain ⟨acts, hbefore, hsends⟩ := ht.acts
  obtain ⟨acts', he, hafter⟩ := ht.life.realizes ht.attended hstep
  exact ⟨acts, acts', hbefore, hsends, hafter, he⟩

theorem multi_refines_service_told : ∃ acts acts',
    Run Performs (Service.fresh (.stopWait, 0)) acts hundredMulti.service ∧ sends acts = [.start 0] ∧
      Run Performs hundredMulti.service acts' toldMulti.service ∧ Realizes hundredMulti (.event 4 {}) acts' :=
  multi_refines_service freshMulti_ok hundredMulti_run toldMulti_step

/-- The handles that the calls make are numbered in their order. -/
theorem jobs_tickets (ls : List Label) : ∀ n, jobs (tickets n ls) = List.range' n (jobs (tickets n ls)).length := by
  induction ls with
  | nil => exact fun _ => rfl
  | cons l ls ih =>
    intro n
    cases l with
    | exec args hasOnStop =>
      have hjobs : jobs (tickets n (.exec args hasOnStop :: ls)) = n :: jobs (tickets (n + 1) ls) := rfl
      rw [hjobs, List.length_cons, List.range'_succ, ← ih (n + 1)]
    | stop flag signum => exact ih n
    | env | run | event | selectError => exact ih n

/-- In every life the jobs are dispatched in the order of the calls, and so the processes are started:
what was not started yet comes after all that was, and nothing is started twice. -/
theorem starts_in_call_order {w : World} {ls : List Label} (hnew : newMulti (boot w) = .ok () s)
    (hrun : Run (Under PreviousFinished Step) s ls t) :
    (∃ taken, tickets 0 ls = taken ++ real (t.buffer.map ticket) ∧ List.Sublist t.starts (jobs taken)) ∧
      (t.starts ++ jobs (t.buffer.map ticket)).Pairwise (· < ·) := by
  obtain ⟨acts, hacts, hsends⟩ := (run_realized hnew hrun).acts
  obtain ⟨_, begun, hstarted, hbegun⟩ := run_order hacts
  obtain ⟨htaken, hsub⟩ := fresh_order hacts
  have hstarts : t.starts = begun := hstarted
  refine ⟨⟨takes acts, hsends.symm.trans htaken, hstarts ▸ hbegun⟩, ?_⟩
  have hsorted : (jobs (sends acts)).Pairwise (· < ·) := by
    rw [hsends, jobs_tickets]
    exact List.pairwise_lt_range'
  exact hsorted.sublist hsub

/-- Two processes are started before a stop, the third job is dropped and the fourth is still queued. -/
def droppedLife : List Label :=
  [.exec ['a'] false, .exec ['b'] false, .stop .stopWait (-1), .exec ['c'] false, .exec ['d'] false,
    .run .default {}, .event 0 {}, .event 0 {}, .event 0 {}, .event 0 {}]

def droppedMulti : Sys := freshMulti.after droppedLife

theorem starts_in_call_order_dropped :
    droppedMulti.starts = [0, 1] ∧ jobs (droppedMulti.buffer.map ticket) = [3] ∧
    (∃ taken, [Ticket.start 0, .start 1, .stop (.stopWait, -1), .start 2, .start 3] =
        taken ++ real (droppedMulti.buffer.map ticket) ∧
      List.Sublist droppedMulti.starts (jobs taken)) ∧
      (droppedMulti.starts ++ jobs (droppedMulti.buffer.map ticket)).Pairwise (· < ·) :=
  ⟨by decide +kernel, by decide +kernel, starts_in_call_order freshMulti_ok
    (run_after _ finished_sound droppedLife (by decide +kernel))⟩

end Pexec
