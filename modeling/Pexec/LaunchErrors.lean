import Pexec.HandedDescriptors
import Pexec.LoopOutcome
import Pexec.RepeatedRuns
import Pexec.StatusHistory

namespace Pexec

open Effect Runs

/-- The steps of the child in `spawn_proc`; it ends at the one that fails. -/
inductive LaunchStep
  | stdinNonblock
  | stdoutNonblock
  | stderrNonblock
  | dup2Stdin
  | dup2Stdout
  | dup2Stderr
  | execvp
  deriving DecidableEq, Repr

def LaunchStep.exitCode : LaunchStep → Nat
  | .execvp => 100
  | .stdinNonblock => 101
  | .stdoutNonblock => 102
  | .stderrNonblock => 103
  | .dup2Stdin => 104
  | .dup2Stdout => 105
  | .dup2Stderr => 106

/-- The error of the step, by its name. -/
def LaunchStep.error : LaunchStep → Error
  | .execvp => .forkExecError
  | .stdinNonblock => .forkStdinNonblockError
  | .stdoutNonblock => .forkStdoutNonblockError
  | .stderrNonblock => .forkStderrNonblockError
  | .dup2Stdin => .forkDup2StdinError
  | .dup2Stdout => .forkDup2StdoutError
  | .dup2Stderr => .forkDup2StderrError

/-- What has become of the child of a run. -/
inductive ChildFate
  | unended
  | failed (step : LaunchStep)
  | exited (code : Nat)
  | killed (signum : Nat)
  deriving DecidableEq, Repr

/-- The status words with which the kernel tells of it. -/
def ChildFate.Encodes (status : WaitStatus) : ChildFate → Prop
  | .unended => False
  | .failed step => wifexited status = true ∧ wexitstatus status = step.exitCode
  | .exited code => wifexited status = true ∧ wexitstatus status = code
  | .killed signum => wifsignaled status = true ∧ wtermsig status = signum

/-- The errors of a launch that ended so. -/
def ChildFate.launchErrors : ChildFate → List Error
  | .failed step => [step.error]
  | _ => []

/-- The status of a failed launch comes in, and the status of a program does not look like one. -/
def ChildFate.Decodable (reaped : Prop) (returnCode : Nat) : ChildFate → Prop
  | .unended => True
  | .failed _ => reaped
  | .exited code => reaped → launchError code = none
  | .killed _ => reaped → launchError returnCode = none

/-- The launch errors that the error callback of the object tells. -/
def launchErrors (h : Nat) (events : List Event) : List Error := events.filterMap (Event.launchTold h)

/-- What `handle_proc_return_code` makes of a status. -/
def ProcStatus.launchErrors (p : ProcStatus) (status : WaitStatus) : List Error :=
  (launchError (p.updateStatus status).returnCode).toList

variable {h x : Nat} {pid : Int} {line : List Char} {s t u a b c d e : Sys} {q : ProcStatus} {w : World}
  {fate : ChildFate} {status : WaitStatus}

theorem launchError_exitCode (step : LaunchStep) : launchError step.exitCode = some step.error := by
  cases step <;> rfl

theorem not_exited_of_signaled (hs : wifsignaled status = true) : wifexited status = false := by
  have hpos := wtermsig_pos hs
  unfold wtermsig at hpos
  unfold wifexited
  rw [beq_eq_false_iff_ne]
  intro hzero
  rw [hzero] at hpos
  exact absurd hpos (by decide)

/-- The decoder is right about a status exactly if the fate does not look like another one. -/
theorem ChildFate.Encodes.decoded_iff (p : ProcStatus) (hf : fate.Encodes status) :
    p.launchErrors status = fate.launchErrors ↔ fate.Decodable True p.returnCode := by
  cases fate with
  | unended => exact hf.elim
  | failed step =>
    refine iff_of_true ?_ trivial
    simp [ProcStatus.launchErrors, ProcStatus.updateStatus, hf.1, hf.2, launchError_exitCode,
      ChildFate.launchErrors]
  | exited code =>
    simp [ProcStatus.launchErrors, ProcStatus.updateStatus, hf.1, hf.2, ChildFate.launchErrors,
      ChildFate.Decodable]
  | killed signum =>
    simp [ProcStatus.launchErrors, ProcStatus.updateStatus, not_exited_of_signaled hf.1,
      ChildFate.launchErrors, ChildFate.Decodable]

theorem ChildFate.told_iff (p : ProcStatus) {statuses : List WaitStatus} (hone : statuses.length ≤ 1)
    (hf : ∀ status ∈ statuses, fate.Encodes status) :
    statuses.flatMap p.launchErrors = fate.launchErrors ↔
      fate.Decodable (statuses ≠ []) p.returnCode := by
  rcases statuses with _ | ⟨status, _ | ⟨status', rest⟩⟩
  · cases fate <;> simp [ChildFate.launchErrors, ChildFate.Decodable]
  · have hstatus := (hf status (List.mem_singleton_self _)).decoded_iff p
    simpa using hstatus
  · simp at hone

/-- Nothing about the launch. -/
def Event.Aside (h : Nat) (e : Event) : Prop := e.launchDecoded h = none ∧ e.reapedStatus = none

theorem decoded_aside {events : List Event} (hall : ∀ e ∈ events, e.Aside h) :
    events.filterMap (Event.launchDecoded h) = [] ∧ reapedIn events = [] :=
  ⟨List.filterMap_eq_nil_iff.mpr fun e hm => (hall e hm).1,
    List.filterMap_eq_nil_iff.mpr fun e hm => (hall e hm).2⟩

theorem Event.IsData.aside {e : Event} (he : e.IsData h) : e.Aside h := by
  cases e <;> first | exact ⟨rfl, rfl⟩ | cases he

theorem Event.IsDrain.aside {e : Event} (he : e.IsDrain h) : e.Aside h := by
  cases e <;> first | exact ⟨rfl, rfl⟩ | cases he

/-- The loop has been left with the process taken for dead: `handle_sigchld` was the last thing. -/
theorem Loops.handled (hl : Loops h line s q d e) (hdead : (e.procs h).proc.running = false)
    (hwanted : (e.procs h).userStopped = false) :
    ∃ c, Underway h s q c ∧ singleHandleSigchld h c = .ok () e := by
  have hrunning := hl.underway.running
  rcases selectLoop_stopped hl.looped with ⟨cb, fd, u, hc, hstop⟩ | ⟨u, hf, he⟩
  · have hu := hc.underway hl.kept hl.underway
    cases ioCallback_halts hu hstop with
    | interrupted wanted => exact absurd (wanted.symm.trans hwanted) (by decide)
    | unread _ proc =>
      rw [proc, hrunning] at hdead
      cases hdead
    | reaped reads =>
      obtain ⟨v, hv⟩ := reads
      obtain ⟨c, hcalm, hvc⟩ := ioReadSignal_calm hv
      rw [if_neg (by simp)] at hvc
      subst hvc
      refine ⟨v, hu.calm hcalm, ?_⟩
      obtain ⟨answer, v', hv', hstop⟩ := bind_eq_ok.mp (show ioSigchld h u = .ok .stopLoop e from hstop)
      cases hv.symm.trans hv'
      dsimp only at hstop
      rw [if_pos rfl] at hstop
      obtain ⟨⟨⟩, z, hz, hstop⟩ := bind_eq_ok.mp hstop
      rw [bind_of_ok (get_apply _)] at hstop
      injection hstop with _ hze
      exact hze ▸ hz
  · cases (processError_apply .selectError).symm.trans he
    have hu := hf.underway hl.kept hl.underway
    have hproc : ((u.processed h .selectError).procs h).proc = q := by
      simpa [Sys.processed] using hu.proc
    rw [hproc, hrunning] at hdead
    cases hdead

theorem Event.IsWait.undecoded {e : Event} (he : e.IsWait h) : e.launchDecoded h = none := by
  cases e <;> first | rfl | cases he

/-- The SIGNALED callback tells the status that `waitpid` has brought. -/
theorem singleHandleSigchld_told (hd : Underway h s q d) (he : singleHandleSigchld h d = .ok () e) :
    ∃ wait status launch, e.trace = d.trace ++ wait ++
        [.handed h true true, .state h .signaled (q.updateStatus status)] ++ launch ∧
      (q.updateStatus status).running = false ∧ (∀ x ∈ wait, x.launchDecoded h = none) ∧
      (∀ x ∈ launch, x.Aside h) ∧ (reapedIn wait = [] ∧ status = 0 ∨ reapedIn wait = [status]) := by
  obtain ⟨u, hu, ⟨wait, hwait, hheard⟩, hrun⟩ := singleHandleSigchld_awaits hd
  obtain ⟨wait', hwait', hiswait⟩ := hu.trace
  obtain rfl : wait' = wait := List.append_cancel_left (hwait'.symm.trans hwait)
  have hundecoded : ∀ x ∈ wait', x.launchDecoded h = none := fun x hx => (hiswait x hx).undecoded
  have hdead : (q.updateStatus (u.procs h).status).running = false := terminated_dead hu.dead
  have hkilled : (u.killed h (u.procs h).status).trace = d.trace ++ wait' ++
      [.handed h true true, .state h .signaled (q.updateStatus (u.procs h).status)] := by
    rw [← hwait, ← hu.proc]
    rfl
  rw [he] at hrun
  rcases updateStatus_dead hu.engaged hu.stdin hu.userStop hu.dead with hv | ⟨code, err, _, hv⟩
  · cases hrun.trans hv
    exact ⟨wait', _, [], by rw [hkilled, List.append_nil], hdead, hundecoded,
      fun _ hx => absurd hx List.not_mem_nil, hheard⟩
  · cases hrun.trans hv
    refine ⟨wait', _, [.error h err], ?_, hdead, hundecoded, fun x hx => ?_, hheard⟩
    · rw [← hkilled]
      rfl
    · rw [List.mem_singleton.mp hx]
      exact ⟨rfl, rfl⟩

/-- The launch errors of a stretch of events, as far as SIGNALED callbacks decide about them, are
those of the statuses that were reaped in it. -/
def DecodesReaped (h : Nat) (p : ProcStatus) (events : List Event) : Prop :=
  (reapedIn events).length ≤ 1 ∧
    events.filterMap (Event.launchDecoded h) = (reapedIn events).flatMap p.launchErrors

theorem DecodesReaped.nil (p : ProcStatus) : DecodesReaped h p [] := ⟨Nat.zero_le 1, rfl⟩

theorem DecodesReaped.after {p : ProcStatus} {xs ys : List Event} (hys : DecodesReaped h p ys)
    (hxs : ∀ x ∈ xs, x.Aside h) : DecodesReaped h p (xs ++ ys) := by
  obtain ⟨hdecoded, hreaped⟩ := decoded_aside hxs
  unfold DecodesReaped
  rw [reapedIn_append, List.filterMap_append, hdecoded, hreaped]
  exact hys

theorem DecodesReaped.before {p : ProcStatus} {xs ys : List Event} (hxs : DecodesReaped h p xs)
    (hys : ∀ y ∈ ys, y.Aside h) : DecodesReaped h p (xs ++ ys) := by
  obtain ⟨hdecoded, hreaped⟩ := decoded_aside hys
  unfold DecodesReaped
  rw [reapedIn_append, List.filterMap_append, hdecoded, hreaped, List.append_nil, List.append_nil]
  exact hxs

theorem startedEvents_aside : ∀ x ∈ startedEvents h q, x.Aside h := by
  intro x hx
  simp only [startedEvents, List.mem_cons, List.not_mem_nil, or_false] at hx
  rcases hx with rfl | rfl <;> exact ⟨rfl, rfl⟩

theorem lastEvents_aside (p : PexecSingle) : ∀ x ∈ p.lastEvents h, x.Aside h := by
  intro x hx
  simp only [PexecSingle.lastEvents, List.mem_cons, List.not_mem_nil, or_false] at hx
  rcases hx with rfl | rfl
  · exact ⟨rfl, rfl⟩
  · rcases p.lastState_ends with hlast | hlast <;> rw [hlast] <;> exact ⟨rfl, rfl⟩

theorem signaled_decodes {wait : List Event} (hdead : (q.updateStatus status).running = false)
    (hwait : ∀ x ∈ wait, x.launchDecoded h = none)
    (hheard : reapedIn wait = [] ∧ status = 0 ∨ reapedIn wait = [status]) :
    DecodesReaped h q (wait ++ [.handed h true true, .state h .signaled (q.updateStatus status)]) := by
  have hreaped : reapedIn [.handed h true true, .state h .signaled (q.updateStatus status)] = [] := rfl
  have hdecoded : [.handed h true true, .state h .signaled (q.updateStatus status)].filterMap
      (Event.launchDecoded h) = q.launchErrors status := by
    rw [List.filterMap_cons_none rfl]
    cases hcode : launchError (q.updateStatus status).returnCode <;>
      simp [Event.launchDecoded, ProcStatus.launchErrors, hdead, hcode]
  unfold DecodesReaped
  rw [reapedIn_append, hreaped, List.append_nil, List.filterMap_append, hdecoded,
    List.filterMap_eq_nil_iff.mpr hwait, List.nil_append]
  rcases hheard with ⟨hnone, rfl⟩ | hone
  · rw [hnone]
    exact ⟨Nat.zero_le 1, rfl⟩
  · simp [hone]

/-- Up to the end of the loop. -/
theorem Loops.decodes (hl : Loops h line s q d e) (he : Ending h s q e) :
    ∃ body, e.trace = s.trace ++ body ∧ DecodesReaped h q body := by
  cases he with
  | @interrupted data _ _ trace isData =>
    refine ⟨startedEvents h q ++ data, by rw [trace, List.append_assoc], ?_⟩
    have hdata : ∀ x ∈ data, x.Aside h := fun x hx => (isData x hx).aside
    simpa using ((DecodesReaped.nil q).after hdata).after startedEvents_aside
  | @failed data err _ _ _ trace isData =>
    refine ⟨startedEvents h q ++ (data ++ [.error h err]), by rw [trace]; simp only [List.append_assoc], ?_⟩
    have herr : ∀ x ∈ [Event.error h err], x.Aside h := fun x hx => by
      rw [List.mem_singleton.mp hx]
      exact ⟨rfl, rfl⟩
    have hdata : ∀ x ∈ data, x.Aside h := fun x hx => (isData x hx).aside
    simpa using (((DecodesReaped.nil q).after herr).after hdata).after startedEvents_aside
  | handled status dead proc wanted =>
    have hdead : (e.procs h).proc.running = false := by rw [proc]; exact dead
    obtain ⟨c, hc, hrun⟩ := hl.handled hdead wanted
    obtain ⟨data, hdata, hisData⟩ := hc.trace
    obtain ⟨wait, status', launch, htrace, hdead', hwait, hlaunch, hheard⟩ := singleHandleSigchld_told hc hrun
    have htold := signaled_decodes hdead' hwait hheard
    refine ⟨startedEvents h q ++ (data ++
      (wait ++ [.handed h true true, .state h .signaled (q.updateStatus status')] ++ launch)), ?_, ?_⟩
    · rw [htrace, hdata]
      simp only [List.append_assoc]
    · exact ((htold.before hlaunch).after fun x hx => (hisData x hx).aside).after startedEvents_aside

theorem ProcStatus.launchErrors_congr {p : ProcStatus} (hp : p.returnCode = q.returnCode) :
    p.launchErrors = q.launchErrors := by
  funext status
  unfold ProcStatus.launchErrors ProcStatus.updateStatus
  rw [hp]

theorem exec_decodes (hs : Resting h s) (ht : exec h line s = .ok () t) :
    DecodesReaped h (s.procs h).proc (newEvents s t) := by
  rcases exec_course hs ht with ⟨st, _, ha⟩ | ⟨q, d, e, _, hl, hc⟩
  · rw [newEvents_eq ha.trace]
    refine DecodesReaped.before (DecodesReaped.nil _) fun x hx => ?_
    simp only [List.mem_cons, List.not_mem_nil, or_false] at hx
    rcases hx with rfl | rfl | rfl <;> exact ⟨rfl, rfl⟩
  · obtain ⟨body, hbody, hdecodes⟩ := hl.decodes hc.ending
    obtain ⟨reset, drain, htrace, hreset, hdrain⟩ := hc.trace
    rw [hbody] at htrace
    have hkept : q.residue.returnCode = (s.procs h).proc.residue.returnCode := by rw [hl.residue]
    have hcode : q.launchErrors = (s.procs h).proc.launchErrors := ProcStatus.launchErrors_congr hkept
    have hreset' : ∀ x ∈ reset, x.Aside h := by
      intro x hx
      rcases hreset with ⟨rfl, _⟩ | rfl
      · exact absurd hx List.not_mem_nil
      · rw [List.mem_singleton.mp hx]
        exact ⟨rfl, rfl⟩
    have hall := ((hdecodes.before hreset').before fun x hx => (hdrain x hx).aside).before
      (lastEvents_aside (e.procs h))
    rw [newEvents_eq (htrace.trans (by simp only [List.append_assoc]; rfl))]
    unfold DecodesReaped at hall ⊢
    rw [hcode] at hall
    simpa only [List.append_assoc] using hall

/-- A blocking run tells the launch errors of the status that it has reaped, if it has. -/
theorem exec_launchErrors (hs : Resting h s) (ht : exec h line s = .ok () t) :
    launchErrors h (newEvents s t) = (reapedIn (newEvents s t)).flatMap (s.procs h).proc.launchErrors := by
  obtain ⟨new, htrace, _, hlaw⟩ := ((exec_uses line).ok ht).events
  have hdecodes := exec_decodes hs ht
  rw [newEvents_eq htrace] at hdecodes ⊢
  exact (hlaw h).trans hdecodes.2

/-- The callback for the signal pipe reads a SIGCHLD, and `waitpid` returns the child. -/
def Sys.Reaping (s : Sys) (pid : Int) : Prop :=
  ∃ u, readSignalFrom s.sigchldPipe.rd (s.readFaults.length + 4) 4 [] s = .ok (some World.sigchldRecord) u ∧
    pid ∈ (u.toWorld.sigprocmask true).2.reaps

/-- The step reaps the child. -/
def Label.Reaps (s : Sys) (pid : Int) : Label → Prop
  | .event fd c => s.registered.lookup fd = some .sigchld ∧ (s.choose c).Reaping pid
  | _ => False

/-- The statuses `rs` of terminated children are all that is reported. -/
structure Verdicts (rs : List (Int × WaitStatus)) (s t : Sys) : Prop where
  nodup : (rs.map Prod.fst).Nodup
  ended : ∀ r ∈ rs, ∃ child, s.children.lookup r.1 = some child ∧
    child.status.map Subtype.val = some r.2
  reports : reports t.calls = reports s.calls ++ rs.flatMap s.verdict

variable {rs : List (Int × WaitStatus)}

theorem Uncalled.reports (hq : Uncalled s t) : Pexec.reports t.calls = Pexec.reports s.calls := by
  rw [hq.calls, List.append_nil]

theorem Verdicts.none (hr : Pexec.reports t.calls = Pexec.reports s.calls) : Verdicts [] s t :=
  ⟨List.nodup_nil, fun _ hr => absurd hr List.not_mem_nil, by rw [hr]; exact (List.append_nil _).symm⟩

theorem Verdicts.after (hv : Verdicts rs s t) (hq : Uncalled t u) : Verdicts rs s u :=
  ⟨hv.nodup, hv.ended, hq.reports.trans hv.reports⟩

theorem Harvested.verdicts (hr : Harvested rs s t) : Verdicts rs s t := ⟨hr.nodup, hr.ended, hr.reports⟩

theorem readSignal_verdicts {ret : EventReturn} (hs : Sound s) (ht : readSignal s = .ok ret t) :
    ∃ rs, Verdicts rs s t ∧ ∀ pid, pid ∈ rs.map Prod.fst ↔ s.Reaping pid := by
  have hread := readSignalFrom_drained (s.readFaults.length + 4) 4 [] s hs.isolated.owns
  have hiso := readSignalFrom_isolated (s.readFaults.length + 4) s.sigchldPipe.rd 4 [] s ⟨hs.isolated, rfl⟩
  unfold readSignal at ht
  rw [bind_of_ok (get_apply _)] at ht
  obtain ⟨signal, u, hr, ht⟩ := bind_eq_ok.mp ht
  rw [hr] at hread hiso
  have hquiet : signal ≠ some World.sigchldRecord → Uncalled s t →
      ∃ rs, Verdicts rs s t ∧ ∀ pid, pid ∈ rs.map Prod.fst ↔ s.Reaping pid := by
    intro hne hq
    refine ⟨[], .none hq.reports, fun pid => iff_of_false List.not_mem_nil ?_⟩
    rintro ⟨v, hv, _⟩
    cases hr.symm.trans hv
    exact hne rfl
  cases signal with
  | none =>
    cases ht
    exact hquiet (by simp) hread.quiet.2.2
  | some signal =>
    dsimp only at ht
    split at ht
    next hrecord =>
      subst hrecord
      have hsound : Sound u := ⟨hiso, hread.on hs.on⟩
      obtain ⟨a, rs, b, c, v, hv, ⟨haside, _⟩, ⟨hreaps, hpids⟩, hlast, haside', _⟩ :=
        handleSigchld_reaps hsound
      rw [bind_of_ok hv] at ht
      cases ht
      have hharvested : Harvested rs s t := Harvested.before
        (hreaps.harvested_call hsound.on haside (IsTrans.trans _ _ _ hlast.aside haside'))
        hread.quiet.1 hread.quiet.2.1 (hread.field Sys.procs fun _ _ _ => rfl) hread.quiet.2.2
      refine ⟨rs, hharvested.verdicts, fun pid => ?_⟩
      rw [hpids]
      constructor
      · exact fun hm => ⟨u, hr, hm⟩
      · rintro ⟨v, hv, hm⟩
        cases hr.symm.trans hv
        exact hm
    next hrecord =>
      cases ht
      exact hquiet (fun he => hrecord (Option.some.inj he)) hread.quiet.2.2

/-- The other callbacks report nothing: they are about the queue and the pipes. -/
theorem runSource_unreported {fd : Int} {src : Source} (hs : Sound s)
    (hl : s.registered.lookup fd = some src) (hne : src ≠ .sigchld) (ht : runSource fd src s = .ok () t) :
    reports t.calls = reports s.calls := by
  obtain ⟨hexp, hkey⟩ := (hs.on.desk.keys fd src).mp hl
  have hended : ∀ {pid x st proc}, st = .userStopped ∨ st = .failStopped →
      Finished pid x [(x, st, proc)] s t → reports t.calls = reports s.calls := by
    rintro pid x st proc (rfl | rfl) hf
    · rw [hf.called.calls, reports_append]
      exact List.append_nil _
    · rw [hf.called.calls, reports_append]
      exact List.append_nil _
  cases src with
  | sigchld => exact absurd rfl hne
  | control =>
    have hc := onControlReady_controlled hs hexp hkey.symm
    have ht' : onControlReady fd s = .ok () t := ht
    rw [ht'] at hc
    rcases hc with ⟨hread, hjob⟩ | @⟨u, v, hread, hempty, hhalted⟩
    · exact hjob.reports.trans hread.quiet.2.2.reports
    · have hv : Uncalled u v := Uncalled.same (by rw [hempty.frame])
      exact hhalted.uncalled.reports.trans (hv.reports.trans hread.quiet.2.2.reports)
  | readClose x =>
    obtain ⟨pid, hl⟩ := hexp
    obtain ⟨v, hv, ⟨_, hf⟩ | ⟨_, hf⟩⟩ := readClose_ends hs.on.desk hl (hs.on.served pid _ hl).type
    · cases ht.symm.trans (discard_of_ok (x := readClose _) hv)
      exact hended (.inl rfl) hf
    · cases ht.symm.trans (discard_of_ok (x := readClose _) hv)
      exact hended (.inr rfl) hf
  | readStdout x =>
    obtain ⟨pid, hl⟩ := hexp
    obtain ⟨ret, v, hv, _, ⟨_, _, hq, _⟩ | ⟨_, hf⟩⟩ := readStd_ends .stdout .stdoutPipeReadError
      hs.on.desk hl (hs.on.served pid _ hl).type
    · cases ht.symm.trans (discard_of_ok (x := readStdout _) hv)
      exact hq.reports
    · cases ht.symm.trans (discard_of_ok (x := readStdout _) hv)
      exact hended (.inr rfl) hf
  | readStderr x =>
    obtain ⟨pid, hl⟩ := hexp
    obtain ⟨ret, v, hv, _, ⟨_, _, hq, _⟩ | ⟨_, hf⟩⟩ := readStd_ends .stderr .stderrPipeReadError
      hs.on.desk hl (hs.on.served pid _ hl).type
    · cases ht.symm.trans (discard_of_ok (x := readStderr _) hv)
      exact hq.reports
    · cases ht.symm.trans (discard_of_ok (x := readStderr _) hv)
      exact hended (.inr rfl) hf

/-- What a step reports are the statuses of the children that it reaps. -/
theorem Life.verdicts {l : Label} (hs : Life s) (hp : PreviousFinished s l) (hstep : Step s l t) :
    ∃ rs, Verdicts rs s t ∧ ∀ pid, pid ∈ rs.map Prod.fst ↔ l.Reaps s pid := by
  have hquiet : (∀ pid, ¬l.Reaps s pid) → reports t.calls = reports s.calls →
      ∃ rs, Verdicts rs s t ∧ ∀ pid, pid ∈ rs.map Prod.fst ↔ l.Reaps s pid :=
    fun hno hr => ⟨[], .none hr, fun pid => iff_of_false List.not_mem_nil (hno pid)⟩
  rcases hs.step_split hp hstep with ⟨fd, c, src, rfl, hsrc, hsound, ht⟩ | ⟨hno, _, hq⟩
  · by_cases hsig : src = .sigchld
    · subst hsig
      obtain ⟨hexp, _⟩ := (hsound.on.desk.keys fd .sigchld).mp hsrc
      obtain ⟨ret, u, hr, _, hq⟩ := onSigchldReady_reads hsound hexp ht
      obtain ⟨rs, hv, hpids⟩ := readSignal_verdicts hsound hr
      have hall := hv.after hq
      refine ⟨rs, ⟨hall.nodup, hall.ended, hall.reports⟩, fun pid => (hpids pid).trans ?_⟩
      exact ⟨fun hr => ⟨hsrc, hr⟩, fun hr => hr.2⟩
    · have hsrc' : (s.choose c).registered.lookup fd = some src := hsrc
      have hreports : reports t.calls = reports (s.choose c).calls := runSource_unreported hsound hsrc' hsig ht
      refine hquiet (fun pid hr => hsig ?_) hreports
      exact Option.some.inj (hsrc.symm.trans hr.1)
  · refine hquiet (fun pid hr => ?_) hq.reports
    cases l with
    | event fd c => exact hno fd c _ rfl hr.1
    | _ => exact hr

/-- The launch error that a state callback stands for, as in `Event.launchDecoded`. -/
def callDecoded (x : Nat) (call : Nat × State × ProcStatus) : Option Error :=
  if call.1 = x ∧ call.2.1 = .signaled ∧ call.2.2.running = false then launchError call.2.2.returnCode
  else none

/-- The launch errors that the reports about the object decide. -/
def Sys.decoded (s : Sys) (x : Nat) : List Error := (reports s.calls).filterMap (callDecoded x)

theorem Event.launchDecoded_call (e : Event) : e.launchDecoded x = e.call.bind (callDecoded x) := by
  cases e with
  | state owner st proc => cases st <;> simp [Event.launchDecoded, Event.call, callDecoded]
  | _ => rfl

theorem Sys.decoded_trace (s : Sys) (x : Nat) : s.trace.filterMap (Event.launchDecoded x) = s.decoded x := by
  have hfiltered : s.decoded x = s.calls.filterMap (callDecoded x) := by
    unfold Sys.decoded reports
    rw [List.filterMap_filter]
    congr 1
    funext call
    by_cases hcall : call.2.1 = .signaled
    · simp [hcall]
    · simp [callDecoded, hcall]
  rw [hfiltered, Sys.calls, List.filterMap_filterMap]
  congr 1
  funext e
  exact e.launchDecoded_call

/-- In every life of a `pexec_multi` the launch errors told are those that the reports decide. -/
theorem run_decoded {ls : List Label} (hnew : newMulti (boot w) = .ok () s)
    (hrun : Run (Under PreviousFinished Step) s ls t) (x : Nat) :
    launchErrors x t.trace = t.decoded x := by
  have hstart : launchErrors x s.trace = s.trace.filterMap (Event.launchDecoded x) := by
    rw [newMulti_ok hnew]
    rfl
  rw [← Sys.decoded_trace]
  refine hrun.invariant (I := fun a => launchErrors x a.trace = a.trace.filterMap (Event.launchDecoded x))
    hstart fun a l b ha ⟨_, hstep⟩ => ?_
  obtain ⟨new, htrace, _, hlaw⟩ := ((label_uses l).ok hstep.2).events
  unfold launchErrors at ha ⊢
  rw [htrace, List.filterMap_append, List.filterMap_append, ha, hlaw]

theorem callDecoded_owner (calls : List (Nat × State × ProcStatus)) :
    calls.filterMap (callDecoded x) = (calls.filter (·.1 = x)).filterMap (callDecoded x) := by
  rw [List.filterMap_filter]
  congr 1
  funext call
  by_cases hx : call.1 = x
  · simp [hx]
  · simp [callDecoded, hx]

theorem verdict_decoded (hl : s.active.lookup pid = some x) (hdead : Terminated status) :
    (s.verdict (pid, status)).filterMap (callDecoded x) = (s.procs x).proc.launchErrors status := by
  have hrunning := (updateStatus_running_iff (s.procs x).proc status).mpr hdead
  unfold Sys.verdict
  rw [hl]
  cases hcode : launchError ((s.procs x).proc.updateStatus status).returnCode <;>
    simp [callDecoded, ProcStatus.launchErrors, hrunning, hcode]

/-- The status word of a child, once it has ended. -/
def World.statusOf (w : World) (pid : Int) : Option WaitStatus :=
  (w.children.lookup pid).bind fun child => child.status.map Subtype.val

theorem Verdicts.decoded (hv : Verdicts rs s t) (hs : Desk s) (hl : s.active.lookup pid = some x) :
    ∃ statuses : List WaitStatus, statuses.length ≤ 1 ∧ (statuses ≠ [] ↔ pid ∈ rs.map Prod.fst) ∧
      (∀ status ∈ statuses, s.toWorld.statusOf pid = some status) ∧
      t.decoded x = s.decoded x ++ statuses.flatMap (s.procs x).proc.launchErrors := by
  have hsplit : t.decoded x = s.decoded x ++
      ((rs.flatMap s.verdict).filter (·.1 = x)).filterMap (callDecoded x) := by
    rw [Sys.decoded, hv.reports, List.filterMap_append, callDecoded_owner (rs.flatMap s.verdict)]
    rfl
  by_cases hm : pid ∈ rs.map Prod.fst
  · obtain ⟨⟨pid, status⟩, hr, rfl⟩ := List.mem_map.mp hm
    obtain ⟨child, hchild, hstatus⟩ := hv.ended _ hr
    have hdead : Terminated status := by
      obtain ⟨dead, hdead, rfl⟩ := Option.map_eq_some_iff.mp hstatus
      exact dead.2
    refine ⟨[status], Nat.le_refl 1, iff_of_true (by simp) hm, fun status' hs' => ?_, ?_⟩
    · rw [List.mem_singleton.mp hs', World.statusOf, hchild]
      exact hstatus
    · rw [hsplit, hs.verdicts_one hl rs hv.nodup hr, verdict_decoded hl hdead]
      simp
  · refine ⟨[], Nat.zero_le 1, iff_of_false (by simp) hm, fun _ hs' => absurd hs' List.not_mem_nil, ?_⟩
    rw [hsplit, hs.verdicts_none hl hm]
    rfl

/-- Nothing is reported about a process that is not active. -/
theorem Verdicts.undecoded (hv : Verdicts rs s t) (hx : ∀ pid, s.active.lookup pid ≠ some x) :
    t.decoded x = s.decoded x := by
  have hnone : (rs.flatMap s.verdict).filterMap (callDecoded x) = [] := by
    refine List.filterMap_eq_nil_iff.mpr fun call hm => ?_
    obtain ⟨r, _, hr⟩ := List.mem_flatMap.mp hm
    have hne : call.1 ≠ x := fun he => hx r.1 (he ▸ verdict_owner hr)
    simp [callDecoded, hne]
  rw [Sys.decoded, hv.reports, List.filterMap_append, hnone, List.append_nil]
  rfl

/-- Whoever is told a status is told the end of the watching with it. -/
def ReportsEnd (s : Sys) : Prop :=
  ∀ call ∈ reports s.calls, ∃ proc, (call.1, .stopped, proc) ∈ reports s.calls

theorem Verdicts.reportsEnd (hv : Verdicts rs s t) (hs : ReportsEnd s) : ReportsEnd t := by
  intro call hm
  rw [hv.reports] at hm ⊢
  rcases List.mem_append.mp hm with hm | hm
  · obtain ⟨proc, hp⟩ := hs call hm
    exact ⟨proc, List.mem_append_left _ hp⟩
  · obtain ⟨r, hr, hcall⟩ := List.mem_flatMap.mp hm
    have hl := verdict_owner hcall
    have hstopped : (call.1, .stopped, { (s.procs call.1).proc.updateStatus r.2 with stdinFd := -1 }) ∈
        s.verdict r := by
      unfold Sys.verdict
      rw [hl]
      exact List.mem_cons_of_mem _ (List.mem_singleton_self _)
    exact ⟨_, List.mem_append_right _ (List.mem_flatMap.mpr ⟨r, hr, hstopped⟩)⟩

/-- As long as the watching has not ended no launch error is told. -/
theorem ReportsEnd.decoded (hs : ReportsEnd s) (hx : x ∉ s.ends) : s.decoded x = [] := by
  refine List.filterMap_eq_nil_iff.mpr fun call hm => ?_
  have hne : call.1 ≠ x := by
    rintro rfl
    obtain ⟨proc, hp⟩ := hs call hm
    exact hx (List.mem_filterMap.mpr ⟨_, List.mem_of_mem_filter hp, rfl⟩)
  simp [callDecoded, hne]

/-- What holds at any point of the life of a `pexec_multi`. -/
structure History (s : Sys) : Prop where
  life : Life s
  orderly : s.service.Orderly
  reportsEnd : ReportsEnd s

theorem History.step {l : Label} (hs : History s) (hstep : Under PreviousFinished Step s l t) : History t := by
  obtain ⟨hp, hstep⟩ := hstep
  have hlife := life_step hs.life hstep.1 hp
  rw [hstep.2] at hlife
  obtain ⟨rs, hv, _⟩ := hs.life.verdicts hp hstep
  exact ⟨hlife, hs.life.stable GracefulStop.orderly_stable hp hstep hs.orderly, hv.reportsEnd hs.reportsEnd⟩

theorem run_history {ls : List Label} (hnew : newMulti (boot w) = .ok () s)
    (hrun : Run (Under PreviousFinished Step) s ls t) : History t := by
  refine hrun.invariant ⟨newMulti_life hnew, ?_, ?_⟩ fun _ _ _ ha hstep => ha.step hstep
  · rw [newMulti_ok hnew]
    refine ⟨List.nodup_nil, fun h hh => absurd hh List.not_mem_nil, fun h hh => ?_,
      fun h hh => absurd hh List.not_mem_nil⟩
    obtain ⟨pid, hl⟩ := hh
    cases hl
  · rw [newMulti_ok hnew]
    exact fun call hm => absurd hm List.not_mem_nil

/-- A process that is watched has not been told anything about its launch. -/
theorem History.untold (hs : History s) (hl : s.active.lookup pid = some x) : s.decoded x = [] :=
  hs.reportsEnd.decoded fun hended => (hs.orderly.ended x hended).2 ⟨pid, hl⟩

/-- The step that ends the watching of a process. -/
theorem History.ends {l : Label} (hs : History s) (hl : s.active.lookup pid = some x)
    (hstep : Under PreviousFinished Step s l t) (hend : pid ∉ t.active) :
    t.service.Spent x ∧ ∃ statuses : List WaitStatus, statuses.length ≤ 1 ∧
      (statuses ≠ [] ↔ l.Reaps s pid) ∧ (∀ status ∈ statuses, s.toWorld.statusOf pid = some status) ∧
      t.decoded x = statuses.flatMap ({} : ProcStatus).launchErrors := by
  obtain ⟨hp, hstep⟩ := hstep
  have hlost : t.active ≠ s.active := fun he => hend (he ▸ AList.lookup_isSome.mp (by rw [hl]; rfl))
  obtain ⟨fd, c, rfl⟩ : ∃ fd c, l = .event fd c := by
    by_contra hno
    exact hlost (hs.life.quiet_step hp hstep fun fd c he => hno ⟨fd, c, he⟩).1
  have hon : On s := (hs.life.due hstep.1).1
  obtain ⟨rs, hv, hreaps⟩ := hs.life.verdicts hp hstep
  obtain ⟨statuses, hone, hsome, hstatus, hdecoded⟩ := hv.decoded hon.desk hl
  have hkept : (s.procs x).proc.launchErrors = ({} : ProcStatus).launchErrors := by
    refine ProcStatus.launchErrors_congr ?_
    rw [(hon.served pid x hl).proc]
  have hrunning : x ∈ s.service.running := ⟨pid, hl⟩
  refine ⟨⟨?_, ?_⟩, statuses, hone, hsome.trans (hreaps pid), hstatus, ?_⟩
  · exact hs.life.stable (GracefulStop.past_stable x) hp hstep (hs.orderly.running x hrunning)
  · rintro ⟨pid', hl'⟩
    rcases (hs.life.pidStep hp hstep).hires pid' x hl' with hl'' | ⟨_, hx, _⟩
    · obtain rfl := hon.desk.active_inj hl hl''
      exact hend (AList.lookup_isSome.mp (by rw [hl']; rfl))
    · exact hx pid hl
  · rw [hdecoded, hs.untold hl, hkept, List.nil_append]

/-- After that nothing more is told. -/
theorem run_decoded_spent {ls : List Label} (hs : History s) (hspent : s.service.Spent x)
    (hrun : Run (Under PreviousFinished Step) s ls t) : t.decoded x = s.decoded x := by
  have hall := hrun.invariant
    (I := fun a => History a ∧ a.service.Spent x ∧ a.decoded x = s.decoded x) ⟨hs, hspent, rfl⟩
    fun a l b ⟨ha, hsp, hd⟩ hstep => by
      obtain ⟨rs, hv, _⟩ := ha.life.verdicts hstep.1 hstep.2
      refine ⟨ha.step hstep, ha.life.stable (GracefulStop.spent_stable x) hstep.1 hstep.2 hsp, ?_⟩
      rw [hv.undecoded fun pid hl => hsp.2 ⟨pid, hl⟩, hd]
  exact hall.2.2

/-- A blocking run tells of a failed launch, and of no other, exactly if it reaps the child whose
launch has failed and does not take the status of a program for one: its own exit code or, after a
signal, the exit code that an earlier run has left in the object. In a `pexec_multi` it is the step
that ends the watching of the process that must reap the child, and no earlier run has left a code;
before that step nothing is told, and after it nothing more. -/
theorem launch_told_iff {bs : List BlockingLabel} {ls ls' : List Label} {l : Label} {w' : World}
    {fate' : ChildFate} (hrun : Run (BlockingStep h) (boot w) bs s) (ht : exec h line s = .ok () t)
    (hfate : ∀ status ∈ reapedIn (newEvents s t), fate.Encodes status)
    (hnew : newMulti (boot w') = .ok () a) (hlife : Run (Under PreviousFinished Step) a ls b)
    (hl : b.active.lookup pid = some x)
    (hfate' : ∀ status, b.toWorld.statusOf pid = some status → fate'.Encodes status)
    (hstep : Under PreviousFinished Step b l c) (hend : pid ∉ c.active)
    (hrest : Run (Under PreviousFinished Step) c ls' d) :
    (launchErrors h (newEvents s t) = fate.launchErrors ↔
      fate.Decodable (reapedIn (newEvents s t) ≠ []) (s.procs h).proc.returnCode) ∧
    (launchErrors x d.trace = fate'.launchErrors ↔ fate'.Decodable (l.Reaps b pid) 0) ∧
    ∀ y, y ∉ d.ends → launchErrors y d.trace = [] := by
  have hwhole := (hlife.snoc hstep).append hrest
  have hb := run_history hnew hlife
  refine ⟨?_, ?_, fun y hy => ?_⟩
  · have hs := run_resting hrun
    rw [exec_launchErrors hs ht]
    exact fate.told_iff _ (exec_decodes hs ht).1 hfate
  · obtain ⟨hspent, statuses, hone, hsome, hstatus, hdecoded⟩ := hb.ends hl hstep hend
    rw [run_decoded hnew hwhole, run_decoded_spent (hb.step hstep) hspent hrest, hdecoded,
      fate'.told_iff _ hone fun status hs => hfate' status (hstatus status hs), propext hsome]
  · rw [run_decoded hnew hwhole, (run_history hnew hwhole).reportsEnd.decoded hy]

theorem terminated_exit100 : Terminated 0x6400 := by decide

/-- A program that exits with 100 in a `pexec_multi`. -/
def hundredMulti : Sys := spawnedMulti.after [.env (.exit 1 ⟨0x6400, terminated_exit100⟩), .env .sigchld]

theorem hundredMulti_run : Run (Under PreviousFinished Step) freshMulti
    ([] ++ [.exec ['a'] false] ++ [.run .default {}] ++ [.event 0 {}] ++
      [.env (.exit 1 ⟨0x6400, terminated_exit100⟩)] ++ [.env .sigchld]) hundredMulti :=
  .snoc (.snoc spawnedMulti_run ⟨trivial, trivial, rfl⟩) ⟨trivial, trivial, rfl⟩

/-- The loop has served the signal. -/
def toldMulti : Sys := hundredMulti.after [.event 4 {}]

theorem toldMulti_step : Under PreviousFinished Step hundredMulti (.event 4 {}) toldMulti :=
  ⟨trivial, step_after (by decide +kernel)⟩

theorem hundredMulti_status : hundredMulti.toWorld.statusOf 1 = some 0x6400 := by decide +kernel

theorem killedRun_reaped : reapedIn (newEvents killingRun killedRun) = [9] := by decide +kernel

theorem missingRun_run : Run (BlockingStep 0) (boot {})
    ([] ++ [.choose {} [.ready [.exit 1 ⟨0x6400, terminated_exit100⟩, .sigchld] [6]]]) missingRun :=
  .snoc .nil rfl

theorem missedRun_reaped : reapedIn (newEvents missingRun missedRun) = [0x6400] := by decide +kernel

/-- A program that exits with 100 is told to be missing, in both modes, and so is one that is killed
by a signal after a run in which it was missing. -/
theorem launch_misreported :
    (¬∀ (h : Nat) (w : World) (bs : List BlockingLabel) (s t : Sys) (line : List Char) (code : Nat),
      Run (BlockingStep h) (boot w) bs s → exec h line s = .ok () t →
      (∀ status ∈ reapedIn (newEvents s t), (ChildFate.exited code).Encodes status) →
      launchErrors h (newEvents s t) = []) ∧
    (¬∀ (h : Nat) (w : World) (bs : List BlockingLabel) (s t : Sys) (line : List Char) (signum : Nat),
      Run (BlockingStep h) (boot w) bs s → exec h line s = .ok () t →
      (∀ status ∈ reapedIn (newEvents s t), (ChildFate.killed signum).Encodes status) →
      launchErrors h (newEvents s t) = []) ∧
    ¬∀ (w : World) (ls : List Label) (a b c : Sys) (l : Label) (pid : Int) (x code : Nat),
      newMulti (boot w) = .ok () a → Run (Under PreviousFinished Step) a ls b →
      b.active.lookup pid = some x →
      (∀ status, b.toWorld.statusOf pid = some status → (ChildFate.exited code).Encodes status) →
      Under PreviousFinished Step b l c → launchErrors x c.trace = [] := by
  refine ⟨fun hall => ?_, fun hall => ?_, fun hall => ?_⟩
  · have hnone := hall 0 {} _ missingRun missedRun ['a'] 100 missingRun_run missedRun_ok fun status hm => by
      rw [missedRun_reaped] at hm
      rw [List.mem_singleton.mp hm]
      exact ⟨rfl, rfl⟩
    exact absurd hnone (by decide +kernel)
  · have hnone := hall 0 {} _ killingRun killedRun ['a'] 9 killingRun_run killedRun_ok fun status hm => by
      rw [killedRun_reaped] at hm
      rw [List.mem_singleton.mp hm]
      exact ⟨rfl, rfl⟩
    exact absurd hnone (by decide +kernel)
  · have hnone := hall {} _ freshMulti hundredMulti toldMulti (.event 4 {}) 1 0 100 freshMulti_ok
      hundredMulti_run (by decide +kernel) (fun status hs => by
        cases hundredMulti_status.symm.trans hs
        exact ⟨rfl, rfl⟩) toldMulti_step
    exact absurd hnone (by decide +kernel)

theorem launch_told_iff_killed :
    (launchErrors 0 (newEvents killingRun killedRun) = (ChildFate.killed 9).launchErrors ↔
      (ChildFate.killed 9).Decodable (reapedIn (newEvents killingRun killedRun) ≠ [])
        (killingRun.procs 0).proc.returnCode) ∧
    (launchErrors 0 toldMulti.trace = (ChildFate.exited 100).launchErrors ↔
      (ChildFate.exited 100).Decodable ((Label.event 4 {}).Reaps hundredMulti 1) 0) ∧
    ∀ y, y ∉ toldMulti.ends → launchErrors y toldMulti.trace = [] := by
  refine launch_told_iff killingRun_run killedRun_ok (fun status hm => ?_) freshMulti_ok hundredMulti_run
    (by decide +kernel) (fun status hs => ?_) toldMulti_step (by decide +kernel) .nil
  · rw [killedRun_reaped] at hm
    rw [List.mem_singleton.mp hm]
    exact ⟨rfl, rfl⟩
  · cases hundredMulti_status.symm.trans hs
    exact ⟨rfl, rfl⟩

end Pexec
