import Pexec.HandlerFrame
import Pexec.Lib.QueueCourse
import Pexec.Rerunning

namespace Pexec

open Effect Runs

variable {h : Nat} {s t u v : Sys} {fd : Int} {c : Choices}

/-- A step that adds nothing to the queue but sentinels. -/
structure Queued (s t : Sys) : Prop where
  buffer : ∃ n, t.buffer = s.buffer ++ List.replicate n none
  nextHandle : t.nextHandle = s.nextHandle
  stopping : t.stopping = s.stopping
  watching : t.watching = s.watching

instance : IsPreorder Sys Queued where
  refl _ := ⟨⟨0, (List.append_nil _).symm⟩, rfl, rfl, rfl⟩
  trans s t u hst htu := by
    obtain ⟨n, hn⟩ := hst.buffer
    obtain ⟨m, hm⟩ := htu.buffer
    refine ⟨⟨n + m, ?_⟩, htu.nextHandle.trans hst.nextHandle, htu.stopping.trans hst.stopping,
      htu.watching.trans hst.watching⟩
    rw [hm, hn, List.append_assoc, List.replicate_append_replicate]

theorem queued_frames : Frames Queued where
  acts ha := by
    obtain ⟨n, hn, _⟩ := ha.shrinks.queue
    exact ⟨⟨n, hn⟩, ha.field Sys.nextHandle fun _ => rfl, ha.field Sys.stopping fun _ => rfl,
      ha.field Sys.watching fun _ => rfl⟩
  plain _ hd := ⟨⟨0, (congrArg (·.1) hd).trans (List.append_nil _).symm⟩, congrArg (·.2.1) hd,
    congrArg (·.2.2.1) hd, congrArg (·.2.2.2) hd⟩

theorem jobs_sentinels (q : List (GracefulStop.Ticket Nat (StopFlag × Int))) (n : Nat) :
    GracefulStop.jobs (q ++ List.replicate n .sentinel) = GracefulStop.jobs q := by
  rw [GracefulStop.jobs, List.filterMap_append, List.filterMap_replicate_of_none rfl, List.append_nil]
  rfl

theorem Queued.course (hq : Queued s t) (hm : GracefulStop.Moves s.service t.service) :
    GracefulStop.CourseStep s.service t.service := by
  obtain ⟨n, hn⟩ := hq.buffer
  have hqueue : t.service.queue = s.service.queue ++ List.replicate n .sentinel := by
    simp only [Sys.service, hn, List.map_append, List.map_replicate, ticket]
  have hissued : t.service.issued = s.service.issued := by
    simp only [Sys.service, hq.nextHandle]
  have hjobs : GracefulStop.jobs t.service.queue = GracefulStop.jobs s.service.queue := by
    rw [hqueue, jobs_sentinels]
  exact .quiet n hqueue ((hm.taken hissued.subset).idle hjobs) hq.stopping hq.watching

theorem CourseStep.same (hs : t.service = s.service) : GracefulStop.CourseStep s.service t.service := by
  rw [hs]
  exact .quiet 0 (List.append_nil _).symm rfl rfl rfl

/-- A job is taken from the queue and dispatched. -/
theorem onControlReady_course (hs : Sound s) (hw : s.watching = true) (hfd : fd = s.controlPipe.rd)
    (ht : onControlReady fd s = .ok () t) : GracefulStop.CourseStep s.service t.service := by
  obtain ⟨a, u, hu, hd⟩ := readRetry_drained .control hs.isolated.owns 1
  subst hfd
  cases a with
  | error e => cases (show _ = _ from (bind_of_ok hu).symm.trans ht)
  | ok data =>
    have hiso : Isolated u := (readRetry_isolated .control (fun x => ⟨by simp, by simp⟩) _ 1).ok
      ⟨hs.isolated, rfl⟩ hu
    have hsound : Sound u := ⟨hiso, hd.on hs.on⟩
    have hwu : u.watching = true := (hd.field Sys.watching fun _ _ _ => rfl).trans hw
    have hservice : u.service = s.service := hd.service
    obtain ⟨ret, v, hv, hlast⟩ := bind_eq_ok.mp (show (do
      if (← dispatchJob) = .stopLoop then handleStop : Prog Unit) u = .ok () t from
        (bind_of_ok hu).symm.trans ht)
    obtain ⟨job, hjob⟩ := (dispatchJob_frame hsound hv).2
    have hqueue : s.service.queue = ticket job :: v.service.queue := by
      rw [← hservice]
      simp only [Sys.service, hjob, List.map_cons]
    rcases dispatchJob_cases hsound hwu with ⟨e, x, hx, _⟩ | ⟨ret', x, hx, hcases⟩
    · cases hv.symm.trans hx
    · cases hv.symm.trans hx
      rcases hcases with ⟨rfl, hjobbed⟩ | ⟨rfl, hempty⟩
      · cases hlast
        exact .take hqueue (hservice ▸ hjobbed.move)
      · have hv' : On v := by
          rw [hempty.frame]
          exact hsound.on.queue ..
        have hwv : v.watching = true := by
          rw [hempty.frame]
          exact hwu
        obtain ⟨t', ht', hhalted⟩ := handleStop_ok hv' hwv
        cases hlast.symm.trans ht'
        obtain ⟨registered, loop, mapOrder, trace, vigil, pipes, hframe⟩ := hhalted.frame
        have hbuffer : t.service.queue = v.service.queue := by
          rw [hframe]
          rfl
        exact .take (hbuffer ▸ hqueue) (hservice ▸ hempty.move hhalted hwu)

/-- What one callback of the loop means for the jobs. -/
theorem Fit.course_event (hs : Fit s) (hc : Succeeds s (.event fd c)) (hstep : Step s (.event fd c) t) :
    GracefulStop.CourseStep s.service t.service := by
  have hmoves := (hs.step hc (by simp) hstep).moves
  obtain ⟨he, ht⟩ := hstep
  obtain ⟨hon, hdue, _⟩ := hs.life.due he
  have hsound : Sound (s.choose c) := Sound.choose ⟨hs.life.isolated, hon⟩ c
  have hdisp : dispatch fd (s.choose c) = .ok () t := ht
  rcases dispatch_split hsound hdue with ⟨hreg, hact⟩ | ⟨hd, hfd, hint⟩
  · rw [hact] at hdisp
    have hqueued : Queued (s.choose c) t → GracefulStop.CourseStep s.service t.service := fun hq =>
      Queued.course (s := s) ⟨hq.buffer, hq.nextHandle, hq.stopping, hq.watching⟩ hmoves
    unfold doAction at hdisp
    rw [bind_of_ok (get_apply _)] at hdisp
    cases hl : (s.choose c).registered.lookup fd with
    | none =>
      rw [hl] at hdisp
      cases hdisp
    | some src =>
      rw [hl] at hdisp
      cases src with
      | sigchld =>
        obtain ⟨ret, v, hv, hlast⟩ := bind_eq_ok.mp (show onSigchldReady (s.choose c) = .ok () t from hdisp)
        have hret : ret ≠ .stopLoop := by
          rintro rfl
          exact hc hl v hv
        rw [if_neg hret] at hlast
        cases hlast
        exact hqueued ((readSignal_frames queued_frames).ok hv)
      | control =>
        have hfd : fd = (s.choose c).controlPipe.rd := ((hsound.on.desk.keys fd .control).mp hl).2.symm
        have hw : (s.choose c).watching = true := ((hsound.on.desk.keys fd .control).mp hl).1
        have hcourse := onControlReady_course hsound hw hfd hdisp
        exact hcourse
      | readClose x => exact hqueued ((discard_frames (h := x) queued_frames readClose_acts).ok hdisp)
      | readStdout x => exact hqueued ((discard_frames (h := x) queued_frames readStdout_acts).ok hdisp)
      | readStderr x => exact hqueued ((discard_frames (h := x) queued_frames readStderr_acts).ok hdisp)
  · have hend := loopCallback_interrupted hsound.isolated.owns hd hfd
    rw [← hint, hdisp] at hend
    obtain ⟨v, hdr, hended⟩ := hend.ended
    have hservice : t.service = s.service := hended.service.trans hdr.service
    exact CourseStep.same hservice

/-- The steps of a run to which nobody sends a job, and in which the calls of the loop succeed. -/
def Unattended (s : Sys) (l : Label) : Prop :=
  Succeeds s l ∧ match l with
    | .env _ | .event _ _ => True
    | _ => False

theorem Fit.course_step {l : Label} (hs : Fit s) (hl : Unattended s l) (hstep : Step s l t) :
    GracefulStop.CourseStep s.service t.service := by
  cases l with
  | env act =>
    cases hstep.2
    exact CourseStep.same (envAct_elsewhere act s).service
  | event fd c => exact hs.course_event hl.1 hstep
  | exec | stop | run | selectError => exact hl.2.elim

/-- A run that has been started has opened the service. -/
theorem Fit.opened {type : LoopType} (hs : Fit s) (hstep : Step s (.run type c) t)
    (hup : t.running = true) :
    GracefulStop.Opened t.service ∧ t.service = { s.service with isOpen := true } := by
  obtain ⟨he, ht⟩ := hstep
  obtain ⟨hw, _, hactive, hreg, _⟩ := hs.finished he
  obtain ⟨s₀, new, fin, hsession⟩ := hs.session
  rcases hs.life.run_cases (c := c) ⟨hactive, hreg⟩ with ⟨e, t', ht', _⟩ |
      ⟨t', ht', hcases⟩
  · cases ht.symm.trans ht'
  · cases ht.symm.trans ht'
    rcases hcases with hstarted | hrefused
    · exact ⟨hsession.reopen hw hstarted.service, hstarted.service⟩
    · exact absurd (hup.symm.trans (hrefused.running.trans he)) (by decide)

theorem Fit.course {ms : List Label} (hs : Fit s) (hopen : GracefulStop.Opened s.service)
    (hseg : Run (Under Unattended Step) s ms t) :
    Fit t ∧ GracefulStop.Course s.service.queue s.starts t.service := by
  have hall : Fit t ∧ GracefulStop.Course s.service.queue s.starts t.service ∧
      ∃ new fin, GracefulStop.Session s.service t.service new fin := by
    induction hseg with
    | nil => exact ⟨hs, hopen.course, [], [], hopen.session⟩
    | @snoc t u _ l _ hstep ih =>
      obtain ⟨hfit, hcourse, new, fin, hsession⟩ := ih
      obtain ⟨hl, hstep⟩ := hstep
      have hnot : ∀ type c, l ≠ .run type c := by
        rintro type c rfl
        exact hl.2
      have hnext := hfit.step hl.1 hnot hstep
      obtain ⟨new', fin', hsession'⟩ := hsession.moves hnext.moves
      exact ⟨hnext.fit, hcourse.step hopen.clean hsession rfl hsession' (hfit.course_step hl hstep),
        new', fin', hsession'⟩
  exact ⟨hall.1, hall.2.1⟩

/-- The first stop job has no exec job before it, or nothing behind it. -/
def StopAlone (buffer : List (Option Job)) : Prop :=
  ∀ before flag signum rest, buffer = before ++ some (.stop flag signum) :: rest →
    (∀ job ∈ before, ∃ h, job = some (.spawn h)) → before = [] ∨ rest = []

theorem ticket_injective : Function.Injective ticket := by
  rintro (_ | ⟨h⟩ | ⟨flag, signum⟩) (_ | ⟨h'⟩ | ⟨flag', signum'⟩) hx
  all_goals first | cases hx; rfl | cases hx

theorem StopAlone.tickets {buffer : List (Option Job)} (hb : StopAlone buffer) :
    GracefulStop.StopAlone (buffer.map ticket) := by
  intro taken f rest hsplit hstarts
  obtain ⟨before, behind, rfl, rfl, hbehind⟩ := List.map_eq_append_iff.mp hsplit
  obtain ⟨job, after, rfl, hjob, rfl⟩ := List.map_eq_cons_iff.mp hbehind
  have hstop : job = some (.stop f.1 f.2) := ticket_injective hjob
  subst hstop
  have hbefore : ∀ job ∈ before, ∃ h, job = some (.spawn h) := by
    intro job hj
    obtain ⟨h, hh⟩ := hstarts _ (List.mem_map_of_mem hj)
    exact ⟨h, ticket_injective hh⟩
  rcases hb before f.1 f.2 after rfl hbefore with hnone | hlast
  · exact .inl (List.map_eq_nil_iff.mpr hnone)
  · exact .inr (List.map_eq_nil_iff.mpr hlast)

theorem mem_jobs {buffer : List (Option Job)} :
    h ∈ GracefulStop.jobs (buffer.map ticket) ↔ some (.spawn h) ∈ buffer := by
  rw [GracefulStop.jobs, List.mem_filterMap]
  constructor
  · rintro ⟨x, hx, hjob⟩
    obtain ⟨job, hj, rfl⟩ := List.mem_map.mp hx
    rcases job with _ | ⟨h'⟩ | _
    · cases hjob
    · cases hjob
      exact hj
    · cases hjob
  · exact fun hm => ⟨_, List.mem_map_of_mem hm, rfl⟩

/-- Two runs with one queue, whatever happens when in each of them: what they start and leave is
the same, and no exec job is dropped. -/
theorem job_timing {w : World} {ls ms ms' : List Label} {c c' : Choices} {u' v' : Sys}
    (hnew : newMulti (boot w) = .ok () s) (hlife : Run (Under Succeeds Step) s ls t)
    (halone : StopAlone t.buffer)
    (hstart : Step t (.run .default c) u) (hup : u.running = true)
    (hrun : Run (Under Unattended Step) u ms v)
    (hstart' : Step t (.run .default c') u') (hup' : u'.running = true)
    (hrun' : Run (Under Unattended Step) u' ms' v') :
    (∀ h, some (.spawn h) ∈ t.buffer → some (.spawn h) ∈ v.buffer ∨ h ∈ v.starts) ∧
      (v.starts <+: v'.starts ∨ v'.starts <+: v.starts) ∧
      (v.running = false → v'.running = false → v.starts = v'.starts ∧ v.buffer = v'.buffer) := by
  have hfit := run_fit hnew hlife
  have hside : ∀ {c ms u v}, Step t (.run .default c) u → u.running = true →
      Run (Under Unattended Step) u ms v →
        Fit v ∧ GracefulStop.Course (t.buffer.map ticket) t.starts v.service := by
    intro c ms u v hstart hup hrun
    obtain ⟨hopen, hservice⟩ := hfit.opened hstart hup
    have hcourse := (hfit.start hstart).1.course hopen hrun
    have hqueue : u.service.queue = t.buffer.map ticket := by
      rw [hservice]
      rfl
    have hstarts : u.starts = t.starts := congrArg GracefulStop.Service.started hservice
    rw [hqueue, hstarts] at hcourse
    exact hcourse
  obtain ⟨hfitv, hcourse⟩ := hside hstart hup hrun
  obtain ⟨hfitv', hcourse'⟩ := hside hstart' hup' hrun'
  refine ⟨fun h hh => ?_, hcourse.comparable hcourse', fun hr hr' => ?_⟩
  · exact (hcourse.kept halone.tickets (mem_jobs.mpr hh)).imp_left mem_jobs.mp
  · obtain ⟨hstarted, hqueue⟩ := hcourse.agree halone.tickets hcourse' (hfitv.finished hr).1
      (hfitv'.finished hr').1
    exact ⟨hstarted, List.map_injective_iff.mpr ticket_injective hqueue⟩

/-- The check that a step is one of an unattended run. -/
def unattended (s : Sys) : Label → Bool
  | .env _ => true
  | .event fd c => decide (s.registered.lookup fd ≠ some .sigchld) ||
      decide (answer readSignal (s.choose c) ≠ some .stopLoop)
  | _ => false

theorem unattended_sound (s : Sys) (l : Label) (hl : unattended s l = true) : Unattended s l := by
  cases l with
  | env act => exact ⟨trivial, trivial⟩
  | event fd c =>
    refine ⟨fun hsrc t ht => ?_, trivial⟩
    simp only [unattended, Bool.or_eq_true, decide_eq_true_eq] at hl
    rcases hl with hl | hl
    · exact hl hsrc
    · exact hl (by rw [answer, ht])
  | exec | stop | run | selectError => cases hl

/-- An exec job and a stop job have been queued before the run. -/
def stoppedMulti : Sys := freshMulti.after [.exec ['a'] false, .stop .stopWait (-1)]

def stoppedRun : Sys := stoppedMulti.after [.run .default {}]

/-- The process exits before the stop job is dispatched. -/
def earlyExit : List Label :=
  [.event 0 {}, .env (.exit 1 ⟨0, terminated_zero⟩), .env .sigchld, .event 4 {}, .event 0 {}, .event 2 {}]

/-- It exits after. -/
def lateStop : List Label :=
  [.event 0 {}, .event 0 {}, .env (.exit 1 ⟨0, terminated_zero⟩), .env .sigchld, .event 4 {}, .event 0 {},
    .event 2 {}]

theorem stoppedMulti_run : Run (Under Succeeds Step) freshMulti
    [.exec ['a'] false, .stop .stopWait (-1)] stoppedMulti :=
  run_after (fun _ l => match l with | .exec _ _ | .stop _ _ => true | _ => false)
    (fun s l hl => by cases l <;> trivial) _ (by decide +kernel)

theorem stoppedMulti_alone : StopAlone stoppedMulti.buffer := by
  intro before flag signum rest hsplit _
  have hbuffer : stoppedMulti.buffer = [some (.spawn 0), some (.stop .stopWait (-1))] := by
    decide +kernel
  rw [hbuffer] at hsplit
  match before with
  | [] => exact .inl rfl
  | [x] =>
    obtain ⟨-, htail⟩ := List.cons.inj hsplit
    exact .inr (List.cons.inj htail).2.symm
  | x :: y :: before =>
    obtain ⟨-, htail⟩ := List.cons.inj hsplit
    obtain ⟨-, hnil⟩ := List.cons.inj htail
    simp at hnil

theorem job_timing_stopped :
    (∀ h, some (.spawn h) ∈ stoppedMulti.buffer → some (.spawn h) ∈ (stoppedRun.after lateStop).buffer ∨
      h ∈ (stoppedRun.after lateStop).starts) ∧
      ((stoppedRun.after lateStop).starts <+: (stoppedRun.after earlyExit).starts ∨
        (stoppedRun.after earlyExit).starts <+: (stoppedRun.after lateStop).starts) ∧
      ((stoppedRun.after lateStop).running = false → (stoppedRun.after earlyExit).running = false →
        (stoppedRun.after lateStop).starts = (stoppedRun.after earlyExit).starts ∧
          (stoppedRun.after lateStop).buffer = (stoppedRun.after earlyExit).buffer) :=
  job_timing freshMulti_ok stoppedMulti_run stoppedMulti_alone (step_after (by decide +kernel))
    (by decide +kernel) (run_after _ unattended_sound _ (by decide +kernel))
    (step_after (by decide +kernel)) (by decide +kernel)
    (run_after _ unattended_sound _ (by decide +kernel))

/-- An exec job, a stop job and another exec job have been queued before the run. -/
def queuedMulti : Sys := freshMulti.after [.exec ['a'] false, .stop .stopWait (-1), .exec ['b'] false]

def queuedRun : Sys := queuedMulti.after [.run .default {}]

/-- The first process exits after the stop job is dispatched. -/
def lateExit : List Label :=
  [.event 0 {}, .event 0 {}, .event 0 {}, .env (.exit 1 ⟨0, terminated_zero⟩), .env .sigchld, .event 4 {},
    .event 0 {}, .event 2 {}]

theorem queuedMulti_run : Run (Under Succeeds Step) freshMulti
    [.exec ['a'] false, .stop .stopWait (-1), .exec ['b'] false] queuedMulti :=
  run_after (fun _ l => match l with | .exec _ _ | .stop _ _ => true | _ => false)
    (fun s l hl => by cases l <;> trivial) _ (by decide +kernel)

/-- The second process is never started, nor is there a callback about it; in the other run its job
is still there when the run has ended. -/
theorem exit_timing : newMulti (boot {}) = .ok () freshMulti ∧
    Run (Under Succeeds Step) freshMulti
      [.exec ['a'] false, .stop .stopWait (-1), .exec ['b'] false] queuedMulti ∧
    Step queuedMulti (.run .default {}) queuedRun ∧ queuedRun.running = true ∧
    Run (Under Unattended Step) queuedRun lateExit (queuedRun.after lateExit) ∧
    Run (Under Unattended Step) queuedRun earlyExit (queuedRun.after earlyExit) ∧
    (queuedRun.after lateExit).running = false ∧ (queuedRun.after earlyExit).running = false ∧
    (queuedRun.after lateExit).buffer = [] ∧ (queuedRun.after lateExit).starts = [0] ∧
    1 ∉ (queuedRun.after lateExit).calls.map Prod.fst ∧
    (queuedRun.after earlyExit).buffer = [some (.spawn 1)] :=
  ⟨freshMulti_ok, queuedMulti_run, step_after (by decide +kernel), by decide +kernel,
    run_after _ unattended_sound _ (by decide +kernel), run_after _ unattended_sound _ (by decide +kernel),
    by decide +kernel, by decide +kernel, by decide +kernel, by decide +kernel, by decide +kernel,
    by decide +kernel⟩

end Pexec
