import Pexec.PidSafety

namespace Pexec

open Effect Runs

variable {h : Nat} {pid : Int} {s t u v : Sys}

/-- `select` and the reads of the SIGCHLD pipe succeed. -/
def Succeeds (s : Sys) : Label → Prop
  | .event fd c =>
    s.registered.lookup fd = some .sigchld → ∀ t, readSignal (s.choose c) ≠ .ok .stopLoop t
  | .selectError => False
  | _ => True

/-- In such a life the loop is only interrupted by the stop that ends its run. -/
structure Fit (s : Sys) : Prop where
  life : Life s
  session : ∃ s₀ new fin, GracefulStop.Session s₀ s.service new fin
  quiet : s.watching = true →
    s.running = true ∧ (s.loopType = .default → (s.stream .loop).unread = [])

/-- A job that is sent is a ticket, and a new one. -/
theorem Sent.issue_move {args : List Char} {hasOnStop : Bool}
    (hs : Sent (some (.spawn s.nextHandle)) (s.issue args hasOnStop) t) :
    GracefulStop.Move s.service t.service := by
  obtain ⟨pipes, ht⟩ := hs.frame
  have hissued : {x | x < s.nextHandle + 1} =
      {x | x < s.nextHandle} ∪ {x | (ticket (some (.spawn s.nextHandle))).job? = some x} := by
    ext x
    simp only [Set.mem_ofPred_eq, Set.mem_union, ticket, GracefulStop.Ticket.job?, Option.some.injEq]
    omega
  have hservice : t.service = { s.service with
      queue := s.service.queue ++ [ticket (some (.spawn s.nextHandle))]
      issued := s.service.issued ∪
        {x | (ticket (some (.spawn s.nextHandle))).job? = some x} } := by
    rw [ht]
    simp only [Sys.service, Sys.issue, Sys.calls, List.map_append, List.map_cons, List.map_nil,
      List.count_append, hissued]
    rfl
  rw [hservice]
  refine .send rfl fun x hx => ?_
  cases hx
  exact Nat.lt_irrefl _

theorem Sent.stop_move {flag : StopFlag} {signum : Int} (hs : Sent (some (.stop flag signum)) s t) :
    GracefulStop.Move s.service t.service := by
  obtain ⟨pipes, ht⟩ := hs.frame
  have hservice : t.service = { s.service with
      queue := s.service.queue ++ [ticket (some (.stop flag signum))]
      issued := s.service.issued ∪ {x | (ticket (some (.stop flag signum))).job? = some x} } := by
    rw [ht]
    simp only [Sys.service, Sys.calls, List.map_append, List.map_cons, List.map_nil,
      List.count_append, ticket, GracefulStop.Ticket.job?, reduceCtorEq, Set.ofPred_false,
      Set.union_empty]
    rfl
  rw [hservice]
  exact .send rfl fun x hx => by cases hx

/-- A step that the stop protocol does not see. -/
theorem Ended.service (he : Ended s t) : t.service = s.service :=
  Sys.service_eq (he.field Sys.buffer fun _ => rfl) (he.field Sys.added fun _ => rfl)
    (he.field Sys.active fun _ => rfl) (he.field Sys.nextHandle fun _ => rfl)
    (he.field Sys.stopping fun _ => rfl) (he.field Sys.stopFlag fun _ => rfl)
    (he.field Sys.stopSignum fun _ => rfl) (he.field Sys.watching fun _ => rfl) he.uncalled

theorem Drained.service {slot : Slot} (hd : Drained slot s t) : t.service = s.service :=
  Sys.service_eq (hd.field Sys.buffer fun _ _ _ => rfl) (hd.field Sys.added fun _ _ _ => rfl)
    (hd.field Sys.active fun _ _ _ => rfl) (hd.field Sys.nextHandle fun _ _ _ => rfl)
    (hd.field Sys.stopping fun _ _ _ => rfl) (hd.field Sys.stopFlag fun _ _ _ => rfl)
    (hd.field Sys.stopSignum fun _ _ _ => rfl) (hd.field Sys.watching fun _ _ _ => rfl)
    hd.quiet.2.2

theorem Elsewhere.service (he : Elsewhere s t) : t.service = s.service :=
  Sys.service_eq (he.field Sys.buffer fun _ _ _ _ => rfl) (he.field Sys.added fun _ _ _ _ => rfl)
    (he.field Sys.active fun _ _ _ _ => rfl) (he.field Sys.nextHandle fun _ _ _ _ => rfl)
    (he.field Sys.stopping fun _ _ _ _ => rfl) (he.field Sys.stopFlag fun _ _ _ _ => rfl)
    (he.field Sys.stopSignum fun _ _ _ _ => rfl) (he.field Sys.watching fun _ _ _ _ => rfl)
    (Uncalled.same (he.field (·.trace) fun _ _ _ _ => rfl))

theorem Refused.service {type : LoopType} (hr : Refused type s t) : t.service = s.service :=
  Sys.service_eq (hr.field Sys.buffer fun _ => rfl) (hr.field Sys.added fun _ => rfl)
    (hr.field Sys.active fun _ => rfl) (hr.field Sys.nextHandle fun _ => rfl)
    (hr.field Sys.stopping fun _ => rfl) (hr.field Sys.stopFlag fun _ => rfl)
    (hr.field Sys.stopSignum fun _ => rfl) hr.watching hr.uncalled

/-- The start of a run opens the service. -/
theorem Started.service {type : LoopType} (hs : Started type s t) :
    t.service = { s.service with isOpen := true } := by
  have hcalls : t.calls = s.calls := hs.uncalled.calls.trans (List.append_nil _)
  have hb : t.buffer = s.buffer := hs.field Sys.buffer fun _ => rfl
  have ha : t.added = s.added := hs.field Sys.added fun _ => rfl
  have hact : t.active = s.active := hs.field Sys.active fun _ => rfl
  have hn : t.nextHandle = s.nextHandle := hs.field Sys.nextHandle fun _ => rfl
  have hst : t.stopping = s.stopping := hs.field Sys.stopping fun _ => rfl
  have hf : t.stopFlag = s.stopFlag := hs.field Sys.stopFlag fun _ => rfl
  have hg : t.stopSignum = s.stopSignum := hs.field Sys.stopSignum fun _ => rfl
  simp only [Sys.service, hcalls, hb, ha, hact, hn, hst, hf, hg, hs.watching]

/-- The stop of the loop closes the service. -/
theorem Emptied.move (he : Emptied s u) (hh : Halted u t) (hw : s.watching = true) :
    GracefulStop.Move s.service t.service := by
  obtain ⟨registered, loop, mapOrder, trace, vigil, pipes, hframe⟩ := hh.frame
  have hidle := Sys.running_empty.mpr he.idle
  have hcalls : t.calls = s.calls := by
    have hu : Uncalled s u := Uncalled.same (by rw [he.frame])
    exact (IsTrans.trans _ _ _ hu hh.uncalled).calls.trans (List.append_nil _)
  have hservice : ∀ b, t.stopping = b → t.service = { s.service with
      queue := u.buffer.map ticket
      stopping := b
      flag := (.stopWait, -1)
      isOpen := false } := by
    intro b hst
    have ha : t.added = s.added := by rw [hframe, he.frame]
    have hact : t.active = s.active := by rw [hframe, he.frame]
    have hn : t.nextHandle = s.nextHandle := by rw [hframe, he.frame]
    have hb : t.buffer = u.buffer := by rw [hframe]
    have hf : t.stopFlag = .stopWait := by rw [hframe]
    have hg : t.stopSignum = -1 := by rw [hframe]
    have hw' : t.watching = false := by rw [hframe]
    simp only [Sys.service, hcalls, ha, hact, hn, hb, hst, hf, hg, hw']
  have hst : t.stopping = false := by rw [hframe]
  obtain ⟨job, hb, rfl | ⟨hgoing, flag, signum, rfl⟩⟩ := he.head
  · rw [hservice false hst]
    refine .closeLast ?_ hw hidle
    simp only [Sys.service, hb, List.map_cons, ticket]
  · rw [hservice s.stopping (hst.trans hgoing.symm)]
    refine GracefulStop.Move.close (f := (flag, signum)) ?_ hw hgoing hidle
    simp only [Sys.service, hb, List.map_cons, ticket]

/-- A step other than the start of a run. -/
structure FitStep (s t : Sys) : Prop where
  fit : Fit t
  moves : GracefulStop.Moves s.service t.service
  decided : s.watching = true → t.watching = false → s.active.keys = [] ∧
    ∃ job, s.buffer = job :: t.buffer ∧
      (job = none ∨ ∃ flag signum, job = some (.stop flag signum))
  finish : s.running = true → t.running = false → s.loopType = .default → s.watching = false
  loopType : t.loopType = s.loopType

/-- A step that leaves the loop as it is. -/
theorem Fit.still (hs : Fit s) (hl : Life t) (hm : GracefulStop.Moves s.service t.service)
    (hw : t.watching = s.watching) (hr : t.running = s.running) (ht : t.loopType = s.loopType)
    (hloop : t.stream .loop = s.stream .loop) : FitStep s t := by
  obtain ⟨s₀, new, fin, hsession⟩ := hs.session
  refine ⟨⟨hl, ⟨s₀, hsession.moves hm⟩, fun hwt => ?_⟩, hm, fun hws hwt => ?_, fun hrs hrt => ?_, ht⟩
  · rw [hr, ht, hloop]
    exact hs.quiet (hw.symm.trans hwt)
  · exact absurd ((hwt.symm.trans hw).trans hws) (by decide)
  · exact absurd ((hrt.symm.trans hr).trans hrs) (by decide)

theorem Fit.evented {fd : Int} {c : Choices} (hs : Fit s) (hl : Life t)
    (hc : Succeeds s (.event fd c)) (he : Evented (s.choose c) fd t) : FitStep s t := by
  have ho := hs.life.isolated.owns
  have ho' : (s.choose c).Owns := ho.congr rfl rfl
  cases he with
  | serves hserves _ =>
    refine hs.still hl hserves.moves ?_ ?_ ?_ (hserves.loop ho').2
    · exact congrArg (·.2.2.2.1) hserves.core
    · exact congrArg (·.2.2.1) hserves.core
    · exact congrArg (·.2.1) hserves.core
  | @jobbed u _ hw hread hjob =>
    have hcore : t.core = s.core := hjob.core.trans (hread.field Sys.core fun _ _ _ => rfl)
    refine hs.still hl (.single ?_) ?_ ?_ ?_ ?_
    · have hu : u.service = s.service := hread.service
      exact hu ▸ hjob.move
    · exact congrArg (·.2.2.2.1) hcore
    · exact congrArg (·.2.2.1) hcore
    · exact congrArg (·.2.1) hcore
    · exact hjob.loop.trans (hread.streams .loop (by simp))
  | @emptied u v _ hw hread hempty hhalted =>
    have hu : u.service = s.service := hread.service
    have hwu : u.watching = true := (hread.field Sys.watching fun _ _ _ => rfl).trans hw
    have hmove : GracefulStop.Move s.service t.service := hu ▸ hempty.move hhalted hwu
    obtain ⟨s₀, new, fin, hsession⟩ := hs.session
    obtain ⟨registered, loop, mapOrder, trace, vigil, pipes, hframe⟩ := hhalted.frame
    have hwt : t.watching = false := by rw [hframe]
    have hbt : t.buffer = v.buffer := by rw [hframe]
    have hactive : u.active = s.active := hread.field Sys.active fun _ _ _ => rfl
    have hbuffer : u.buffer = s.buffer := hread.field Sys.buffer fun _ _ _ => rfl
    have htype : v.loopType = s.loopType := by
      rw [hempty.frame]
      exact hread.field Sys.loopType fun _ _ _ => rfl
    refine ⟨⟨hl, ⟨s₀, hsession.move hmove⟩, fun hwt' => ?_⟩, .single hmove, fun _ _ => ⟨?_, ?_⟩,
      fun hrs hrt hd => ?_, ?_⟩
    · exact absurd (hwt.symm.trans hwt') (by decide)
    · exact hactive ▸ hempty.idle
    · obtain ⟨job, hb, hjob⟩ := hempty.head
      exact ⟨job, hbt ▸ hbuffer ▸ hb, hjob.imp_right And.right⟩
    · -- the loop is interrupted, the run goes on until it sees that
      have hrv : v.running = true := by
        rw [hempty.frame]
        exact (hread.field Sys.running fun _ _ _ => rfl).trans hrs
      have hrt' : t.running = true := by
        rw [hframe]
        exact (if_pos (htype.trans hd)).trans hrv
      exact absurd (hrt.symm.trans hrt') (by decide)
    · rw [hframe]
      exact htype
  | broken _ hsource hfailed _ _ _ => exact absurd hfailed (hc hsource _)

theorem Fit.interrupted {c : Choices} (hs : Fit s) (hl : Life t)
    (hi : Interrupted (s.choose c) t) : FitStep s t := by
  obtain ⟨u, hd, hend⟩ := hi.ended
  have hws : s.watching = false := by
    cases hw : s.watching with
    | false => rfl
    | true => exact absurd ((hs.quiet hw).2 hi.default) hi.unread
  have hservice : t.service = s.service := hend.service.trans hd.service
  have hwt : t.watching = false := (congrArg GracefulStop.Service.isOpen hservice).trans hws
  obtain ⟨s₀, new, fin, hsession⟩ := hs.session
  refine ⟨⟨hl, ⟨s₀, new, fin, hservice ▸ hsession⟩, fun hw => ?_⟩, hservice ▸ .refl, fun hw => ?_,
    fun _ _ _ => hws, ?_⟩
  · exact absurd (hwt.symm.trans hw) (by decide)
  · exact absurd (hws.symm.trans hw) (by decide)
  · exact (hend.field Sys.loopType fun _ => rfl).trans (hd.field Sys.loopType fun _ _ _ => rfl)

/-- The next run is only started when the one before has finished. -/
theorem Fit.finished (hs : Fit s) (hr : s.running = false) :
    s.watching = false ∧ s.stopping = false ∧ s.active = ∅ ∧ s.registered = ∅ ∧ none ∉ s.buffer := by
  have hw : s.watching = false := by
    cases hw : s.watching with
    | false => rfl
    | true => exact absurd ((hs.quiet hw).1.symm.trans hr) (by decide)
  obtain ⟨s₀, new, fin, hsession⟩ := hs.session
  obtain ⟨hstop, hidle, _⟩ := hsession.closed hw
  have hactive : s.active = ∅ := by
    refine AList.ext (List.map_eq_nil_iff.mp (Sys.running_empty.mp hidle))
  have hclean := hsession.clean fun hc => absurd (hw.symm.trans hc.1) (by decide)
  refine ⟨hw, hstop, hactive, hs.life.rest hw hactive, fun hm => ?_⟩
  exact absurd rfl (List.countP_eq_zero.mp hclean .sentinel (List.mem_map.mpr ⟨none, hm, rfl⟩))

/-- No run is going on, and nothing is left of the runs before. -/
structure Rested (s : Sys) : Prop where
  running : s.running = false
  watching : s.watching = false
  flags : s.stopping = false ∧ s.stopFlag = .stopWait
  active : s.active = ∅
  registered : s.registered = ∅
  clean : none ∉ s.buffer

theorem Fit.rested (hs : Fit s) (hr : s.running = false) : Rested s := by
  obtain ⟨hw, hst, ha, hreg, hclean⟩ := hs.finished hr
  exact ⟨hr, hw, ⟨hst, (hs.life.halted hw).2⟩, ha, hreg, hclean⟩

theorem Fit.step {l : Label} (hs : Fit s) (hc : Succeeds s l) (hl : ∀ type c, l ≠ .run type c)
    (hstep : Step s l t) : FitStep s t := by
  obtain ⟨he, ht⟩ := hstep
  have hp : PreviousFinished s l := by
    cases l with
    | run type c => exact absurd rfl (hl type c)
    | _ => trivial
  have hlife : Life t := by
    have := life_step hs.life he hp
    rwa [ht] at this
  cases l with
  | exec args hasOnStop =>
    obtain ⟨t', ht', hsent⟩ := multiExec_ok hs.life.isolated args hasOnStop
    cases (show multiExec args hasOnStop s = .ok () t from ht).symm.trans ht'
    exact hs.still hlife (.single hsent.issue_move) (hsent.field Sys.watching fun _ _ _ _ => rfl)
      (hsent.field Sys.running fun _ _ _ _ => rfl) (hsent.field Sys.loopType fun _ _ _ _ => rfl) hsent.loop
  | stop flag signum =>
    obtain ⟨t', ht', hsent⟩ := sendJob_ok hs.life.isolated.owns (some (.stop flag signum))
    cases (show sendJob (some (.stop flag signum)) s = .ok () t from ht).symm.trans ht'
    exact hs.still hlife (.single hsent.stop_move) (hsent.field Sys.watching fun _ _ _ _ => rfl)
      (hsent.field Sys.running fun _ _ _ _ => rfl) (hsent.field Sys.loopType fun _ _ _ _ => rfl) hsent.loop
  | env act =>
    cases ht
    have hact := envAct_elsewhere act s
    exact hs.still hlife (hact.service ▸ .refl) (hact.field Sys.watching fun _ _ _ _ => rfl)
      (hact.field Sys.running fun _ _ _ _ => rfl) (hact.field Sys.loopType fun _ _ _ _ => rfl)
      (hact.streams hs.life.isolated.owns _ (.inl rfl))
  | run type c => exact absurd rfl (hl type c)
  | event fd c =>
    have hcases := hs.life.event_cases he
    rw [ht] at hcases
    rcases hcases with ⟨_, hev⟩ | hint
    · exact hs.evented hlife hc hev
    · exact hs.interrupted hlife hint
  | selectError => exact hc.elim

/-- The start of a run. -/
theorem Fit.start {type : LoopType} {c : Choices} (hs : Fit s) (hstep : Step s (.run type c) t) :
    Fit t ∧ t.loopType = type ∧ GracefulStop.Session t.service t.service [] [] := by
  obtain ⟨he, ht⟩ := hstep
  obtain ⟨hw, _, hactive, hreg, _⟩ := hs.finished he
  have hlife : Life t := by
    have := life_step (l := .run type c) hs.life he ⟨hactive, hreg⟩
    rwa [ht] at this
  obtain ⟨s₀, new, fin, hsession⟩ := hs.session
  rcases hs.life.run_cases (c := c) ⟨hactive, hreg⟩ with ⟨e, t', ht', _⟩ |
      ⟨t', ht', hcases⟩
  · cases ht.symm.trans ht'
  · cases ht.symm.trans ht'
    rcases hcases with hstarted | hrefused
    · have hopened : GracefulStop.Opened t.service := hsession.reopen hw hstarted.service
      refine ⟨⟨hlife, ⟨_, [], [], hopened.session⟩, fun _ => ⟨hstarted.running, fun hd => ?_⟩⟩,
        hstarted.loopType, hopened.session⟩
      exact hstarted.empty (hstarted.loopType.symm.trans hd)
    · have hservice : t.service = s.service := hrefused.service
      have hwt : t.watching = false := hrefused.watching.trans hw
      refine ⟨⟨hlife, ⟨s₀, new, fin, hservice ▸ hsession⟩, fun hwt' => ?_⟩,
        hrefused.loopType, hservice ▸ hsession.restart hw⟩
      exact absurd (hwt.symm.trans hwt') (by decide)

theorem newMulti_fit {w : World} (hnew : newMulti (boot w) = .ok () s) : Fit s := by
  have hlife := newMulti_life hnew
  rw [newMulti_ok hnew] at hlife ⊢
  refine ⟨hlife, ⟨_, [], [], .shut rfl rfl ?_ rfl List.nodup_nil fun _ hm => nomatch hm⟩, fun hw => ?_⟩
  · exact Sys.running_empty.mpr rfl
  · cases hw

theorem run_fit {w : World} {ls : List Label} (hnew : newMulti (boot w) = .ok () s)
    (hrun : Run (Under Succeeds Step) s ls t) : Fit t :=
  hrun.invariant (newMulti_fit hnew) fun a l b ha ⟨hc, hstep⟩ => by
    cases l with
    | run type c => exact (ha.start hstep).1
    | _ => exact (ha.step hc (by simp) hstep).fit

/-- The steps of one run, after its start. -/
def InRun (s : Sys) (l : Label) : Prop := Succeeds s l ∧ ∀ type c, l ≠ .run type c

def Sys.starts (s : Sys) : List Nat := s.calls.filterMap startedBy

def Sys.ends (s : Sys) : List Nat := s.calls.filterMap endedBy

/-- What holds in the state `t` of a run that was started as `s`. -/
structure StopSound (s t : Sys) : Prop where
  ended : t.watching = false → ∃ new fin, t.starts = s.starts ++ new ∧ t.ends = s.ends ++ fin ∧
    new.Nodup ∧ List.Perm fin new
  sentinels : t.added.count none ≤ s.added.count none + 1
  clean : t.watching = false → none ∉ t.buffer
  returned : t.running = false → Rested t

/-- How a run in the state `s` comes to its end in one step: a job is dispatched that finds nothing
active, and only after that the loop ends. -/
structure StopStep (s t : Sys) : Prop where
  decided : s.watching = true → t.watching = false → s.active.keys = [] ∧
    ∃ job, s.buffer = job :: t.buffer ∧
      (job = none ∨ ∃ flag signum, job = some (.stop flag signum))
  finish : s.running = true → t.running = false → s.watching = false

/-- The step is the dispatch of a stop job, and finds active processes. -/
def FindsActive (s : Sys) (flag : StopFlag) (signum : Int) : Label → Prop
  | .event fd _ => s.registered.lookup fd = some .control ∧
      (∃ rest, s.buffer = some (.stop flag signum) :: rest) ∧ s.active.keys ≠ []
  | _ => False

/-- The first stop job of a run that finds active processes is heard, the others are not. -/
structure StopHeard (flag : StopFlag) (signum : Int) (s t : Sys) : Prop where
  stopping : t.stopping = true
  first : s.stopping = false → t.stopFlag = flag ∧ t.stopSignum = signum
  later : s.stopping = true → t.stopFlag = s.stopFlag ∧ t.stopSignum = s.stopSignum

/-- What the rest of a run makes of a state `s` in which a stop job has found active processes. -/
structure StopWound (s t : Sys) : Prop where
  starts : t.starts = s.starts
  active : ∀ pid h, t.active.lookup pid = some h → s.active.lookup pid = some h
  flag : t.watching = true → t.stopping = true ∧ t.stopFlag = s.stopFlag ∧ t.stopSignum = s.stopSignum

/-- The stop protocol of a run that was started as `u`. -/
def StopProtocol (u : Sys) : Prop := ∀ ms v, Run (Under InRun Step) u ms v →
  StopSound u v ∧ ∀ l v', InRun v l → Step v l v' → StopStep v v' ∧
    ∀ flag signum, FindsActive v flag signum l → StopHeard flag signum v v' ∧
      ∀ ms' w, Run (Under InRun Step) v' ms' w → StopWound v' w

theorem Fit.segment {ms : List Label} (hs : Fit s)
    (hopen : GracefulStop.Session s.service s.service [] []) (hseg : Run (Under InRun Step) s ms t) :
    Fit t ∧ t.loopType = s.loopType ∧
      ∃ new fin, GracefulStop.Session s.service t.service new fin := by
  have hmoves : Fit t ∧ t.loopType = s.loopType ∧ GracefulStop.Moves s.service t.service := by
    induction hseg with
    | nil => exact ⟨hs, rfl, .refl⟩
    | snoc _ hstep ih =>
      obtain ⟨hfit, htype, hmoves⟩ := ih
      obtain ⟨⟨hc, hl⟩, hstep⟩ := hstep
      have hnext := hfit.step hc hl hstep
      exact ⟨hnext.fit, hnext.loopType.trans htype, hmoves.trans hnext.moves⟩
  exact ⟨hmoves.1, hmoves.2.1, hopen.moves hmoves.2.2⟩

theorem Fit.stopSound (hs : Fit t) {new fin : List Nat}
    (hsession : GracefulStop.Session s.service t.service new fin) : StopSound s t := by
  refine ⟨fun hw => ?_, ?_, fun hw hm => ?_, hs.rested⟩
  · obtain ⟨hnodup, hperm⟩ := hsession.finished hw
    exact ⟨new, fin, hsession.started, hsession.ended, hnodup, hperm⟩
  · rcases Bool.eq_false_or_eq_true t.watching with hw | hw
    · have hsent : t.added.count none = s.added.count none +
          t.service.queue.countP GracefulStop.Ticket.isSentinel := hsession.sentinels hw
      by_cases hp : t.stopping = true ∧ t.service.running = ∅
      · have := hsession.pending hw hp.1 hp.2
        omega
      · have := hsession.clean fun hc => hp hc.2
        omega
    · exact (hsession.closed hw).2.2
  · have hclean := hsession.clean fun hc => absurd (hw.symm.trans hc.1) (by decide)
    exact absurd rfl (List.countP_eq_zero.mp hclean .sentinel (List.mem_map.mpr ⟨none, hm, rfl⟩))

/-- After a stop that has found active processes nothing is started until the run is over. -/
theorem Fit.wound {ms : List Label} (hs : Fit s) (hstopping : s.stopping = true)
    (hseg : Run (Under InRun Step) s ms t) : StopWound s t := by
  have hall : Fit t ∧ GracefulStop.Winding s.service t.service ∧
      ∀ pid h, t.active.lookup pid = some h → s.active.lookup pid = some h := by
    induction hseg with
    | nil => exact ⟨hs, .refl hstopping, fun _ _ => id⟩
    | @snoc t u _ l _ hstep ih =>
      obtain ⟨hfit, hwind, hactive⟩ := ih
      obtain ⟨⟨hc, hl⟩, hstep⟩ := hstep
      have hnext := hfit.step hc hl hstep
      have hrun : u.service.running ⊆ t.service.running := by
        rcases Bool.eq_false_or_eq_true t.stopping with hst | hst
        · exact (GracefulStop.Winding.moves hnext.moves (.refl hst)).running
        · exact (hnext.moves.still (hwind.ended hst)).2.2.2
      refine ⟨hnext.fit, hwind.moves hnext.moves, fun pid h hlu => ?_⟩
      obtain ⟨p, hp⟩ := hrun ⟨pid, hlu⟩
      rcases Bool.eq_false_or_eq_true t.running with hr | hr
      · rcases (hfit.life.pidStep (previousFinished_of_running hr hstep.1) hstep).hires pid h hlu with hlt | ⟨_, hnew, _⟩
        · exact hactive pid h hlt
        · exact absurd hp (hnew p)
      · rw [(hfit.finished hr).2.2.1, AList.lookup_empty] at hp
        cases hp
  obtain ⟨hfit, hwind, hactive⟩ := hall
  refine ⟨hwind.started, hactive, fun hw => ?_⟩
  have hst : t.stopping = true := by
    cases hst : t.stopping with
    | true => rfl
    | false => exact absurd ((hwind.ended hst).symm.trans hw) (by decide)
  have hflag := hwind.flag hst
  exact ⟨hst, congrArg Prod.fst hflag, congrArg Prod.snd hflag⟩

/-- A stop job that finds active processes. -/
theorem jobStop_heard {ret : EventReturn} {flag : StopFlag} {signum : Int} (hs : On s) (ho : s.Owns)
    (hk : s.active.keys ≠ []) (ht : jobStop flag signum s = .ok ret t) :
    ret = .nothing ∧ StopHeard flag signum s t := by
  unfold jobStop at ht
  rw [bind_of_ok (get_apply _)] at ht
  rcases Bool.eq_false_or_eq_true s.stopping with hst | hst
  · rw [if_pos hst] at ht
    cases ht
    exact ⟨rfl, hst, fun hf => absurd (hst.symm.trans hf) (by decide), fun _ => ⟨rfl, rfl⟩⟩
  · rw [if_neg (by rw [hst]; decide), bind_of_ok (modify_apply ..)] at ht
    have hon : On { s with stopFlag := flag, stopSignum := signum } := hs.queue ..
    rcases jobNullptrStop_cases hon (ho.congr rfl rfl) with ⟨hidle, _⟩ | ⟨_, hst', _⟩ | ⟨_, _, u, hu, htold⟩
    · exact absurd hidle hk
    · exact absurd (hst'.symm.trans hst) (by decide)
    · cases ht.symm.trans hu
      refine ⟨rfl, ?_, fun _ => ⟨?_, ?_⟩, fun ht => absurd (ht.symm.trans hst) (by decide)⟩
      · obtain ⟨pipes, trace, vigil, hframe⟩ := htold.frame
        rw [hframe]
      · exact htold.field Sys.stopFlag fun _ _ _ _ => rfl
      · exact htold.field Sys.stopSignum fun _ _ _ _ => rfl

/-- The callback of the control pipe hands the job over as it is. -/
theorem onControlReady_heard {fd : Int} {flag : StopFlag} {signum : Int} {rest : List (Option Job)}
    (hs : Sound s) (hb : s.buffer = some (.stop flag signum) :: rest) (hk : s.active.keys ≠ [])
    (hfd : fd = s.controlPipe.rd) (ht : onControlReady fd s = .ok () t) : StopHeard flag signum s t := by
  subst hfd
  obtain ⟨answer, u, hu, hd⟩ := readRetry_drained .control hs.isolated.owns 1
  have hu : readRetry s.controlPipe.rd 1 s = .ok answer u := hu
  have hbu : u.buffer = some (.stop flag signum) :: rest := (hd.field Sys.buffer fun _ _ _ => rfl).trans hb
  have hku : u.active.keys ≠ [] := by
    rw [hd.field Sys.active fun _ _ _ => rfl]
    exact hk
  unfold onControlReady at ht
  rw [bind_of_ok hu] at ht
  cases answer with
  | error e => cases ht
  | ok data =>
    obtain ⟨ret, v, hv, ht⟩ := bind_eq_ok.mp ht
    have hremove : bufferRemove u = .ok (some (.stop flag signum)) { u with buffer := rest } := by
      unfold bufferRemove
      rw [bind_of_ok (get_apply _), hbu]
      rfl
    unfold dispatchJob at hv
    rw [bind_of_ok hremove] at hv
    have hon : On { u with buffer := rest } := (hd.on hs.on).queue ..
    obtain ⟨rfl, hheard⟩ := jobStop_heard hon ((hd.owns hs.isolated.owns).congr rfl rfl) hku hv
    cases ht
    have hst : u.stopping = s.stopping := hd.field Sys.stopping fun _ _ _ => rfl
    refine ⟨hheard.stopping, fun hf => hheard.first (hst.trans hf), fun hf => ?_⟩
    obtain ⟨h₁, h₂⟩ := hheard.later (hst.trans hf)
    exact ⟨h₁.trans (hd.field Sys.stopFlag fun _ _ _ => rfl), h₂.trans (hd.field Sys.stopSignum fun _ _ _ => rfl)⟩

theorem Fit.heard {l : Label} {flag : StopFlag} {signum : Int} (hs : Fit s) (hf : FindsActive s flag signum l)
    (hstep : Step s l t) : StopHeard flag signum s t := by
  obtain ⟨he, ht⟩ := hstep
  cases l with
  | event fd c =>
    obtain ⟨hl, ⟨rest, hb⟩, hk⟩ := hf
    obtain ⟨hsound, hprog⟩ := hs.life.event_source he hl
    have hfd := hs.life.isolated.control fd hl
    have hheard := onControlReady_heard hsound hb hk hfd (hprog.symm.trans ht)
    exact ⟨hheard.stopping, hheard.first, hheard.later⟩
  | exec | stop | env | run | selectError => exact hf.elim

theorem nodup_jobs {buffer : List (Option Job)} (hs : ∀ h, buffer.count (some (.spawn h)) ≤ 1) :
    (GracefulStop.jobs (buffer.map ticket)).Nodup := by
  refine List.nodup_iff_count_le_one.mpr fun h => Nat.le_trans (Nat.le_of_eq ?_) (hs h)
  clear hs
  induction buffer with
  | nil => rfl
  | cons job buffer ih =>
    rw [List.map_cons, GracefulStop.jobs_cons, List.count_append, ih]
    cases job with
    | none => simp [ticket, GracefulStop.Ticket.job?]
    | some job =>
      cases job with
      | stop flag signum => simp [ticket, GracefulStop.Ticket.job?]
      | spawn x =>
        by_cases hx : x = h
        · subst hx
          simp [ticket, GracefulStop.Ticket.job?, Nat.add_comm]
        · simp [ticket, GracefulStop.Ticket.job?, hx]

/-- A run can be started from there, whatever came before. -/
theorem Rested.fit (hr : Rested s) (hi : Isolated s) : Fit s := by
  have hopen : s.service.isOpen = false := hr.watching
  refine ⟨⟨hi, hi.ready, .inr ⟨hr.running, .inr hr.registered⟩, fun _ _ => hr.registered, fun _ => hr.flags⟩,
    ⟨s.service, [], [], .shut hopen hr.flags.1 (Sys.running_empty.mpr (by rw [hr.active]; rfl)) ?_
      (nodup_jobs hi.once) fun h hm => ?_⟩, fun hw => absurd (hr.watching.symm.trans hw) (by decide)⟩
  · refine List.countP_eq_zero.mpr fun x hx => ?_
    obtain ⟨job, hjob, rfl⟩ := List.mem_map.mp hx
    rcases job with _ | ⟨h⟩ | ⟨flag, signum⟩
    · exact absurd hjob hr.clean
    · simp [ticket, GracefulStop.Ticket.isSentinel]
    · simp [ticket, GracefulStop.Ticket.isSentinel]
  · obtain ⟨x, hx, hj⟩ := List.mem_filterMap.mp hm
    obtain ⟨job, hjob, rfl⟩ := List.mem_map.mp hx
    rcases job with _ | ⟨x⟩ | ⟨flag, signum⟩
    · cases hj
    · cases hj
      exact (hi.fresh h hjob).1
    · cases hj

/-- The stop protocol, over every DEFAULT run in any life that is started where nothing is left of the runs
before, and in which `select` and the reads of the SIGCHLD pipe succeed. -/
theorem stop_protocol {w : World} {ls : List Label} {c : Choices} (hnew : newMulti (boot w) = .ok () s)
    (hlife : Run Step s ls t) (hrest : Rested t) (hstart : Step t (.run .default c) u) : StopProtocol u := by
  intro ms v hseg
  have hfit := hrest.fit (run_isolated hnew hlife)
  obtain ⟨hfitu, htype, hopened⟩ := hfit.start hstart
  obtain ⟨hfitv, htype', new, fin, hsession⟩ := hfitu.segment hopened hseg
  refine ⟨hfitv.stopSound hsession, fun l v' hin hstep => ?_⟩
  have hnext := hfitv.step hin.1 hin.2 hstep
  refine ⟨⟨hnext.decided, fun hr hr' => hnext.finish hr hr' (htype'.trans htype)⟩, fun flag signum hfinds => ?_⟩
  have hheard := hfitv.heard hfinds hstep
  exact ⟨hheard, fun ms' w hseg' => hnext.fit.wound hheard.stopping hseg'⟩

/-- The check that a step is one of a run in which `select` and the reads of the SIGCHLD pipe succeed. -/
def inRun (s : Sys) : Label → Bool
  | .event fd c => decide (s.registered.lookup fd ≠ some .sigchld) ||
      decide (answer readSignal (s.choose c) ≠ some .stopLoop)
  | .run _ _ | .selectError => false
  | _ => true

theorem inRun_sound (s : Sys) (l : Label) (hl : inRun s l = true) : InRun s l := by
  cases l with
  | event fd c =>
    refine ⟨fun hsrc t ht => ?_, fun _ _ => Label.noConfusion⟩
    simp only [inRun, Bool.or_eq_true, decide_eq_true_eq] at hl
    rcases hl with hl | hl
    · exact hl hsrc
    · exact hl (by rw [answer, ht])
  | exec | stop | env => exact ⟨trivial, fun _ _ => Label.noConfusion⟩
  | run | selectError => cases hl

/-- A stop finds one of two processes active, kills it, and the run comes to its end. -/
theorem stop_protocol_pair : FindsActive (pairAt 14) .stopKill 9 (.event 0 {}) ∧
    StopHeard .stopKill 9 (pairAt 14) (pairAt 15) ∧ StopWound (pairAt 15) (pairAt 18) ∧
    (pairAt 18).watching = true ∧ (pairAt 18).ends = [0, 1] ∧ StopStep (pairAt 18) (pairAt 19) ∧
    (pairAt 20).running = false ∧ StopSound (pairAt 3) (pairAt 20) := by
  have hprotocol : StopProtocol (pairAt 3) := stop_protocol freshMulti_ok
    (pair_run (n := 2) (by decide +kernel))
    ⟨by decide +kernel, by decide +kernel, by decide +kernel, AList.eq_empty (by decide +kernel),
      AList.eq_empty (by decide +kernel), by decide +kernel⟩ (pair_step rfl (by decide +kernel))
  have hfinds : FindsActive (pairAt 14) .stopKill 9 (.event 0 {}) :=
    ⟨by decide +kernel, ⟨[], by decide +kernel⟩, by decide +kernel⟩
  obtain ⟨hheard, hwound⟩ := ((hprotocol _ _ (pair_segment (n := 3) (m := 14) inRun_sound (by decide)
    (by decide +kernel))).2 _ _ (inRun_sound _ _ (by decide +kernel))
    (pair_step rfl (by decide +kernel))).2 .stopKill 9 hfinds
  have hended := hprotocol _ _ (pair_segment (n := 3) (m := 18) inRun_sound (by decide) (by decide +kernel))
  have hreturned := hprotocol _ _ (pair_segment (n := 3) (m := 20) inRun_sound (by decide) (by decide +kernel))
  exact ⟨hfinds, hheard,
    hwound _ _ (pair_segment (n := 15) (m := 18) inRun_sound (by decide) (by decide +kernel)),
    by decide +kernel, by decide +kernel,
    (hended.2 _ _ (inRun_sound _ _ (by decide +kernel)) (pair_step rfl (by decide +kernel))).1,
    by decide +kernel, hreturned.1⟩

/-- A run in which `select` fails leaves its descriptors registered; one of them gets another number in the
next run, which takes out only its own. -/
def leftLife : List Label := [.run .default {}, .selectError, .env (.openFile 2)]

def leftMulti : Sys := freshMulti.after leftLife

def leftRun : List Label := [.stop .stopWait (-1), .event 0 {}, .event 3 {}]

/-- In the second run nothing fails, and it returns with a registration that is left. -/
theorem stop_protocol_fails : ¬∀ (w : World) (s t u : Sys) (ls : List Label) (c : Choices),
    newMulti (boot w) = .ok () s → Run Step s ls t → Step t (.run .default c) u → StopProtocol u := by
  intro hall
  have hprotocol : StopProtocol (leftMulti.after [.run .default {}]) := hall {} freshMulti leftMulti _
    leftLife {} freshMulti_ok (run_through _ (by decide +kernel)) (step_after (by decide +kernel))
  have hseg := run_after _ inRun_sound leftRun (s := leftMulti.after [.run .default {}]) (by decide +kernel)
  have hregistered := ((hprotocol _ _ hseg).1.returned (by decide +kernel)).registered
  exact absurd (congrArg AList.keys hregistered) (by decide +kernel)

end Pexec
