import Pexec.LoopSteps

namespace Pexec

open Effect Runs

variable {h : Nat} {pid : Int} {s t u : Sys}

/-- Between two steps in the life of a `pexec_multi`: in the middle of a run, or before the next. -/
structure Life (s : Sys) : Prop where
  isolated : Isolated s
  control : s.controlPipe.rd ≠ -1
  mode : On s ∧ (s.loopType = .default → s.running = true) ∨
    s.running = false ∧ (s.loopType = .default ∨ s.registered = ∅)
  rest : s.watching = false → s.active = ∅ → s.registered = ∅
  halted : s.watching = false → s.stopping = false ∧ s.stopFlag = .stopWait

/-- A run is started when the one before it has left nothing active and nothing registered. -/
def PreviousFinished (s : Sys) : Label → Prop
  | .run _ _ => s.active = ∅ ∧ s.registered = ∅
  | _ => True

theorem On.rest (hs : On s) (hw : s.watching = false) (ha : s.active = ∅) : s.registered = ∅ := by
  refine AList.ext (List.eq_nil_iff_forall_not_mem.mpr fun e he => ?_)
  have hl : s.registered.lookup e.1 = some e.2 := AList.mem_lookup_iff.mpr he
  obtain ⟨hexp, _⟩ := (hs.desk.keys _ _).mp hl
  cases hsrc : e.2 with
  | sigchld | control =>
    rw [hsrc] at hexp
    exact absurd (hw.symm.trans hexp) (by decide)
  | readClose x | readStdout x | readStderr x =>
    rw [hsrc] at hexp
    obtain ⟨p, hp⟩ := hexp
    rw [ha, AList.lookup_empty] at hp
    cases hp

/-- A life in the middle of a run. -/
theorem Sound.life (hs : Sound s) (hc : s.controlPipe.rd ≠ -1)
    (hr : s.loopType = .default → s.running = true)
    (hh : s.watching = false → s.stopping = false ∧ s.stopFlag = .stopWait) : Life s :=
  ⟨hs.isolated, hc, .inl ⟨hs.on, hr⟩, hs.on.rest, hh⟩

theorem Life.running_on (hs : Life s) (hr : s.running = true) : On s := by
  rcases hs.mode with ⟨hon, _⟩ | ⟨hidle, _⟩
  · exact hon
  · exact absurd (hr.symm.trans hidle) (by decide)

/-- What the loop calls is called in the middle of a run. -/
theorem Life.due (hs : Life s) {fd : Int} {c : Choices} (he : (Label.event fd c).enabled s) :
    On s ∧ s.Due fd ∧ (s.loopType = .default → s.running = true) := by
  unfold Label.enabled at he
  unfold Sys.Due
  cases ht : s.loopType with
  | default =>
    rw [ht] at he
    exact ⟨hs.running_on he.1, he.2, fun _ => he.1⟩
  | external =>
    rw [ht] at he
    rcases hs.mode with ⟨hon, _⟩ | ⟨_, hdef | hreg⟩
    · exact ⟨hon, he, fun hd => nomatch hd⟩
    · exact absurd (ht.symm.trans hdef) (by decide)
    · rw [hreg] at he
      exact absurd he (AList.notMem_empty _)

theorem Sound.choose (hs : Sound s) (c : Choices) : Sound (s.choose c) := by
  refine ⟨hs.isolated.same (Carries.same rfl rfl rfl rfl) rfl rfl rfl rfl rfl rfl rfl rfl, ?_⟩
  exact hs.on.congr rfl rfl rfl rfl rfl rfl rfl (fun hm => hm.congr rfl rfl rfl rfl) fun _ _ hc => hc

theorem Life.ended (hs : Life s) (hd : Drained .loop s u) (he : Ended u t) (hi : Isolated t)
    (ht : s.loopType = .default) : Life t := by
  have hfield : ∀ {α : Type} (f : Sys → α), (∀ v, f v.offEnd = f v) →
      (∀ v readFaults pipes, f { v with readFaults, pipes } = f v) → f t = f s :=
    fun f hf hf' => (he.field f hf).trans (hd.field f hf')
  have hw : t.watching = s.watching := hfield Sys.watching (fun _ => rfl) fun _ _ _ => rfl
  have ha : t.active = s.active := hfield Sys.active (fun _ => rfl) fun _ _ _ => rfl
  have hr : t.registered = s.registered := hfield Sys.registered (fun _ => rfl) fun _ _ _ => rfl
  have hst : t.stopping = s.stopping := hfield Sys.stopping (fun _ => rfl) fun _ _ _ => rfl
  have hf : t.stopFlag = s.stopFlag := hfield Sys.stopFlag (fun _ => rfl) fun _ _ _ => rfl
  have hc : t.controlPipe = s.controlPipe := hfield Sys.controlPipe (fun _ => rfl) fun _ _ _ => rfl
  have htype : t.loopType = s.loopType := hfield Sys.loopType (fun _ => rfl) fun _ _ _ => rfl
  refine ⟨hi, hc ▸ hs.control, .inr ⟨he.running, .inl (htype.trans ht)⟩, ?_, ?_⟩
  · rw [hw, ha, hr]
    exact hs.rest
  · rw [hw, hst, hf]
    exact hs.halted

theorem Halted.life (hh : Halted s t) (hi : Isolated t) (hc : s.controlPipe.rd ≠ -1)
    (hr : s.loopType = .default → s.running = true) : Life t := by
  obtain ⟨registered, loop, mapOrder, trace, vigil, pipes, hframe⟩ := hh.frame
  have htype : t.loopType = s.loopType := by rw [hframe]
  refine Sound.life ⟨hi, hh.on⟩ ?_ (fun hd => ?_) fun _ => ?_
  · rw [hframe]
    exact hc
  · have hd' := htype.symm.trans hd
    rw [hframe]
    exact (if_pos hd').trans (hr hd')
  · rw [hframe]
    exact ⟨rfl, rfl⟩

theorem Life.evented {fd : Int} (hs : Life s) (hr : s.loopType = .default → s.running = true)
    (hon : On t) (hi : Isolated t) (he : Evented s fd t) : Life t := by
  have hcore : ∀ {u : Sys}, u.core = s.core → u.controlPipe.rd ≠ -1 ∧
      (u.loopType = .default → u.running = true) := by
    intro u hu
    have hc : u.controlPipe = s.controlPipe := congrArg (·.1) hu
    have ht : u.loopType = s.loopType := congrArg (·.2.1) hu
    have hrun : u.running = s.running := congrArg (·.2.2.1) hu
    exact ⟨hc ▸ hs.control, fun hd => hrun.trans (hr (ht.symm.trans hd))⟩
  cases he with
  | serves hserves _ =>
    obtain ⟨hc, hrun⟩ := hcore hserves.core
    refine Sound.life ⟨hi, hon⟩ hc hrun fun hw => ?_
    have hws : s.watching = false := (congrArg (·.2.2.2.1) hserves.core).symm.trans hw
    obtain ⟨_, hstopping, hflag, _⟩ := hserves.moves.still hws
    obtain ⟨hst, hf⟩ := hs.halted hws
    exact ⟨hstopping.trans hst, (congrArg Prod.fst hflag).trans hf⟩
  | @jobbed u _ hw hread hjob =>
    have hcore' : t.core = s.core := hjob.core.trans (hread.field Sys.core fun _ _ _ => rfl)
    obtain ⟨hc, hrun⟩ := hcore hcore'
    refine Sound.life ⟨hi, hon⟩ hc hrun fun hwt => ?_
    have hwt' : t.watching = true := (congrArg (·.2.2.2.1) hcore').trans hw
    exact absurd (hwt.symm.trans hwt') (by decide)
  | @emptied u v _ hw hread hempty hhalted =>
    have hv : v.core = s.core := by
      have hu : u.core = s.core := hread.field Sys.core fun _ _ _ => rfl
      rw [hempty.frame]
      exact hu
    obtain ⟨hc, hrun⟩ := hcore hv
    exact hhalted.life hi hc hrun
  | broken hw _ _ hserves _ hhalted =>
    obtain ⟨hc, hrun⟩ := hcore hserves.core
    exact hhalted.life hi hc hrun

theorem Started.life {type : LoopType} (hs : Started type s t) (hi : Isolated t)
    (hc : s.controlPipe.rd ≠ -1) : Life t := by
  have hctrl : t.controlPipe = s.controlPipe := hs.field Sys.controlPipe fun _ => rfl
  exact Sound.life ⟨hi, hs.on⟩ (hctrl ▸ hc) (fun _ => hs.running) fun hw =>
    absurd (hw.symm.trans hs.watching) (by decide)

theorem Refused.life {type : LoopType} (hr : Refused type s t) (hs : Life s) (hi : Isolated t)
    (hreg : s.registered = ∅) (hidle : s.running = false) : Life t := by
  have hctrl : t.controlPipe = s.controlPipe := hr.field Sys.controlPipe fun _ => rfl
  have hst : t.stopping = s.stopping := hr.field Sys.stopping fun _ => rfl
  have hf : t.stopFlag = s.stopFlag := hr.field Sys.stopFlag fun _ => rfl
  have hempty : t.registered = ∅ := hr.registered.trans hreg
  refine ⟨hi, hctrl ▸ hs.control, .inr ⟨hr.running.trans hidle, .inr hempty⟩, fun _ _ => hempty, ?_⟩
  rw [hr.watching, hst, hf]
  exact hs.halted

/-- What is in order stays in order when others act, and when a job is sent. -/
theorem Life.beside (hs : Life s) (hi : Isolated t) (hon : On s → On t)
    (hc : t.controlPipe = s.controlPipe) (ht : t.loopType = s.loopType) (hr : t.running = s.running)
    (hreg : t.registered = s.registered) (ha : t.active = s.active) (hw : t.watching = s.watching)
    (hst : t.stopping = s.stopping) (hf : t.stopFlag = s.stopFlag) : Life t := by
  refine ⟨hi, hc ▸ hs.control, ?_, ?_, ?_⟩
  · rw [ht, hr, hreg]
    exact hs.mode.imp_left (And.imp_left hon)
  · rw [hw, ha, hreg]
    exact hs.rest
  · rw [hw, hst, hf]
    exact hs.halted

theorem Life.choose (hs : Life s) (c : Choices) : Life (s.choose c) :=
  hs.beside (hs.isolated.same (Carries.same rfl rfl rfl rfl) rfl rfl rfl rfl rfl rfl rfl rfl)
    (fun hon => (Sound.choose ⟨hs.isolated, hon⟩ c).on) rfl rfl rfl rfl rfl rfl rfl rfl

theorem Life.sent {job : Option Job} (hs : Life s) (hi : Isolated t) (hsent : Sent job s t) : Life t :=
  hs.beside hi hsent.on (hsent.field Sys.controlPipe fun _ _ _ _ => rfl)
    (hsent.field Sys.loopType fun _ _ _ _ => rfl) (hsent.field Sys.running fun _ _ _ _ => rfl)
    (hsent.field Sys.registered fun _ _ _ _ => rfl) (hsent.field Sys.active fun _ _ _ _ => rfl)
    (hsent.field Sys.watching fun _ _ _ _ => rfl) (hsent.field Sys.stopping fun _ _ _ _ => rfl)
    (hsent.field Sys.stopFlag fun _ _ _ _ => rfl)

theorem Life.elsewhere (hs : Life s) (hi : Isolated t) (he : Elsewhere s t) : Life t :=
  hs.beside hi he.on (he.field Sys.controlPipe fun _ _ _ _ => rfl)
    (he.field Sys.loopType fun _ _ _ _ => rfl) (he.field Sys.running fun _ _ _ _ => rfl)
    (he.field Sys.registered fun _ _ _ _ => rfl) (he.field Sys.active fun _ _ _ _ => rfl)
    (he.field Sys.watching fun _ _ _ _ => rfl) (he.field Sys.stopping fun _ _ _ _ => rfl)
    (he.field Sys.stopFlag fun _ _ _ _ => rfl)

/-- The step of an event, from the state in which it is made ready. -/
theorem Life.event_cases {fd : Int} {c : Choices} (hs : Life s) (he : (Label.event fd c).enabled s) :
    Outcome (fun _ t => On t ∧ Evented (s.choose c) fd t ∨ Interrupted (s.choose c) t)
      (fun e _ => e.Harmless) ((Label.event fd c).prog s) := by
  obtain ⟨hon, hdue, _⟩ := hs.due he
  exact dispatch_cases (Sound.choose ⟨hs.isolated, hon⟩ c) hdue

/-- A call of the loop for a descriptor in `registered_fd_` is that of the callback there. -/
theorem Life.event_source {fd : Int} {c : Choices} {src : Source} (hs : Life s)
    (he : (Label.event fd c).enabled s) (hl : s.registered.lookup fd = some src) :
    Sound (s.choose c) ∧ (Label.event fd c).prog s = runSource fd src (s.choose c) := by
  obtain ⟨hon, hdue, _⟩ := hs.due he
  have hsound := Sound.choose ⟨hs.isolated, hon⟩ c
  refine ⟨hsound, ?_⟩
  rcases dispatch_split hsound hdue with ⟨_, hact⟩ | ⟨hd, hfd, _⟩
  · refine hact.trans ?_
    unfold doAction
    rw [bind_of_ok (get_apply _), show (s.choose c).registered.lookup fd = some src from hl]
  · rcases hon.desk.mirrored with ⟨hx, _⟩ | ⟨_, _, e, hloop, hw⟩
    · exact absurd (hx.symm.trans hd) (by decide)
    · have hown : fd = e.controlPipe.rd := by
        rw [hfd]
        simp only [Sys.array, Sys.choose, hloop]
        rfl
      exact absurd (AList.lookup_isSome.mp (by rw [hl]; rfl)) (hown ▸ hw.own)

/-- The step that starts a run. -/
theorem Life.run_cases {type : LoopType} {c : Choices} (hs : Life s)
    (hp : PreviousFinished s (.run type c)) :
    (∃ e t, (Label.run type c).prog s = .error e t ∧ e.Harmless) ∨
      ∃ t, (Label.run type c).prog s = .ok () t ∧
        (Started type (s.choose c) t ∨ Refused type (s.choose c) t) :=
  startRun_cases type (hs.choose c).isolated hs.control hp.1 hp.2

theorem life_step {l : Label} (hs : Life s) (he : l.enabled s) (hp : PreviousFinished s l) :
    Outcome (fun _ t => Life t) (fun e _ => e.Harmless) (l.prog s) := by
  have hiso : ∀ {t}, l.prog s = .ok () t → Isolated t := fun ht => (label_isolated l).ok hs.isolated ht
  cases l with
  | exec args hasOnStop =>
    obtain ⟨t, ht, hsent⟩ := multiExec_ok hs.isolated args hasOnStop
    have hi := hiso ht
    have hon : On s → On t := fun hon => hsent.on (Sound.issue_on ⟨hs.isolated, hon⟩ args hasOnStop)
    show Outcome _ _ (multiExec args hasOnStop s)
    rw [ht]
    exact hs.beside hi hon (hsent.field Sys.controlPipe fun _ _ _ _ => rfl)
      (hsent.field Sys.loopType fun _ _ _ _ => rfl) (hsent.field Sys.running fun _ _ _ _ => rfl)
      (hsent.field Sys.registered fun _ _ _ _ => rfl) (hsent.field Sys.active fun _ _ _ _ => rfl)
      (hsent.field Sys.watching fun _ _ _ _ => rfl) (hsent.field Sys.stopping fun _ _ _ _ => rfl)
      (hsent.field Sys.stopFlag fun _ _ _ _ => rfl)
  | stop flag signum =>
    obtain ⟨t, ht, hsent⟩ := sendJob_ok hs.isolated.owns (some (.stop flag signum))
    have hi := hiso ht
    show Outcome _ _ (sendJob (some (.stop flag signum)) s)
    rw [ht]
    exact hs.sent hi hsent
  | env act => exact hs.elsewhere (envAct_isolated act hs.isolated) (envAct_elsewhere act s)
  | run type c =>
    rcases hs.run_cases hp with ⟨e, t, ht, herr⟩ | ⟨t, ht, hstart⟩
    · rw [ht]
      exact herr
    · have hi := hiso ht
      rw [ht]
      rcases hstart with hstart | hrefused
      · exact hstart.life hi hs.control
      · exact hrefused.life (hs.choose c) hi hp.2 he
  | event fd c =>
    obtain ⟨_, _, hrun⟩ := hs.due he
    have hcases := hs.event_cases he
    cases hx : (Label.event fd c).prog s with
    | error e t =>
      rw [hx] at hcases
      exact hcases
    | ok a t =>
      rw [hx] at hcases
      rcases hcases with ⟨hon, hev⟩ | hint
      · exact (hs.choose c).evented hrun hon (hiso hx) hev
      · obtain ⟨u, hd, hend⟩ := hint.ended
        exact (hs.choose c).ended hd hend (hiso hx) hint.default
  | selectError =>
    obtain ⟨t, ht, hend⟩ := selectFails_ok s
    have hi := hiso ht
    show Outcome _ _ (selectFails s)
    rw [ht]
    exact hs.ended (.refl .loop s) hend hi he.2

/-- The object as its constructor leaves it. -/
theorem newMulti_life {w : World} (hnew : newMulti (boot w) = .ok () s) : Life s := by
  have hiso := newMulti_isolated hnew
  rw [newMulti_ok hnew] at hiso ⊢
  exact ⟨hiso, hiso.ready, .inr ⟨rfl, .inl rfl⟩, fun _ _ => rfl, fun _ => ⟨rfl, rfl⟩⟩

/-- In every run. -/
theorem run_life {w : World} {ls : List Label} (hnew : newMulti (boot w) = .ok () s)
    (hrun : Run (Under PreviousFinished Step) s ls t) : Life t :=
  hrun.invariant (newMulti_life hnew) fun a l b ha ⟨hp, he, hb⟩ => by
    have := life_step ha he hp
    rwa [hb] at this

/-- A check for `PreviousFinished`. -/
def finished (s : Sys) : Label → Bool
  | .run _ _ => s.active.keys.isEmpty && s.registered.keys.isEmpty
  | _ => true

theorem AList.eq_empty {β : Type} {m : AList (fun _ : Int => β)} (h : m.keys.isEmpty = true) : m = ∅ := by
  refine AList.ext (List.eq_nil_of_length_eq_zero ?_)
  rw [← List.length_map (f := Sigma.fst)]
  exact List.length_eq_zero_iff.mpr (List.isEmpty_iff.mp h)

theorem finished_sound (s : Sys) (l : Label) (h : finished s l = true) : PreviousFinished s l := by
  cases l with
  | run type c =>
    obtain ⟨ha, hr⟩ := Bool.and_eq_true _ _ ▸ h
    exact ⟨AList.eq_empty ha, AList.eq_empty hr⟩
  | exec | stop | env | event | selectError => trivial

end Pexec
