import Pexec.StopProtocol

namespace Pexec

open Effect Runs

variable {h : Nat} {pid : Int} {s t u : Sys}

theorem Halted.service (hh : Halted s t) : t.service = { s.service with
    stopping := false
    flag := (.stopWait, -1)
    isOpen := false } := by
  have hcalls : t.calls = s.calls := hh.uncalled.calls.trans (List.append_nil _)
  obtain ⟨registered, loop, mapOrder, trace, vigil, pipes, hframe⟩ := hh.frame
  have hb : t.buffer = s.buffer := by rw [hframe]
  have ha : t.added = s.added := by rw [hframe]
  have hact : t.active = s.active := by rw [hframe]
  have hn : t.nextHandle = s.nextHandle := by rw [hframe]
  have hst : t.stopping = false := by rw [hframe]
  have hf : t.stopFlag = .stopWait := by rw [hframe]
  have hg : t.stopSignum = -1 := by rw [hframe]
  have hw : t.watching = false := by rw [hframe]
  simp only [Sys.service, hcalls, hb, ha, hact, hn, hst, hf, hg, hw]

section Stable

variable {P : GracefulStop.Service Nat (StopFlag × Int) → Prop} (hP : GracefulStop.Stable P)

include hP

theorem Halted.stable (hh : Halted s t) (hs : P s.service) : P t.service := by
  rw [hh.service]
  exact hP.face _ _ _ _ hs

theorem Evented.stable {fd : Int} (he : Evented s fd t) (hs : P s.service) : P t.service := by
  cases he with
  | serves hserves _ => exact hP.moves hserves.moves hs
  | jobbed _ hread hjob =>
    rw [← hread.service] at hs
    exact hP.move _ _ hjob.move hs
  | emptied hw hread hempty hhalted =>
    rw [← hread.service] at hs
    exact hP.move _ _ (hempty.move hhalted ((hread.field Sys.watching fun _ _ _ => rfl).trans hw)) hs
  | broken _ _ _ hserves _ hhalted => exact hhalted.stable hP (hP.moves hserves.moves hs)

/-- What holds of the service whatever it does holds after every step. -/
theorem Life.stable {l : Label} (hs : Life s) (hp : PreviousFinished s l) (hstep : Step s l t)
    (hservice : P s.service) : P t.service := by
  obtain ⟨he, ht⟩ := hstep
  cases l with
  | exec args hasOnStop =>
    obtain ⟨t', ht', hsent⟩ := multiExec_ok hs.isolated args hasOnStop
    cases (show multiExec args hasOnStop s = .ok () t from ht).symm.trans ht'
    exact hP.move _ _ hsent.issue_move hservice
  | stop flag signum =>
    obtain ⟨t', ht', hsent⟩ := sendJob_ok hs.isolated.owns (some (.stop flag signum))
    cases (show sendJob (some (.stop flag signum)) s = .ok () t from ht).symm.trans ht'
    exact hP.move _ _ hsent.stop_move hservice
  | env act =>
    cases ht
    exact (envAct_elsewhere act s).service ▸ hservice
  | run type c =>
    rcases hs.run_cases hp with ⟨e, t', ht', _⟩ | ⟨t', ht', hcases⟩
    · cases ht.symm.trans ht'
    · cases ht.symm.trans ht'
      have hchosen : P (s.choose c).service := hservice
      rcases hcases with hstarted | hrefused
      · rw [hstarted.service]
        exact hP.face _ _ _ _ hchosen
      · rw [hrefused.service]
        exact hchosen
  | event fd c =>
    have hchosen : P (s.choose c).service := hservice
    have hcases := hs.event_cases he
    rw [ht] at hcases
    rcases hcases with ⟨_, hev⟩ | hint
    · exact hev.stable hP hchosen
    · obtain ⟨u, hd, hend⟩ := hint.ended
      rw [hend.service, hd.service]
      exact hchosen
  | selectError =>
    obtain ⟨t', ht', hend⟩ := selectFails_ok s
    cases (show selectFails s = .ok () t from ht).symm.trans ht'
    exact hend.service ▸ hservice

theorem run_stable {ls : List Label} (hs : Life s) (hservice : P s.service)
    (hrun : Run (Under PreviousFinished Step) s ls t) : P t.service := by
  have hall := hrun.invariant (I := fun s => Life s ∧ P s.service) ⟨hs, hservice⟩
    fun a l b ⟨hlife, ha⟩ ⟨hp, hstep⟩ => by
      have hnext := life_step hlife hstep.1 hp
      rw [hstep.2] at hnext
      exact ⟨hnext, hlife.stable hP hp hstep ha⟩
  exact hall.2

end Stable

/-- No process that was started is ever lost. -/
theorem run_tracked {w : World} {ls : List Label} (hnew : newMulti (boot w) = .ok () s)
    (hrun : Run (Under PreviousFinished Step) s ls t) : t.service.Tracked := by
  refine run_stable GracefulStop.tracked_stable (newMulti_life hnew) ?_ hrun
  rw [newMulti_ok hnew]
  exact fun h hh => nomatch hh

/-- The object may be run again: nothing of the run that is over is left in it, every process that
was started has come to a terminal callback, and the next run begins as on a fresh object. -/
structure Rerunnable (s : Sys) : Prop where
  stopping : s.stopping = false
  stopFlag : s.stopFlag = .stopWait
  active : s.active = ∅
  registered : s.registered = ∅
  buffer : none ∉ s.buffer
  ended : ∀ h ∈ s.starts, h ∈ s.ends
  next : ∀ type c, Outcome (fun _ t => Life t) (fun e _ => e.Harmless) ((Label.run type c).prog s)

theorem Halted.running (hh : Halted s t) (hd : s.loopType = .default) : t.running = s.running := by
  obtain ⟨registered, loop, mapOrder, trace, vigil, pipes, hframe⟩ := hh.frame
  rw [hframe]
  exact if_pos hd

/-- A callback does not end a DEFAULT run, it may only interrupt the loop. -/
theorem Evented.running {fd : Int} (he : Evented s fd t) (hd : s.loopType = .default) :
    t.running = s.running := by
  cases he with
  | serves hserves _ => exact congrArg (·.2.2.1) hserves.core
  | jobbed _ hread hjob =>
    exact (congrArg (·.2.2.1) hjob.core).trans (hread.field Sys.running fun _ _ _ => rfl)
  | @emptied u v _ _ hread hempty hhalted =>
    have hv : v.loopType = u.loopType ∧ v.running = u.running := by
      rw [hempty.frame]
      exact ⟨rfl, rfl⟩
    have htype : u.loopType = s.loopType := hread.field Sys.loopType fun _ _ _ => rfl
    have hrunning : u.running = s.running := hread.field Sys.running fun _ _ _ => rfl
    exact (hhalted.running (hv.1.trans (htype.trans hd))).trans (hv.2.trans hrunning)
  | @broken u _ _ _ _ _ hserves _ hhalted =>
    have htype : u.loopType = s.loopType := congrArg (·.2.1) hserves.core
    exact (hhalted.running (htype.trans hd)).trans (congrArg (·.2.2.1) hserves.core)

/-- How a DEFAULT run ends. -/
theorem Life.end_cases {l : Label} (hs : Life s) (hp : PreviousFinished s l) (hstep : Step s l t)
    (hd : s.loopType = .default) (hr : s.running = true) (hend : t.running = false) :
    ∃ u v, Drained .loop u v ∧ Ended v t ∧ (u = s ∨ ∃ c, u = s.choose c) := by
  obtain ⟨he, ht⟩ := hstep
  have hsame : t.running = s.running → False := fun h =>
    absurd (hend.symm.trans (h.trans hr)) (by decide)
  cases l with
  | exec args hasOnStop =>
    obtain ⟨t', ht', hsent⟩ := multiExec_ok hs.isolated args hasOnStop
    cases (show multiExec args hasOnStop s = .ok () t from ht).symm.trans ht'
    exact (hsame (hsent.field Sys.running fun _ _ _ _ => rfl)).elim
  | stop flag signum =>
    obtain ⟨t', ht', hsent⟩ := sendJob_ok hs.isolated.owns (some (.stop flag signum))
    cases (show sendJob (some (.stop flag signum)) s = .ok () t from ht).symm.trans ht'
    exact (hsame (hsent.field Sys.running fun _ _ _ _ => rfl)).elim
  | env act =>
    cases ht
    exact (hsame ((envAct_elsewhere act s).field Sys.running fun _ _ _ _ => rfl)).elim
  | run type c => exact absurd (hr.symm.trans he) (by decide)
  | event fd c =>
    have hcases := hs.event_cases he
    rw [ht] at hcases
    rcases hcases with ⟨_, hev⟩ | hint
    · exact (hsame (hev.running hd)).elim
    · obtain ⟨v, hdr, hended⟩ := hint.ended
      exact ⟨s.choose c, v, hdr, hended, .inr ⟨c, rfl⟩⟩
  | selectError =>
    obtain ⟨t', ht', hended⟩ := selectFails_ok s
    cases (show selectFails s = .ok () t from ht).symm.trans ht'
    exact ⟨s, s, .refl .loop s, hended, .inl rfl⟩

/-- After the end of a DEFAULT run the object is what it was before, less the loop. -/
theorem Life.end_field {l : Label} (hs : Life s) (hp : PreviousFinished s l) (hstep : Step s l t)
    (hd : s.loopType = .default) (hr : s.running = true) (hend : t.running = false) :
    t.active = s.active ∧ t.registered = s.registered ∧ t.buffer = s.buffer ∧
      t.stopping = s.stopping ∧ t.stopFlag = s.stopFlag ∧ t.watching = s.watching := by
  obtain ⟨u, v, hdr, he, hu⟩ := hs.end_cases hp hstep hd hr hend
  have hfield : ∀ {α : Type} (f : Sys → α), (∀ v, f v.offEnd = f v) →
      (∀ v readFaults pipes, f { v with readFaults, pipes } = f v) →
      (∀ c, f (s.choose c) = f s) → f t = f s := by
    intro α f hf hf' hf''
    refine ((he.field f hf).trans (hdr.field f hf')).trans ?_
    rcases hu with rfl | ⟨c, rfl⟩
    · rfl
    · exact hf'' c
  exact ⟨hfield Sys.active (fun _ => rfl) (fun _ _ _ => rfl) fun _ => rfl,
    hfield Sys.registered (fun _ => rfl) (fun _ _ _ => rfl) fun _ => rfl,
    hfield Sys.buffer (fun _ => rfl) (fun _ _ _ => rfl) fun _ => rfl,
    hfield Sys.stopping (fun _ => rfl) (fun _ _ _ => rfl) fun _ => rfl,
    hfield Sys.stopFlag (fun _ => rfl) (fun _ _ _ => rfl) fun _ => rfl,
    hfield Sys.watching (fun _ => rfl) (fun _ _ _ => rfl) fun _ => rfl⟩

/-- In every life, a DEFAULT run that ends leaves the object ready for another one exactly if
`handle_stop` has been called, no process is active and the sentinel has been taken. -/
theorem rerunnable_iff {w : World} {ls : List Label} {l : Label}
    (hnew : newMulti (boot w) = .ok () s) (hrun : Run (Under PreviousFinished Step) s ls t)
    (hd : t.loopType = .default) (hr : t.running = true) (hstep : Step t l u)
    (hend : u.running = false) :
    Rerunnable u ↔ t.watching = false ∧ t.active = ∅ ∧ none ∉ t.buffer := by
  have hlife := run_life hnew hrun
  have hp : PreviousFinished t l := by
    cases l with
    | run type c => exact absurd (hr.symm.trans hstep.1) (by decide)
    | _ => trivial
  have hlife' : Life u := by
    have := life_step hlife hstep.1 hp
    rwa [hstep.2] at this
  have htracked := hlife.stable GracefulStop.tracked_stable hp hstep (run_tracked hnew hrun)
  obtain ⟨hactive, hreg, hbuffer, hst, hf, hw⟩ := hlife.end_field hp hstep hd hr hend
  constructor
  · intro hre
    refine ⟨?_, hactive ▸ hre.active, hbuffer ▸ hre.buffer⟩
    by_contra hwt
    have hwt' : t.watching = true := by simpa using hwt
    have hmem : (t.array .sigchld).rd ∈ t.registered :=
      (hlife.running_on hr).mem_registered.mpr ⟨.sigchld, hwt', rfl⟩
    rw [← hreg, hre.registered] at hmem
    exact AList.notMem_empty _ hmem
  · rintro ⟨hwt, ha, hb⟩
    obtain ⟨hstopping, hflag⟩ := hlife.halted hwt
    have ha' : u.active = ∅ := hactive.trans ha
    have hreg' : u.registered = ∅ := hreg.trans (hlife.rest hwt ha)
    refine ⟨hst.trans hstopping, hf.trans hflag, ha', hreg', hbuffer ▸ hb, fun h hh => ?_,
      fun type c => life_step hlife' hend ⟨ha', hreg'⟩⟩
    rcases htracked h hh with ⟨p, hp⟩ | he
    · rw [ha', AList.lookup_empty] at hp
      cases hp
    · exact he

/-- The process has been spawned. -/
def spawnedMulti : Sys := freshMulti.after [.exec ['a'] false, .run .default {}, .event 0 {}]

theorem spawnedMulti_run : Run (Under PreviousFinished Step) freshMulti
    ([] ++ [.exec ['a'] false] ++ [.run .default {}] ++ [.event 0 {}]) spawnedMulti := by
  have h₁ : Step freshMulti (.exec ['a'] false) (freshMulti.after [.exec ['a'] false]) :=
    ⟨trivial, rfl⟩
  have h₂ : Step (freshMulti.after [.exec ['a'] false]) (.run .default {})
      (freshMulti.after [.exec ['a'] false, .run .default {}]) := ⟨rfl, rfl⟩
  have he : Label.enabled (freshMulti.after [.exec ['a'] false, .run .default {}]) (.event 0 {}) :=
    ⟨rfl, _, rfl, by decide⟩
  have h₃ : Step (freshMulti.after [.exec ['a'] false, .run .default {}]) (.event 0 {}) spawnedMulti :=
    ⟨he, rfl⟩
  exact .snoc (.snoc (.snoc .nil ⟨trivial, h₁⟩) ⟨⟨rfl, rfl⟩, h₂⟩) ⟨trivial, h₃⟩

/-- Then `select` fails. -/
def abandonedMulti : Sys := spawnedMulti.after [.selectError]

theorem abandonedMulti_step : Step spawnedMulti .selectError abandonedMulti := ⟨⟨rfl, rfl⟩, rfl⟩

/-- The run returns with the process still active and everything still registered. -/
theorem select_failure_not_rerunnable : newMulti (boot {}) = .ok () freshMulti ∧
    Run (Under PreviousFinished Step) freshMulti
      ([] ++ [.exec ['a'] false] ++ [.run .default {}] ++ [.event 0 {}]) spawnedMulti ∧
    spawnedMulti.loopType = .default ∧ spawnedMulti.running = true ∧
    Step spawnedMulti .selectError abandonedMulti ∧ abandonedMulti.running = false ∧
    abandonedMulti.active.lookup 1 = some 0 ∧
    abandonedMulti.registered.lookup 8 = some (.readStdout 0) ∧ ¬Rerunnable abandonedMulti := by
  have hactive : abandonedMulti.active.lookup 1 = some 0 := rfl
  refine ⟨rfl, spawnedMulti_run, rfl, rfl, abandonedMulti_step, rfl, hactive, rfl, fun hre => ?_⟩
  rw [hre.active] at hactive
  cases hactive

theorem rerunnable_iff_abandoned : Rerunnable abandonedMulti ↔
    spawnedMulti.watching = false ∧ spawnedMulti.active = ∅ ∧ none ∉ spawnedMulti.buffer :=
  rerunnable_iff freshMulti_ok spawnedMulti_run rfl rfl abandonedMulti_step rfl

end Pexec
