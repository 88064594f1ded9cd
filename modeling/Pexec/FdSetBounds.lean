import Pexec.HandlerLife

namespace Pexec

open Effect Runs

variable {s t : Sys}

/-- `FD_SETSIZE` -/
def fdSetSize : Int := 1024

/-- The arrays whose read ends a DEFAULT run gives to `select`. -/
def Slot.Selected : Slot → Prop
  | .control | .sigchld | .loop | .stdout _ | .stderr _ | .watch _ => True
  | .blocking | .ioLoop | .stdin _ => False

theorem Source.slot_selected (src : Source) : src.slot.Selected := by
  cases src <;> trivial

/-- The read ends that `pipe2` hands out in the step fit into an `fd_set`, as far as they are for
pipes that the loop is to watch. -/
def ReadEndsFit (s : Sys) (l : Label) : Prop :=
  ∀ slot : Slot, slot.Selected → ((final l.prog s).array slot).rd ≠ (s.array slot).rd →
    ((final l.prog s).array slot).rd < fdSetSize

/-- What the bound asks of a step. -/
structure FdSetRun (s : Sys) (l : Label) : Prop where
  finished : PreviousFinished s l
  relieved : Relieved s l
  fit : ReadEndsFit s l

/-- What a run has from its start: its type, the signal pipe and the pipe of its loop. -/
def Sys.runPipes (s : Sys) : LoopType × PipeFds × Int :=
  (s.loopType, s.sigchldPipe, (s.array .loop).rd)

theorem Sys.loop_rd_congr (h : t.loop.map (fun e => e.controlPipe.rd) = s.loop.map fun e => e.controlPipe.rd) :
    (t.array .loop).rd = (s.array .loop).rd := by
  simp only [Sys.array]
  cases hs : s.loop <;> cases ht : t.loop <;> simp_all

theorem Sys.runPipes_core (h : t.core = s.core) : t.runPipes = s.runPipes := by
  have htype : t.loopType = s.loopType := congrArg (·.2.1) h
  have hpipe : t.sigchldPipe = s.sigchldPipe := congrArg (·.2.2.2.2.2.1) h
  have hloop := Sys.loop_rd_congr (congrArg (·.2.2.2.2.2.2) h)
  rw [Sys.runPipes, Sys.runPipes, htype, hpipe, hloop]

theorem Halted.runPipes (hh : Halted s t) : t.runPipes = s.runPipes := by
  obtain ⟨registered, loop, mapOrder, trace, vigil, pipes, hframe⟩ := hh.frame
  have htype : t.loopType = s.loopType := by rw [hframe]
  have hpipe : t.sigchldPipe = s.sigchldPipe := by rw [hframe]
  have hloop : t.array .loop = s.array .loop := congrArg (Option.getD · ({} : PipeFds)) hh.control
  rw [Sys.runPipes, Sys.runPipes, htype, hpipe, hloop]

theorem Evented.runPipes {fd : Int} (he : Evented s fd t) : t.runPipes = s.runPipes := by
  cases he with
  | serves hserves _ => exact Sys.runPipes_core hserves.core
  | jobbed _ hread hjob =>
    exact (Sys.runPipes_core hjob.core).trans (hread.field Sys.runPipes fun _ _ _ => rfl)
  | @emptied u v _ _ hread hempty hhalted =>
    have hv : v.runPipes = u.runPipes := by
      rw [hempty.frame]
      rfl
    exact hhalted.runPipes.trans (hv.trans (hread.field Sys.runPipes fun _ _ _ => rfl))
  | broken _ _ _ hserves _ hhalted => exact hhalted.runPipes.trans (Sys.runPipes_core hserves.core)

/-- A run that goes on has the pipes it had before. -/
theorem Life.going {l : Label} (hs : Life s) (hl : ∀ type c, l ≠ .run type c) (hstep : Step s l t)
    (hr : t.running = true) : t.runPipes = s.runPipes ∧ s.running = true := by
  cases l with
  | exec args hasOnStop =>
    obtain ⟨t', ht', hsent⟩ := multiExec_ok hs.isolated args hasOnStop
    cases (show multiExec args hasOnStop s = .ok () t from hstep.2).symm.trans ht'
    have hrunning : t.running = s.running := hsent.field Sys.running fun _ _ _ _ => rfl
    exact ⟨hsent.field Sys.runPipes fun _ _ _ _ => rfl, hrunning ▸ hr⟩
  | stop flag signum =>
    obtain ⟨t', ht', hsent⟩ := sendJob_ok hs.isolated.owns (some (.stop flag signum))
    cases (show sendJob (some (.stop flag signum)) s = .ok () t from hstep.2).symm.trans ht'
    have hrunning : t.running = s.running := hsent.field Sys.running fun _ _ _ _ => rfl
    exact ⟨hsent.field Sys.runPipes fun _ _ _ _ => rfl, hrunning ▸ hr⟩
  | env act =>
    cases hstep.2
    have hel := envAct_elsewhere act s
    have hrunning : (act.apply s).running = s.running := hel.field Sys.running fun _ _ _ _ => rfl
    exact ⟨hel.field Sys.runPipes fun _ _ _ _ => rfl, hrunning ▸ hr⟩
  | run type c => exact absurd rfl (hl type c)
  | event fd c =>
    have hcases := hs.event_cases hstep.1
    rw [hstep.2] at hcases
    rcases hcases with ⟨_, hev⟩ | hint
    · exact ⟨hev.runPipes, hev.running_before hr⟩
    · obtain ⟨v, _, hended⟩ := hint.ended
      exact absurd (hr.symm.trans hended.running) (by decide)
  | selectError =>
    obtain ⟨t', ht', hended⟩ := selectFails_ok s
    cases (show selectFails s = .ok () t from hstep.2).symm.trans ht'
    exact absurd (hr.symm.trans hended.running) (by decide)

/-- A DEFAULT run has a loop of its own. -/
theorem startRun_loop (hiso : Isolated s) (ht : startRun .default s = .ok () t) :
    (t.array .loop).rd ≠ -1 := by
  rcases runPrelude_cases .default hiso with ⟨u, hu⟩ | ⟨u, hu, hready⟩
  · cases (startRun_of_error hu).symm.trans ht
  rw [startRun_of_prelude hu] at ht
  obtain ⟨b, v, hv, hret⟩ := bind_eq_ok.mp ht
  cases hret
  have hsame : ∀ {x y : Sys}, Acts 0 x y → y.array .loop = x.array .loop := fun ha =>
    congrArg (Option.getD · ({} : PipeFds)) (ha.field (fun s => s.loop.map SelectEvent.controlPipe)
      fun u => by cases hl : u.loop <;> simp [Sys.off, hl])
  obtain ⟨_, w, hw, hrw⟩ := replaceSigchld_rehandled u
  have hloop : (w.array .loop).rd ≠ -1 := by
    have harr : w.array .loop = u.array .loop := hrw.field (Sys.array · .loop) fun _ => rfl
    rw [harr]
    exact (hready.loop rfl).1
  have hadd : ∀ {fd cb x y}, addReadEvent fd cb x = .ok () y → y.array .loop = x.array .loop := by
    intro fd cb x y hxy
    have hacts := (registerAdd_acts (h := 0) fd).ok ((addReadEvent_apply fd cb x).symm.trans hxy)
    have hset : y.array .loop = Sys.array { x with registered := x.registered.insert fd cb } .loop :=
      hsame hacts
    exact hset
  unfold runHandler at hv
  rw [bind_of_ok hw, bind_of_ok (get_apply _)] at hv
  cases hsig : w.sigchld with
  | none =>
    rw [hsig] at hv
    cases hv
    exact hloop
  | some handler =>
    rw [hsig] at hv
    dsimp only at hv
    by_cases herr : handler.err ≠ .noError
    · rw [if_pos herr] at hv
      obtain ⟨_, x, hx, hret⟩ := bind_eq_ok.mp hv
      cases hret
      cases hx
      exact hloop
    · rw [if_neg herr, bind_of_ok (modify_apply ..), bind_of_ok (get_apply _)] at hv
      obtain ⟨_, x, hx, hv⟩ := bind_eq_ok.mp hv
      rw [bind_of_ok (get_apply _)] at hv
      obtain ⟨_, y, hy, hv⟩ := bind_eq_ok.mp hv
      rw [bind_of_ok (modify_apply ..)] at hv
      cases hv
      show (y.array .loop).rd ≠ -1
      rw [hadd hy, hadd hx]
      exact hloop

/-- Every read end that the loop may be given fits, and a run has its pipes. -/
structure Fitting (s : Sys) : Prop where
  ends : ∀ slot : Slot, slot.Selected → (s.array slot).rd < fdSetSize
  signal : s.running = true → s.sigchldPipe.rd ≠ -1
  loop : s.running = true → s.loopType = .default → (s.array .loop).rd ≠ -1

theorem Fitting.step {l : Label} (hf : Fitting s) (hs : Life s) (hl : FdSetRun s l)
    (hstep : Step s l t) : Fitting t := by
  have hfinal : final l.prog s = t := by rw [final, hstep.2]
  have hends : ∀ slot : Slot, slot.Selected → (t.array slot).rd < fdSetSize := by
    intro slot hslot
    by_cases hsame : (t.array slot).rd = (s.array slot).rd
    · rw [hsame]
      exact hf.ends slot hslot
    · have hfit := hl.fit slot hslot
      rw [hfinal] at hfit
      exact hfit hsame
  by_cases hrun : ∃ type c, l = .run type c
  · obtain ⟨type, c, rfl⟩ := hrun
    refine ⟨hends, fun hr => ?_, fun _ hd => ?_⟩
    · rcases run_installs hs hl.relieved hstep with hin | ⟨hidle, _⟩
      · obtain ⟨p, hp, hh⟩ := hin.handler
        have hpipe : t.sigchldPipe = p := congrArg (·.1) hh
        rwa [hpipe]
      · exact absurd (hr.symm.trans hidle) (by decide)
    · rcases hs.run_cases hl.finished with ⟨e, t', ht', _⟩ | ⟨t', ht', hcases⟩
      · cases hstep.2.symm.trans ht'
      · cases hstep.2.symm.trans ht'
        have htype : t.loopType = type := hcases.elim Started.loopType Refused.loopType
        cases htype.symm.trans hd
        exact startRun_loop (hs.choose c).isolated hstep.2
  · refine ⟨hends, fun hr => ?_, fun hr hd => ?_⟩
    · obtain ⟨hsame, hbefore⟩ := hs.going (fun type c h => hrun ⟨type, c, h⟩) hstep hr
      have hpipe : t.sigchldPipe = s.sigchldPipe := congrArg (·.2.1) hsame
      rw [hpipe]
      exact hf.signal hbefore
    · obtain ⟨hsame, hbefore⟩ := hs.going (fun type c h => hrun ⟨type, c, h⟩) hstep hr
      have hrd : (t.array .loop).rd = (s.array .loop).rd := congrArg (·.2.2) hsame
      rw [hrd]
      exact hf.loop hbefore ((congrArg (·.1) hsame).symm.trans hd)

/-- What a DEFAULT run gives to `select` are the read ends of those arrays, all of them open. -/
theorem Fitting.selected (hf : Fitting s) (hs : Life s) (hr : s.running = true)
    (hd : s.loopType = .default) : ∃ e, s.loop = some e ∧ ∀ fd ∈ e.keys,
      0 ≤ fd ∧ ∃ slot : Slot, slot.Selected ∧ fd = (s.array slot).rd := by
  have hon := hs.running_on hr
  rcases hon.desk.mirrored with ⟨hext, _⟩ | ⟨_, _, e, he, hw⟩
  · cases hext.symm.trans hd
  have hloop : (s.array .loop).rd = e.controlPipe.rd := by
    simp only [Sys.array, he]
    rfl
  have hopen : ∀ slot : Slot, (s.array slot).rd ≠ -1 → 0 ≤ (s.array slot).rd := by
    intro slot hne
    obtain ⟨pipe, _, hrd, _⟩ := (hs.isolated.owns.ends slot).opened hne
    exact FdTable.target_nonneg hrd
  refine ⟨e, he, fun fd hfd => ?_⟩
  rcases hw.mem_keys.mp hfd with rfl | hreg
  · exact ⟨hloop ▸ hopen .loop (hf.loop hr hd), .loop, trivial, hloop.symm⟩
  · obtain ⟨src, hexp, hsrc⟩ := hon.mem_registered.mp hreg
    refine ⟨?_, src.slot, src.slot_selected, hsrc.symm⟩
    rw [← hsrc]
    refine hopen src.slot ?_
    cases src with
    | sigchld => exact hf.signal hr
    | control => exact hs.control
    | readClose h =>
      obtain ⟨pid, hl⟩ := hexp
      exact (hon.served pid h hl).ready (.watch h) (by simp [objectSlots])
    | readStdout h =>
      obtain ⟨pid, hl⟩ := hexp
      exact (hon.served pid h hl).ready (.stdout h) (by simp [objectSlots])
    | readStderr h =>
      obtain ⟨pid, hl⟩ := hexp
      exact (hon.served pid h hl).ready (.stderr h) (by simp [objectSlots])

/-- In every life whose read ends fit, a DEFAULT run gives nothing to `select` that does not fit
into an `fd_set`. -/
theorem fd_set_bounds {w : World} {ls : List Label} (hnew : newMulti (boot w) = .ok () s)
    (hctrl : s.controlPipe.rd < fdSetSize) (hrun : Run (Under FdSetRun Step) s ls t)
    (hd : t.loopType = .default) (hr : t.running = true) :
    ∃ e, t.loop = some e ∧ ∀ fd ∈ e.keys, 0 ≤ fd ∧ fd < fdSetSize := by
  have hstart : Fitting s := by
    rw [newMulti_ok hnew] at hctrl ⊢
    refine ⟨fun slot hslot => ?_, fun h => (by cases h), fun h => (by cases h)⟩
    cases slot with
    | control => exact hctrl
    | _ => exact (by decide : (-1 : Int) < fdSetSize)
  have hall := hrun.invariant (I := fun s => Life s ∧ Fitting s) ⟨newMulti_life hnew, hstart⟩
    fun a l b ⟨hlife, hf⟩ ⟨hl, hstep⟩ => by
      have hnext := life_step hlife hstep.1 hl.finished
      rw [hstep.2] at hnext
      exact ⟨hnext, hf.step hlife hl hstep⟩
  obtain ⟨e, he, hkeys⟩ := hall.2.selected hall.1 hr hd
  refine ⟨e, he, fun fd hfd => ?_⟩
  obtain ⟨hpos, slot, hslot, rfl⟩ := hkeys fd hfd
  exact ⟨hpos, hall.2.ends slot hslot⟩

/-- The arrays that can be selected, of the objects that have been created. -/
def Sys.selectedSlots (s : Sys) : List Slot :=
  [.control, .loop, .sigchld] ++
    (List.range s.nextHandle).flatMap fun h => [.stdout h, .stderr h, .watch h]

/-- The check of `FdSetRun`. -/
def fdSetRun (s : Sys) (l : Label) : Bool :=
  handlerRun s l && (final l.prog s).selectedSlots.all
    fun slot => decide (((final l.prog s).array slot).rd < fdSetSize)

theorem fdSetRun_sound {s : Sys} {l : Label} (hs : Isolated s) (hc : fdSetRun s l = true) : FdSetRun s l := by
  obtain ⟨hrun, hall⟩ := (Bool.and_eq_true _ _).mp hc
  have hhandler := handlerRun_sound s l hrun
  refine ⟨hhandler.finished, hhandler.relieved, fun slot hslot _ => ?_⟩
  have hunused := ((label_isolated l).final hs).unused
  have hbound : ∀ slot, slot ∈ (final l.prog s).selectedSlots →
      ((final l.prog s).array slot).rd < fdSetSize :=
    fun slot hm => of_decide_eq_true (List.all_eq_true.mp hall slot hm)
  cases slot with
  | control | loop | sigchld => exact hbound _ (by simp [Sys.selectedSlots])
  | blocking | ioLoop | stdin h => exact hslot.elim
  | stdout h | stderr h | watch h =>
    by_cases hh : h < (final l.prog s).nextHandle
    · exact hbound _ (by simp [Sys.selectedSlots, hh])
    · simp only [Sys.array, hunused h (by omega)]
      decide

/-- With two processes the loop watches nine descriptors. -/
theorem fd_set_bounds_pair : ∃ e, (pairAt 10).loop = some e ∧ e.keys.length = 9 ∧
    ∀ fd ∈ e.keys, 0 ≤ fd ∧ fd < fdSetSize := by
  have hchecked := run_after fdSetRun (C := fun s l => fdSetRun s l = true) (fun _ _ => id)
    (pairLife.take 10) (s := freshMulti) (by decide +kernel)
  have hrun : Run (Under FdSetRun Step) freshMulti (pairLife.take 10) (pairAt 10) :=
    hchecked.mono_within (newMulti_isolated freshMulti_ok)
      (fun _ l _ ha hstep => (label_isolated l).ok ha hstep.2.2)
      fun _ _ _ ha hstep => ⟨fdSetRun_sound ha hstep.1, hstep.2⟩
  obtain ⟨e, he, hbounds⟩ := fd_set_bounds freshMulti_ok (by decide +kernel) hrun (by decide +kernel)
    (by decide +kernel)
  have hkeys : (pairAt 10).loop.map (fun e => e.keys.length) = some 9 := by decide +kernel
  rw [he] at hkeys
  exact ⟨e, he, Option.some.inj hkeys, hbounds⟩

/-- A process in which all numbers below 2000 are taken. -/
def crowded : World := { fdHint := fun pipe => (2000 + 2 * pipe, 2001 + 2 * pipe) }

def crowdedMulti : Sys := final newMulti (boot crowded)

def crowdedRun : Sys := crowdedMulti.after [.run .default {}]

/-- Its loop puts 2000, 2002 and 2004 into an `fd_set`. -/
theorem crowded_fd_set : newMulti (boot crowded) = .ok () crowdedMulti ∧
    Run (Under PreviousFinished Step) crowdedMulti ([] ++ [.run .default {}]) crowdedRun ∧
    crowdedRun.loopType = .default ∧ crowdedRun.running = true ∧
    ∃ e, crowdedRun.loop = some e ∧ e.keys = [2002, 2004, 2000] ∧
      ¬∀ fd ∈ e.keys, 0 ≤ fd ∧ fd < fdSetSize := by
  have hkeys : crowdedRun.loop.map SelectEvent.keys = some [2002, 2004, 2000] := by decide +kernel
  obtain ⟨e, he, hk⟩ := Option.map_eq_some_iff.mp hkeys
  refine ⟨ok_final (by decide +kernel), .snoc .nil ⟨⟨rfl, rfl⟩, step_after (by decide +kernel)⟩,
    by decide +kernel, by decide +kernel, e, he, hk, ?_⟩
  rw [hk]
  decide

end Pexec
