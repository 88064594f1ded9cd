import Pexec.HandlerFrame
import Pexec.Rerunning

namespace Pexec

open Effect Runs

variable {h : Nat} {pid : Int} {s t u : Sys} {before : Disposition}

/-- None of the calls to come fails. -/
def Unfailing (faults : List (Option Errno)) : Prop := ∀ f ∈ faults, f = none

theorem Unfailing.head {faults : List (Option Errno)} (hf : Unfailing faults) :
    faults.head?.join = none := by
  cases faults with
  | nil => rfl
  | cons f faults => exact (congrArg some (hf f List.mem_cons_self) ▸ rfl : (some f).join = none)

theorem Unfailing.tail {faults : List (Option Errno)} (hf : Unfailing faults) :
    Unfailing faults.tail := fun f hm => hf f (List.mem_of_mem_tail hm)

/-- A step of `run` before it makes the handler. -/
structure Readied (s t : Sys) : Prop where
  handler : SameHandler s t
  sigchld : t.sigchld = s.sigchld
  faults : Unfailing s.faults → Unfailing t.faults

instance : IsPreorder Sys Readied where
  refl _ := ⟨rfl, rfl, id⟩
  trans _ _ _ hst htu := ⟨htu.handler.trans hst.handler, htu.sigchld.trans hst.sigchld,
    htu.faults ∘ hst.faults⟩

theorem makeLoop_readied : Moves Readied makeLoop := by
  have hpipe : Moves Readied (call (World.pipe2 · true)) := by
    intro s
    refine ⟨?_, rfl, fun hf => ?_⟩
    · show SameHandler s { s with toWorld := (s.toWorld.pipe2 true).2 }
      cases hfault : s.faults.head?.join with
      | some e =>
        rw [World.pipe2_of_fault hfault]
        rfl
      | none =>
        rw [World.pipe2_of_none hfault]
        rfl
    · show Unfailing (s.toWorld.pipe2 true).2.faults
      rw [World.pipe2_of_none hf.head]
      exact hf.tail
  have hclose : ∀ p, Moves Readied (onWorld (World.closePipe · p)) := by
    intro p s
    obtain ⟨fds, hw⟩ := s.toWorld.closePipe_frame p
    rw [onWorld_apply, hw]
    exact ⟨rfl, rfl, id⟩
  have hnew : Moves Readied (newSelectEvent LoopSource.interrupt) := by
    refine Moves.bind hpipe fun answer => ?_
    split
    · exact Moves.throw _
    · have horder : Moves Readied nextOrder := fun _ => ⟨rfl, rfl, id⟩
      exact Moves.bind horder fun _ => Moves.pure _
  refine Moves.bind hnew fun e => Moves.bind Moves.get fun s =>
    Moves.bind (Moves.modify fun _ => ⟨rfl, rfl, id⟩) fun _ => ?_
  split
  · exact hclose _
  · exact Moves.pure _

theorem runPrelude_readied {type : LoopType} (ht : runPrelude type s = .ok () t) : Readied s t := by
  cases type with
  | external =>
    cases ht
    exact ⟨rfl, rfl, id⟩
  | default =>
    have hm : makeLoop { s with loopType := .default } = .ok () t := ht
    have hr := makeLoop_readied.ok hm
    exact ⟨hr.handler, hr.sigchld, hr.faults⟩

theorem sigchldSetSignalHandler_piped (hpipe : s.faults.head?.join = none) :
    sigchldSetSignalHandler s = (do
      match ← call (World.sigaction · .sigchldSignalHandler) with
      | none =>
        onWorld fun w => { w.closePipe w.sigchldPipe with sigchldPipe := w.sigchldPipe.closed }
        return false
      | some prev =>
        modify fun s => { s with sigchldSaPrev := prev, sigchldActive := true }
        return true : Prog Bool) { s with
      faults := s.faults.tail
      fds := (s.fds.openPipe (s.fdHint s.fds.nextPipe) true).2
      pipes := Function.update s.pipes s.fds.nextPipe {}
      sigchldPipe := (s.fds.openPipe (s.fdHint s.fds.nextPipe) true).1 } := by
  unfold sigchldSetSignalHandler
  rw [bind_of_ok (call_apply ..), World.pipe2_of_none hpipe]
  rfl

theorem newSigchldHandler_cases (s : Sys) : ∃ handler t, newSigchldHandler s = .ok handler t ∧
    t.sigchld = s.sigchld ∧ t.registerFn = s.registerFn ∧ t.running = s.running ∧
    (handler = {} ∧ (∃ p, p.rd ≠ -1 ∧
      t.handler = (p, true, .sigchldSignalHandler, s.disposition, s.sigchld.isSome)) ∨
      handler.err ≠ .noError ∧ ¬Unfailing s.faults) := by
  have hfail : ∀ t, t.sigchld = s.sigchld → t.registerFn = s.registerFn → t.running = s.running →
      ¬Unfailing s.faults → sigchldSetSignalHandler s = .ok false t → ∃ handler t,
        newSigchldHandler s = .ok handler t ∧ t.sigchld = s.sigchld ∧ t.registerFn = s.registerFn ∧
        t.running = s.running ∧ (handler = {} ∧ (∃ p, p.rd ≠ -1 ∧
          t.handler = (p, true, .sigchldSignalHandler, s.disposition, s.sigchld.isSome)) ∨
          handler.err ≠ .noError ∧ ¬Unfailing s.faults) :=
    fun t h₁ h₂ h₃ hf ht => ⟨_, t, bind_of_ok ht, h₁, h₂, h₃, .inr ⟨by decide, hf⟩⟩
  cases hpipe : s.faults.head?.join with
  | some e =>
    refine hfail { s with faults := s.faults.tail } rfl rfl rfl (fun hf => ?_) ?_
    · rw [hf.head] at hpipe
      cases hpipe
    · unfold sigchldSetSignalHandler
      rw [bind_of_ok (call_apply ..), World.pipe2_of_fault hpipe]
      rfl
  | none =>
    have hrd : 0 ≤ (s.fds.openPipe (s.fdHint s.fds.nextPipe) true).1.rd := freshFd_nonneg _ _
    have hopen : (s.fds.openPipe (s.fdHint s.fds.nextPipe) true).1.rd ≠ -1 := by omega
    have hset := sigchldSetSignalHandler_piped hpipe
    rw [bind_of_ok (call_apply ..)] at hset
    cases hact : s.faults.tail.head?.join with
    | some e =>
      rw [World.sigaction_of_fault hact] at hset
      dsimp only at hset
      rw [bind_of_ok (onWorld_apply ..)] at hset
      have hf : ¬Unfailing s.faults := fun hf => by
        rw [hf.tail.head] at hact
        cases hact
      exact hfail _ (by rfl) (by rfl) (by rfl) hf (hset.trans (pure_apply ..))
    | none =>
      rw [World.sigaction_of_none hact] at hset
      exact ⟨{}, _, bind_of_ok hset, rfl, rfl, rfl, .inl ⟨rfl, _, hopen, rfl⟩⟩

theorem replaceSigchld_cases (hs : s.sigchld = none) : ∃ handler t, replaceSigchld s = .ok () t ∧
    t.sigchld = some handler ∧ t.registerFn = s.registerFn ∧ t.running = s.running ∧
    (handler = {} ∧ (∃ p, p.rd ≠ -1 ∧
      t.handler = (p, true, .sigchldSignalHandler, s.disposition, true)) ∨
      handler.err ≠ .noError ∧ ¬Unfailing s.faults) := by
  obtain ⟨handler, t, ht, hsig, hfn, hrun, hcases⟩ := newSigchldHandler_cases s
  have hset : replaceSigchld s = .ok () { t with sigchld := some handler } := by
    unfold replaceSigchld
    rw [bind_of_ok ht, bind_of_ok (get_apply _), bind_of_ok (modify_apply ..), hsig, hs]
    rfl
  refine ⟨handler, _, hset, rfl, hfn, hrun, ?_⟩
  rcases hcases with ⟨he, p, hp, hh⟩ | hfailed
  · refine .inl ⟨he, p, hp, ?_⟩
    simp only [Sys.handler, Prod.mk.injEq] at hh ⊢
    exact ⟨hh.1, hh.2.1, hh.2.2.1, hh.2.2.2.1, rfl⟩
  · exact .inr hfailed

theorem addReadEvent_handler (fd : Int) (cb : Source) : Moves SameHandler (addReadEvent fd cb) :=
  Moves.bind (modify_handler fun _ => rfl) fun _ => object_frames (h := 0) sameHandler_frames (registerAdd_acts fd)

theorem addReadEvent_user {fd : Int} {cb : Source} (hf : s.registerFn = some .user) :
    addReadEvent fd cb s = .ok () { s with
      registered := s.registered.insert fd cb
      trace := s.trace ++ [.register fd true]
      vigil := s.vigil.tell s.fds (.register fd true) } := by
  unfold addReadEvent
  rw [bind_of_ok (modify_apply ..), bind_of_ok (get_apply _), hf]
  rfl

/-- `run` without a handler left from before has set up its own. -/
structure Installed (type : LoopType) (s t : Sys) : Prop where
  running : t.running = true
  watching : t.watching = true
  handler : ∃ p, p.rd ≠ -1 ∧ t.handler = (p, true, .sigchldSignalHandler, s.disposition, true)
  given : type = .external → ∃ events control,
    t.trace = events ++ [.register t.sigchldPipe.rd true, .register control true]

/-- Where no handler is left, `run` comes to its loop or it fails to make one. -/
theorem startRun_installs {type : LoopType} (hiso : Isolated s) (hs : s.sigchld = none)
    (ht : startRun type s = .ok () t) :
    Installed type s t ∨ t.running = s.running ∧ ¬Unfailing s.faults := by
  rcases runPrelude_cases type hiso with ⟨u, hu⟩ | ⟨u, hu, hready⟩
  · cases (startRun_of_error hu).symm.trans ht
  have hr := runPrelude_readied hu
  have hdisp : u.disposition = s.disposition := congrArg (·.2.2.1) hr.handler
  rw [startRun_of_prelude hu] at ht
  obtain ⟨b, v, hv, hret⟩ := bind_eq_ok.mp ht
  cases hret
  obtain ⟨handler, w, hw, hsig, hfn, hrun, hcases⟩ := replaceSigchld_cases (hr.sigchld.trans hs)
  unfold runHandler at hv
  rw [bind_of_ok hw, bind_of_ok (get_apply _), hsig] at hv
  dsimp only at hv
  rcases hcases with ⟨rfl, p, hp, hh⟩ | ⟨herr, hf⟩
  · refine .inl ?_
    rw [if_neg (by decide), bind_of_ok (modify_apply ..), bind_of_ok (get_apply _)] at hv
    obtain ⟨_, x, hx, hv⟩ := bind_eq_ok.mp hv
    rw [bind_of_ok (get_apply _)] at hv
    obtain ⟨_, y, hy, hv⟩ := bind_eq_ok.mp hv
    rw [bind_of_ok (modify_apply ..)] at hv
    cases hv
    have hset : Sys.handler { w with sigchld := some { ({} : SigchldHandler) with callbacks := true } } =
        (p, true, .sigchldSignalHandler, s.disposition, true) := by
      simp only [Sys.handler, Prod.mk.injEq, hdisp] at hh ⊢
      exact ⟨hh.1, hh.2.1, hh.2.2.1, hh.2.2.2.1, rfl⟩
    have hxy : y.handler = (p, true, .sigchldSignalHandler, s.disposition, true) :=
      ((addReadEvent_handler _ _).ok hy).trans (((addReadEvent_handler _ _).ok hx).trans hset)
    refine ⟨rfl, rfl, ⟨p, hp, hxy⟩, fun htype => ?_⟩
    subst htype
    have hu' : u.registerFn = some .user := by
      cases hu
      rfl
    have hfw : Sys.registerFn { w with sigchld := some { ({} : SigchldHandler) with callbacks := true } } =
        some .user := hfn.trans hu'
    cases hx.symm.trans (addReadEvent_user hfw)
    cases hy.symm.trans (addReadEvent_user hfw)
    exact ⟨_, _, List.append_assoc ..⟩
  · refine .inr ⟨?_, fun hs => hf (hr.faults hs)⟩
    rw [if_pos herr] at hv
    obtain ⟨_, x, hx, hret⟩ := bind_eq_ok.mp hv
    cases hret
    cases hx
    exact hrun.trans hready.running

/-- The handler is destroyed. -/
structure Undone (s t : Sys) : Prop where
  sigchld : t.sigchld = none
  handler : t.handler = (s.sigchldPipe.closed, false, s.sigchldSaPrev, s.sigchldSaPrev, false)
  gone : ∀ fd, fd = s.sigchldPipe.rd ∨ fd = s.sigchldPipe.wr → t.fds.get fd = none

theorem destroySigchldHandler_ok (handler : SigchldHandler) (ha : s.sigchldActive = true)
    (hf : s.faults.head?.join = none) : ∃ t, destroySigchldHandler handler s = .ok () t ∧
      t.handler = (s.sigchldPipe.closed, false, s.sigchldSaPrev, s.sigchldSaPrev, s.sigchld.isSome) ∧
      t.fds = (s.toWorld.closePipe s.sigchldPipe).fds := by
  unfold destroySigchldHandler sigchldResetSignalHandler
  rw [bind_apply, bind_of_ok (get_apply _), ha, if_neg (by decide), bind_of_ok (call_apply ..),
    World.sigaction_of_none hf]
  dsimp only
  rw [bind_of_ok (onWorld_apply ..)]
  obtain ⟨fds, hw⟩ := World.closePipe_frame { s.toWorld with
    faults := s.faults.tail
    disposition := s.sigchldSaPrev } s.sigchldPipe
  have hfds := congrArg World.fds hw
  rw [World.closePipe_table] at hfds
  refine ⟨_, rfl, ?_, ?_⟩
  · simp only [hw]
    rfl
  · simp only [World.closePipe_table]

/-- Where a handler is present, what remains once the loop object is gone. -/
theorem undoHandler_ok {f : Sys → Sys} (hsome : s.sigchld.isSome = true) (ha : s.sigchldActive = true)
    (hf : Unfailing s.faults) (hlast : ∀ u, (f u).fds = u.fds ∧ (f u).sigchld = none ∧
      (f u).sigchldPipe = u.sigchldPipe ∧ (f u).sigchldActive = u.sigchldActive ∧
      (f u).disposition = u.disposition ∧ (f u).sigchldSaPrev = u.sigchldSaPrev) :
    ∃ t, (do
      match (← get).sigchld with
      | some handler => destroySigchldHandler handler
      | none => pure ()
      modify f : Prog Unit) s = .ok () t ∧ Undone s t := by
  obtain ⟨handler, hs⟩ := Option.isSome_iff_exists.mp hsome
  obtain ⟨t, ht, hh, hfds⟩ := destroySigchldHandler_ok handler ha hf.head
  obtain ⟨hl₁, hl₂, hl₃, hl₄, hl₅, hl₆⟩ := hlast t
  rw [bind_of_ok (get_apply _), hs]
  dsimp only
  rw [bind_of_ok ht]
  refine ⟨f t, rfl, hl₂, ?_, fun fd hfd => ?_⟩
  · simp only [Sys.handler, Prod.mk.injEq, hl₂, hl₃, hl₄, hl₅, hl₆] at hh ⊢
    exact ⟨hh.1, hh.2.1, hh.2.2.1, hh.2.2.2.1, rfl⟩
  · rw [hl₁, hfds, World.closePipe_get, if_pos hfd]

theorem runFinish_undoes (hsome : s.sigchld.isSome = true) (ha : s.sigchldActive = true)
    (hf : Unfailing s.faults) (ht : runFinish s = .ok () t) : Undone s t ∧ t.running = false := by
  have hclosed : ∀ fds, (do
      modify fun s => { s with loop := none }
      match (← get).sigchld with
      | some handler => destroySigchldHandler handler
      | none => pure ()
      modify fun s => { s with sigchld := none, running := false } : Prog Unit) { s with fds } = .ok () t →
      Undone s t := by
    intro fds hrun
    rw [bind_of_ok (modify_apply ..)] at hrun
    obtain ⟨t', ht', hu⟩ := undoHandler_ok (s := { s with fds, loop := none })
      (f := fun s => { s with sigchld := none, running := false }) hsome ha hf
      fun _ => ⟨rfl, rfl, rfl, rfl, rfl, rfl⟩
    cases hrun.symm.trans ht'
    exact ⟨hu.sigchld, hu.handler, hu.gone⟩
  obtain ⟨t', ht', hended⟩ := runFinish_ok s
  cases ht.symm.trans ht'
  refine ⟨?_, hended.running⟩
  unfold runFinish at ht
  rw [bind_of_ok (get_apply _)] at ht
  cases hl : s.loop with
  | none =>
    rw [hl] at ht
    exact hclosed s.fds ht
  | some e =>
    obtain ⟨fds, hw⟩ := s.toWorld.closePipe_frame e.controlPipe
    rw [hl] at ht
    dsimp only at ht
    rw [bind_of_ok (onWorld_apply ..), hw] at ht
    exact hclosed fds ht

/-- `pipe2` and `sigaction` succeed where a run sets its handler up and where it undoes it. -/
def HandlerCalls (s : Sys) : Label → Prop
  | .run _ c => Unfailing c.faults
  | .event fd c => s.loopType = .default → fd = (s.array .loop).rd → Unfailing c.faults
  | .selectError => Unfailing s.faults
  | _ => True

/-- No run is started while the object still holds a handler: an EXTERNAL run leaves one. -/
def Relieved (s : Sys) : Label → Prop
  | .run _ _ => s.sigchld = none
  | _ => True

/-- The handler of a `pexec_multi` between two steps; `before` is the disposition that was in
force before the first run. -/
structure HandlerState (before : Disposition) (s : Sys) : Prop where
  away : s.sigchld = none →
    s.sigchldActive = false ∧ s.disposition = before ∧ s.sigchldPipe.rd = -1
  present : s.sigchld.isSome = true → s.sigchldActive = true ∧
    s.disposition = .sigchldSignalHandler ∧ s.sigchldSaPrev = before ∧ s.sigchldPipe.rd ≠ -1
  running : s.running = true → s.sigchld.isSome = true

theorem SameHandler.sigchld (hh : SameHandler s t) : t.sigchld.isSome = s.sigchld.isSome :=
  congrArg (·.2.2.2.2) hh

theorem SameHandler.handling (hh : SameHandler s t) (hr : t.running = true → s.running = true)
    (hs : HandlerState before s) : HandlerState before t := by
  have hp : t.sigchldPipe = s.sigchldPipe := congrArg (·.1) hh
  have ha : t.sigchldActive = s.sigchldActive := congrArg (·.2.1) hh
  have hd : t.disposition = s.disposition := congrArg (·.2.2.1) hh
  have hprev : t.sigchldSaPrev = s.sigchldSaPrev := congrArg (·.2.2.2.1) hh
  refine ⟨fun h => ?_, fun h => ?_, fun h => hh.sigchld ▸ hs.running (hr h)⟩
  · have hnone : s.sigchld = none := by
      rw [← Option.isNone_iff_eq_none, ← Option.not_isSome, ← hh.sigchld, h]
      rfl
    rw [ha, hd, hp]
    exact hs.away hnone
  · rw [ha, hd, hp, hprev]
    exact hs.present (hh.sigchld ▸ h)

theorem Installed.handling {type : LoopType} (hi : Installed type s t) (hs : HandlerState before s)
    (hnone : s.sigchld = none) : HandlerState before t := by
  obtain ⟨p, hp, hh⟩ := hi.handler
  simp only [Sys.handler, Prod.mk.injEq] at hh
  obtain ⟨h₁, h₂, h₃, h₄, h₅⟩ := hh
  refine ⟨fun h => ?_, fun _ => ⟨h₂, h₃, h₄.trans (hs.away hnone).2.1, h₁ ▸ hp⟩, fun _ => h₅⟩
  rw [h] at h₅
  cases h₅

theorem Undone.handling (hu : Undone s t) (hr : t.running = false) (hs : HandlerState before s)
    (hsome : s.sigchld.isSome = true) : HandlerState before t := by
  have hh := hu.handler
  simp only [Sys.handler, Prod.mk.injEq] at hh
  obtain ⟨h₁, h₂, h₃, h₄, h₅⟩ := hh
  refine ⟨fun _ => ⟨h₂, h₃.trans (hs.present hsome).2.2.1, by rw [h₁]; rfl⟩, fun h => ?_, fun h => ?_⟩
  · rw [hu.sigchld] at h
    cases h
  · rw [hr] at h
    cases h

theorem Halted.running_before (hh : Halted s t) (hr : t.running = true) : s.running = true := by
  obtain ⟨registered, loop, mapOrder, trace, vigil, pipes, hframe⟩ := hh.frame
  rw [hframe] at hr
  dsimp only at hr
  split at hr
  · exact hr
  · cases hr

/-- No callback starts a run. -/
theorem Evented.running_before {fd : Int} (he : Evented s fd t) (hr : t.running = true) :
    s.running = true := by
  cases he with
  | serves hserves _ => exact (congrArg (·.2.2.1) hserves.core).symm.trans hr
  | jobbed _ hread hjob =>
    have h₁ := (congrArg (·.2.2.1) hjob.core).symm.trans hr
    exact (hread.field Sys.running fun _ _ _ => rfl).symm.trans h₁
  | @emptied u v _ _ hread hempty hhalted =>
    have h₁ := hhalted.running_before hr
    rw [hempty.frame] at h₁
    exact (hread.field Sys.running fun _ _ _ => rfl).symm.trans h₁
  | broken _ _ _ hserves _ hhalted =>
    exact (congrArg (·.2.2.1) hserves.core).symm.trans (hhalted.running_before hr)

theorem run_installs {type : LoopType} {c : Choices} (hs : Life s)
    (hr : Relieved s (.run type c)) (hstep : Step s (.run type c) t) :
    Installed type s t ∨ t.running = false ∧ ¬HandlerCalls s (.run type c) := by
  obtain ⟨he, ht⟩ := hstep
  rcases startRun_installs (hs.choose c).isolated hr ht with hin | ⟨hrun, hf⟩
  · exact .inl ⟨hin.running, hin.watching, hin.handler, hin.given⟩
  · exact .inr ⟨hrun.trans he, hf⟩

theorem event_handler {fd : Int} {c : Choices} (hs : Life s) (hh : HandlerState before s)
    (hc : HandlerCalls s (.event fd c)) (hstep : Step s (.event fd c) t) :
    SameHandler s t ∧ (t.running = true → s.running = true) ∨
      s.sigchld.isSome = true ∧ Undone s t ∧ t.running = false := by
  obtain ⟨he, ht⟩ := hstep
  obtain ⟨hon, hdue, hrun⟩ := hs.due he
  have hsound : Sound (s.choose c) := Sound.choose ⟨hs.isolated, hon⟩ c
  have hcases := hs.event_cases he
  rw [ht] at hcases
  have hdisp : dispatch fd (s.choose c) = .ok () t := ht
  rcases dispatch_split hsound hdue with ⟨_, hact⟩ | ⟨hd, hfd, hint⟩
  · have hsame : SameHandler (s.choose c) t := doAction_handler hsound (hact.symm.trans hdisp)
    refine .inl ⟨hsame, fun hr => ?_⟩
    rcases hcases with ⟨_, hev⟩ | hinterrupted
    · exact hev.running_before hr
    · obtain ⟨v, _, hend⟩ := hinterrupted.ended
      exact absurd (hr.symm.trans hend.running) (by decide)
  · refine .inr ?_
    have hsome := hh.running (hrun hd)
    have hactive := (hh.present hsome).1
    rw [hint] at hdisp
    obtain ⟨a, u, hu, hdr⟩ := readRetry_drained .loop hsound.isolated.owns 1
    subst hfd
    cases a with
    | error e =>
      have hstop : loopCallback .interrupt ((s.choose c).array .loop).rd (s.choose c) =
          .error (.assertion .loopRead) u := bind_of_ok hu
      cases (bind_of_error hstop).symm.trans hdisp
    | ok data =>
      have hstop : loopCallback .interrupt ((s.choose c).array .loop).rd (s.choose c) =
          .ok .stopLoop u := bind_of_ok hu
      rw [bind_of_ok hstop, if_pos rfl] at hdisp
      obtain ⟨readFaults, pipes, hframe⟩ := hdr.frame
      subst hframe
      have hundone := runFinish_undoes (s := { s.choose c with readFaults, pipes }) hsome hactive
        (hc hd rfl) hdisp
      exact ⟨hsome, ⟨hundone.1.sigchld, hundone.1.handler, hundone.1.gone⟩, hundone.2⟩

/-- What a step does to the handler: nothing, or it sets one up where there was none, or it
undoes the one there was. -/
theorem handler_step {l : Label} (hs : Life s) (hh : HandlerState before s) (hc : HandlerCalls s l)
    (hr : Relieved s l) (hstep : Step s l t) :
    SameHandler s t ∧ (t.running = true → s.running = true) ∨
      s.sigchld = none ∧ (∃ type, Installed type s t) ∨
      s.sigchld.isSome = true ∧ Undone s t ∧ t.running = false := by
  cases l with
  | exec args hasOnStop =>
    obtain ⟨t', ht', hsent⟩ := multiExec_ok hs.isolated args hasOnStop
    cases (show multiExec args hasOnStop s = .ok () t from hstep.2).symm.trans ht'
    have hrunning : t.running = s.running := hsent.field Sys.running fun _ _ _ _ => rfl
    exact .inl ⟨hsent.field Sys.handler fun _ _ _ _ => rfl, fun h => hrunning ▸ h⟩
  | stop flag signum =>
    obtain ⟨t', ht', hsent⟩ := sendJob_ok hs.isolated.owns (some (.stop flag signum))
    cases (show sendJob (some (.stop flag signum)) s = .ok () t from hstep.2).symm.trans ht'
    have hrunning : t.running = s.running := hsent.field Sys.running fun _ _ _ _ => rfl
    exact .inl ⟨hsent.field Sys.handler fun _ _ _ _ => rfl, fun h => hrunning ▸ h⟩
  | env act =>
    cases hstep.2
    have hel := envAct_elsewhere act s
    have hrunning : (act.apply s).running = s.running := hel.field Sys.running fun _ _ _ _ => rfl
    exact .inl ⟨hel.field Sys.handler fun _ _ _ _ => rfl, fun h => hrunning ▸ h⟩
  | run type c =>
    rcases run_installs hs hr hstep with hin | ⟨_, hf⟩
    · exact .inr (.inl ⟨hr, type, hin⟩)
    · exact absurd hc hf
  | event fd c =>
    rcases event_handler hs hh hc hstep with hsame | hundone
    · exact .inl hsame
    · exact .inr (.inr hundone)
  | selectError =>
    have hsome := hh.running hstep.1.1
    refine .inr (.inr ⟨hsome, ?_⟩)
    obtain ⟨_, u, hu, hfin⟩ := bind_eq_ok.mp (show selectFails s = .ok () t from hstep.2)
    cases hu
    have hundone := runFinish_undoes (s := { s with
      toWorld := s.toWorld.emit (.multiError .selectError)
      err_ := .selectError }) hsome (hh.present hsome).1 hc hfin
    exact ⟨⟨hundone.1.sigchld, hundone.1.handler, hundone.1.gone⟩, hundone.2⟩

theorem HandlerState.step {l : Label} (hs : Life s) (hh : HandlerState before s) (hc : HandlerCalls s l)
    (hr : Relieved s l) (hstep : Step s l t) : HandlerState before t := by
  rcases handler_step hs hh hc hr hstep with ⟨hsame, hrun⟩ | ⟨hnone, type, hin⟩ | ⟨hsome, hu, hend⟩
  · exact hsame.handling hrun hh
  · exact hin.handling hh hnone
  · exact hu.handling hend hh hsome

/-- What is still open of a pipe that was once the signal pipe is the signal pipe. -/
structure Held (pipe : Nat) (s : Sys) : Prop where
  old : pipe < s.fds.nextPipe
  only : ∀ fd d, s.fds.get fd = some d → d.target.pipe? = some pipe →
    fd = s.sigchldPipe.rd ∨ fd = s.sigchldPipe.wr

theorem Life.held {pipe : Nat} (hs : Life s) (hp : s.sigchldPipe.pipe = some pipe) : Held pipe s := by
  refine ⟨hs.isolated.owns.below .sigchld pipe hp, fun fd d hd ht => ?_⟩
  exact hs.isolated.owns.only .sigchld pipe fd d.target hp (by rw [FdTable.target, hd]; rfl) ht

theorem Life.sigchld_wr (hs : Life s) (hp : s.sigchldPipe.rd = -1) : s.sigchldPipe.wr = -1 := by
  rcases hs.isolated.owns.ends .sigchld with hc | ⟨pipe, _, hr, _⟩
  · exact hc.2
  · have := FdTable.get_nonneg hr
    have hrd : (s.array .sigchld).rd = -1 := hp
    omega

theorem Held.step {pipe : Nat} {l : Label} (hp : Held pipe s) (hs : Life s) (hh : HandlerState before s)
    (hc : HandlerCalls s l) (hr : Relieved s l) (hstep : Step s l t) : Held pipe t := by
  have huses : FdSteps s.fds t.fds := ((label_uses l).ok hstep.2).table
  refine ⟨Nat.lt_of_lt_of_le hp.old huses.next, fun fd d hd ht => ?_⟩
  have hold := hp.only fd d (huses.old hd ht hp.old) ht
  rcases handler_step hs hh hc hr hstep with ⟨hsame, _⟩ | ⟨hnone, _⟩ | ⟨_, hu, _⟩
  · have hpipe : t.sigchldPipe = s.sigchldPipe := congrArg (·.1) hsame
    rwa [hpipe]
  · have hrd := (hh.away hnone).2.2
    have := FdTable.get_nonneg (huses.old hd ht hp.old)
    have hwr := hs.sigchld_wr hrd
    omega
  · rw [hu.gone fd hold] at hd
    cases hd

/-- The destructor down to its last member, the handler. -/
theorem destroyMulti_handler (s : Sys) : ∃ fds, FdSteps s.fds fds ∧ destroyMulti s = (do
    match s.sigchld with
    | some handler => destroySigchldHandler handler
    | none => pure ()
    modify fun s => { s with sigchld := none } : Prog Unit) { s with
      fds
      controlPipe := s.controlPipe.closed
      loop := none } := by
  obtain ⟨fds, hw⟩ := s.toWorld.closePipe_frame s.controlPipe
  have hclose := FdSteps.closePipe s.toWorld s.controlPipe
  rw [hw] at hclose
  unfold destroyMulti
  rw [bind_of_ok (get_apply _), bind_of_ok (onWorld_apply ..), bind_of_ok (modify_apply ..), hw]
  cases s.loop with
  | none => exact ⟨fds, hclose, bind_of_ok (modify_apply ..)⟩
  | some e =>
    obtain ⟨fds', hw'⟩ := World.closePipe_frame { s.toWorld with fds } e.controlPipe
    have hclose' := FdSteps.closePipe { s.toWorld with fds } e.controlPipe
    rw [hw'] at hclose'
    refine ⟨fds', hclose.trans hclose', ?_⟩
    dsimp only
    rw [bind_of_ok (onWorld_apply ..)]
    dsimp only
    rw [hw']
    exact bind_of_ok (modify_apply ..)

theorem destroyMulti_undoes (hs : Life s) (hh : HandlerState before s) (hf : Unfailing s.faults) :
    ∃ t, destroyMulti s = .ok () t ∧ t.disposition = before ∧ FdSteps s.fds t.fds ∧
      ∀ fd, fd = s.sigchldPipe.rd ∨ fd = s.sigchldPipe.wr → t.fds.get fd = none := by
  obtain ⟨fds, hsteps, hrun⟩ := destroyMulti_handler s
  rw [hrun]
  cases hsig : s.sigchld with
  | none =>
    obtain ⟨_, hdisp, hrd⟩ := hh.away hsig
    refine ⟨_, rfl, hdisp, hsteps, fun fd hfd => ?_⟩
    have hwr := hs.sigchld_wr hrd
    show fds.get fd = none
    cases hget : fds.get fd with
    | none => rfl
    | some d =>
      have := FdTable.get_nonneg hget
      omega
  | some handler =>
    obtain ⟨hactive, _, hprev, _⟩ := hh.present (by rw [hsig]; rfl)
    obtain ⟨t, ht, hhandler, hfds⟩ := destroySigchldHandler_ok (s := { s with
      fds
      controlPipe := s.controlPipe.closed
      loop := none }) handler hactive hf.head
    rw [hsig] at ht
    refine ⟨_, bind_of_ok ht, (congrArg (·.2.2.1) hhandler).trans hprev, ?_, fun fd hfd => ?_⟩
    · show FdSteps s.fds t.fds
      rw [hfds]
      exact hsteps.trans (FdSteps.closePipe { s.toWorld with fds } _)
    · show t.fds.get fd = none
      rw [hfds, World.closePipe_get, if_pos hfd]

/-- The handler while a run lasts. -/
structure HandlerUp (s : Sys) : Prop where
  active : s.sigchldActive = true
  installed : s.disposition = .sigchldSignalHandler
  opened : ∃ pipe, s.fds.target s.sigchldPipe.rd = some (.readEnd pipe) ∧
    s.fds.target s.sigchldPipe.wr = some (.writeEnd pipe)

/-- What an external event loop watches, as it has been told through `register_event`. -/
def userLoop (trace : List Event) : List Int :=
  trace.foldl (fun fds e => match e with
    | .register fd true => fd :: fds
    | .register fd false => fds.filter (· ≠ fd)
    | _ => fds) []

/-- The event loop of the run watches the descriptor. -/
def Sys.LoopWatches (s : Sys) (fd : Int) : Prop :=
  match s.loopType with
  | .default => ∃ e, s.loop = some e ∧ fd ∈ e.keys
  | .external => fd ∈ userLoop s.trace

/-- What `run` has set up when it comes to its event loop. -/
structure SetUp (s : Sys) : Prop where
  handler : HandlerUp s
  running : s.running = true
  registered : s.registered.lookup s.sigchldPipe.rd = some .sigchld
  watched : s.LoopWatches s.sigchldPipe.rd

theorem HandlerState.up (hh : HandlerState before s) (hs : Life s) (hr : s.running = true) : HandlerUp s := by
  obtain ⟨hactive, hdisp, _, hrd⟩ := hh.present (hh.running hr)
  obtain ⟨pipe, _, hends⟩ := (hs.isolated.owns.ends .sigchld).opened hrd
  exact ⟨hactive, hdisp, pipe, hends⟩

theorem Installed.setUp {type : LoopType} (hi : Installed type s t) (hh : HandlerUp t)
    (ht : Life t) (htype : t.loopType = type) : SetUp t := by
  have hon := ht.running_on hi.running
  have hreg : t.registered.lookup t.sigchldPipe.rd = some .sigchld :=
    (hon.desk.keys _ _).mpr ⟨hi.watching, rfl⟩
  refine ⟨hh, hi.running, hreg, ?_⟩
  have hmem : t.sigchldPipe.rd ∈ t.registered := AList.lookup_isSome.mp (by rw [hreg]; rfl)
  unfold Sys.LoopWatches
  cases type with
  | default =>
    rw [htype]
    rcases hon.desk.mirrored with ⟨hext, _⟩ | ⟨_, _, e, he, hw⟩
    · cases hext.symm.trans htype
    · exact ⟨e, he, hw.mem_keys.mpr (.inr hmem)⟩
  | external =>
    obtain ⟨events, control, htrace⟩ := hi.given rfl
    rw [htype, htrace]
    simp [userLoop, List.foldl_append]

/-- What a run asks for: the batch before it is finished, the calls for the handler succeed, and
no handler is left. -/
structure HandlerRun (s : Sys) (l : Label) : Prop where
  finished : PreviousFinished s l
  calls : HandlerCalls s l
  relieved : Relieved s l

theorem run_handling {w : World} {ls : List Label} (hnew : newMulti (boot w) = .ok () s)
    (hrun : Run (Under HandlerRun Step) s ls t) : Life t ∧ HandlerState w.disposition t := by
  have hstart : HandlerState w.disposition s := by
    rw [newMulti_ok hnew]
    exact ⟨fun _ => ⟨rfl, rfl, rfl⟩, fun h => (by cases h), fun h => (by cases h)⟩
  refine hrun.invariant (I := fun s => Life s ∧ HandlerState w.disposition s) ⟨newMulti_life hnew, hstart⟩ ?_
  rintro a l b ⟨hlife, hh⟩ ⟨hl, hstep⟩
  have hnext := life_step hlife hstep.1 hl.finished
  rw [hstep.2] at hnext
  exact ⟨hnext, hh.step hlife hl.calls hl.relieved hstep⟩

/-- In every life of the object in which no run follows an EXTERNAL one, `run` sets the handler up
and registers it, it stays up while the run lasts, and the destructor restores the disposition and
leaves no signal pipe open that there was on the way. -/
theorem handler_lifecycle {w : World} {ls : List Label} (hnew : newMulti (boot w) = .ok () s)
    (hrun : Run (Under HandlerRun Step) s ls t) :
    (∀ ls' type c, ls = ls' ++ [.run type c] → SetUp t) ∧ (t.running = true → HandlerUp t) ∧
      ∀ c, Unfailing c.faults → ∃ u, destroyMulti (t.choose c) = .ok () u ∧
        u.disposition = w.disposition ∧
        ∀ ls₁ a ls₂, Run (Under HandlerRun Step) s ls₁ a → Run (Under HandlerRun Step) a ls₂ t →
          ∀ pipe, a.sigchldPipe.pipe = some pipe →
            ∀ fd d, u.fds.get fd = some d → d.target.pipe? ≠ some pipe := by
  obtain ⟨hlife, hh⟩ := run_handling hnew hrun
  refine ⟨fun ls' type c hls => ?_, hh.up hlife, fun c hc => ?_⟩
  · subst hls
    obtain ⟨v, hv, hl, hstep⟩ := hrun.last
    obtain ⟨hlifev, hhv⟩ := run_handling hnew hv
    have hin := (run_installs hlifev hl.relieved hstep).resolve_right fun hf => hf.2 hl.calls
    have htype : t.loopType = type := by
      rcases hlifev.run_cases (c := c) hl.finished with ⟨e, t', ht', _⟩ | ⟨t', ht', hcases⟩
      · cases hstep.2.symm.trans ht'
      · cases hstep.2.symm.trans ht'
        rcases hcases with hstarted | hrefused
        · exact hstarted.loopType
        · exact hrefused.loopType
    exact hin.setUp (hh.up hlife hin.running) hlife htype
  · have hlifec := hlife.choose c
    obtain ⟨u, hu, hdisp, huses, hgone⟩ := destroyMulti_undoes (s := t.choose c) hlifec
      (SameHandler.handling (s := t) rfl id hh) hc
    refine ⟨u, hu, hdisp, fun ls₁ a ls₂ hrun₁ hrun₂ pipe hp fd d hd ht => ?_⟩
    obtain ⟨hlifea, hha⟩ := run_handling hnew hrun₁
    have hall := hrun₂.invariant (I := fun s => (Life s ∧ HandlerState w.disposition s) ∧ Held pipe s)
      ⟨⟨hlifea, hha⟩, hlifea.held hp⟩ fun x l y ⟨⟨hlx, hhx⟩, hx⟩ ⟨hl, hstep⟩ => by
        have hnext := life_step hlx hstep.1 hl.finished
        rw [hstep.2] at hnext
        exact ⟨⟨hnext, hhx.step hlx hl.calls hl.relieved hstep⟩,
          hx.step hlx hhx hl.calls hl.relieved hstep⟩
    have hold := huses.old hd ht hall.2.old
    rw [hgone fd (hall.2.only fd d hold ht)] at hd
    cases hd

/-- The check of `HandlerRun`. -/
def handlerRun (s : Sys) (l : Label) : Bool :=
  finished s l && match l with
    | .run _ c => c.faults.all Option.isNone && s.sigchld.isNone
    | .event _ c => c.faults.all Option.isNone
    | .selectError => s.faults.all Option.isNone
    | _ => true

theorem Unfailing.of_all {faults : List (Option Errno)} (h : faults.all Option.isNone = true) :
    Unfailing faults :=
  fun f hf => Option.isNone_iff_eq_none.mp (List.all_eq_true.mp h f hf)

theorem handlerRun_sound (s : Sys) (l : Label) (h : handlerRun s l = true) : HandlerRun s l := by
  obtain ⟨hfinished, h⟩ := (Bool.and_eq_true _ _).mp h
  refine ⟨finished_sound s l hfinished, ?_, ?_⟩
  · cases l with
    | run type c => exact .of_all ((Bool.and_eq_true _ _).mp h).1
    | event fd c => exact fun _ _ => .of_all h
    | selectError => exact .of_all h
    | exec | stop | env => trivial
  · cases l with
    | run type c => exact Option.isNone_iff_eq_none.mp ((Bool.and_eq_true _ _).mp h).2
    | exec | stop | env | event | selectError => trivial

/-- A DEFAULT run has come to its end and the object is run again. -/
def pairAgain : Sys := (pairAt 20).after [.run .default {}]

theorem pairAgain_steps : Run (Under HandlerRun Step) freshMulti (pairLife ++ [.run .default {}]) pairAgain :=
  (run_after _ handlerRun_sound pairLife (by decide +kernel)).append
    (run_after _ handlerRun_sound [.run .default {}] (by decide +kernel))

/-- The signal pipes of both runs are closed in the end, and the disposition is that of before. -/
theorem handler_lifecycle_again : (pairAt 20).running = false ∧ (pairAt 20).sigchldActive = false ∧
    SetUp pairAgain ∧ HandlerUp pairAgain ∧ (pairAt 3).sigchldPipe.pipe = some 2 ∧
    pairAgain.sigchldPipe.pipe = some 12 ∧ ∃ u, destroyMulti (pairAgain.choose {}) = .ok () u ∧
      u.disposition = .default ∧
      ∀ fd d, u.fds.get fd = some d → d.target.pipe? ≠ some 2 ∧ d.target.pipe? ≠ some 12 := by
  obtain ⟨hsetup, hup, hdestroy⟩ := handler_lifecycle freshMulti_ok pairAgain_steps
  obtain ⟨u, hu, hdisp, hclosed⟩ := hdestroy {} fun _ hf => (by cases hf)
  have hfirst : (pairAt 3).sigchldPipe.pipe = some 2 := by decide +kernel
  have hsecond : pairAgain.sigchldPipe.pipe = some 12 := by decide +kernel
  have hbefore : Run (Under HandlerRun Step) freshMulti (pairLife.take 3) (pairAt 3) :=
    run_after _ handlerRun_sound _ (by decide +kernel)
  have hafter : Run (Under HandlerRun Step) (pairAt 3) (pairBetween 3 20 ++ [.run .default {}]) pairAgain :=
    (pair_segment (n := 3) (m := 20) handlerRun_sound (by decide) (by decide +kernel)).append
      (run_after _ handlerRun_sound [.run .default {}] (by decide +kernel))
  refine ⟨by decide +kernel, by decide +kernel, hsetup _ _ _ rfl, hup (by decide +kernel), hfirst, hsecond,
    u, hu, hdisp, fun fd d hd => ⟨?_, ?_⟩⟩
  · exact hclosed _ _ _ hbefore hafter 2 hfirst fd d hd
  · exact hclosed _ _ _ pairAgain_steps .nil 12 hsecond fd d hd

/-- An EXTERNAL run, stopped, and a second one on the same object. -/
def stoppedExternal : Sys := freshMulti.after [.stop .stopWait (-1), .run .external {}, .event 0 {}]

def secondExternal : Sys := stoppedExternal.after [.run .external {}]

def FinishedRun (s : Sys) (l : Label) : Prop := PreviousFinished s l ∧ HandlerCalls s l

theorem stoppedExternal_steps : Run (Under FinishedRun Step) freshMulti
    ([] ++ [.stop .stopWait (-1)] ++ [.run .external {}] ++ [.event 0 {}]) stoppedExternal := by
  refine .snoc (.snoc (.snoc .nil ⟨⟨trivial, trivial⟩, step_after (by decide +kernel)⟩)
    ⟨⟨⟨rfl, rfl⟩, fun _ hf => (by cases hf)⟩, step_after (by decide +kernel)⟩)
    ⟨⟨trivial, fun _ _ _ hf => (by cases hf)⟩, step_after (by decide +kernel)⟩

/-- The second run closes the pipe it has just opened: its handler is not active, what it registers
is -1, and the signal pipe of the first run stays open once the object is destroyed. -/
theorem second_external_run : newMulti (boot {}) = .ok () freshMulti ∧
    Run (Under FinishedRun Step) freshMulti
      ([] ++ [.stop .stopWait (-1)] ++ [.run .external {}] ++ [.event 0 {}] ++ [.run .external {}])
      secondExternal ∧
    secondExternal.running = true ∧ secondExternal.sigchldActive = false ∧
    secondExternal.registered.lookup (-1) = some .sigchld ∧ ¬SetUp secondExternal ∧
    ∃ u, destroyMulti (secondExternal.choose {}) = .ok () u ∧ u.disposition = .sigchldSignalHandler ∧
      stoppedExternal.sigchldPipe.pipe = some 1 ∧ u.fds.target 2 = some (.readEnd 1) := by
  have hinactive : secondExternal.sigchldActive = false := by decide +kernel
  refine ⟨freshMulti_ok, .snoc stoppedExternal_steps ⟨⟨⟨AList.ext (by decide +kernel), AList.ext (by decide +kernel)⟩,
    fun _ hf => (by cases hf)⟩, step_after (by decide +kernel)⟩, by decide +kernel, hinactive,
    by decide +kernel, fun hup => ?_, ?_⟩
  · exact absurd (hinactive.symm.trans hup.handler.active) (by decide)
  · exact ⟨_, ok_final (by decide +kernel), by decide +kernel, by decide +kernel, by decide +kernel⟩

end Pexec
