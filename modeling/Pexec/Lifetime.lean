import Pexec.Dispatching

namespace Pexec

open Effect Runs

variable {h : Nat} {pid : Int} {s t u : Sys}

/-- The process without what the handler for SIGCHLD is made of. -/
def Sys.offHandler (s : Sys) : Sys :=
  { s with
    fds := {}
    pipes := fun _ => {}
    faults := []
    trace := []
    vigil := {}
    disposition := .default
    sigchldPipe := {}
    sigchldSaPrev := .default
    sigchldActive := false
    sigchld := none
    err_ := .noError }

/-- A step that sets up the handler for SIGCHLD, or undoes it. -/
structure Rehandled (s t : Sys) : Prop where
  frame : t.offHandler = s.offHandler
  uncalled : Uncalled s t
  next : s.fds.nextPipe ≤ t.fds.nextPipe
  pipes : ∀ pipe < s.fds.nextPipe, t.pipes pipe = s.pipes pipe

instance : IsPreorder Sys Rehandled where
  refl s := ⟨rfl, Std.Refl.refl s, Nat.le_refl _, fun _ _ => rfl⟩
  trans _ _ _ hst htu := ⟨htu.frame.trans hst.frame, IsTrans.trans _ _ _ hst.uncalled htu.uncalled,
    Nat.le_trans hst.next htu.next, fun pipe hp =>
      (htu.pipes pipe (Nat.lt_of_lt_of_le hp hst.next)).trans (hst.pipes pipe hp)⟩

theorem Rehandled.field {α : Type} (hr : Rehandled s t) (f : Sys → α)
    (hf : ∀ u, f u.offHandler = f u) : f t = f s := by
  rw [← hf t, hr.frame, hf]

/-- A step that opens no pipe, of the parts of the handler. -/
theorem Rehandled.same (hframe : t.offHandler = s.offHandler) (hq : Uncalled s t)
    (hn : t.fds.nextPipe = s.fds.nextPipe) (hp : t.pipes = s.pipes) : Rehandled s t :=
  ⟨hframe, hq, Nat.le_of_eq hn.symm, fun _ _ => by rw [hp]⟩

theorem sigaction_rehandled (d : World → Disposition) :
    Advances Rehandled (call fun w => w.sigaction (d w)) := by
  intro s
  obtain ⟨faults, disposition, hw⟩ := s.toWorld.sigaction_frame (d s.toWorld)
  exact ⟨_, _, call_apply .., by rw [hw]; exact .same rfl (Uncalled.same rfl) rfl rfl⟩

theorem pipe2_rehandled (cloexec : Bool) : Advances Rehandled (call (World.pipe2 · cloexec)) := by
  intro s
  refine ⟨_, _, call_apply .., ?_⟩
  cases hfault : s.faults.head?.join with
  | some e =>
    rw [World.pipe2_of_fault hfault]
    exact .same rfl (Uncalled.same rfl) rfl rfl
  | none =>
    rw [World.pipe2_of_none hfault]
    exact ⟨rfl, Uncalled.same rfl, Nat.le_succ _, fun pipe hp => Function.update_of_ne (Nat.ne_of_lt hp) ..⟩

theorem closeSigchld_rehandled {f : World → World} (hf : ∀ w, ∃ sigchldActive,
    f w = { w.closePipe w.sigchldPipe with sigchldPipe := w.sigchldPipe.closed, sigchldActive }) :
    Advances Rehandled (onWorld f) := by
  intro s
  obtain ⟨sigchldActive, hf⟩ := hf s.toWorld
  have hn := World.closePipe_nextPipe s.toWorld s.sigchldPipe
  obtain ⟨fds, hw⟩ := s.toWorld.closePipe_frame s.sigchldPipe
  refine ⟨_, _, onWorld_apply f s, ?_⟩
  rw [hw] at hf hn
  rw [hf]
  exact .same rfl (Uncalled.same rfl) hn rfl

theorem multiProcessError_rehandled (e : Error) : Advances Rehandled (multiProcessError e) :=
  Advances.bind (Advances.modify fun _ => .same rfl (Uncalled.same rfl) rfl rfl) fun _ =>
    Advances.modify fun _ => .same rfl (Uncalled.snoc (e := .multiError e) rfl rfl rfl) rfl rfl

theorem sigchldSetSignalHandler_rehandled : Advances Rehandled sigchldSetSignalHandler := by
  refine Advances.bind (pipe2_rehandled true) fun p => ?_
  cases p with
  | none => exact Advances.pure _
  | some p =>
    refine Advances.bind (Advances.modify fun _ => .same rfl (Uncalled.same rfl) rfl rfl) fun _ =>
      Advances.bind (sigaction_rehandled fun _ => .sigchldSignalHandler) fun prev => ?_
    cases prev with
    | none =>
      refine Advances.bind (closeSigchld_rehandled fun w => ?_) fun _ => Advances.pure _
      obtain ⟨fds, hw⟩ := w.closePipe_frame w.sigchldPipe
      exact ⟨w.sigchldActive, by rw [hw]⟩
    | some prev =>
      exact Advances.bind (Advances.modify fun _ => .same rfl (Uncalled.same rfl) rfl rfl) fun _ => Advances.pure _

theorem sigchldResetSignalHandler_rehandled : Advances Rehandled sigchldResetSignalHandler := by
  refine Advances.bind Advances.get fun s => Advances.ite (fun _ => Advances.pure _) fun _ => ?_
  refine Advances.bind (sigaction_rehandled fun w => w.sigchldSaPrev) fun prev => ?_
  cases prev with
  | none => exact Advances.pure _
  | some prev =>
    exact Advances.bind (closeSigchld_rehandled fun w => ⟨false, rfl⟩) fun _ => Advances.pure _

theorem destroySigchldHandler_rehandled (handler : SigchldHandler) :
    Advances Rehandled (destroySigchldHandler handler) := by
  refine Advances.bind sigchldResetSignalHandler_rehandled fun ok => Advances.ite (fun _ => ?_)
    fun _ => Advances.pure _
  exact Advances.ite (fun _ => multiProcessError_rehandled _) fun _ => Advances.pure _

theorem newSigchldHandler_rehandled : Advances Rehandled newSigchldHandler :=
  Advances.bind sigchldSetSignalHandler_rehandled fun _ =>
    Advances.ite (fun _ => Advances.pure _) fun _ => Advances.pure _

theorem replaceSigchld_rehandled : Advances Rehandled replaceSigchld := by
  refine Advances.bind newSigchldHandler_rehandled fun handler => Advances.bind Advances.get fun s => ?_
  refine Advances.bind (Advances.modify fun _ => .same rfl (Uncalled.same rfl) rfl rfl) fun _ => ?_
  split
  next old _ => exact destroySigchldHandler_rehandled old
  next => exact Advances.pure _

/-- The loop of a DEFAULT run has been made. -/
structure Looped (s t : Sys) : Prop where
  frame : ∃ fds pipes faults mapOrder loop,
    t = { s with fds, pipes, faults, mapOrder, loop, registerFn := some .loop }
  loop : ∃ e, t.loop = some e ∧ e.cbs = [(e.controlPipe.rd, .interrupt)]
  opened : (t.array .loop).rd ≠ -1
  empty : (t.stream .loop).unread = []

theorem makeLoop_cases (s : Sys) : (∃ t, makeLoop s = .error (.assertion .loopPipe) t) ∨
    ∃ t, makeLoop s = .ok () t ∧ Looped s t := by
  unfold makeLoop
  rcases newSelectEvent_cases LoopSource.interrupt s with ⟨t, ht⟩ | hnew
  · exact .inl ⟨t, bind_of_error ht⟩
  · refine .inr ?_
    rw [bind_of_ok hnew, bind_of_ok (get_apply _), bind_of_ok (modify_apply ..)]
    have hpipe := FdTable.openPipe_pipe s.fds (s.fdHint s.fds.nextPipe) true
    have hrd : 0 ≤ (s.fds.openPipe (s.fdHint s.fds.nextPipe) true).1.rd := freshFd_nonneg _ _
    have hempty : ∀ fds, (World.stream { s.toWorld with
        fds
        pipes := Function.update s.pipes s.fds.nextPipe {} }
          (s.fds.openPipe (s.fdHint s.fds.nextPipe) true).1).unread = [] := by
      intro fds
      simp only [World.stream_of_pipe hpipe, Function.update_self]
      rfl
    have hopened : (s.fds.openPipe (s.fdHint s.fds.nextPipe) true).1.rd ≠ -1 := by omega
    cases hold : s.loop with
    | none =>
      exact ⟨_, rfl, ⟨_, _, _, _, _, rfl⟩, ⟨_, rfl, rfl⟩, hopened, hempty s.fds⟩
    | some old =>
      obtain ⟨fds, hw⟩ := World.closePipe_frame { s.toWorld with
        faults := s.faults.tail
        fds := (s.fds.openPipe (s.fdHint s.fds.nextPipe) true).2
        pipes := Function.update s.pipes s.fds.nextPipe {}
        mapOrder := s.mapOrder.tail } old.controlPipe
      dsimp only
      rw [onWorld_apply]
      dsimp only
      rw [hw]
      exact ⟨_, rfl, ⟨_, _, _, _, _, rfl⟩, ⟨_, rfl, rfl⟩, hopened, hempty s.fds⟩

/-- The process without what the start of a run sets up. -/
def Sys.offStart (s : Sys) : Sys :=
  { s.offHandler with
    mapOrder := []
    loop := none
    registerFn := none
    loopType := .default
    registered := ∅
    running := false
    watching := false }

/-- A run has been started. -/
structure Started (type : LoopType) (s t : Sys) : Prop where
  frame : t.offStart = s.offStart
  uncalled : Uncalled s t
  loopType : t.loopType = type
  running : t.running = true
  watching : t.watching = true
  on : On t
  empty : type = .default → (t.stream .loop).unread = []

/-- A run has not come to its loop, because there is no handler. -/
structure Refused (type : LoopType) (s t : Sys) : Prop where
  frame : t.offStart = s.offStart
  uncalled : Uncalled s t
  loopType : t.loopType = type
  running : t.running = s.running
  watching : t.watching = s.watching
  registered : t.registered = s.registered

theorem Started.field {α : Type} {type : LoopType} (hr : Started type s t) (f : Sys → α)
    (hf : ∀ u, f u.offStart = f u) : f t = f s := by
  rw [← hf t, hr.frame, hf]

theorem Refused.field {α : Type} {type : LoopType} (hr : Refused type s t) (f : Sys → α)
    (hf : ∀ u, f u.offStart = f u) : f t = f s := by
  rw [← hf t, hr.frame, hf]

theorem Rehandled.offStart (hr : Rehandled s t) : t.offStart = s.offStart :=
  congrArg (fun u : Sys => { u with
    mapOrder := []
    loop := none
    registerFn := none
    loopType := .default
    registered := ∅
    running := false
    watching := false }) hr.frame

theorem Rehandled.loopStream (hr : Rehandled s t) (hs : s.Owns) : t.stream .loop = s.stream .loop := by
  have harr : t.array .loop = s.array .loop := hr.field (Sys.array · .loop) fun _ => rfl
  unfold Sys.stream
  rw [harr]
  cases hp : (s.array .loop).pipe with
  | none => simp only [World.stream, hp]
  | some pipe =>
    simp only [World.stream_of_pipe hp]
    exact hr.pipes pipe (Owned.below hs .loop pipe hp)

/-- What `run` has before it registers its descriptors. -/
structure Ready (type : LoopType) (s t : Sys) : Prop where
  frame : t.offStart = s.offStart
  uncalled : Uncalled s t
  loopType : t.loopType = type
  running : t.running = s.running
  watching : t.watching = s.watching
  registered : t.registered = s.registered
  isolated : Isolated t
  mirrored : s.registered = ∅ → t.Mirrored
  loop : type = .default → (t.array .loop).rd ≠ -1 ∧ (t.stream .loop).unread = []

/-- What `run` does before it makes the handler. -/
def runPrelude (type : LoopType) : Prog Unit := do
  modify fun s => { s with loopType := type }
  if type = .external then modify fun s => { s with registerFn := some .user }
  if (← get).loopType = .default then makeLoop

theorem runPrelude_cases (type : LoopType) (hs : Isolated s) :
    (∃ t, runPrelude type s = .error (.assertion .loopPipe) t) ∨
      ∃ t, runPrelude type s = .ok () t ∧ Ready type s t := by
  cases type with
  | external =>
    refine .inr ⟨{ s with loopType := .external, registerFn := some .user }, rfl, rfl,
      Uncalled.same rfl, rfl, rfl, rfl, rfl, ?_, fun _ => .inl ⟨rfl, rfl⟩, fun h => nomatch h⟩
    exact hs.same (Carries.same rfl rfl rfl rfl) rfl rfl rfl rfl rfl rfl rfl rfl
  | default =>
    have hrun : runPrelude .default s = makeLoop { s with loopType := .default } := rfl
    rw [hrun]
    have hiso : Isolated { s with loopType := .default } :=
      hs.same (Carries.same rfl rfl rfl rfl) rfl rfl rfl rfl rfl rfl rfl rfl
    rcases makeLoop_cases { s with loopType := .default } with ⟨t, ht⟩ | ⟨t, ht, hl⟩
    · exact .inl ⟨t, ht⟩
    · have hisot := makeLoop_isolated.ok hiso ht
      obtain ⟨fds, pipes, faults, mapOrder, loop, hframe⟩ := hl.frame
      obtain ⟨e, he, hcbs⟩ := hl.loop
      refine .inr ⟨t, ht, ?_, Uncalled.same ?_, ?_, ?_, ?_, ?_, hisot, fun hr => ?_,
        fun _ => ⟨hl.opened, hl.empty⟩⟩
      · rw [hframe]
        rfl
      · rw [hframe]
      · rw [hframe]
      · rw [hframe]
      · rw [hframe]
      · rw [hframe]
      · have hreg : t.registered = ∅ := by
          rw [hframe]
          exact hr
        refine .inr ⟨by rw [hframe], by rw [hframe], e, he, ?_, fun p => ?_⟩
        · rw [hreg]
          exact AList.notMem_empty _
        · rw [hcbs, hreg]
          simp

theorem startRun_of_prelude {type : LoopType} (hp : runPrelude type s = .ok () t) :
    startRun type s = (do let _ ← runHandler : Prog Unit) t := by
  cases type with
  | external =>
    cases hp
    rfl
  | default =>
    have hm : makeLoop { s with loopType := .default } = .ok () t := hp
    simp only [startRun, runSetup, bind_apply, modify_apply, get_apply, hm, if_true, reduceCtorEq,
      if_false, pure_apply]

theorem startRun_of_error {type : LoopType} {e : Halt} (hp : runPrelude type s = .error e t) :
    startRun type s = .error e t := by
  cases type with
  | external => cases hp
  | default =>
    have hm : makeLoop { s with loopType := .default } = .error e t := hp
    simp only [startRun, runSetup, bind_apply, modify_apply, get_apply, hm, if_true, reduceCtorEq,
      if_false]

theorem Rewired.offStart (hr : Rewired s t) : t.offStart = s.offStart := by
  obtain ⟨loop, mapOrder, trace, vigil, hframe⟩ := hr.frame
  rw [hframe]
  rfl

theorem Rewired.loopStream (hr : Rewired s t) : t.stream .loop = s.stream .loop := by
  have hpipes : t.pipes = s.pipes := hr.field (·.pipes) fun _ _ _ _ _ _ => rfl
  have harr : t.array .loop = s.array .loop := congrArg (Option.getD · ({} : PipeFds)) hr.control
  simp only [Sys.stream, World.stream, harr, hpipes]

/-- The two registrations of `run` itself. -/
theorem runRegister_ok (hm : s.Mirrored) (ho : s.Owns) (hc : s.controlPipe.rd ≠ -1)
    (hl : s.loopType = .default → (s.array .loop).rd ≠ -1) (ha : s.active = ∅)
    (hr : s.registered = ∅) :
    ∃ u, Rewired s u ∧ On { u with running := true, watching := true } ∧
      ∀ {α : Type} (k : Prog α), (do
        addReadEvent (← get).sigchldPipe.rd .sigchld
        addReadEvent (← get).controlPipe.rd .control
        k) s = k u := by
  have hne : s.controlPipe.rd ≠ s.sigchldPipe.rd :=
    (Owned.rd_ne ho (i := .control) (j := .sigchld) (by simp) hc).1
  obtain ⟨t, ht, hrt, hmt, hwt⟩ := addReadEvent_ok s.sigchldPipe.rd .sigchld hm
    (by rw [hr]; exact AList.notMem_empty _)
    (fun hd => (Owned.rd_ne ho (i := .loop) (j := .sigchld) (by simp) (hl hd)).1.symm)
  have hctrl : t.controlPipe = s.controlPipe := hwt.field Sys.controlPipe fun _ _ _ _ _ _ => rfl
  obtain ⟨u, hu, hru, hmu, hwu⟩ := addReadEvent_ok s.controlPipe.rd .control hmt
    (by rw [hrt, hr, AList.mem_insert]; exact not_or.mpr ⟨hne, AList.notMem_empty _⟩)
    (fun _ => by
      rw [hwt.loop_rd]
      exact (Owned.rd_ne ho (i := .control) (j := .loop) (by simp) hc).1)
  have hw : Rewired s u := IsTrans.trans _ _ _ hwt hwu
  refine ⟨u, hw, ?_, fun k => ?_⟩
  rotate_left
  · rw [bind_of_ok (get_apply _), bind_of_ok ht, bind_of_ok (get_apply _), hctrl, bind_of_ok hu]
  · have hactive : u.active = ∅ := (hw.field Sys.active fun _ _ _ _ _ _ => rfl).trans ha
    have hnone : ∀ p x, u.active.lookup p ≠ some x := by
      intro p x
      rw [hactive, AList.lookup_empty]
      simp
    refine ⟨⟨fun fd src => ?_, fun p x hp => absurd hp (hnone p x), hmu.congr rfl rfl rfl rfl⟩,
      fun p x hp => absurd hp (hnone p x)⟩
    have hlook : u.registered.lookup fd = some src ↔
        fd = s.controlPipe.rd ∧ src = .control ∨ fd = s.sigchldPipe.rd ∧ src = .sigchld := by
      rw [hru, hrt, hr, lookup_insert_fresh, lookup_insert_fresh (AList.notMem_empty _),
        AList.lookup_empty]
      · simp
      · rw [AList.mem_insert]
        exact not_or.mpr ⟨hne, AList.notMem_empty _⟩
    have hsig : u.sigchldPipe = s.sigchldPipe := hw.field (·.sigchldPipe) fun _ _ _ _ _ _ => rfl
    have hcu : u.controlPipe = s.controlPipe := hw.field Sys.controlPipe fun _ _ _ _ _ _ => rfl
    refine hlook.trans ?_
    cases src with
    | sigchld => simp [Sys.Expected, Sys.keyOf, hsig, eq_comm]
    | control => simp [Sys.Expected, Sys.keyOf, hcu, eq_comm]
    | readClose x | readStdout x | readStderr x => simp [Sys.Expected, hnone]

/-- The start of a run whose predecessor has finished. -/
theorem startRun_cases (type : LoopType) (hs : Isolated s) (hc : s.controlPipe.rd ≠ -1)
    (ha : s.active = ∅) (hr : s.registered = ∅) :
    (∃ e t, startRun type s = .error e t ∧ e.Harmless) ∨
      ∃ t, startRun type s = .ok () t ∧ (Started type s t ∨ Refused type s t) := by
  rcases runPrelude_cases type hs with ⟨t, ht⟩ | ⟨u, hu, hready⟩
  · exact .inl ⟨_, t, startRun_of_error ht, by simp [Halt.Harmless]⟩
  refine .inr ?_
  rw [startRun_of_prelude hu]
  obtain ⟨_, v, hv, hrv⟩ := replaceSigchld_rehandled u
  have hisov := replaceSigchld_isolated.ok hready.isolated hv
  have hoff : v.offStart = s.offStart := hrv.offStart.trans hready.frame
  have hq : Uncalled s v := IsTrans.trans _ _ _ hready.uncalled hrv.uncalled
  have htype : v.loopType = type := (hrv.field Sys.loopType fun _ => rfl).trans hready.loopType
  have hrunning : v.running = s.running :=
    (hrv.field Sys.running fun _ => rfl).trans hready.running
  have hwatching : v.watching = s.watching :=
    (hrv.field Sys.watching fun _ => rfl).trans hready.watching
  have hreg : v.registered = s.registered :=
    (hrv.field Sys.registered fun _ => rfl).trans hready.registered
  unfold runHandler
  rw [bind_apply, bind_of_ok hv, bind_of_ok (get_apply _)]
  cases hsig : v.sigchld with
  | none => exact ⟨v, rfl, .inr ⟨hoff, hq, htype, hrunning, hwatching, hreg⟩⟩
  | some handler =>
    dsimp only
    by_cases herr : handler.err = .noError
    · rw [if_neg (by simpa using herr), bind_of_ok (modify_apply ..)]
      set w : Sys := { v with sigchld := some { handler with callbacks := true } } with hw
      have hactive : w.active = ∅ := by
        have h₁ : v.active = u.active := hrv.field Sys.active fun _ => rfl
        have h₂ := congrArg Sys.active hready.frame
        exact h₁.trans (h₂.trans ha)
      have hctrl : w.controlPipe = s.controlPipe := by
        have h₁ : v.controlPipe = u.controlPipe := hrv.field Sys.controlPipe fun _ => rfl
        have h₂ := congrArg Sys.controlPipe hready.frame
        exact h₁.trans h₂
      have hloop : v.array .loop = u.array .loop := hrv.field (Sys.array · .loop) fun _ => rfl
      have hmw : w.Mirrored := by
        have := (hready.mirrored hr).congr (t := v) (hrv.field Sys.loopType fun _ => rfl)
          (hrv.field Sys.registerFn fun _ => rfl) (hrv.field Sys.loop fun _ => rfl)
          (hrv.field Sys.registered fun _ => rfl)
        exact this.congr rfl rfl rfl rfl
      obtain ⟨x, hrw, hon, hx⟩ := runRegister_ok hmw (hisov.owns.congr rfl rfl) (hctrl ▸ hc)
        (fun hd => by
          show (v.array .loop).rd ≠ -1
          rw [hloop]
          exact (hready.loop (htype.symm.trans hd)).1) hactive (hreg.trans hr)
      refine ⟨{ x with running := true, watching := true }, ?_, .inl ⟨?_, ?_, ?_, rfl, rfl, hon, ?_⟩⟩
      · exact bind_of_ok (hx _)
      · have hxv : x.offStart = v.offStart := hrw.offStart
        exact hxv.trans hoff
      · have hvw : Uncalled v w := Uncalled.same rfl
        have hwx : Uncalled w x := hrw.told.uncalled
        exact IsTrans.trans _ _ _ hq (IsTrans.trans _ _ _ hvw (IsTrans.trans _ _ _ hwx (Uncalled.same rfl)))
      · exact (hrw.field Sys.loopType fun _ _ _ _ _ _ => rfl).trans htype
      · intro hd
        have h₁ : x.stream .loop = v.stream .loop := hrw.loopStream
        have h₂ := hrv.loopStream hready.isolated.owns
        show (x.stream .loop).unread = []
        rw [h₁, h₂]
        exact (hready.loop hd).2
    · rw [if_pos (by simpa using herr)]
      obtain ⟨_, w, hw, hrw⟩ := multiProcessError_rehandled handler.err v
      refine ⟨w, by rw [bind_of_ok hw]; rfl, .inr ⟨hrw.offStart.trans hoff,
        IsTrans.trans _ _ _ hq hrw.uncalled, ?_, ?_, ?_, ?_⟩⟩
      · exact (hrw.field Sys.loopType fun _ => rfl).trans htype
      · exact (hrw.field Sys.running fun _ => rfl).trans hrunning
      · exact (hrw.field Sys.watching fun _ => rfl).trans hwatching
      · exact (hrw.field Sys.registered fun _ => rfl).trans hreg

end Pexec
