import Pexec.LaunchErrors
import Pexec.LifeDescriptors

namespace Pexec

open Effect Runs

variable {base : FdTable} {lost : List PipeFds} {pipe : Option Nat} {h : Nat} {pid fd : Int} {slot : Slot}
  {array : Slot → PipeFds} {s t u : Sys}

/-- The books are even where every pipe of them is closed. -/
theorem Books.neutral_iff {fds : FdTable} (hb : Books base lost fds array) :
    Neutral base.bare fds.bare ↔ ∀ i, (held array lost i).rd = -1 := by
  constructor
  · intro hn i
    by_contra hopen
    obtain ⟨_, _, hget, _⟩ := (hb.owned.bare.ends i).held hopen
    have hfree := (hb.ledger.fresh i trivial hopen).1
    rw [hn.same, hfree] at hget
    cases hget
  · exact fun hc => hb.ledger.neutral fun i _ => ⟨hc i, (hb.owned.ends i).closed_wr (hc i)⟩

theorem Books.lost_open {fds : FdTable} (hb : Books base lost fds array) (hlost : ∀ p ∈ lost, p.rd ≠ -1) :
    Neutral base.bare fds.bare ↔ lost = [] ∧ ∀ slot, (array slot).rd = -1 := by
  rw [hb.neutral_iff]
  constructor
  · intro hc
    refine ⟨List.eq_nil_iff_forall_not_mem.mpr fun p hp => hlost p hp ?_, fun slot => hc (.inl slot)⟩
    obtain ⟨n, hn, hget⟩ := List.getElem_of_mem hp
    have hlast := hc (.inr n)
    rwa [held, Sum.elim_inr, List.getD_eq_getElem?_getD, List.getElem?_eq_getElem hn, hget] at hlast
  · rintro ⟨rfl, hc⟩ (slot | n)
    · exact hc slot
    · rfl

/-- Before anything is opened. -/
theorem Books.start {fds : FdTable} (hunused : ∀ slot, array slot = {}) : Books fds [] fds array := by
  have hheld : ∀ i, held array [] i = {} := by
    rintro (slot | n)
    · exact hunused slot
    · rfl
  refine ⟨⟨fun i => .inl (by rw [hheld]; exact ⟨rfl, rfl⟩), fun i j pipe hi => ?_, fun i pipe hi => ?_,
    fun i pipe x target hi => ?_⟩, .start fun i _ => by rw [hheld]⟩
  all_goals
    rw [hheld] at hi
    cases hi

theorem newMulti_tidy {w : World} (hnew : newMulti (boot w) = .ok () s) : Tidy w.fds [] none s := by
  have hunused : ∀ slot, (boot w).array slot = {} := fun slot => by cases slot <;> rfl
  have hopen : OpenedInto .control (boot w) s := by
    rw [newMulti_ok hnew]
    refine ⟨⟨_, _, rfl, ?_⟩, rfl⟩
    funext slot
    cases slot <;> simp [Sys.array]
  have hbooks := (hopen.books (Books.start hunused)).1 (by rw [hunused])
  have hsignal : s.sigchldPipe = {} := hopen.array_ne (show Slot.sigchld ≠ .control by simp)
  refine ⟨⟨hbooks, fun p hp => absurd hp List.not_mem_nil, fun slot ho => ?_, by rw [hsignal]⟩, fun ho => ?_⟩
  · by_cases hslot : slot = .control
    · exact .inl (by simp [hslot])
    · rw [hopen.array_ne hslot, hunused] at ho
      exact absurd rfl ho
  · rw [hsignal] at ho
    exact absurd rfl ho

/-- A step that loses no pipe. -/
def KeepsPipes (s : Sys) (l : Label) (t : Sys) : Prop := Under PreviousFinished Step s l t ∧ ¬Overwrites s t

/-- An active process has its pipes. -/
def Busy (s : Sys) : Prop := ∀ pid h, s.active.lookup pid = some h → (s.array (.watch h)).rd ≠ -1

theorem Busy.same (hs : Busy s) (hw : ∀ h, t.array (.watch h) = s.array (.watch h)) (ha : t.active = s.active) :
    Busy t := by
  intro pid h hl
  rw [ha] at hl
  rw [hw]
  exact hs pid h hl

theorem On.busy (hon : On s) : Busy s := fun pid h hl => (hon.served pid h hl).ready _ (by simp [objectSlots])

theorem Busy.step {l : Label} (hlife : Life s) (hs : Busy s) (hstep : Under PreviousFinished Step s l t) : Busy t := by
  obtain ⟨hp, he, ht⟩ := hstep
  cases l with
  | exec args hasOnStop =>
    obtain ⟨t', ht', hsent⟩ := multiExec_ok hlife.isolated args hasOnStop
    cases (show multiExec args hasOnStop s = .ok () t from ht).symm.trans ht'
    refine hs.same (fun h => ?_) (hsent.field Sys.active fun _ _ _ _ => rfl)
    exact (hsent.field (·.array (.watch h)) fun _ _ _ _ => rfl).trans
      (congrFun (hlife.isolated.issue_array args hasOnStop) _)
  | stop flag signum =>
    obtain ⟨t', ht', hsent⟩ := sendJob_ok hlife.isolated.owns (some (.stop flag signum))
    cases (show sendJob (some (.stop flag signum)) s = .ok () t from ht).symm.trans ht'
    exact hs.same (fun h => hsent.field (·.array (.watch h)) fun _ _ _ _ => rfl) (hsent.field Sys.active fun _ _ _ _ => rfl)
  | env act =>
    cases ht
    have hel := envAct_elsewhere act s
    exact hs.same (fun h => congrFun (EnvAct.array act s) _) (hel.field Sys.active fun _ _ _ _ => rfl)
  | run type c =>
    intro pid h hl
    rcases hlife.run_cases (c := c) hp with ⟨e, t', ht', _⟩ | ⟨t', ht', hcases⟩
    · cases ht.symm.trans ht'
    · cases ht.symm.trans ht'
      have hactive : t.active = (s.choose c).active := by
        rcases hcases with hstarted | hrefused
        · exact hstarted.field Sys.active fun _ => rfl
        · exact hrefused.field Sys.active fun _ => rfl
      rw [hactive, show (s.choose c).active = ∅ from hp.1, AList.lookup_empty] at hl
      cases hl
  | event fd c =>
    have hcases := hlife.event_cases he
    rw [ht] at hcases
    rcases hcases with ⟨hon, _⟩ | hint
    · exact hon.busy
    · obtain ⟨u, hd, hend⟩ := hint.ended
      have hu : Busy u := hs.same (fun h => hd.field (·.array (.watch h)) fun _ _ _ => rfl)
        (hd.field Sys.active fun _ _ _ => rfl)
      exact hu.same (fun h => hend.field (·.array (.watch h)) fun _ => rfl) (hend.field Sys.active fun _ => rfl)
  | selectError =>
    obtain ⟨t', ht', hend⟩ := selectFails_ok s
    cases (show selectFails s = .ok () t from ht).symm.trans ht'
    exact hs.same (fun h => hend.field (·.array (.watch h)) fun _ => rfl) (hend.field Sys.active fun _ => rfl)

/-- Where the descriptors of a life are: the lost pipes are those of the steps that overwrote one. -/
theorem life_tidy {w : World} {ls : List Label} (hnew : newMulti (boot w) = .ok () s)
    (hrun : Run (Under PreviousFinished Step) s ls t) :
    Life t ∧ Busy t ∧ ∃ lost pipe, Tidy w.fds lost pipe t ∧ (lost = [] → Run KeepsPipes s ls t) := by
  induction hrun with
  | nil =>
    refine ⟨newMulti_life hnew, fun pid h hl => ?_, [], none, newMulti_tidy hnew, fun _ => .nil⟩
    rw [newMulti_ok hnew] at hl
    cases hl
  | snoc hrun hstep ih =>
    obtain ⟨hlife, hbusy, lost, pipe, htidy, hkept⟩ := ih
    have hnext := life_step hlife hstep.2.1 hstep.1
    rw [hstep.2.2] at hnext
    refine ⟨hnext, hbusy.step hlife hstep, ?_⟩
    rcases htidy.step hlife hstep with ⟨hkeeps, pipe', htidy'⟩ | ⟨_, pipe', htidy'⟩
    · exact ⟨lost, pipe', htidy', fun hl => .snoc (hkept hl) ⟨hstep, hkeeps⟩⟩
    · exact ⟨_, pipe', htidy', fun hl => absurd hl (by simp)⟩

/-- Where no step loses a pipe, none is lost. -/
theorem keeps_tidy {w : World} {ls : List Label} (hnew : newMulti (boot w) = .ok () s)
    (hrun : Run KeepsPipes s ls t) : ∃ pipe, Tidy w.fds [] pipe t := by
  refine (hrun.invariant (I := fun u => Life u ∧ ∃ pipe, Tidy w.fds [] pipe u)
    ⟨newMulti_life hnew, none, newMulti_tidy hnew⟩ fun a l b ⟨hlife, pipe, htidy⟩ ⟨hstep, hkeeps⟩ => ?_).2
  have hnext := life_step hlife hstep.2.1 hstep.1
  rw [hstep.2.2] at hnext
  rcases htidy.step hlife hstep with ⟨_, pipe', htidy'⟩ | ⟨hloses, _⟩
  · exact ⟨hnext, pipe', htidy'⟩
  · exact absurd hloses hkeeps

theorem closeControl_closes (s : Sys) : Closes s { s with
    toWorld := s.toWorld.closePipe s.controlPipe
    controlPipe := s.controlPipe.closed } := by
  obtain ⟨fds, hw⟩ := s.toWorld.closePipe_frame s.controlPipe
  refine Closes.closePipe (show s.array .control = s.controlPipe from rfl) (.inl rfl) rfl ?_ ?_
  · rw [hw]
    funext slot
    cases slot <;> simp [Sys.array]
  · rw [hw]
    exact .inl ⟨rfl, rfl⟩

/-- The destructor down to its last member closes the control pipe and that of a loop. -/
theorem destroyMulti_loop (s : Sys) : ∃ fds, Closes s { s with
      fds
      controlPipe := s.controlPipe.closed
      loop := none } ∧ destroyMulti s = (do
    match s.sigchld with
    | some handler => destroySigchldHandler handler
    | none => pure ()
    modify fun s => { s with sigchld := none } : Prog Unit) { s with
      fds
      controlPipe := s.controlPipe.closed
      loop := none } := by
  have hcontrol := closeControl_closes s
  obtain ⟨fds, hw⟩ := s.toWorld.closePipe_frame s.controlPipe
  rw [hw] at hcontrol
  unfold destroyMulti
  rw [bind_of_ok (get_apply _), bind_of_ok (onWorld_apply ..), bind_of_ok (modify_apply ..), hw]
  cases hl : s.loop with
  | none =>
    rw [hl] at hcontrol
    exact ⟨fds, hcontrol, bind_of_ok (modify_apply ..)⟩
  | some e =>
    have hloop := closedLoop_closes (s := { s with
      fds
      controlPipe := s.controlPipe.closed }) hl
    obtain ⟨fds', hw'⟩ := World.closePipe_frame { s.toWorld with fds } e.controlPipe
    dsimp only at hloop ⊢
    rw [hw'] at hloop
    refine ⟨fds', IsTrans.trans _ _ _ hcontrol hloop, ?_⟩
    rw [bind_of_ok (onWorld_apply ..)]
    dsimp only
    rw [hw']
    exact bind_of_ok (modify_apply ..)

/-- Where the disposition cannot be restored, the pipe is left open. -/
theorem destroySigchldHandler_fails (handler : SigchldHandler) {e : Errno} (ha : s.sigchldActive = true)
    (hf : s.faults.head?.join = some e) :
    ∃ u, destroySigchldHandler handler s = .ok () u ∧ u.sigchldPipe = s.sigchldPipe := by
  unfold destroySigchldHandler sigchldResetSignalHandler
  rw [bind_apply, bind_of_ok (get_apply _), ha, if_neg (by decide), bind_of_ok (call_apply ..),
    World.sigaction_of_fault hf]
  dsimp only
  rw [pure_apply]
  dsimp only
  rw [Bool.not_false, if_pos rfl]
  cases handler.callbacks with
  | true => exact ⟨_, rfl, rfl⟩
  | false => exact ⟨_, rfl, rfl⟩

/-- A handler that is destroyed leaves no pipe, unless its `sigaction` fails. -/
theorem destroySigchldHandler_shuts (handler : SigchldHandler)
    (hactive : s.sigchldPipe.rd ≠ -1 → s.sigchldActive = true) :
    ∃ u, destroySigchldHandler handler s = .ok () u ∧ Closes s u ∧
      (u.sigchldPipe.rd = -1 ↔ (s.sigchldPipe.rd ≠ -1 → s.faults.head?.join = none)) ∧
      ∀ h, u.array (.watch h) = s.array (.watch h) := by
  obtain ⟨_, u, hu, hr⟩ := destroySigchldHandler_rehandled handler s
  have hcloses := (destroySigchldHandler_closes handler).ok hu
  refine ⟨u, hu, hcloses, ?_, fun h => hr.field (·.array (.watch h)) fun _ => rfl⟩
  by_cases hclosed : s.sigchldPipe.rd = -1
  · exact iff_of_true (hcloses.shut .sigchld hclosed) fun hopen => absurd hclosed hopen
  · cases hf : s.faults.head?.join with
    | none =>
      obtain ⟨u', hu', hhandler, _⟩ := destroySigchldHandler_ok handler (hactive hclosed) hf
      cases hu.symm.trans hu'
      exact iff_of_true (congrArg (·.1.rd) hhandler) fun _ => rfl
    | some e =>
      obtain ⟨u', hu', hpipe⟩ := destroySigchldHandler_fails handler (hactive hclosed) hf
      cases hu.symm.trans hu'
      exact iff_of_false (hpipe ▸ hclosed) fun hnone => nomatch hnone hclosed

/-- What the destructor leaves open: the pipe of a handler that was given up before or whose disposition
cannot be restored, and those of the processes. -/
theorem destroyMulti_closes (hs : Tidy base lost pipe s) :
    ∃ u, destroyMulti s = .ok () u ∧ Closes s u ∧ (u.array .control).rd = -1 ∧ (u.array .loop).rd = -1 ∧
      ((u.array .sigchld).rd = -1 ↔
        (s.sigchldPipe.rd ≠ -1 → s.sigchld ≠ none ∧ s.faults.head?.join = none)) ∧
      ∀ h, u.array (.watch h) = s.array (.watch h) := by
  obtain ⟨fds, hcloses, hrun⟩ := destroyMulti_loop s
  rw [hrun]
  cases hsig : s.sigchld with
  | none =>
    refine ⟨_, rfl, IsTrans.trans _ _ _ hcloses (.same rfl rfl rfl), rfl, rfl, ?_, fun _ => rfl⟩
    refine ⟨fun hclosed hopen => absurd hclosed hopen, fun hclosed => ?_⟩
    by_contra hopen
    exact (hclosed hopen).1 rfl
  | some handler =>
    rw [hsig] at hcloses
    obtain ⟨u, hu, hends, hclosed, hwatch⟩ := destroySigchldHandler_shuts handler (s := { s with
      sigchld := some handler
      fds
      controlPipe := s.controlPipe.closed
      loop := none }) hs.signal
    have hall := IsTrans.trans _ _ _ hcloses hends
    refine ⟨_, bind_of_ok hu, IsTrans.trans _ _ _ hall (.same rfl rfl rfl), ?_, ?_, ?_, hwatch⟩
    · exact hends.shut .control rfl
    · exact hends.shut .loop rfl
    · exact hclosed.trans (forall_congr' fun _ => (and_iff_right (Option.some_ne_none _)).symm)

/-- A whole life is neutral for descriptors: after the destructor everything is as before the object was
made, and both ends of each pipe that was created since were closed once. It is so exactly if no run has put
the pipe of its handler over one that was still open, no process is left, and if the signal pipe is still
open, then its handler was not given up and the destructor can restore the disposition. -/
theorem life_neutral_iff {w : World} {ls : List Label} {c : Choices} (hnew : newMulti (boot w) = .ok () s)
    (hrun : Run (Under PreviousFinished Step) s ls t) :
    ∃ u, destroyMulti (t.choose c) = .ok () u ∧ (Neutral w.fds.bare u.fds.bare ↔
      Run KeepsPipes s ls t ∧ t.active = ∅ ∧
        (t.sigchldPipe.rd ≠ -1 → t.sigchld ≠ none ∧ c.faults.head?.join = none)) := by
  obtain ⟨_, hbusy, lost, pipe, htidy, hkept⟩ := life_tidy hnew hrun
  have hchosen : Tidy w.fds lost pipe (t.choose c) := htidy.same rfl rfl rfl rfl
  obtain ⟨u, hu, hcloses, hcontrol, hloop, hsignal, hwatch⟩ := destroyMulti_closes hchosen
  refine ⟨u, hu, ?_⟩
  constructor
  · intro hn
    obtain ⟨hlost, hclosed⟩ := ((hcloses.books _ _ hchosen.books).lost_open hchosen.lost).mp hn
    refine ⟨hkept hlost, AList.ext (List.eq_nil_iff_forall_not_mem.mpr fun e he => ?_), hsignal.mp (hclosed _)⟩
    exact hbusy e.1 e.2 (AList.mem_lookup_iff.mpr he) ((congrArg PipeFds.rd (hwatch e.2)).symm.trans (hclosed _))
  · rintro ⟨hkeeps, hidle, hgiven⟩
    obtain ⟨pipe', htidy'⟩ := keeps_tidy hnew hkeeps
    have hbooks := hcloses.books w.fds [] (show Books w.fds [] (t.choose c).fds (t.choose c).array from htidy'.books)
    refine (hbooks.lost_open fun p hp => absurd hp List.not_mem_nil).mpr ⟨rfl, fun slot => ?_⟩
    by_contra hopen
    rcases hchosen.shut slot fun hc => hopen (hcloses.shut slot hc) with hslot | ⟨h, pid, _, hl⟩
    · simp only [List.mem_cons, List.not_mem_nil, or_false] at hslot
      rcases hslot with rfl | rfl | rfl
      · exact hopen hcontrol
      · exact hopen (hsignal.mpr hgiven)
      · exact hopen hloop
    · rw [show (t.choose c).active = ∅ from hidle, AList.lookup_empty] at hl
      cases hl

instance (s t : Sys) : Decidable (Overwrites s t) := inferInstanceAs (Decidable (_ ∧ _))

theorem toldMulti_keeps : Run KeepsPipes freshMulti ([] ++ [.exec ['a'] false] ++ [.run .default {}] ++ [.event 0 {}] ++
    [.env (.exit 1 ⟨0x6400, terminated_exit100⟩)] ++ [.env .sigchld] ++ [.event 4 {}]) toldMulti := by
  refine .snoc (.snoc (.snoc (.snoc (.snoc (.snoc .nil ⟨⟨trivial, step_after ?_⟩, ?_⟩) ⟨⟨⟨rfl, rfl⟩, step_after ?_⟩, ?_⟩)
    ⟨⟨trivial, step_after ?_⟩, ?_⟩) ⟨⟨trivial, trivial, rfl⟩, ?_⟩) ⟨⟨trivial, trivial, rfl⟩, ?_⟩) ⟨toldMulti_step, ?_⟩ <;>
  decide +kernel

theorem toldMulti_left : toldMulti.active = ∅ ∧ toldMulti.sigchld.isSome = true :=
  ⟨AList.ext (by decide +kernel), by decide +kernel⟩

theorem life_neutral_iff_told :
    ∃ u, destroyMulti (toldMulti.choose {}) = .ok () u ∧ Neutral (boot {}).fds.bare u.fds.bare := by
  obtain ⟨u, hu, hiff⟩ := life_neutral_iff (c := {}) freshMulti_ok (hundredMulti_run.snoc toldMulti_step)
  obtain ⟨hidle, hsome⟩ := toldMulti_left
  exact ⟨u, hu, hiff.mpr ⟨toldMulti_keeps, hidle, fun _ => ⟨Option.isSome_iff_ne_none.mp hsome, rfl⟩⟩⟩

end Pexec
