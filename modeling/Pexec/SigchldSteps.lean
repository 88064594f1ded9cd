import Pexec.SigchldRules
import Pexec.SigchldWakeup

namespace Pexec

open Effect Runs

variable {h : Nat} {pid : Int} {s t u : Sys} {j k : Wakeup}

/-- Some steps lead from one to the other. -/
def Wakes (j k : Wakeup) : Prop := ∃ ls, Run WakeStep j ls k

instance : IsPreorder Wakeup Wakes where
  refl _ := ⟨_, .nil⟩
  trans _ _ _ := fun ⟨_, h⟩ ⟨_, h'⟩ => ⟨_, h.append h'⟩

theorem WakeStep.wakes {l : WakeLabel} (h : WakeStep j l k) : Wakes j k := ⟨_, .snoc .nil h⟩

/-- The loop of the process has come to `phase`. -/
def Wakeup.put (j : Wakeup) (s : Sys) (phase : WakePhase) : Wakeup := { j with sys := s, phase }

/-- No call fails but by an interruption. -/
def Patient (faults : List (Option Errno)) : Prop := ∀ f ∈ faults, f = none ∨ f = some .eintr

theorem Patient.tail {faults : List (Option Errno)} (h : Patient faults) : Patient faults.tail :=
  fun f hf => h f (List.mem_of_mem_tail hf)

theorem Patient.head {faults : List (Option Errno)} {e : Errno} (h : Patient faults)
    (he : faults.head?.join = some e) : e = .eintr := by
  cases faults with
  | nil => cases he
  | cons f fs =>
    have hf : f = some e := he
    rcases h f List.mem_cons_self with hn | hi
    · cases hf.symm.trans hn
    · exact Option.some.inj (hf.symm.trans hi)

theorem SameSignals.wakes (h : SameSignals s t) (phase : WakePhase) :
    Wakes (j.put s phase) (j.put t phase) := WakeStep.wakes (.other h)

theorem sigchldOpen_iff (ho : s.Owns) : SigchldOpen s ↔ s.sigchldPipe.rd ≠ -1 := by
  constructor
  · rintro ⟨pipe, _, hr, _⟩ he
    have := FdTable.target_nonneg hr
    omega
  · exact fun hne => (ho.ends .sigchld).opened hne

theorem signals_eq (s : Sys) : s.signals = (s.stream .sigchld).unread := by
  unfold World.signals Sys.stream World.stream
  simp only [Sys.array]
  cases s.sigchldPipe.pipe with
  | none => rfl
  | some pipe => rfl

theorem Aside.sameSignals (ha : Aside s t) : SameSignals s t where
  array := ha.field (·.sigchldPipe) fun _ => rfl
  signals := ha.field (·.signals) fun _ => rfl
  disposition := ha.field (·.disposition) fun _ => rfl
  capacity := ha.field (·.capacity) fun _ => rfl
  control hs := by rwa [ha.field SigchldOpen fun _ => rfl]
  children pid hz := by rwa [← ha.field (·.zombies 0) fun _ => rfl]

/-- A callback about one process leaves the signals alone. -/
theorem Acts.sameSignals (ho : s.Owns) (ha : Acts h s t) : SameSignals s t where
  array := ha.field (·.sigchldPipe) fun _ => rfl
  signals := by
    rw [signals_eq, signals_eq, ha.streams ho .sigchld (by simp [Slot.owner]) (by simp) (by simp)]
  disposition := ha.field (·.disposition) fun _ => rfl
  capacity := ha.field (·.capacity) fun _ => rfl
  control hs := by
    have hpipe : t.sigchldPipe = s.sigchldPipe := ha.field (·.sigchldPipe) fun _ => rfl
    rw [sigchldOpen_iff (ha.carries ho).1, hpipe]
    exact (sigchldOpen_iff ho).mp hs
  children pid hz := by rwa [← ha.field (·.zombies 0) fun _ => rfl]

/-- What `handle_sigchld` does with a child that it has waited for. -/
theorem Turn.sameSignals {status : WaitStatus} (ho : s.Owns) (ht : Turn s (some (pid, status)) t) :
    SameSignals (s.reaped pid status) t := by
  cases ht with
  | foreign => exact ⟨rfl, rfl, rfl, rfl, id, fun _ => id⟩
  | own _ _ _ _ hf => exact hf.acts.sameSignals (ho.congr rfl rfl)

/-- The loop of `read_signal` takes the steps that its reads are. -/
theorem readSignalFrom_wakes (fuel : Nat) : ∀ {want got s r t}, Patient s.readFaults →
    readSignalFrom s.sigchldPipe.rd fuel want got s = .ok r t →
    Wakes (j.put s (.reading want got))
      (j.put t (if r = some World.sigchldRecord then .received else .idle)) := by
  induction fuel with
  | zero => exact fun _ h => nomatch h
  | succ fuel ih =>
    intro want got s r t hp h
    unfold readSignalFrom at h
    obtain ⟨answer, u, hu, h⟩ := bind_eq_ok.mp h
    have hstep : WakeStep (j.put s (.reading want got)) .read (j.put u (afterRead want got answer)) :=
      .read rfl (fun e he => .inl (hp.head he)) hu
    rw [call_apply] at hu
    obtain ⟨hanswer, rfl⟩ := EStateM.Result.ok.inj hu
    have hpipe : (s.toWorld.read s.sigchldPipe.rd want).2.sigchldPipe = s.sigchldPipe := by
      obtain ⟨_, _, hw⟩ := s.toWorld.read_frame s.sigchldPipe.rd want
      rw [hw]
    have hrest : ∀ {want' got'}, readSignalFrom s.sigchldPipe.rd fuel want' got'
          { s with toWorld := (s.toWorld.read s.sigchldPipe.rd want).2 } = .ok r t →
        Wakes (j.put { s with toWorld := (s.toWorld.read s.sigchldPipe.rd want).2 }
          (.reading want' got')) (j.put t (if r = some World.sigchldRecord then .received else .idle)) := by
      intro want' got' h
      refine ih ?_ ?_
      · exact (World.read_faults s.toWorld s.sigchldPipe.rd want).symm ▸ hp.tail
      · exact hpipe.symm ▸ h
    refine IsTrans.trans _ _ _ hstep.wakes ?_
    cases answer with
    | error e =>
      cases e with
      | eintr => exact hrest h
      | echild | eagain | ebadf | other code =>
        cases h
        exact Std.Refl.refl _
    | ok data =>
      dsimp only at h
      unfold afterRead
      dsimp only
      split at h
      next hdone =>
        cases h
        rw [if_pos hdone]
        simp only [Option.some.injEq]
        exact Std.Refl.refl _
      next hmore =>
        rw [if_neg hmore]
        exact hrest h

/-- The loop of `handle_sigchld` takes the steps that its calls of `waitpid` are; what it does with
the children is no step of its own. -/
theorem sigchldLoop_wakes (fuel : Nat) : ∀ {s t}, Sound s → Patient s.faults →
    sigchldLoop fuel s = .ok () t →
      Wakes (j.put s .waiting) (j.put t .leaving) ∧ Sound t ∧ Patient t.faults := by
  induction fuel with
  | zero => exact fun _ _ h => nomatch h
  | succ fuel ih =>
    intro s t hs hp h
    unfold sigchldLoop at h
    obtain ⟨result, u, hu, h⟩ := bind_eq_ok.mp h
    have hstep : WakeStep (j.put s .waiting) .wait (j.put u (afterWait (waitTurn result))) :=
      .wait rfl (fun e he => hp.head he) hu
    rw [call_apply] at hu
    obtain ⟨hres, hw⟩ := EStateM.Result.ok.inj hu
    have ha := s.toWorld.waitpid_answer 0
    rw [hres] at ha
    rw [bind_of_ok (emit_apply ..)] at h
    subst hw
    suffices hrest : Wakes (j.put { s with toWorld := (s.toWorld.waitpid 0).2 }
        (afterWait (waitTurn result))) (j.put t .leaving) ∧ Sound t ∧ Patient t.faults from
      ⟨IsTrans.trans _ _ _ hstep.wakes hrest.1, hrest.2⟩
    generalize (s.toWorld.waitpid 0).2 = w at ha h ⊢
    have hwaited : ∀ r, Sound (s.waited r) := fun r =>
      ⟨hs.isolated.waited r, (waited_aside s r).on hs.on⟩
    have hemit : ∀ r phase, Wakes
        (j.put { s with toWorld := { s.toWorld with faults := s.faults.tail } } phase)
        (j.put (s.waited r) phase) := fun r phase => by
      refine SameSignals.wakes ?_ phase
      exact ⟨rfl, rfl, rfl, rfl, id, fun _ => id⟩
    cases ha with
    | failed fault =>
      obtain rfl := hp.head fault
      obtain ⟨hwakes, hend⟩ := ih (hwaited (.failed .eintr)) hp.tail h
      exact ⟨IsTrans.trans _ _ _ (hemit _ _) hwakes, hend⟩
    | echild =>
      cases h
      exact ⟨hemit _ _, hwaited (.failed .echild), hp.tail⟩
    | unavailable =>
      cases h
      exact ⟨hemit _ _, hwaited .unavailable, hp.tail⟩
    | @reaped p child status hm hl hst =>
      obtain ⟨v, hv, hturn, hsound⟩ := onSignal_turn hs hm hl hst
      obtain ⟨_, v', hv', h⟩ := bind_eq_ok.mp h
      cases (hv.symm.trans hv')
      have hfaults : v.faults = s.faults.tail := hturn.reaped.2.1
      have hsame := hturn.sameSignals hs.isolated.owns
      obtain ⟨hwakes, hend⟩ := ih hsound (hfaults ▸ hp.tail) h
      refine ⟨IsTrans.trans _ _ _ (SameSignals.wakes ?_ .waiting) hwakes, hend⟩
      exact ⟨hsame.array, hsame.signals, hsame.disposition, hsame.capacity, hsame.control, hsame.children⟩

/-- One of the two calls of `sigprocmask`, with the error that it reports where it fails. -/
theorem mask_wakes {block : Bool} {e : Error} {phase next : WakePhase} {label : WakeLabel} (hs : Sound s)
    (hstep : ∀ {ok u}, call (World.sigprocmask · block) s = .ok ok u →
      WakeStep (j.put s phase) label (j.put u next))
    (hp : Patient s.faults)
    (ht : (do if !(← call (World.sigprocmask · block)) then handlerProcessError e : Prog Unit) s =
      .ok () t) : Wakes (j.put s phase) (j.put t next) ∧ Sound t ∧ Patient t.faults := by
  obtain ⟨ok, u, hu, ht⟩ := bind_eq_ok.mp ht
  have hsound : Sound u :=
    ⟨(sigprocmask_isolated block).ok hs.isolated hu, ((sigprocmask_aside block).ok hu).on hs.on⟩
  have hfaults : u.faults = s.faults.tail := by
    rw [call_apply] at hu
    cases hu
    exact World.sigprocmask_faults s.toWorld block
  have hpu : Patient u.faults := hfaults ▸ hp.tail
  cases ok with
  | true =>
    cases ht
    exact ⟨(hstep hu).wakes, hsound, hpu⟩
  | false =>
    obtain ⟨v, hv, hkept⟩ := handlerProcessError_ok e u
    have hvt : handlerProcessError e u = .ok () t := ht
    cases hv.symm.trans hvt
    have haside := (handlerProcessError_aside e).ok hv
    exact ⟨IsTrans.trans _ _ _ (hstep hu).wakes (haside.sameSignals.wakes _),
      ⟨(handlerProcessError_isolated e).ok hsound.isolated hv, haside.on hsound.on⟩, hkept ▸ hpu⟩

theorem handleSigchld_wakes (hs : Sound s) (hp : Patient s.faults) (ht : handleSigchld s = .ok () t) :
    Wakes (j.put s .received) (j.put t .idle) := by
  rw [handleSigchld_split] at ht
  obtain ⟨_, a, ha, ht⟩ := bind_eq_ok.mp ht
  rw [bind_of_ok (get_apply _)] at ht
  obtain ⟨_, b, hb, ht⟩ := bind_eq_ok.mp ht
  have hstep : ∀ {ok u}, call (World.sigprocmask · true) s = .ok ok u →
      WakeStep (j.put s .received) .block (j.put u .waiting) := fun hu => .block rfl hu
  obtain ⟨hblock, hsa, hpa⟩ := mask_wakes hs hstep hp ha
  obtain ⟨hloop, hsb, hpb⟩ := sigchldLoop_wakes (j := j) _ hsa hpa hb
  have hstep' : ∀ {ok u}, call (World.sigprocmask · false) b = .ok ok u →
      WakeStep (j.put b .leaving) .unblock (j.put u .idle) := fun hu => .unblock rfl hu
  obtain ⟨hunblock, _, _⟩ := mask_wakes hsb hstep' hpb ht
  exact IsTrans.trans _ _ _ hblock (IsTrans.trans _ _ _ hloop hunblock)

/-- What the loop calls for the signal pipe takes the steps of `WakeStep`, from the wake-up until it
waits for the next one: so whatever else happens between them, no wake-up is lost. -/
theorem readSignal_wakes {ret : EventReturn} (hs : Sound s) (hr : Patient s.readFaults)
    (hf : Patient s.faults) (ht : readSignal s = .ok ret t) : Wakes (j.put s .idle) (j.put t .idle) := by
  unfold readSignal at ht
  rw [bind_of_ok (get_apply _)] at ht
  obtain ⟨signal, u, hu, ht⟩ := bind_eq_ok.mp ht
  have hdrained := readSignalFrom_drained (s.readFaults.length + 4) 4 [] s hs.isolated.owns
  have hiso := readSignalFrom_isolated (s.readFaults.length + 4) s.sigchldPipe.rd 4 [] s ⟨hs.isolated, rfl⟩
  rw [hu] at hdrained hiso
  have hsu : Sound u := ⟨hiso, hdrained.on hs.on⟩
  have hfu : Patient u.faults := (hdrained.field (·.faults) fun _ _ _ => rfl).symm ▸ hf
  have hwake : WakeStep (j.put s .idle) .wake (j.put s (.reading 4 [])) := .wake rfl
  refine IsTrans.trans _ _ _ hwake.wakes (IsTrans.trans _ _ _ (readSignalFrom_wakes _ hr hu) ?_)
  cases signal with
  | none =>
    cases ht
    exact Std.Refl.refl _
  | some signal =>
    simp only [Option.some.injEq]
    dsimp only at ht
    by_cases hrec : signal = World.sigchldRecord
    · rw [if_pos hrec] at ht ⊢
      obtain ⟨_, v, hv, ht⟩ := bind_eq_ok.mp ht
      cases ht
      exact handleSigchld_wakes hsu hfu hv
    · rw [if_neg hrec] at ht ⊢
      cases ht
      exact Std.Refl.refl _

theorem readSignal_keeps_wakeup {ret : EventReturn} (hs : Sound s) (hr : Patient s.readFaults)
    (hf : Patient s.faults) (ht : readSignal s = .ok ret t) (hj : WakeSound (j.put s .idle)) :
    WakeSound (j.put t .idle) := by
  obtain ⟨_, hrun⟩ := readSignal_wakes hs hr hf ht
  exact hrun.invariant hj fun _ _ _ => wakeStep_sound

end Pexec
