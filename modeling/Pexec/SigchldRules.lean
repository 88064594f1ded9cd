import Pexec.Dispatching

namespace Pexec

open Effect

variable {J : Sys → Prop} {pid : Int} {s t : Sys}

/-- The parts of the callback keep `J` in a process that is in order. -/
structure SigchldKeeps (J : Sys → Prop) : Prop where
  read : ∀ {s t : Sys} {signal}, Sound s → J s →
    readSignalFrom s.sigchldPipe.rd (s.readFaults.length + 4) 4 [] s = .ok signal t → J t
  mask : ∀ {s : Sys} (block : Bool), Sound s → J s →
    J { s with toWorld := (s.toWorld.sigprocmask block).2 }
  error : ∀ {s t : Sys} {e}, Sound s → J s → handlerProcessError e s = .ok () t → J t
  waited : ∀ {s : Sys} (r : WaitResult), Sound s → J s → J (s.waited r)
  signal : ∀ {s t : Sys} {pid} {status : { status : WaitStatus // Terminated status }}, Sound s → J s →
    onSignal pid status (s.reaped pid status) = .ok () t → J t

theorem SigchldKeeps.error_keeps (hJ : SigchldKeeps J) (e : Error) :
    Keeps (fun s => Sound s ∧ J s) (handlerProcessError e) := by
  intro s hs
  have hiso := handlerProcessError_isolated e s hs.1.isolated
  have haside := handlerProcessError_aside e
  obtain ⟨t, ht, _⟩ := handlerProcessError_ok e s
  rw [ht] at hiso ⊢
  exact ⟨⟨hiso, (haside.ok ht).on hs.1.on⟩, hJ.error hs.1 hs.2 ht⟩

theorem SigchldKeeps.mask_keeps (hJ : SigchldKeeps J) (block : Bool) :
    Keeps (fun s => Sound s ∧ J s) (call (World.sigprocmask · block)) := by
  intro s hs
  have haside := sigprocmask_aside block s
  have hiso := sigprocmask_isolated block s hs.1.isolated
  exact ⟨⟨hiso, haside.on hs.1.on⟩, hJ.mask block hs.1 hs.2⟩

theorem SigchldKeeps.loop_keeps (hJ : SigchldKeeps J) (fuel : Nat) :
    Keeps (fun s => Sound s ∧ J s) (sigchldLoop fuel) := by
  induction fuel with
  | zero => exact fun _ hs => hs
  | succ fuel ih =>
    intro s hs
    have hwaited : ∀ r, Sound (s.waited r) ∧ J (s.waited r) := fun r =>
      ⟨⟨hs.1.isolated.waited r, (waited_aside s r).on hs.1.on⟩, hJ.waited r hs.1 hs.2⟩
    have ha := s.toWorld.waitpid_answer 0
    unfold sigchldLoop
    rw [bind_of_ok (call_apply ..)]
    generalize s.toWorld.waitpid 0 = r at ha ⊢
    obtain ⟨result, w⟩ := r
    dsimp only at ha ⊢
    rw [bind_of_ok (emit_apply ..)]
    cases ha with
    | @failed e =>
      have hfail := hJ.error_keeps .waitpidError _ (hwaited (.failed e))
      cases e with
      | echild => exact hwaited _
      | eintr => exact ih _ (hwaited (.failed .eintr))
      | eagain | ebadf | other code => exact hfail
    | echild => exact hwaited (.failed .echild)
    | unavailable => exact hwaited .unavailable
    | @reaped p child status hm hl hst =>
      obtain ⟨t, ht, _, hsound⟩ := onSignal_turn hs.1 hm hl hst
      exact (congrArg (Outcome _ _) (bind_of_ok ht)).mpr (ih t ⟨hsound, hJ.signal hs.1 hs.2 ht⟩)

theorem SigchldKeeps.handle_keeps (hJ : SigchldKeeps J) : Keeps (fun s => Sound s ∧ J s) handleSigchld := by
  have hunblock : Keeps (fun s => Sound s ∧ J s) (do
      if !(← call (World.sigprocmask · false)) then handlerProcessError .sigUnblockError : Prog Unit) :=
    (hJ.mask_keeps false).bind fun _ =>
      Triple.ite (fun _ => hJ.error_keeps _) fun _ => Triple.pure fun _ => id
  have hloop : Keeps (fun s => Sound s ∧ J s) (do
      let s ← get
      sigchldLoop (s.faults.length + s.children.keys.length + 1)
      if !(← call (World.sigprocmask · false)) then handlerProcessError .sigUnblockError : Prog Unit) :=
    Triple.get_bind fun s hs t ht => ((hJ.loop_keeps _).bind fun _ => hunblock) t (ht ▸ hs)
  exact (hJ.mask_keeps true).bind fun _ =>
    Triple.ite (fun _ => (hJ.error_keeps _).bind fun _ => hloop) fun _ => hloop

theorem SigchldKeeps.read_keeps (hJ : SigchldKeeps J) :
    Triple (fun s => Sound s ∧ J s) readSignal (fun _ s => Sound s ∧ J s) (fun _ _ => True) := by
  intro s hs
  have hdrained := readSignalFrom_drained (s.readFaults.length + 4) 4 [] s hs.1.isolated.owns
  have hiso := readSignalFrom_isolated (s.readFaults.length + 4) s.sigchldPipe.rd 4 [] s ⟨hs.1.isolated, rfl⟩
  unfold readSignal
  rw [bind_of_ok (get_apply _)]
  cases hr : readSignalFrom s.sigchldPipe.rd (s.readFaults.length + 4) 4 [] s with
  | error e t =>
    rw [bind_of_error hr]
    trivial
  | ok signal t =>
    rw [hr] at hdrained hiso
    have ht : Sound t ∧ J t := ⟨⟨hiso, hdrained.on hs.1.on⟩, hJ.read hs.1 hs.2 hr⟩
    rw [bind_of_ok hr]
    cases signal with
    | none => exact ht
    | some signal =>
      have hrest : Keeps (fun s => Sound s ∧ J s) (do
          if signal = World.sigchldRecord then handleSigchld
          return .nothing : Prog EventReturn) :=
        Triple.ite (fun _ => hJ.handle_keeps.bind fun _ => Triple.pure fun _ => id) fun _ =>
          Triple.pure fun _ => id
      exact (hrest t ht).imp (fun _ _ => id) fun _ _ _ => trivial

/-- The whole callback, if `handle_stop` keeps `J` too. -/
theorem SigchldKeeps.ready_keeps (hJ : SigchldKeeps J) (hs : Sound s) (hj : J s)
    (ht : onSigchldReady s = .ok () t)
    (hstop : ∀ u, Sound u → u.watching = s.watching → J u → handleStop u = .ok () t → J t) : J t := by
  unfold onSigchldReady at ht
  obtain ⟨ret, u, hu, ht⟩ := bind_eq_ok.mp ht
  obtain ⟨hsound, hju⟩ := hJ.read_keeps.ok ⟨hs, hj⟩ hu
  have hread := readSignal_serves hs
  rw [hu] at hread
  split at ht
  next => exact hstop u hsound (congrArg (·.2.2.2.1) hread.2.1.core) hju ht
  next =>
    cases ht
    exact hju

end Pexec
