import Pexec.BlockingCourse
import Pexec.SigchldReap

namespace Pexec

open Effect

/-- What is told has the property, and the answers of the reads are taken in order. -/
structure Emits (P : Event → Prop) (s t : Sys) : Prop where
  events : ∃ new, t.trace = s.trace ++ new ∧ ∀ e ∈ new, P e
  reads : t.readFaults <:+ s.readFaults

/-- A callback about the state of the object, and what its handle does besides. -/
def Event.IsNotice (h : Nat) : Event → Prop
  | .handed owner .. | .state owner .. | .onStop owner _ => owner = h
  | .register .. => True
  | _ => False

/-- All that the callbacks of the object tell. -/
def Event.Concerns (h : Nat) (e : Event) : Prop := e.IsNotice h ∨ e.IsDrain h

variable {P P' : Event → Prop} {h x : Nat} {s t : Sys}

instance : IsPreorder Sys (Emits P) where
  refl s := ⟨⟨[], (List.append_nil _).symm, fun _ hm => absurd hm List.not_mem_nil⟩, List.suffix_rfl⟩
  trans s t u hst htu := by
    obtain ⟨new, ht, hnew⟩ := hst.events
    obtain ⟨new', hu, hnew'⟩ := htu.events
    refine ⟨⟨new ++ new', by rw [hu, ht, List.append_assoc], fun e hm => ?_⟩, htu.reads.trans hst.reads⟩
    rcases List.mem_append.mp hm with hm | hm
    · exact hnew e hm
    · exact hnew' e hm

theorem Emits.mono (hs : Emits P s t) (hP : ∀ e, P e → P' e) : Emits P' s t := by
  obtain ⟨new, ht, hnew⟩ := hs.events
  exact ⟨⟨new, ht, fun e hm => hP e (hnew e hm)⟩, hs.reads⟩

theorem Emits.same (ht : t.trace = s.trace) (hr : t.readFaults = s.readFaults) : Emits P s t :=
  ⟨⟨[], by rw [ht, List.append_nil], fun _ hm => absurd hm List.not_mem_nil⟩,
    hr ▸ List.suffix_rfl⟩

theorem emit_emits {e : Event} (he : P e) : Moves (Emits P) (emit e) :=
  Moves.modify fun s => ⟨⟨[e], rfl, fun _ hm => by rwa [List.mem_singleton.mp hm]⟩, List.suffix_rfl⟩

theorem modify_emits {f : Sys → Sys} (hf : ∀ s, (f s).trace = s.trace ∧ (f s).readFaults = s.readFaults) :
    Moves (Emits P) (modify f : Prog Unit) := Moves.modify fun s => .same (hf s).1 (hf s).2

theorem call_emits {α : Type} {f : World → α × World}
    (hf : ∀ w, (f w).2.trace = w.trace ∧ (f w).2.readFaults = w.readFaults) : Moves (Emits P) (call f) :=
  fun s => .same (hf s.toWorld).1 (hf s.toWorld).2

theorem write_emits (f : World → Int) (data : List UInt8) :
    Moves (Emits P) (onWorld fun w => w.write (f w) data) := by
  refine modify_emits fun s => ?_
  obtain ⟨pipes, hw⟩ := s.toWorld.write_frame (f s.toWorld) data
  simp [hw]

theorem read_emits (fd : Int) (count : Nat) : Moves (Emits P) (call (World.read · fd count)) := by
  intro s
  obtain ⟨readFaults, pipes, hw⟩ := s.toWorld.read_frame fd count
  have hreads := World.read_faults s.toWorld fd count
  rw [call_apply]
  rw [hw] at hreads ⊢
  refine ⟨⟨[], (List.append_nil _).symm, fun _ hm => absurd hm List.not_mem_nil⟩, ?_⟩
  show readFaults <:+ s.readFaults
  rw [show readFaults = s.readFaults.tail from hreads]
  exact List.tail_suffix _

theorem sigprocmask_emits (block : Bool) : Moves (Emits P) (call (World.sigprocmask · block)) := by
  refine call_emits fun w => ?_
  obtain ⟨faults, sigchldBlocked, hw⟩ := w.sigprocmask_frame block
  rw [hw]
  exact ⟨rfl, rfl⟩

theorem modifyProc_emits (f : PexecSingle → PexecSingle) : Moves (Emits P) (modifyProc h f) :=
  modify_emits fun _ => ⟨rfl, rfl⟩

theorem processError_emits {e : Error} (he : P (.error h e)) : Moves (Emits P) (processError h e) :=
  Moves.bind (emit_emits he) fun _ => modifyProc_emits _

theorem closeForkPipes_emits : Moves (Emits P) (closeForkPipes h) := by
  refine modify_emits fun s => ?_
  obtain ⟨fds, blockingPipe, hw⟩ := s.toWorld.closeForkPipes_frame (s.procs h)
  rw [hw]
  exact ⟨rfl, rfl⟩

section Register

variable (hregister : ∀ fd add, P (.register fd add))

include hregister

theorem removeReadEvent_emits (fd : Int) : Moves (Emits P) (removeReadEvent fd) :=
  removeReadEvent_moves (fun _ _ _ _ _ => .same rfl rfl)
    (fun fd add => emit_emits (hregister fd add)) fd

theorem onProcStopped_emits (pid : Int) : Moves (Emits P) (onProcStopped h pid) := by
  have hassert : ∀ c a, Moves (Emits P) (assert c a) := fun c a =>
    Moves.ite (fun _ => Moves.pure _) fun _ => Moves.throw _
  have hsend : Moves (Emits P) sendJobNullptrStop :=
    Moves.bind (modify_emits fun _ => ⟨rfl, rfl⟩) fun _ => modify_emits fun s => by
      obtain ⟨pipes, hw⟩ := s.toWorld.write_frame s.controlPipe.wr [0]
      rw [hw]
      exact ⟨rfl, rfl⟩
  refine Moves.bind Moves.get fun s => Moves.bind (hassert _ _) fun _ => Moves.bind Moves.get fun s => ?_
  split
  · exact Moves.pure _
  · refine Moves.bind (removeReadEvent_emits hregister _) fun _ =>
      Moves.bind (removeReadEvent_emits hregister _) fun _ =>
      Moves.bind (removeReadEvent_emits hregister _) fun _ =>
      Moves.bind (modify_emits fun _ => ⟨rfl, rfl⟩) fun _ => Moves.bind Moves.get fun s => ?_
    exact Moves.ite (fun _ => hsend) fun _ => Moves.pure _

end Register

theorem handleState_emits (hd : Handle) (st : State) (proc : ProcStatus) :
    Moves (Emits (Event.IsNotice h)) (handleState h hd st proc) := by
  have hstop : ∀ pid, Moves (Emits (Event.IsNotice h)) (onProcStopped h pid) :=
    onProcStopped_emits fun _ _ => trivial
  refine Moves.bind (modify_emits fun _ => ⟨rfl, rfl⟩) fun _ =>
    Moves.ite (fun _ => ?_) fun _ => Moves.pure _
  cases hd.onProcStopped with
  | none => exact Moves.ite (fun _ => Moves.bind (emit_emits rfl) fun _ => Moves.pure _) fun _ => Moves.pure _
  | some pid => exact Moves.ite (fun _ => Moves.bind (emit_emits rfl) fun _ => hstop pid) fun _ => hstop pid

theorem callState_emits (st : State) : Moves (Emits (Event.IsNotice h)) (callState h st) := by
  refine Moves.bind Moves.get fun s => Moves.bind ?_ fun _ => ?_
  · exact Moves.bind Moves.get fun s => Moves.bind (emit_emits rfl) fun _ => emit_emits rfl
  · split
    · exact handleState_emits _ _ _
    · exact Moves.pure _

/-- The callback of the user comes first. -/
theorem callState_calls {st : State} (ht : callState h st s = .ok () t) : ∃ stdin userStop rest,
    t.trace = s.trace ++ [.handed h stdin userStop, .state h st (s.procs h).proc] ++ rest ∧
      ∀ e ∈ rest, e.IsNotice h := by
  unfold callState at ht
  rw [bind_of_ok (get_apply _), bind_of_ok (announce_apply ..)] at ht
  have hrest : Emits (Event.IsNotice h) { s with
      toWorld := s.toWorld.announced h st (s.procs h) } t := by
    cases hh : s.handles h with
    | none =>
      rw [hh] at ht
      cases ht
      exact Std.Refl.refl _
    | some hd =>
      rw [hh] at ht
      exact (handleState_emits hd st _).ok ht
  obtain ⟨rest, htrace, hrest⟩ := hrest.events
  have hannounced : (s.toWorld.announced h st (s.procs h)).trace =
      s.trace ++ [.handed h ((s.procs h).offers s.fds (s.procs h).proc.stdinFd)
        ((s.procs h).offers s.fds (s.procs h).proc.userStopFd), .state h st (s.procs h).proc] := by
    simp [World.announced, World.emit]
  rw [hannounced] at htrace
  exact ⟨_, _, rest, htrace, hrest⟩

theorem readStdRest_emits {cb : List UInt8 → Event} (hcb : ∀ data, (cb data).IsDrain h) (fd : Int)
    (e : Error) (fuel : Nat) : Moves (Emits (Event.IsDrain h)) (readStdRest fd h cb e fuel) := by
  induction fuel with
  | zero => exact Moves.throw _
  | succ fuel ih =>
    unfold readStdRest
    refine Moves.bind (read_emits _ _) fun answer => ?_
    split
    · exact Moves.ite (fun _ => processError_emits rfl) fun _ => Moves.pure _
    · exact ih
    · exact emit_emits (hcb _)

theorem loopRestIo_emits : Moves (Emits (Event.IsDrain h)) (loopRestIo h) :=
  Moves.bind Moves.get fun _ =>
    Moves.bind (readStdRest_emits (show ∀ data, (Event.out h data).IsDrain h from fun _ => rfl) _ _ _) fun _ =>
      Moves.bind Moves.get fun _ =>
        readStdRest_emits (show ∀ data, (Event.err h data).IsDrain h from fun _ => rfl) _ _ _

theorem updateStatus_emits (status : WaitStatus) : Moves (Emits (Event.Concerns h)) (updateStatus h status) := by
  have hcall : ∀ st, Moves (Emits (Event.Concerns h)) (callState h st) := fun st =>
    (callState_emits st).mono fun _ _ hs => hs.mono fun _ => .inl
  have hrest : Moves (Emits (Event.Concerns h)) (loopRestIo h) :=
    loopRestIo_emits.mono fun _ _ hs => hs.mono fun _ => .inr
  have hcode : Moves (Emits (Event.Concerns h)) (handleProcReturnCode h) := by
    refine Moves.bind Moves.get fun s => ?_
    split
    · exact processError_emits (.inr rfl)
    · exact Moves.pure _
  refine Moves.bind (modifyProc_emits _) fun _ => Moves.bind (hcall _) fun _ => Moves.bind Moves.get fun s =>
    Moves.ite (fun _ => ?_) fun _ => Moves.pure _
  refine Moves.bind (modifyProc_emits _) fun _ => Moves.bind hcode fun _ => Moves.bind Moves.get fun s =>
    Moves.ite (fun _ => ?_) fun _ => Moves.pure _
  exact Moves.bind hrest fun _ => Moves.bind closeForkPipes_emits fun _ => hcall _

end Pexec
