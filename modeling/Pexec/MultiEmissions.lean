import Pexec.DescriptorUse
import Pexec.Emissions

namespace Pexec

open Effect

/-- The object that an event is about. -/
def Event.owner : Event → Option Nat
  | .state h .. | .handed h .. | .error h _ | .out h _ | .err h _ | .onStop h _ => some h
  | .waitpid .. | .kill .. | .multiError _ | .register .. => none

/-- What is told has the property, and it is told away from the handles and the active processes. -/
structure Tells (P : Event → Prop) (s t : Sys) : Prop where
  events : ∃ new, t.trace = s.trace ++ new ∧ ∀ e ∈ new, P e
  handles : t.handles = s.handles
  active : t.active = s.active

variable {P P' : Event → Prop} {h : Nat} {s t : Sys}

instance : IsPreorder Sys (Tells P) where
  refl s := ⟨⟨[], (List.append_nil _).symm, fun _ hm => absurd hm List.not_mem_nil⟩, rfl, rfl⟩
  trans s t u hst htu := by
    obtain ⟨new, ht, hnew⟩ := hst.events
    obtain ⟨new', hu, hnew'⟩ := htu.events
    refine ⟨⟨new ++ new', by rw [hu, ht, List.append_assoc], fun e hm => ?_⟩,
      htu.handles.trans hst.handles, htu.active.trans hst.active⟩
    exact (List.mem_append.mp hm).elim (hnew e) (hnew' e)

theorem Tells.mono (hs : Tells P s t) (hP : ∀ e, P e → P' e) : Tells P' s t := by
  obtain ⟨new, ht, hnew⟩ := hs.events
  exact ⟨⟨new, ht, fun e hm => hP e (hnew e hm)⟩, hs.handles, hs.active⟩

theorem Tells.same (ht : t.trace = s.trace) (hh : t.handles = s.handles) (ha : t.active = s.active) :
    Tells P s t :=
  ⟨⟨[], by rw [ht, List.append_nil], fun _ hm => absurd hm List.not_mem_nil⟩, hh, ha⟩

theorem Event.Concerns.owner {e : Event} (he : e.Concerns h) : e.owner = some h ∨ e.owner = none := by
  rcases he with he | he
  · cases e with
    | handed owner | state owner | onStop owner => exact .inl (congrArg some he)
    | register => exact .inr rfl
    | error | out | err | waitpid | kill | multiError => exact he.elim
  · cases e with
    | error owner | out owner | err owner => exact .inl (congrArg some he)
    | handed | state | onStop | register | waitpid | kill | multiError => exact he.elim

theorem World.announced_trace (w : World) (h : Nat) (st : State) (p : PexecSingle) : ∃ stdin userStop,
    (w.announced h st p).trace = w.trace ++ [.handed h stdin userStop, .state h st p.proc] :=
  ⟨p.offers w.fds p.proc.stdinFd, p.offers w.fds p.proc.userStopFd, List.append_assoc ..⟩

theorem emit_tells {e : Event} (he : P e) : Moves (Tells P) (emit e) :=
  Moves.modify fun _ => ⟨⟨[e], rfl, fun _ hm => by rwa [List.mem_singleton.mp hm]⟩, rfl, rfl⟩

theorem modify_tells {f : Sys → Sys}
    (hf : ∀ s, (f s).trace = s.trace ∧ (f s).handles = s.handles ∧ (f s).active = s.active) :
    Moves (Tells P) (modify f : Prog Unit) :=
  Moves.modify fun s => .same (hf s).1 (hf s).2.1 (hf s).2.2

theorem call_tells {α : Type} {f : World → α × World} (hf : ∀ w, (f w).2.trace = w.trace) :
    Moves (Tells P) (call f) := fun s => .same (hf s.toWorld) rfl rfl

theorem onWorld_tells {f : World → World} (hf : ∀ w, (f w).trace = w.trace) : Moves (Tells P) (onWorld f) :=
  fun s => .same (hf s.toWorld) rfl rfl

theorem read_tells (fd : Int) (count : Nat) : Moves (Tells P) (call (World.read · fd count)) :=
  call_tells fun w => by
    obtain ⟨readFaults, pipes, hw⟩ := w.read_frame fd count
    rw [hw]

theorem readRetry_tells (fd : Int) (count : Nat) : Moves (Tells P) (readRetry fd count) :=
  call_tells fun w => by
    obtain ⟨readFaults, pipes, hw⟩ := World.readRetry_frame fd count w.readFaults w
    rw [hw]

theorem write_tells (f : World → Int) (data : List UInt8) :
    Moves (Tells P) (onWorld fun w => w.write (f w) data) :=
  onWorld_tells fun w => by
    obtain ⟨pipes, hw⟩ := w.write_frame (f w) data
    rw [hw]

theorem closePipe_tells (p : PipeFds) : Moves (Tells P) (onWorld (World.closePipe · p)) :=
  onWorld_tells fun w => World.closePipe_trace w p

theorem pipe2_tells (cloexec : Bool) : Moves (Tells P) (call (World.pipe2 · cloexec)) := by
  refine call_tells fun w => ?_
  cases hf : w.faults.head?.join with
  | some e => rw [World.pipe2_of_fault hf]
  | none => rw [World.pipe2_of_none hf]

theorem sigaction_tells (d : World → Disposition) : Moves (Tells P) (call fun w => w.sigaction (d w)) :=
  call_tells fun w => by
    obtain ⟨faults, disposition, hw⟩ := w.sigaction_frame (d w)
    rw [hw]

theorem sigprocmask_tells (block : Bool) : Moves (Tells P) (call (World.sigprocmask · block)) :=
  call_tells fun w => by
    obtain ⟨faults, sigchldBlocked, hw⟩ := w.sigprocmask_frame block
    rw [hw]

theorem nextOrder_tells : Moves (Tells P) nextOrder := call_tells fun _ => rfl

theorem sendJob_tells (job : Option Job) : Moves (Tells P) (sendJob job) := by
  refine Moves.bind (modify_tells fun _ => ⟨rfl, rfl, rfl⟩) fun _ => ?_
  exact Moves.modify fun s => (write_tells (fun _ => s.controlPipe.wr) [0]).ok (onWorld_apply _ s)

theorem loopInterrupt_tells {κ : Type} (e : SelectEvent κ) : Moves (Tells P) (loopInterrupt e) :=
  write_tells (fun _ => e.controlPipe.wr) [0]

theorem loopControl_tells {onInterrupt : Prog EventReturn} (hi : Moves (Tells P) onInterrupt) (fd : Int) :
    Moves (Tells P) (loopControl onInterrupt fd) := by
  refine Moves.bind (readRetry_tells fd 1) fun answer => ?_
  split
  · exact Moves.throw _
  · exact hi

theorem newSelectEvent_tells {κ : Type} (interrupt : κ) : Moves (Tells P) (newSelectEvent interrupt) := by
  refine Moves.bind (pipe2_tells true) fun answer => ?_
  split
  · exact Moves.throw _
  · exact Moves.bind nextOrder_tells fun _ => Moves.pure _

theorem makeLoop_tells : Moves (Tells P) makeLoop := by
  refine Moves.bind (newSelectEvent_tells _) fun e => Moves.bind Moves.get fun s =>
    Moves.bind (modify_tells fun _ => ⟨rfl, rfl, rfl⟩) fun _ => ?_
  split
  · exact closePipe_tells _
  · exact Moves.pure _

section Kill

variable (hkill : ∀ pid signum, P (.kill pid signum))

include hkill

theorem cleanup_tells : Moves (Tells P) cleanup := by
  have hassert : ∀ c a, Moves (Tells P) (assert c a) := fun c a =>
    Moves.ite (fun _ => Moves.pure _) fun _ => Moves.throw _
  have huser : ∀ l, Moves (Tells P) (cleanupUser l) := by
    intro l
    induction l with
    | nil => exact Moves.pure _
    | cons p l ih =>
      refine Moves.bind Moves.get fun s => ?_
      split
      · exact Moves.bind (Moves.bind (hassert _ _) fun _ => write_tells (fun _ => _) [0]) fun _ => ih
      · exact ih
  have hsignal : ∀ signum l, Moves (Tells P) (cleanupKill signum l) := by
    intro signum l
    induction l with
    | nil => exact Moves.pure _
    | cons p l ih => exact Moves.bind (emit_tells (hkill _ _)) fun _ => ih
  refine Moves.bind (modify_tells fun _ => ⟨rfl, rfl, rfl⟩) fun _ => Moves.bind Moves.get fun s => ?_
  split
  · exact huser _
  · exact hsignal _ _
  · exact Moves.pure _

theorem jobNullptrStop_tells : Moves (Tells P) jobNullptrStop := by
  refine Moves.bind Moves.get fun s => Moves.ite (fun _ => ?_) fun _ => ?_
  · exact Moves.bind (cleanup_tells hkill) fun _ => Moves.pure _
  · exact Moves.ite (fun _ => Moves.pure _) fun _ => Moves.pure _

theorem jobStop_tells (flag : StopFlag) (signum : Int) : Moves (Tells P) (jobStop flag signum) :=
  Moves.bind Moves.get fun _ => Moves.ite (fun _ => Moves.pure _) fun _ =>
    Moves.bind (modify_tells fun _ => ⟨rfl, rfl, rfl⟩) fun _ => jobNullptrStop_tells hkill

end Kill

section MultiError

variable (hmulti : ∀ e, P (.multiError e))

include hmulti

theorem multiProcessError_tells (e : Error) : Moves (Tells P) (multiProcessError e) :=
  Moves.bind (modify_tells fun _ => ⟨rfl, rfl, rfl⟩) fun _ => emit_tells (hmulti e)

theorem handlerProcessError_tells (e : Error) : Moves (Tells P) (handlerProcessError e) := by
  refine Moves.bind Moves.get fun s => ?_
  split
  · exact Moves.pure _
  · exact Moves.bind (modify_tells fun _ => ⟨rfl, rfl, rfl⟩) fun _ =>
      Moves.ite (fun _ => multiProcessError_tells hmulti e) fun _ => Moves.pure _

theorem destroySigchldHandler_tells (handler : SigchldHandler) :
    Moves (Tells P) (destroySigchldHandler handler) := by
  have hreset : Moves (Tells P) sigchldResetSignalHandler := by
    refine Moves.bind Moves.get fun s => Moves.ite (fun _ => Moves.pure _) fun _ =>
      Moves.bind (sigaction_tells _) fun prev => ?_
    split
    · exact Moves.pure _
    · exact Moves.bind (onWorld_tells fun w => World.closePipe_trace w w.sigchldPipe) fun _ => Moves.pure _
  refine Moves.bind hreset fun _ => Moves.ite (fun _ => ?_) fun _ => Moves.pure _
  exact Moves.ite (fun _ => multiProcessError_tells hmulti _) fun _ => Moves.pure _

theorem replaceSigchld_tells : Moves (Tells P) replaceSigchld := by
  have hset : Moves (Tells P) sigchldSetSignalHandler := by
    refine Moves.bind (pipe2_tells true) fun answer => ?_
    split
    · exact Moves.pure _
    · refine Moves.bind (modify_tells fun _ => ⟨rfl, rfl, rfl⟩) fun _ =>
        Moves.bind (sigaction_tells fun _ => .sigchldSignalHandler) fun prev => ?_
      split
      · exact Moves.bind (onWorld_tells fun w => World.closePipe_trace w w.sigchldPipe) fun _ => Moves.pure _
      · exact Moves.bind (modify_tells fun _ => ⟨rfl, rfl, rfl⟩) fun _ => Moves.pure _
  have hnew : Moves (Tells P) newSigchldHandler :=
    Moves.bind hset fun _ => Moves.ite (fun _ => Moves.pure _) fun _ => Moves.pure _
  refine Moves.bind hnew fun handler => Moves.bind Moves.get fun s =>
    Moves.bind (modify_tells fun _ => ⟨rfl, rfl, rfl⟩) fun _ => ?_
  split
  · exact destroySigchldHandler_tells hmulti _
  · exact Moves.pure _

theorem runFinish_tells : Moves (Tells P) runFinish := by
  have hgone : Moves (Tells P) (modify fun s => { s with sigchld := none, running := false } : Prog Unit) :=
    modify_tells fun _ => ⟨rfl, rfl, rfl⟩
  have hnone : Moves (Tells P) (modify fun s => { s with loop := none } : Prog Unit) :=
    modify_tells fun _ => ⟨rfl, rfl, rfl⟩
  refine Moves.bind Moves.get fun s => ?_
  split
  · refine Moves.bind (closePipe_tells _) fun _ => Moves.bind hnone fun _ => Moves.bind Moves.get fun s => ?_
    split
    · exact Moves.bind (destroySigchldHandler_tells hmulti _) fun _ => hgone
    · exact hgone
  · refine Moves.bind hnone fun _ => Moves.bind Moves.get fun s => ?_
    split
    · exact Moves.bind (destroySigchldHandler_tells hmulti _) fun _ => hgone
    · exact hgone

theorem selectFails_tells : Moves (Tells P) selectFails :=
  Moves.bind (multiProcessError_tells hmulti _) fun _ => runFinish_tells hmulti

end MultiError

section Register

variable (hregister : ∀ fd add, P (.register fd add))

include hregister

theorem addReadEvent_tells (fd : Int) (cb : Source) : Moves (Tells P) (addReadEvent fd cb) :=
  addReadEvent_moves (fun _ _ _ _ _ => .same rfl rfl rfl)
    (fun fd add => emit_tells (hregister fd add)) fd cb

theorem removeReadEvent_tells (fd : Int) : Moves (Tells P) (removeReadEvent fd) :=
  removeReadEvent_moves (fun _ _ _ _ _ => .same rfl rfl rfl)
    (fun fd add => emit_tells (hregister fd add)) fd

theorem handleStop_tells : Moves (Tells P) handleStop := by
  refine Moves.bind Moves.get fun s => Moves.bind (removeReadEvent_tells hregister _) fun _ =>
    Moves.bind Moves.get fun s => Moves.bind (removeReadEvent_tells hregister _) fun _ =>
    Moves.bind (modify_tells fun _ => ⟨rfl, rfl, rfl⟩) fun _ => Moves.bind Moves.get fun s => ?_
  refine Moves.ite (fun _ => ?_) fun _ => modify_tells fun _ => ⟨rfl, rfl, rfl⟩
  split
  · exact loopInterrupt_tells _
  · exact Moves.throw _

theorem startRun_tells (hmulti : ∀ e, P (.multiError e)) (type : LoopType) : Moves (Tells P) (startRun type) := by
  have hhandler : Moves (Tells P) runHandler := by
    refine Moves.bind (replaceSigchld_tells hmulti) fun _ => Moves.bind Moves.get fun s => ?_
    split
    · refine Moves.ite (fun _ => Moves.bind (multiProcessError_tells hmulti _) fun _ => Moves.pure _) fun _ => ?_
      exact Moves.bind (modify_tells fun _ => ⟨rfl, rfl, rfl⟩) fun _ => Moves.bind Moves.get fun _ =>
        Moves.bind (addReadEvent_tells hregister _ _) fun _ => Moves.bind Moves.get fun _ =>
        Moves.bind (addReadEvent_tells hregister _ _) fun _ =>
        Moves.bind (modify_tells fun _ => ⟨rfl, rfl, rfl⟩) fun _ => Moves.pure _
    · exact Moves.pure _
  have hsetup : Moves (Tells P) runSetup := Moves.bind Moves.get fun s =>
    Moves.ite (fun _ => Moves.bind makeLoop_tells fun _ => hhandler) fun _ => hhandler
  have hlast : Moves (Tells P) (do let _ ← runSetup : Prog Unit) := Moves.bind hsetup fun _ => Moves.pure _
  exact Moves.bind (modify_tells fun _ => ⟨rfl, rfl, rfl⟩) fun _ =>
    Moves.ite (fun _ => Moves.bind (modify_tells fun _ => ⟨rfl, rfl, rfl⟩) fun _ => hlast) fun _ => hlast

end Register

end Pexec
