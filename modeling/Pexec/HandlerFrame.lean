import Pexec.DescriptorUse
import Pexec.MultiLife

namespace Pexec

open Effect Runs

variable {h : Nat} {pid : Int} {s t u : Sys}

/-- What the handler for SIGCHLD of a `pexec_multi` is made of: the global variables of
sigchld_handler.cpp, the disposition, and whether `sigchld` holds an object. -/
def Sys.handler (s : Sys) : PipeFds × Bool × Disposition × Disposition × Bool :=
  (s.sigchldPipe, s.sigchldActive, s.disposition, s.sigchldSaPrev, s.sigchld.isSome)

/-- What the jobs of a `pexec_multi` depend on, less the processes. -/
def Sys.desk (s : Sys) : List (Option Job) × Nat × Bool × Bool :=
  (s.buffer, s.nextHandle, s.stopping, s.watching)

/-- A relation that holds of every callback about one object, and of every step that leaves the
handler and the jobs alone. -/
structure Frames (R : Sys → Sys → Prop) : Prop where
  acts : ∀ {h s t}, Acts h s t → R s t
  plain : ∀ {s t}, t.handler = s.handler → t.desk = s.desk → R s t

section Frames

variable {R : Sys → Sys → Prop} (hR : Frames R)

include hR

theorem object_frames {α : Type} {x : Prog α} (hx : Moves (Acts h) x) : Moves R x :=
  hx.mono fun _ _ => hR.acts

theorem modify_frames {f : Sys → Sys} (hf : ∀ s, (f s).handler = s.handler ∧ (f s).desk = s.desk) :
    Moves R (modify f : Prog Unit) := Moves.modify fun s => hR.plain (hf s).1 (hf s).2

theorem emit_frames (e : Event) : Moves R (emit e) := modify_frames hR fun _ => ⟨rfl, rfl⟩

theorem read_frames (fd : Int) (count : Nat) : Moves R (call (World.read · fd count)) := by
  intro s
  obtain ⟨readFaults, pipes, hw⟩ := s.toWorld.read_frame fd count
  rw [call_apply, hw]
  exact hR.plain rfl rfl

theorem write_frames (fd : Int) (data : List UInt8) : Moves R (onWorld (World.write · fd data)) := by
  intro s
  obtain ⟨pipes, hw⟩ := s.toWorld.write_frame fd data
  rw [onWorld_apply, hw]
  exact hR.plain rfl rfl

theorem sigprocmask_frames (block : Bool) : Moves R (call (World.sigprocmask · block)) := by
  intro s
  obtain ⟨faults, sigchldBlocked, hw⟩ := s.toWorld.sigprocmask_frame block
  rw [call_apply, hw]
  exact hR.plain rfl rfl

theorem waitpid_frames (pid : Int) : Moves R (call (World.waitpid · pid)) := by
  intro s
  obtain ⟨faults, children, hw⟩ := (World.waitpid_answer s.toWorld pid).frame
  rw [call_apply, hw]
  exact hR.plain rfl rfl

variable [IsPreorder Sys R]

theorem multiProcessError_frames (e : Error) : Moves R (multiProcessError e) :=
  Moves.bind (modify_frames hR fun _ => ⟨rfl, rfl⟩) fun _ => emit_frames hR _

theorem handlerProcessError_frames (e : Error) : Moves R (handlerProcessError e) := by
  refine Moves.get_bind fun s => ?_
  cases hs : s.sigchld with
  | none => exact Moves.pure (R := R) () s
  | some handler =>
    have hset : (modify fun s => { s with sigchld := some { handler with err := e } } : Prog Unit) s =
        .ok () { s with sigchld := some { handler with err := e } } := rfl
    dsimp only
    rw [bind_of_ok hset]
    have hsame : R s { s with sigchld := some { handler with err := e } } := by
      refine hR.plain ?_ rfl
      simp only [Sys.handler, hs, Option.isSome_some]
    exact Outcome.after hsame (Moves.ite (fun _ => multiProcessError_frames hR _) (fun _ => Moves.pure _) _)

theorem sigchldLoop_frames (fuel : Nat) : Moves R (sigchldLoop fuel) := by
  have hsignal : ∀ pid status, Moves R (onSignal pid status) := by
    intro pid status
    refine Moves.bind Moves.get fun s => ?_
    split
    next h _ => exact object_frames hR (updateStatus_acts status)
    next => exact Moves.pure _
  induction fuel with
  | zero => exact Moves.throw _
  | succ fuel ih =>
    unfold sigchldLoop
    refine Moves.bind (waitpid_frames hR 0) fun result => Moves.bind (emit_frames hR _) fun _ => ?_
    split
    · exact Moves.pure _
    · exact handlerProcessError_frames hR _
    · exact ih
    · exact Moves.bind (hsignal _ _) fun _ => ih

theorem handleSigchld_frames : Moves R handleSigchld := by
  have hrest : Moves R (do
      let s ← get
      sigchldLoop (s.faults.length + s.children.keys.length + 1)
      if !(← call (World.sigprocmask · false)) then handlerProcessError .sigUnblockError) :=
    Moves.bind Moves.get fun _ => Moves.bind (sigchldLoop_frames hR _) fun _ =>
      Moves.bind (sigprocmask_frames hR false) fun _ =>
        Moves.ite (fun _ => handlerProcessError_frames hR _) fun _ => Moves.pure _
  exact Moves.bind (sigprocmask_frames hR true) fun _ =>
    Moves.ite (fun _ => Moves.bind (handlerProcessError_frames hR _) fun _ => hrest) fun _ => hrest

theorem readSignal_frames : Moves R readSignal := by
  have hfrom : ∀ fd fuel want got, Moves R (readSignalFrom fd fuel want got) := by
    intro fd fuel
    induction fuel with
    | zero => exact fun _ _ => Moves.throw _
    | succ fuel ih =>
      intro want got
      unfold readSignalFrom
      refine Moves.bind (read_frames hR _ _) fun answer => ?_
      split
      · exact ih _ _
      · exact Moves.pure _
      · exact Moves.ite (fun _ => Moves.pure _) fun _ => ih _ _
  refine Moves.bind Moves.get fun s => Moves.bind (hfrom _ _ _ _) fun signal => ?_
  split
  · exact Moves.pure _
  · exact Moves.ite (fun _ => Moves.bind (handleSigchld_frames hR) fun _ => Moves.pure _) fun _ => Moves.pure _

theorem discard_frames {α : Type} {x : Prog α} (hx : Moves (Acts h) x) :
    Moves R (discard x) :=
  Moves.bind (object_frames hR hx) fun _ => Moves.pure _

end Frames

def SameHandler (s t : Sys) : Prop := t.handler = s.handler

instance : IsPreorder Sys SameHandler where
  refl _ := rfl
  trans _ _ _ hst htu := htu.trans hst

theorem Acts.handler (ha : Acts h s t) : SameHandler s t := ha.field Sys.handler fun _ => rfl

theorem sameHandler_frames : Frames SameHandler := ⟨Acts.handler, fun hh _ => hh⟩

theorem modify_handler {f : Sys → Sys} (hf : ∀ s, (f s).handler = s.handler) :
    Moves SameHandler (modify f : Prog Unit) := Moves.modify hf

theorem cleanup_handler : Moves SameHandler cleanup := by
  have huser : ∀ l, Moves SameHandler (cleanupUser l) := by
    intro l
    induction l with
    | nil => exact Moves.pure _
    | cons p l ih =>
      refine Moves.bind Moves.get fun s => ?_
      split
      · have hassert : ∀ c a, Moves SameHandler (assert c a) := fun c a =>
          Moves.ite (fun _ => Moves.pure _) fun _ => Moves.throw _
        exact Moves.bind (Moves.bind (hassert _ _) fun _ => write_frames sameHandler_frames _ _) fun _ => ih
      · exact ih
  have hkill : ∀ signum l, Moves SameHandler (cleanupKill signum l) := by
    intro signum l
    induction l with
    | nil => exact Moves.pure _
    | cons p l ih => exact Moves.bind (emit_frames sameHandler_frames _) fun _ => ih
  refine Moves.bind (modify_handler fun _ => rfl) fun _ => Moves.bind Moves.get fun s => ?_
  split
  · exact huser _
  · exact hkill _ _
  · exact Moves.pure _

theorem jobNullptrStop_handler : Moves SameHandler jobNullptrStop := by
  refine Moves.bind Moves.get fun s => Moves.ite (fun _ => ?_) fun _ => ?_
  · exact Moves.bind cleanup_handler fun _ => Moves.pure _
  · exact Moves.ite (fun _ => Moves.pure _) fun _ => Moves.pure _

theorem jobStop_handler (flag : StopFlag) (signum : Int) : Moves SameHandler (jobStop flag signum) :=
  Moves.bind Moves.get fun _ => Moves.ite (fun _ => Moves.pure _) fun _ =>
    Moves.bind (modify_handler fun _ => rfl) fun _ => jobNullptrStop_handler

theorem jobNullptrStop_buffer {ret : EventReturn} (hs : On s) (ho : s.Owns)
    (ht : jobNullptrStop s = .ok ret t) : t.buffer = s.buffer := by
  rcases jobNullptrStop_cases hs ho with ⟨_, hx⟩ | ⟨_, _, hx⟩ | ⟨_, _, u, hx, htold⟩
  · cases ht.symm.trans hx
    rfl
  · cases ht.symm.trans hx
    rfl
  · cases ht.symm.trans hx
    exact htold.field Sys.buffer fun _ _ _ _ => rfl

theorem jobStop_buffer {ret : EventReturn} {flag : StopFlag} {signum : Int} (hs : On s) (ho : s.Owns)
    (ht : jobStop flag signum s = .ok ret t) : t.buffer = s.buffer := by
  unfold jobStop at ht
  rw [bind_of_ok (get_apply _)] at ht
  cases hst : s.stopping with
  | true =>
    rw [hst, if_pos rfl] at ht
    cases ht
    rfl
  | false =>
    rw [hst, if_neg (by decide), bind_of_ok (modify_apply ..)] at ht
    have hbuffer := jobNullptrStop_buffer (s := { s with stopFlag := flag, stopSignum := signum })
      (hs.queue s.buffer flag signum) (ho.congr rfl rfl) ht
    exact hbuffer

/-- A job, of those that only the loop of a run can find. -/
theorem dispatchJob_frame {ret : EventReturn} (hs : Sound s) (ht : dispatchJob s = .ok ret t) :
    SameHandler s t ∧ ∃ job, s.buffer = job :: t.buffer := by
  cases hb : s.buffer with
  | nil =>
    unfold dispatchJob bufferRemove at ht
    rw [bind_apply, bind_of_ok (get_apply _), hb] at ht
    cases ht
  | cons job rest =>
    have hremove : bufferRemove s = .ok job { s with buffer := rest } := by
      unfold bufferRemove
      rw [bind_of_ok (get_apply _), hb]
      rfl
    have hiso : Isolated { s with buffer := rest } :=
      (bufferRemove_isolated.ok hs.isolated hremove).1
    have hon : On { s with buffer := rest } := hs.on.queue ..
    suffices hrest : SameHandler { s with buffer := rest } t ∧ t.buffer = rest from
      ⟨hrest.1, job, by rw [hrest.2]⟩
    unfold dispatchJob at ht
    rw [bind_of_ok hremove] at ht
    match job with
    | none => exact ⟨jobNullptrStop_handler.ok ht, jobNullptrStop_buffer hon hiso.owns ht⟩
    | some (.stop flag signum) =>
      exact ⟨(jobStop_handler flag signum).ok ht, jobStop_buffer hon hiso.owns ht⟩
    | some (.spawn h) =>
      have hmem : some (Job.spawn h) ∈ s.buffer := by
        rw [hb]
        exact List.mem_cons_self
      obtain ⟨_, hp, args, hasOnStop, hh⟩ := hs.isolated.fresh h hmem
      have hnew : ∀ p, s.active.lookup p ≠ some h := fun p hl => (hs.isolated.active p h hl).2 hmem
      have hunspawned : Unspawned h { s with buffer := rest } :=
        ⟨⟨_, hh, rfl, rfl⟩, by show (s.procs h).proc.pid = 0; rw [hp],
          by show (s.procs h).type = .nonblocking; rw [hp]⟩
      have hjob : jobSpawnProc h { s with buffer := rest } = .ok ret t := ht
      rcases jobSpawnProc_cases ⟨hiso, hon⟩ hp hh hunspawned hnew with
        ⟨_, hj⟩ | ⟨v, hj⟩ | ⟨_, pid, v, hj, hen⟩
      · cases hjob.symm.trans hj
        exact ⟨rfl, rfl⟩
      · cases hjob.symm.trans hj
      · cases hjob.symm.trans hj
        exact ⟨hen.field Sys.handler fun _ => rfl, hen.field Sys.buffer fun _ => rfl⟩

theorem handleStop_handler : Moves SameHandler handleStop := by
  have hinterrupt : ∀ e : SelectEvent LoopSource, Moves SameHandler (loopInterrupt e) := fun e =>
    write_frames sameHandler_frames e.controlPipe.wr [0]
  have hremove : ∀ fd, Moves SameHandler (removeReadEvent fd) := fun fd =>
    object_frames (h := 0) sameHandler_frames (removeReadEvent_acts fd)
  refine Moves.bind Moves.get fun s => Moves.bind (hremove _) fun _ => Moves.bind Moves.get fun s =>
    Moves.bind (hremove _) fun _ => Moves.bind (modify_handler fun _ => rfl) fun _ =>
      Moves.bind Moves.get fun s => Moves.ite (fun _ => ?_) fun _ => modify_handler fun _ => rfl
  split
  · exact hinterrupt _
  · exact Moves.throw _

/-- What `do_action` calls leaves the handler alone. -/
theorem doAction_handler {fd : Int} (hs : Sound s) (ht : doAction fd s = .ok () t) :
    SameHandler s t := by
  unfold doAction at ht
  rw [bind_of_ok (get_apply _)] at ht
  cases hl : s.registered.lookup fd with
  | none =>
    rw [hl] at ht
    cases ht
  | some src =>
    rw [hl] at ht
    cases src with
    | sigchld =>
      have hx : Moves SameHandler onSigchldReady := Moves.bind (readSignal_frames sameHandler_frames) fun _ =>
        Moves.ite (fun _ => handleStop_handler) fun _ => Moves.pure _
      exact hx.ok ht
    | control =>
      have hfd : fd = s.controlPipe.rd := ((hs.on.desk.keys fd .control).mp hl).2.symm
      obtain ⟨answer, u, hu, hrest⟩ := bind_eq_ok.mp (show onControlReady fd s = .ok () t from ht)
      obtain ⟨_, _, hu', hd⟩ := readRetry_drained .control hs.isolated.owns 1
      rw [hfd] at hu
      cases hu.symm.trans hu'
      have hsu : SameHandler s u := hd.field Sys.handler fun _ _ _ => rfl
      have hiso : Isolated u := (readRetry_isolated .control (fun x => ⟨by simp, by simp⟩) _ 1).ok
        ⟨hs.isolated, rfl⟩ hu
      cases answer with
      | error e => cases hrest
      | ok data =>
        obtain ⟨ret, v, hv, hlast⟩ := bind_eq_ok.mp hrest
        have huv := (dispatchJob_frame ⟨hiso, hd.on hs.on⟩ hv).1
        have hvt : SameHandler v t := (Moves.ite (fun _ => handleStop_handler) fun _ => Moves.pure _).ok hlast
        exact IsTrans.trans _ _ _ hsu (IsTrans.trans _ _ _ huv hvt)
    | readClose x => exact (discard_frames (h := x) sameHandler_frames readClose_acts).ok ht
    | readStdout x => exact (discard_frames (h := x) sameHandler_frames readStdout_acts).ok ht
    | readStderr x => exact (discard_frames (h := x) sameHandler_frames readStderr_acts).ok ht

end Pexec
