import Pexec.BlockingRuns
import Pexec.Lib.Lockstep

namespace Pexec

open Effect

variable {h : Nat} {s s' c c' : Sys} {w : World} {fd : Int}

abbrev Reinterrupted (reads reads' : List (Option Errno)) : Prop :=
  Padded (some .eintr) (· = none) reads reads'

/-- The same world with other answers of `read` to come. -/
def World.reading (w : World) (readFaults : List (Option Errno)) : World := { w with readFaults }

def Sys.answering (s : Sys) (readFaults : List (Option Errno)) (selects : List SelectAnswer) : Sys :=
  { s with readFaults, selects }

/-- The same state, in which `read`, `waitpid` and `select` are going to be interrupted some more
times before they answer what they answer in the first one. -/
structure Delayed (c c' : Sys) : Prop where
  frame : ∃ readFaults faults selects, c' = { c with readFaults, faults, selects }
  reads : Reinterrupted c.readFaults c'.readFaults
  waits : Reinterrupted c.faults c'.faults
  answers : Padded .eintr (fun _ => False) c.selects c'.selects

/-- Delayed in `read` and `select`, while a blocking object outside a `pexec_multi` runs. -/
structure Echo (h : Nat) (s s' : Sys) : Prop where
  alone : Standalone h s
  frame : ∃ readFaults selects, s' = s.answering readFaults selects
  reads : Reinterrupted s.readFaults s'.readFaults

theorem Padded.join {reads reads' : List (Option Errno)}
    (hhead : reads.head? = reads'.head? ∨ reads = [] ∧ ∃ a, reads'.head? = some a ∧ a = none) :
    reads'.head?.join = reads.head?.join := by
  rcases hhead with heq | ⟨rfl, a, ha, rfl⟩
  · rw [heq]
  · rw [ha]
    rfl

theorem modify_echo {f : Sys → Sys} (hf : ∀ s readFaults selects,
    f (s.answering readFaults selects) = (f s).answering readFaults selects)
    (hkept : ∀ s, (f s).readFaults = s.readFaults) (hhandles : ∀ s, (f s).handles = s.handles)
    (htype : ∀ s, ((f s).procs h).type = (s.procs h).type) :
    Mimics (Echo h) (modify f : Prog Unit) (modify f) := by
  refine Mimics.modify fun s s' hs => ?_
  obtain ⟨halone, ⟨readFaults, selects, rfl⟩, hreads⟩ := hs
  refine ⟨⟨by rw [hhandles]; exact halone.handles, by rw [htype]; exact halone.type⟩,
    ⟨readFaults, selects, hf s _ _⟩, ?_⟩
  rw [hkept, hkept]
  exact hreads

/-- A call that neither looks at the answers of `read` nor changes them. -/
theorem call_echo {α : Type} {f : World → α × World}
    (hf : ∀ w readFaults, f (w.reading readFaults) = ((f w).1, (f w).2.reading readFaults)) :
    Mimics (Echo h) (call f) (call f) := by
  rintro s s' ⟨halone, ⟨readFaults, selects, rfl⟩, hreads⟩ a t ht
  cases ht
  have hcall : f (s.answering readFaults selects).toWorld =
      ((f s.toWorld).1, (f s.toWorld).2.reading readFaults) := hf s.toWorld readFaults
  have hkept : (f s.toWorld).2.readFaults = s.readFaults :=
    congrArg (fun p => p.2.readFaults) (hf s.toWorld s.readFaults)
  refine ⟨_, by rw [call_apply, hcall]; rfl, ⟨halone.handles, halone.type⟩, ⟨readFaults, selects, rfl⟩, ?_⟩
  exact hkept ▸ hreads

theorem onWorld_echo {f : World → World}
    (hf : ∀ w readFaults, f (w.reading readFaults) = (f w).reading readFaults) :
    Mimics (Echo h) (onWorld f) (onWorld f) :=
  modify_echo (fun s readFaults selects =>
      congrArg (fun w => { s with toWorld := w, selects }) (hf s.toWorld readFaults))
    (fun s => (congrArg World.readFaults (hf s.toWorld s.readFaults) : _)) (fun _ => rfl) fun _ => rfl

theorem emit_echo (e : Event) : Mimics (Echo h) (emit e) (emit e) :=
  modify_echo (fun _ _ _ => rfl) (fun _ => rfl) (fun _ => rfl) fun _ => rfl

theorem modifyProc_echo {f : PexecSingle → PexecSingle} (htype : ∀ p, (f p).type = p.type) :
    Mimics (Echo h) (modifyProc h f) (modifyProc h f) := by
  refine modify_echo (fun _ _ _ => rfl) (fun _ => rfl) (fun _ => rfl) fun s => ?_
  dsimp only
  rw [Function.update_self]
  exact htype _

theorem processError_echo (e : Error) : Mimics (Echo h) (processError h e) (processError h e) :=
  (emit_echo _).bind fun _ => modifyProc_echo fun _ => rfl

theorem callState_echo (st : State) : Mimics (Echo h) (callState h st) (callState h st) := by
  rintro s s' ⟨halone, ⟨readFaults, selects, rfl⟩, hreads⟩ a t ht
  rw [callState_apply _ _ _ halone.handles] at ht
  cases ht
  exact ⟨_, callState_apply _ _ _ halone.handles, ⟨halone.handles, halone.type⟩,
    ⟨readFaults, selects, rfl⟩, hreads⟩

/-- What depends on the type of the object is settled: it is a blocking one. -/
theorem blocking_echo {α : Type} (x : Prog α) {y : Prog α} (hy : Mimics (Echo h) y y) :
    Mimics (Echo h) (do if ((← get).procs h).type = .nonblocking then x else y)
      (do if ((← get).procs h).type = .nonblocking then x else y) := by
  refine Mimics.get_bind fun s s' hs => ?_
  have hblocking : (s.procs h).type ≠ .nonblocking := by
    rw [hs.alone.type]
    decide
  have hblocking' : (s'.procs h).type ≠ .nonblocking := by
    obtain ⟨_, _, rfl⟩ := hs.frame
    exact hblocking
  rw [if_neg hblocking, if_neg hblocking']
  exact hy s s' hs

/-- `read` looks at its next answer only. -/
theorem World.read_reading {reads : List (Option Errno)} (count : Nat)
    (hjoin : reads.head?.join = w.readFaults.head?.join) :
    (w.reading reads).read fd count = ((w.read fd count).1, (w.read fd count).2.reading reads.tail) := by
  simp only [World.read, World.reading, hjoin]
  cases w.readFaults.head?.join with
  | some e => rfl
  | none =>
    cases w.fds.target fd with
    | none => rfl
    | some target =>
      cases target with
      | readEnd pipe =>
        dsimp only
        by_cases hempty : (w.pipes pipe).unread = []
        · by_cases hwriter : w.fds.hasWriter pipe = true
          · simp only [hempty, hwriter, if_true]
          · simp only [hempty, hwriter, if_true, Bool.false_eq_true, if_false]
        · simp only [hempty, if_false]
          rfl
      | _ => rfl

/-- Where the next answers agree, so do the reads. -/
theorem read_agrees (halone : Standalone h s) {reads : List (Option Errno)}
    (selects : List SelectAnswer) (count : Nat) (hnext : Reinterrupted s.readFaults.tail reads.tail)
    (hjoin : reads.head?.join = s.readFaults.head?.join) : MimicsFrom (Echo h) s
      (s.answering reads selects) (call (World.read · fd count)) (call (World.read · fd count)) := by
  intro a t ht
  cases ht
  have hread : (s.answering reads selects).toWorld.read fd count =
      ((s.toWorld.read fd count).1, (s.toWorld.read fd count).2.reading reads.tail) :=
    World.read_reading count hjoin
  refine ⟨_, by rw [call_apply, hread]; rfl, ⟨halone.handles, halone.type⟩, ⟨reads.tail, selects, rfl⟩, ?_⟩
  show Reinterrupted (s.toWorld.read fd count).2.readFaults reads.tail
  rw [World.read_faults]
  exact hnext

/-- A read that is not interrupted. -/
theorem read_echo (hs : Echo h s s') (count : Nat) (hspared : s'.readFaults.head?.join ≠ some .eintr) :
    MimicsFrom (Echo h) s s' (call (World.read · fd count)) (call (World.read · fd count)) := by
  have hpad : s'.readFaults.head? ≠ some (some .eintr) := fun heq => hspared (by rw [heq]; rfl)
  obtain ⟨hnext, hhead⟩ := hs.reads.head hpad
  obtain ⟨halone, ⟨reads, selects, rfl⟩, _⟩ := hs
  exact read_agrees halone selects count hnext (Padded.join hhead)

theorem World.read_eintr {count : Nat} :
    (w.read fd count).1 = .error .eintr ↔ w.readFaults.head?.join = some .eintr := by
  unfold World.read
  split
  next e he => simp [he]
  next hnone =>
    rw [hnone]
    split
    · split
      · split <;> simp
      · simp
    · simp

/-- A read that is tried again comes to the first answer that is no interruption. -/
theorem readRetry_read (fd : Int) (count : Nat) (w : World) :
    World.readRetry fd count w.readFaults w =
      (w.reading (w.readFaults.dropWhile (· = some .eintr))).read fd count := by
  obtain ⟨reads, hreads⟩ : ∃ reads, w.readFaults = reads := ⟨_, rfl⟩
  rw [hreads]
  induction reads generalizing w with
  | nil =>
    have hw : w.reading [] = w := hreads ▸ rfl
    rw [List.dropWhile_nil, hw]
    rfl
  | cons a reads ih =>
    by_cases ha : a = some .eintr
    · subst ha
      have hread : w.read fd count = (.error .eintr, w.reading reads) := by
        simp only [World.read, World.reading, hreads, List.head?_cons, Option.join_some, List.tail_cons]
      rw [World.readRetry, hread, List.dropWhile_cons_of_pos (by simp)]
      exact ih (w.reading reads) rfl
    · have hw : w.reading (a :: reads) = w := hreads ▸ rfl
      rw [List.dropWhile_cons_of_neg (by simpa using ha), hw, World.readRetry]
      have hanswer : (w.read fd count).1 ≠ .error .eintr := by
        rw [Ne, World.read_eintr, hreads]
        cases a with
        | none => simp
        | some e => simpa using ha
      split
      next heq => exact absurd (congrArg Prod.fst heq) hanswer
      next => rfl

theorem readRetry_echo (fd : Int) (count : Nat) :
    Mimics (Echo h) (readRetry fd count) (readRetry fd count) := by
  intro s s' hs a t ht
  obtain ⟨hnext, hhead⟩ := hs.reads.skip (by simp)
  have hskip (u : Sys) : readRetry fd count u = call (World.read · fd count)
      (u.answering (u.readFaults.dropWhile (· = some .eintr)) u.selects) := by
    rw [readRetry, call_apply, readRetry_read]
    rfl
  obtain ⟨halone, ⟨reads, selects, rfl⟩, _⟩ := hs
  have hskipped : Standalone h (s.answering (s.readFaults.dropWhile (· = some .eintr)) s.selects) :=
    ⟨halone.handles, halone.type⟩
  rw [hskip] at ht ⊢
  exact read_agrees hskipped selects count hnext (Padded.join hhead) a t ht

theorem Echo.sees {α : Type} (hs : Echo h s s') (g : Sys → α)
    (hg : ∀ s readFaults selects, g (s.answering readFaults selects) = g s) : g s' = g s := by
  obtain ⟨_, _, rfl⟩ := hs.frame
  exact hg s _ _

theorem Echo.procs (hs : Echo h s s') : s'.procs = s.procs := hs.sees Sys.procs fun _ _ _ => rfl

theorem World.write_reading (w : World) (fd : Int) (data : List UInt8)
    (readFaults : List (Option Errno)) :
    (w.reading readFaults).write fd data = (w.write fd data).reading readFaults := by
  simp only [World.write, World.reading]
  split
  next pipe _ =>
    by_cases hfits : (w.pipes pipe).unread.length + data.length ≤ w.capacity
    · simp only [hfits, if_true]
      rfl
    · simp only [hfits, if_false]
  next => rfl

theorem World.closePipe_reading (w : World) (p : PipeFds) (readFaults : List (Option Errno)) :
    (w.reading readFaults).closePipe p = (w.closePipe p).reading readFaults := by
  simp only [World.closePipe, World.closeFd, World.reading]
  split <;> split <;> rfl

theorem World.pipe2_reading (w : World) (cloexec : Bool) (readFaults : List (Option Errno)) :
    (w.reading readFaults).pipe2 cloexec =
      ((w.pipe2 cloexec).1, (w.pipe2 cloexec).2.reading readFaults) := by
  simp only [World.pipe2, World.nextFault, World.reading]
  cases w.faults.head?.join <;> rfl

theorem World.sigaction_reading (w : World) (d : Disposition) (readFaults : List (Option Errno)) :
    (w.reading readFaults).sigaction d = ((w.sigaction d).1, (w.sigaction d).2.reading readFaults) := by
  simp only [World.sigaction, World.nextFault, World.reading]
  cases w.faults.head?.join <;> rfl

theorem World.sigprocmask_reading (w : World) (block : Bool) (readFaults : List (Option Errno)) :
    (w.reading readFaults).sigprocmask block =
      ((w.sigprocmask block).1, (w.sigprocmask block).2.reading readFaults) := by
  simp only [World.sigprocmask, World.nextFault, World.reading]
  cases w.faults.head?.join <;> rfl

theorem World.waitpid_reading (w : World) (pid : Int) (readFaults : List (Option Errno)) :
    (w.reading readFaults).waitpid pid = ((w.waitpid pid).1, (w.waitpid pid).2.reading readFaults) := by
  cases hf : w.faults.head?.join with
  | some e => simp only [World.waitpid, World.nextFault, World.reading, hf]
  | none =>
    cases hz : World.zombies { w with faults := w.faults.tail } pid with
    | nil =>
      have hz' : World.zombies { w with faults := w.faults.tail, readFaults } pid = [] := hz
      simp only [World.waitpid, World.nextFault, World.reading, hf, hz, hz']
      rfl
    | cons z zs =>
      have hz' : World.zombies { w with faults := w.faults.tail, readFaults } pid = z :: zs := hz
      cases hb : (AList.lookup (if w.pickChild (z :: zs) ∈ z :: zs then w.pickChild (z :: zs) else z)
        w.children).bind Child.status <;>
        simp only [World.waitpid, World.nextFault, World.reading, hf, hz, hz', hb]

theorem readStd_echo (cb : List UInt8 → Event) (err : Error) :
    Mimics (Echo h) (readStd fd h cb err) (readStd fd h cb err) := by
  refine (readRetry_echo _ _).bind fun answer => ?_
  split
  · exact (processError_echo _).bind fun _ => blocking_echo _ (Mimics.pure _)
  · exact Mimics.pure _
  · exact (emit_echo _).bind fun _ => Mimics.pure _

theorem readClose_echo : Mimics (Echo h) (readClose h) (readClose h) := by
  refine Mimics.get_bind fun s s' hs => ?_
  rw [hs.procs]
  refine MimicsFrom.bind (readRetry_echo _ _ s s' hs) fun answer => ?_
  split
  · exact (processError_echo _).bind fun _ => blocking_echo _ (Mimics.pure _)
  · exact blocking_echo _ (Mimics.pure _)

theorem ioCloseWatch_echo : Mimics (Echo h) (ioCloseWatch h) (ioCloseWatch h) := by
  refine readClose_echo.bind fun ret => ?_
  refine Mimics.ite (fun _ => ?_) fun _ => Mimics.pure _
  refine Mimics.get_bind fun s s' hs => ?_
  rw [hs.sees Sys.ioLoop fun _ _ _ => rfl]
  exact MimicsFrom.bind (onWorld_echo (fun w reads => w.write_reading _ _ reads) s s' hs) fun _ =>
    Mimics.pure _

theorem ioInterrupt_echo (fd : Int) :
    Mimics (Echo h) (loopControl (ioInterrupt h) fd) (loopControl (ioInterrupt h) fd) := by
  refine (readRetry_echo _ _).bind fun answer => ?_
  split
  · exact Mimics.throw _
  · exact (modifyProc_echo (f := fun p => { p with userStopped := true }) fun _ => rfl).bind fun _ =>
      Mimics.pure _

/-- The reads that the signal pipe callback makes: the world in which each of them is made. -/
inductive SignalReads (fd : Int) : Nat → World → World → Prop
  | here {want : Nat} {w : World} : SignalReads fd want w w
  | later {want : Nat} {w v x : World} {data : List UInt8} : w.read fd want = (.ok data, v) →
      want - data.length ≠ 0 → SignalReads fd (want - data.length) v x → SignalReads fd want w x

/-- The reads of the final drain of one pipe. -/
inductive RestReads (fd : Int) : World → World → Prop
  | here {w : World} : RestReads fd w w
  | later {w v x : World} : w.read fd (bufferSize - 1) = (.ok [], v) → RestReads fd v x →
      RestReads fd w x

/-- The next `read` is interrupted. -/
def World.Interrupts (w : World) : Prop := w.readFaults.head?.join = some .eintr

theorem ioReadSignal_echo {fuel want : Nat} {got : List UInt8} (hs : Echo h s s')
    (hspared : ∀ w, SignalReads s'.blockingPipe.rd want s'.toWorld w → ¬w.Interrupts) :
    MimicsFrom (Echo h) s s' (ioReadSignal h fuel want got) (ioReadSignal h fuel want got) := by
  induction fuel generalizing want got s s' with
  | zero =>
    intro a t ht
    cases ht
  | succ fuel ih =>
    intro a t ht
    unfold ioReadSignal at ht ⊢
    rw [bind_of_ok (get_apply _)] at ht ⊢
    have hfd : s'.blockingPipe = s.blockingPipe := hs.sees (fun s => s.blockingPipe) fun _ _ _ => rfl
    rw [hfd] at hspared ⊢
    obtain ⟨answer, u, hu, ht⟩ := bind_eq_ok.mp ht
    obtain ⟨u', hu', hecho⟩ := read_echo hs want (hspared _ .here) answer u hu
    rw [bind_of_ok hu']
    cases answer with
    | error e => exact (processError_echo _).bind (fun _ => Mimics.pure _) u u' hecho a t ht
    | ok data =>
      dsimp only at ht ⊢
      split at ht
      next hdone =>
        rw [if_pos hdone]
        exact Mimics.pure _ u u' hecho a t ht
      next hmore =>
        rw [if_neg hmore]
        obtain ⟨hanswer, hstate⟩ := EStateM.Result.ok.inj hu'
        have hread : s'.toWorld.read s.blockingPipe.rd want = (.ok data, u'.toWorld) :=
          Prod.ext hanswer (congrArg Sys.toWorld hstate)
        have hblock : u'.blockingPipe = s.blockingPipe := by
          obtain ⟨_, _, hframe⟩ := s'.toWorld.read_frame s.blockingPipe.rd want
          rw [hread] at hframe
          have hkept := congrArg World.blockingPipe hframe
          exact hkept.trans hfd
        refine ih hecho (fun w hw => hspared w (.later hread hmore ?_)) a t ht
        rw [hblock] at hw
        exact hw

theorem waitpidOnce_echo : Mimics (Echo h) (waitpidOnce h) (waitpidOnce h) := by
  refine (modifyProc_echo (f := fun p => { p with status := 0 }) fun _ => rfl).bind fun _ => ?_
  refine Mimics.get_bind fun s s' hs => ?_
  rw [hs.procs]
  refine MimicsFrom.bind (call_echo (fun w reads => w.waitpid_reading _ reads) s s' hs) fun result => ?_
  refine (emit_echo _).bind fun _ => ?_
  split
  next status => exact (modifyProc_echo (f := fun p => { p with status }) fun _ => rfl).bind fun _ => Mimics.pure _
  next => exact (processError_echo _).bind fun _ => Mimics.pure _

theorem waitpidRetry_echo (faults : List (Option Errno)) :
    Mimics (Echo h) (waitpidRetry h faults) (waitpidRetry h faults) := by
  induction faults with
  | nil => exact waitpidOnce_echo.bind fun _ => Mimics.pure _
  | cons _ faults ih => exact waitpidOnce_echo.bind fun _ => Mimics.ite (fun _ => ih) fun _ => Mimics.pure _

theorem handleProcReturnCode_echo : Mimics (Echo h) (handleProcReturnCode h) (handleProcReturnCode h) := by
  refine Mimics.get_bind fun s s' hs => ?_
  rw [hs.procs]
  split
  next e _ => exact processError_echo e s s' hs
  next => exact Mimics.pure _ s s' hs

theorem updateStatus_echo (status : WaitStatus) :
    Mimics (Echo h) (updateStatus h status) (updateStatus h status) := by
  refine (modifyProc_echo (f := fun p => { p with status, proc := p.proc.updateStatus status })
    fun _ => rfl).bind fun _ => (callState_echo _).bind fun _ => Mimics.get_bind fun s s' hs => ?_
  rw [hs.procs]
  split
  · refine MimicsFrom.bind (modifyProc_echo (f := fun p =>
      { p with proc := { p.proc with stdinFd := -1 }, procKilled := true }) (fun _ => rfl) s s' hs) fun _ => ?_
    exact handleProcReturnCode_echo.bind fun _ => blocking_echo _ (Mimics.pure _)
  · exact Mimics.pure _ s s' hs

theorem singleHandleSigchld_echo : Mimics (Echo h) (singleHandleSigchld h) (singleHandleSigchld h) := by
  have hmask (block : Bool) (e : Error) : Mimics (Echo h)
      (do if !(← call (World.sigprocmask · block)) then processError h e)
      (do if !(← call (World.sigprocmask · block)) then processError h e) :=
    (call_echo fun w reads => w.sigprocmask_reading block reads).bind fun _ =>
      Mimics.ite (fun _ => processError_echo e) fun _ => Mimics.pure _
  refine (hmask true .sigBlockError).bind fun _ => Mimics.get_bind fun s s' hs => ?_
  rw [hs.sees (fun s => s.faults) fun _ _ _ => rfl]
  refine MimicsFrom.bind (waitpidRetry_echo _ s s' hs) fun _ => (hmask false .sigUnblockError).bind fun _ =>
    Mimics.get_bind fun s s' hs => ?_
  rw [hs.procs]
  exact updateStatus_echo _ s s' hs

theorem ioSigchld_echo (hs : Echo h s s')
    (hspared : ∀ w, SignalReads s'.blockingPipe.rd 4 s'.toWorld w → ¬w.Interrupts) :
    MimicsFrom (Echo h) s s' (ioSigchld h) (ioSigchld h) := by
  refine MimicsFrom.bind (ioReadSignal_echo hs hspared) fun answer => ?_
  split
  · exact Mimics.pure _
  · have hrest : Mimics (Echo h)
        (do return if ((← get).procs h).procKilled then .stopLoop else .nothing : Prog EventReturn)
        (do return if ((← get).procs h).procKilled then .stopLoop else .nothing : Prog EventReturn) := by
      refine Mimics.get_bind fun s s' hs => ?_
      rw [hs.procs]
      exact Mimics.pure _ s s' hs
    exact Mimics.ite (fun _ => singleHandleSigchld_echo.bind fun _ => hrest) fun _ => hrest

/-- The callbacks of the loop, where no read of the signal pipe is interrupted. -/
theorem ioCallback_echo {cb : IoSource} (hs : Echo h s s')
    (hspared : cb = .sigchld → ∀ w, SignalReads s'.blockingPipe.rd 4 s'.toWorld w → ¬w.Interrupts) :
    MimicsFrom (Echo h) s s' (ioCallback h cb fd) (ioCallback h cb fd) := by
  cases cb with
  | interrupt => exact ioInterrupt_echo fd s s' hs
  | closeWatch => exact ioCloseWatch_echo s s' hs
  | stdout | stderr =>
    refine Mimics.get_bind (fun s s' hs => ?_) s s' hs
    rw [hs.procs]
    exact readStd_echo _ _ s s' hs
  | sigchld => exact ioSigchld_echo hs (hspared rfl)

theorem envAct_echo (act : EnvAct) (s : Sys) (readFaults : List (Option Errno))
    (selects : List SelectAnswer) :
    act.apply (s.answering readFaults selects) = (act.apply s).answering readFaults selects := by
  cases act with
  | childOut h data =>
    simp only [EnvAct.apply, Sys.answering]
    cases (s.procs h).pipeStdout.pipe <;> rfl
  | childErr h data =>
    simp only [EnvAct.apply, Sys.answering]
    cases (s.procs h).pipeStderr.pipe <;> rfl
  | userStop h => exact congrArg (fun w => { s with toWorld := w, selects }) (s.toWorld.write_reading _ _ readFaults)
  | sigchld =>
    refine congrArg (fun w => { s with toWorld := w, selects }) (?_ : World.deliverSigchld
      (s.toWorld.reading readFaults) = s.toWorld.deliverSigchld.reading readFaults)
    simp only [World.deliverSigchld, show (s.toWorld.reading readFaults).disposition = s.disposition from rfl]
    cases s.disposition with
    | sigchldSignalHandler | sigchldBlockingSignalHandler => exact s.toWorld.write_reading _ _ readFaults
    | _ => rfl
  | exit pid status | setpgid pid pgid =>
    simp only [EnvAct.apply]
    rw [show (s.answering readFaults selects).children = s.children from rfl]
    cases s.children.lookup pid with
    | none => rfl
    | some child =>
      dsimp only
      rw [apply_ite (Sys.answering · readFaults selects)]
      rfl
  | fork pid pgid | reap pid | closeFile fd =>
    simp only [EnvAct.apply]
    rw [apply_ite (Sys.answering · readFaults selects)]
    rfl
  | openFile fd =>
    simp only [EnvAct.apply]
    rw [apply_dite (Sys.answering · readFaults selects)]
    rfl

theorem Echo.act (hs : Echo h s s') (act : EnvAct) : Echo h (act.apply s) (act.apply s') := by
  obtain ⟨halone, ⟨readFaults, selects, rfl⟩, hreads⟩ := hs
  rw [envAct_echo]
  obtain ⟨fds, pipes, children, hframe⟩ := act.frame s
  rw [hframe]
  exact ⟨⟨halone.handles, halone.type⟩, ⟨readFaults, selects, rfl⟩, hreads⟩

theorem Echo.acts (hs : Echo h s s') (acts : List EnvAct) :
    Echo h (acts.foldl (fun s act => act.apply s) s) (acts.foldl (fun s act => act.apply s) s') := by
  induction acts generalizing s s' with
  | nil => exact hs
  | cons act acts ih => exact ih (hs.act act)

theorem Echo.loop (hs : Echo h s s') (f : SelectEvent IoSource → SelectEvent IoSource) :
    Echo h (ioRef.update f s) (ioRef.update f s') := by
  obtain ⟨halone, ⟨readFaults, selects, rfl⟩, hreads⟩ := hs
  exact ⟨⟨halone.handles, halone.type⟩, ⟨readFaults, selects, rfl⟩, hreads⟩

theorem selectPass_echo {ready : List Int} {fuel : Nat} (hs : Echo h s s')
    (hspared : ∀ fd u, PassCalls ioRef (ioCallback h) ready s' .sigchld fd u →
      ∀ w, SignalReads u.blockingPipe.rd 4 u.toWorld w → ¬w.Interrupts) :
    MimicsFrom (Echo h) s s' (selectPass ioRef (ioCallback h) ready fuel)
      (selectPass ioRef (ioCallback h) ready fuel) := by
  induction fuel generalizing s s' with
  | zero =>
    intro b t ht
    cases ht
  | succ fuel ih =>
    intro b t ht
    unfold selectPass at ht ⊢
    rw [bind_of_ok (get_apply _)] at ht ⊢
    have hloop : ioRef.get s' = ioRef.get s := hs.sees Sys.ioLoop fun _ _ _ => rfl
    rw [hloop]
    cases hcur : (ioRef.get s).current with
    | none =>
      rw [hcur] at ht
      exact Mimics.pure false s s' hs b t ht
    | some p =>
      obtain ⟨fd, cb⟩ := p
      rw [hcur] at ht
      obtain ⟨ret, u, hu, ht⟩ := bind_eq_ok.mp ht
      have hcall : MimicsFrom (Echo h) s s' (callReady (ioCallback h) ready fd cb)
          (callReady (ioCallback h) ready fd cb) := by
        unfold callReady
        split
        next hready =>
          refine ioCallback_echo hs fun hcb => ?_
          subst hcb
          exact hspared fd s' (.here (hloop ▸ hcur) hready)
        next => exact Mimics.pure _ s s' hs
      obtain ⟨u', hu', hecho⟩ := hcall ret u hu
      dsimp only
      rw [bind_of_ok hu']
      cases ret with
      | stopLoop => exact Mimics.pure true u u' hecho b t ht
      | skipOtherFd => exact Mimics.pure false u u' hecho b t ht
      | nothing =>
        have hnext := hecho.loop SelectEvent.advance
        exact ih hnext (fun fd v hv => hspared fd v (.later (hloop ▸ hcur) hu' hv)) b t ht

theorem Echo.waiting (hs : Echo h s s') (selects selects' : List SelectAnswer) :
    Echo h { s with selects } { s' with selects := selects' } := by
  obtain ⟨halone, ⟨readFaults, _, rfl⟩, hreads⟩ := hs
  exact ⟨⟨halone.handles, halone.type⟩, ⟨readFaults, selects', rfl⟩, hreads⟩

theorem Echo.woken (hs : Echo h s s') (answers answers' : List SelectAnswer) (acts : List EnvAct) :
    Echo h (ioRef.woken answers acts s) (ioRef.woken answers' acts s') :=
  ((hs.waiting answers answers').acts acts).loop SelectEvent.begin

theorem selectLoop_echo {answers answers' : List SelectAnswer} {t : Sys} (hs : Echo h s s')
    (hp : Padded .eintr (fun _ => False) answers answers')
    (hspared : ∀ fd u, LoopCalls ioRef (ioCallback h) answers' s' .sigchld fd u →
      ∀ w, SignalReads u.blockingPipe.rd 4 u.toWorld w → ¬w.Interrupts)
    (ht : selectLoop ioRef (ioCallback h) (processError h .selectError) answers s = .ok () t) :
    ∃ t', selectLoop ioRef (ioCallback h) (processError h .selectError) answers' s' = .ok () t' ∧
      Echo h t t' := by
  have hwatched : ∀ {s s' : Sys}, Echo h s s' → ∀ as bs, ioRef.watched bs s' = ioRef.watched as s :=
    fun hs _ _ => hs.sees (fun u => u.ioLoop.keys) fun _ _ _ => rfl
  induction hp generalizing s s' with
  | nil => cases ht
  | past hfalse => exact hfalse.elim
  | @pad as bs hp ih =>
    have hw : ioRef.watched bs s' ≠ [] := by
      cases as with
      | nil => cases ht
      | cons a as =>
        rw [hwatched hs as bs]
        exact selectLoop_watched ht
    rw [selectLoop_eintr hw]
    refine ih (hs.waiting s.selects bs) (fun fd u hc => ?_) ht
    obtain ⟨acts, fds, rest, v, hwaits, hpass⟩ := hc
    exact hspared fd u ⟨acts, fds, rest, v, .eintr hw hwaits, hpass⟩
  | @cons a as bs hp ih =>
    have hw := selectLoop_watched ht
    have hw' : ioRef.watched bs s' ≠ [] := hwatched hs as bs ▸ hw
    cases a with
    | eintr =>
      rw [selectLoop_eintr hw] at ht
      rw [selectLoop_eintr hw']
      refine ih (hs.waiting as bs) (fun fd u hc => ?_) ht
      obtain ⟨acts, fds, rest, v, hwaits, hpass⟩ := hc
      exact hspared fd u ⟨acts, fds, rest, v, .eintr hw' hwaits, hpass⟩
    | fail e =>
      rw [selectLoop_fail hw] at ht
      rw [selectLoop_fail hw']
      exact processError_echo _ _ _ (hs.waiting as bs) () t ht
    | ready acts fds =>
      rw [selectLoop_ready hw] at ht
      rw [selectLoop_ready hw', hwatched hs as bs]
      obtain ⟨stop, u, hu, ht⟩ := bind_eq_ok.mp ht
      obtain ⟨u', hu', hecho⟩ := selectPass_echo (hs.woken as bs acts) (fun fd u hc w hr => hspared fd u
        ⟨acts, fds, bs, s', .here hw', hwatched hs as bs ▸ hc⟩ w hr) stop u hu
      rw [bind_of_ok hu']
      cases stop with
      | true => exact Mimics.pure () u u' hecho () t ht
      | false =>
        refine ih hecho (fun fd v hc => ?_) ht
        obtain ⟨acts', fds', rest, x, hwaits, hpass⟩ := hc
        exact hspared fd v ⟨acts', fds', rest, x, .pass hw' (hwatched hs as bs ▸ hu') hwaits, hpass⟩

theorem readStdRest_echo {cb : List UInt8 → Event} {err : Error} {fuel fuel' : Nat}
    (hfuel : fuel ≤ fuel') (hs : Echo h s s')
    (hspared : ∀ w, RestReads fd s'.toWorld w → ¬w.Interrupts) :
    MimicsFrom (Echo h) s s' (readStdRest fd h cb err fuel) (readStdRest fd h cb err fuel') := by
  induction fuel generalizing fuel' s s' with
  | zero =>
    intro a t ht
    cases ht
  | succ fuel ih =>
    obtain ⟨fuel', rfl⟩ : ∃ n, fuel' = n + 1 := ⟨fuel' - 1, by omega⟩
    intro a t ht
    unfold readStdRest at ht ⊢
    obtain ⟨answer, u, hu, ht⟩ := bind_eq_ok.mp ht
    obtain ⟨u', hu', hecho⟩ := read_echo hs (bufferSize - 1) (hspared _ .here) answer u hu
    rw [bind_of_ok hu']
    obtain ⟨hanswer, hstate⟩ := EStateM.Result.ok.inj hu'
    have hread : s'.toWorld.read fd (bufferSize - 1) = (answer, u'.toWorld) :=
      Prod.ext hanswer (congrArg Sys.toWorld hstate)
    rcases answer with e | _ | ⟨x, data⟩
    · exact (Mimics.ite (fun _ => processError_echo err) fun _ => Mimics.pure ()) u u' hecho a t ht
    · exact ih (by omega) hecho (fun w hw => hspared w (.later hread hw)) a t ht
    · exact emit_echo _ u u' hecho a t ht

theorem ioAdd_echo (fd : Int) (cb : IoSource) : Mimics (Echo h) (ioAdd fd cb) (ioAdd fd cb) := by
  refine (call_echo fun w reads => rfl).bind fun order => Mimics.get_bind fun s s' hs => ?_
  rw [hs.sees Sys.ioLoop fun _ _ _ => rfl]
  split
  next e _ =>
    exact modify_echo (f := fun s => { s with ioLoop := e }) (fun _ _ _ => rfl) (fun _ => rfl)
      (fun _ => rfl) (fun _ => rfl) s s' hs
  next => exact Mimics.throw _ s s' hs

theorem ioRegister_echo : Mimics (Echo h) (ioRegister h) (ioRegister h) := by
  refine (modifyProc_echo (f := fun p => { p with procKilled := false, userStopped := false, status := 0 })
    fun _ => rfl).bind fun _ => ?_
  have hnew : Mimics (Echo h) (newSelectEvent IoSource.interrupt) (newSelectEvent IoSource.interrupt) := by
    refine (call_echo fun w reads => w.pipe2_reading true reads).bind fun p => ?_
    split
    · exact Mimics.throw _
    · exact (call_echo fun w reads => rfl).bind fun _ => Mimics.pure _
  refine hnew.bind fun e => ?_
  refine (modify_echo (f := fun s => { s with ioLoop := e }) (fun _ _ _ => rfl) (fun _ => rfl)
    (fun _ => rfl) fun _ => rfl).bind fun _ => Mimics.get_bind fun s s' hs => ?_
  rw [hs.procs, hs.sees (fun s => s.blockingPipe) fun _ _ _ => rfl]
  exact MimicsFrom.bind (ioAdd_echo _ _ s s' hs) fun _ => (ioAdd_echo _ _).bind fun _ =>
    (ioAdd_echo _ _).bind fun _ => ioAdd_echo _ _

theorem ioDestroy_echo : Mimics (Echo h) ioDestroy ioDestroy := by
  refine Mimics.get_bind fun s s' hs => ?_
  rw [hs.sees Sys.ioLoop fun _ _ _ => rfl]
  refine MimicsFrom.bind (onWorld_echo (fun w reads => w.closePipe_reading _ reads) s s' hs) fun _ => ?_
  exact modify_echo (fun _ _ _ => rfl) (fun _ => rfl) (fun _ => rfl) fun _ => rfl

theorem resetSigchldSignalHandler_echo :
    Mimics (Echo h) (resetSigchldSignalHandler h) (resetSigchldSignalHandler h) := by
  refine Mimics.get_bind fun s s' hs => ?_
  rw [hs.procs]
  refine MimicsFrom.bind (call_echo (fun w reads => w.sigaction_reading _ reads) s s' hs) fun answer => ?_
  split
  · exact Mimics.pure _
  · exact (processError_echo _).bind fun _ => Mimics.pure _

theorem World.closeForkPipes_reading (w : World) (p : PexecSingle) (readFaults : List (Option Errno)) :
    (w.reading readFaults).closeForkPipes p = (w.closeForkPipes p).reading readFaults := by
  obtain ⟨x, hx⟩ : ∃ x, x = ((w.closePipe p.pipeStdin).closePipe p.pipeStdout).closePipe p.pipeStderr :=
    ⟨_, rfl⟩
  have hblock : ({ (x.reading readFaults).closePipe x.blockingPipe with
      blockingPipe := x.blockingPipe.closed } : World) =
        World.reading { x.closePipe x.blockingPipe with blockingPipe := x.blockingPipe.closed } readFaults :=
    congrArg (fun v : World => { v with blockingPipe := x.blockingPipe.closed })
      (x.closePipe_reading x.blockingPipe readFaults)
  simp only [World.closeForkPipes, World.closePipe_reading w, World.closePipe_reading (w.closePipe _),
    World.closePipe_reading ((w.closePipe _).closePipe _), ← hx]
  split
  · exact (congrArg (World.closePipe · p.pipeCloseWatch) hblock).trans (World.closePipe_reading _ _ _)
  · exact World.closePipe_reading _ _ _

theorem closeForkPipes_echo : Mimics (Echo h) (closeForkPipes h) (closeForkPipes h) := by
  refine modify_echo (fun s readFaults selects => ?_) (fun s => ?_) (fun _ => rfl) fun s => ?_
  · exact congrArg (fun w => { s with
      toWorld := w, selects, procs := Function.update s.procs h (s.procs h).pipesClosed })
      (s.toWorld.closeForkPipes_reading (s.procs h) readFaults)
  · have hkept := congrArg World.readFaults (s.toWorld.closeForkPipes_reading (s.procs h) s.readFaults)
    exact hkept
  · dsimp only
    rw [Function.update_self]
    rfl

/-- `loop_io`, and what `exec` does after it. -/
def ioCourse (h : Nat) : Prog Unit := do
  loopIo h
  let _ ← resetSigchldSignalHandler h
  execEnd h

/-- No interruption meets a read that does not try again: those of the signal pipe, which report
it, and those of the final drain, which take it for the end of the output. -/
structure Retried (h : Nat) (c : Sys) : Prop where
  signal : ∀ d, ioRegister h c = .ok () d → ∀ fd u,
    LoopCalls ioRef (ioCallback h) d.selects d .sigchld fd u →
      ∀ w, SignalReads u.blockingPipe.rd 4 u.toWorld w → ¬w.Interrupts
  stdout : ∀ d b e, loopIo h c = .ok () d → resetSigchldSignalHandler h d = .ok b e →
    (e.procs h).userStopped = false →
      ∀ w, RestReads (e.procs h).pipeStdout.rd e.toWorld w → ¬w.Interrupts
  stderr : ∀ d b e v, loopIo h c = .ok () d → resetSigchldSignalHandler h d = .ok b e →
    (e.procs h).userStopped = false →
      readStdRest (e.procs h).pipeStdout.rd h (.out h) .stdoutPipeReadRestError
        (e.readFaults.length + 1) e = .ok () v →
      ∀ w, RestReads (v.procs h).pipeStderr.rd v.toWorld w → ¬w.Interrupts

theorem loopIo_echo {t : Sys} (hs : Echo h s s')
    (hp : Padded .eintr (fun _ => False) s.selects s'.selects)
    (hspared : ∀ d, ioRegister h s' = .ok () d → ∀ fd u,
      LoopCalls ioRef (ioCallback h) d.selects d .sigchld fd u →
        ∀ w, SignalReads u.blockingPipe.rd 4 u.toWorld w → ¬w.Interrupts)
    (ht : loopIo h s = .ok () t) : ∃ t', loopIo h s' = .ok () t' ∧ Echo h t t' := by
  unfold loopIo at ht ⊢
  obtain ⟨_, d, hd, ht⟩ := bind_eq_ok.mp ht
  obtain ⟨d', hd', hecho⟩ := ioRegister_echo s s' hs () d hd
  rw [bind_of_ok (get_apply _)] at ht
  obtain ⟨_, e, he, ht⟩ := bind_eq_ok.mp ht
  rw [bind_of_ok hd', bind_of_ok (get_apply _)]
  have hanswers : Padded .eintr (fun _ => False) d.selects d'.selects := by
    rw [(ioRegister_selects _).ok rfl hd, (ioRegister_selects _).ok rfl hd']
    exact hp
  obtain ⟨e', he', hecho⟩ := selectLoop_echo hecho hanswers (hspared d' hd') he
  rw [bind_of_ok he']
  exact ioDestroy_echo e e' hecho () t ht

theorem loopRestIo_echo (hs : Echo h s s')
    (hstdout : ∀ w, RestReads (s'.procs h).pipeStdout.rd s'.toWorld w → ¬w.Interrupts)
    (hstderr : ∀ v, readStdRest (s'.procs h).pipeStdout.rd h (.out h) .stdoutPipeReadRestError
      (s'.readFaults.length + 1) s' = .ok () v →
        ∀ w, RestReads (v.procs h).pipeStderr.rd v.toWorld w → ¬w.Interrupts) :
    MimicsFrom (Echo h) s s' (loopRestIo h) (loopRestIo h) := by
  intro a t ht
  unfold loopRestIo at ht ⊢
  rw [bind_of_ok (get_apply _)] at ht ⊢
  obtain ⟨_, u, hu, ht⟩ := bind_eq_ok.mp ht
  rw [bind_of_ok (get_apply _)] at ht
  have hlen : s.readFaults.length + 1 ≤ s'.readFaults.length + 1 := Nat.succ_le_succ hs.reads.length_le
  have hfd := congrFun hs.procs h
  rw [hfd] at hstdout hstderr ⊢
  obtain ⟨u', hu', hecho⟩ := readStdRest_echo hlen hs hstdout () u hu
  rw [bind_of_ok hu', bind_of_ok (get_apply _)]
  have hlen' : u.readFaults.length + 1 ≤ u'.readFaults.length + 1 :=
    Nat.succ_le_succ hecho.reads.length_le
  have hrest := hstderr u' hu'
  rw [hecho.procs] at hrest ⊢
  exact readStdRest_echo hlen' hecho hrest a t ht

theorem execEnd_echo (hs : Echo h s s')
    (hstdout : (s'.procs h).userStopped = false →
      ∀ w, RestReads (s'.procs h).pipeStdout.rd s'.toWorld w → ¬w.Interrupts)
    (hstderr : ∀ v, (s'.procs h).userStopped = false →
      readStdRest (s'.procs h).pipeStdout.rd h (.out h) .stdoutPipeReadRestError
        (s'.readFaults.length + 1) s' = .ok () v →
      ∀ w, RestReads (v.procs h).pipeStderr.rd v.toWorld w → ¬w.Interrupts) :
    MimicsFrom (Echo h) s s' (execEnd h) (execEnd h) := by
  intro a t ht
  unfold execEnd at ht ⊢
  rw [bind_of_ok (get_apply _)] at ht ⊢
  rw [hs.procs]
  cases hwanted : (s.procs h).userStopped with
  | true =>
    rw [if_pos hwanted] at ht
    refine Mimics.bind (modifyProc_echo (f := fun p =>
      { p with userStopped := true, proc := { p.proc with userStopFd := -1 } }) fun _ => rfl)
        (fun _ => closeForkPipes_echo.bind fun _ => callState_echo _) s s' hs a t ht
  | false =>
    rw [if_neg (by rw [hwanted]; decide)] at ht
    have hwanted' : (s'.procs h).userStopped = false := hs.procs ▸ hwanted
    exact MimicsFrom.bind (loopRestIo_echo hs (hstdout hwanted') fun v => hstderr v hwanted')
      (fun _ => closeForkPipes_echo.bind fun _ => callState_echo _) a t ht

/-- Interruptions of `select` and of the reads that are tried again leave no trace. -/
theorem eintr_transparent {t : Sys} (halone : Standalone h c) (hi : Delayed c c')
    (hwaits : c'.faults = c.faults) (hretried : Retried h c') (ht : ioCourse h c = .ok () t) :
    ∃ t', ioCourse h c' = .ok () t' ∧ t'.trace = t.trace := by
  have hecho : Echo h c c' := by
    obtain ⟨readFaults, faults, selects, rfl⟩ := hi.frame
    have hfaults : faults = c.faults := hwaits
    exact ⟨halone, ⟨readFaults, selects, by rw [hfaults]; rfl⟩, hi.reads⟩
  obtain ⟨_, d, hd, ht⟩ := bind_eq_ok.mp ht
  obtain ⟨b, e, he, ht⟩ := bind_eq_ok.mp ht
  obtain ⟨d', hd', hecho⟩ := loopIo_echo hecho hi.answers hretried.signal hd
  obtain ⟨e', he', hecho⟩ := resetSigchldSignalHandler_echo d d' hecho b e he
  obtain ⟨t', ht', hecho⟩ := execEnd_echo hecho (hretried.stdout d' b e' hd' he')
    (hretried.stderr d' b e' · hd' he') () t ht
  refine ⟨t', ?_, hecho.sees (fun u => u.trace) fun _ _ _ => rfl⟩
  unfold ioCourse
  rw [bind_of_ok hd', bind_of_ok he']
  exact ht'

/-- The object of a fresh process once its child runs, with the given answers of `select`. -/
def launchedWith (selects : List SelectAnswer) : Sys :=
  final (do
    let _ ← execPrepare 0 ['a']
    execStarted 0) { (boot {}).choose {} with selects }

theorem RestReads.once {x : World} (hr : RestReads fd w x) (hw : ¬w.Interrupts)
    (hdata : (w.read fd (bufferSize - 1)).1.toOption ≠ some []) : ¬x.Interrupts := by
  cases hr with
  | here => exact hw
  | later hread _ =>
    rw [hread] at hdata
    exact absurd rfl hdata

instance (w : World) : Decidable w.Interrupts := inferInstanceAs (Decidable (_ = _))

theorem SignalReads.once {want : Nat} {w x : World} (hr : SignalReads fd want w x) (hw : ¬w.Interrupts)
    (hdata : ∀ data, (w.read fd want).1 = .ok data → data.length = want) : ¬x.Interrupts := by
  cases hr with
  | here => exact hw
  | later hread hne _ =>
    have hlen := hdata _ (congrArg Prod.fst hread)
    exact absurd (by omega) hne

/-- The check that the record of a signal is read at once. -/
def readsAtOnce (cb : IoSource) (_ : Int) (u : Sys) : Bool :=
  decide (cb ≠ .sigchld) || (decide ¬u.toWorld.Interrupts && match (u.toWorld.read u.blockingPipe.rd 4).1 with
    | .ok data => decide (data.length = 4)
    | .error _ => true)

theorem readsAtOnce_sound {u : Sys} (hc : readsAtOnce .sigchld fd u = true) {w : World}
    (hw : SignalReads u.blockingPipe.rd 4 u.toWorld w) : ¬w.Interrupts := by
  simp only [readsAtOnce, ne_eq, not_true_eq_false, decide_false, Bool.false_or, Bool.and_eq_true,
    decide_eq_true_eq] at hc
  refine hw.once hc.1 fun data hdata => ?_
  have hlen := hc.2
  rw [hdata] at hlen
  exact of_decide_eq_true hlen

/-- The child writes a byte, which is read, and exits. -/
def writtenRun : Sys := launchedWith
  [.ready [.childOut 0 [97]] [2], .ready [.exit 1 ⟨0, terminated_zero⟩, .sigchld] [6]]

/-- In between `select` is interrupted twice, and so is the first read of the output. -/
def delayedRun : Sys :=
  { launchedWith [.eintr, .ready [.childOut 0 [97]] [2], .eintr,
      .ready [.exit 1 ⟨0, terminated_zero⟩, .sigchld] [6]] with readFaults := [some .eintr] }

theorem eintr_transparent_written : .out 0 [97] ∈ (final (ioCourse 0) writtenRun).trace ∧
    ∃ t', ioCourse 0 delayedRun = .ok () t' ∧ t'.trace = (final (ioCourse 0) writtenRun).trace := by
  refine ⟨by decide +kernel, eintr_transparent (h := 0) (c := writtenRun) ⟨by decide +kernel, by decide +kernel⟩
    ⟨⟨_, _, _, rfl⟩, .pad .nil, .refl _, .pad (.cons _ (.pad (.refl _)))⟩ rfl ⟨?_, ?_, ?_⟩
    (ok_final (by decide +kernel))⟩
  · intro d hd fd u hcall w hw
    rw [← final_of_ok hd] at hcall
    exact readsAtOnce_sound (hcall.checked (p := readsAtOnce) (by decide +kernel)) hw
  · intro d b e hd he _ w hw
    rw [← final_of_ok he, ← final_of_ok hd] at hw
    exact hw.once (by decide +kernel) (by decide +kernel)
  · intro d b e v hd he _ hv w hw
    rw [← final_of_ok hv, ← final_of_ok he, ← final_of_ok hd] at hw
    exact hw.once (by decide +kernel) (by decide +kernel)

/-- The child writes a byte and exits; one signal is read, then the drain begins. -/
def drainedRun : Sys :=
  launchedWith [.ready [.childOut 0 [97], .exit 1 ⟨0, terminated_zero⟩, .sigchld] [6]]

/-- The first read of the drain is interrupted. -/
def interruptedDrain : Sys := { drainedRun with readFaults := [none, some .eintr] }

theorem interrupted_drain : Delayed drainedRun interruptedDrain ∧
    ioCourse 0 drainedRun = .ok () (final (ioCourse 0) drainedRun) ∧
    ioCourse 0 interruptedDrain = .ok () (final (ioCourse 0) interruptedDrain) ∧
    .out 0 [97] ∈ (final (ioCourse 0) drainedRun).trace ∧
    .out 0 [97] ∉ (final (ioCourse 0) interruptedDrain).trace :=
  ⟨⟨⟨_, _, _, rfl⟩, .past rfl (.pad .nil), .refl _, .refl _⟩, ok_final (by decide +kernel),
    ok_final (by decide +kernel), by decide +kernel, by decide +kernel⟩

end Pexec
