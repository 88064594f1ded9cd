import Pexec.JobWakeup
import Pexec.Spawning

namespace Pexec

open Effect Runs

/-- The object that a registered callback is about. -/
def Source.owner : Source → Option Nat
  | .readClose h | .readStdout h | .readStderr h => some h
  | .sigchld | .control => none

/-- The spawn job of the handle has been taken from the buffer. -/
def Sys.Taken (s : Sys) (h : Nat) : Prop := h < s.nextHandle ∧ some (.spawn h) ∉ s.buffer

/-- Every object has passed on what it has read, and handles whose spawn job is still to come
have not been touched. -/
structure Isolated (s : Sys) : Prop where
  owns : s.Owns
  passed : ∀ h, outOf h s.trace = (s.stream (.stdout h)).read ∧
    errOf h s.trace = (s.stream (.stderr h)).read
  unused : ∀ h, s.nextHandle ≤ h → s.procs h = {}
  fresh : ∀ h, some (.spawn h) ∈ s.buffer → h < s.nextHandle ∧
    s.procs h = { type := .nonblocking } ∧ ∃ args hasOnStop, s.handles h = some { args, hasOnStop }
  once : ∀ h, s.buffer.count (some (.spawn h)) ≤ 1
  registered : ∀ fd src h, s.registered.lookup fd = some src → src.owner = some h → s.Taken h
  active : ∀ pid h, s.active.lookup pid = some h → s.Taken h
  control : ∀ fd, s.registered.lookup fd = some .control → fd = s.controlPipe.rd
  interrupt : ∀ e, s.loop = some e → ∀ fd, (fd, LoopSource.interrupt) ∈ e.cbs → fd = e.controlPipe.rd
  ready : s.controlPipe.rd ≠ -1

variable {h : Nat} {s t : Sys}

/-- Only objects whose job is taken are worked on. -/
theorem Isolated.step (hs : Isolated s) (hc : Carries s t) (hnext : t.nextHandle = s.nextHandle)
    (hpipe : t.controlPipe = s.controlPipe)
    (hobj : ∀ x, ¬s.Taken x → t.procs x = s.procs x ∧ t.handles x = s.handles x)
    (hbuf : ∀ x, t.buffer.count (some (.spawn x)) ≤ s.buffer.count (some (.spawn x)))
    (hreg : ∀ fd src x, t.registered.lookup fd = some src → src.owner = some x → s.Taken x)
    (hact : ∀ pid x, t.active.lookup pid = some x → s.Taken x)
    (hctrl : ∀ fd, t.registered.lookup fd = some .control → fd = t.controlPipe.rd)
    (hint : ∀ e, t.loop = some e → ∀ fd, (fd, LoopSource.interrupt) ∈ e.cbs → fd = e.controlPipe.rd) :
    Isolated t := by
  obtain ⟨howns, hpass⟩ := hc hs.owns
  have hmem : ∀ x, some (.spawn x) ∈ t.buffer → some (.spawn x) ∈ s.buffer := by
    intro x hx
    have := hbuf x
    have := List.count_pos_iff.mpr hx
    exact List.count_pos_iff.mp (by omega)
  have htaken : ∀ x, s.Taken x → t.Taken x := fun x hx =>
    ⟨hnext ▸ hx.1, fun hm => hx.2 (hmem x hm)⟩
  refine ⟨howns, fun x => ?_, fun x hx => ?_, fun x hx => ?_, fun x => ?_, ?_, ?_,
    hctrl, hint, hpipe ▸ hs.ready⟩
  · obtain ⟨out, err, h₁, h₂, h₃, h₄⟩ := hpass x
    obtain ⟨ho, he⟩ := hs.passed x
    exact ⟨by rw [h₁, h₂, ho], by rw [h₃, h₄, he]⟩
  · rw [hnext] at hx
    rw [(hobj x fun ht => absurd ht.1 (by omega)).1]
    exact hs.unused x hx
  · have hx' := hmem x hx
    obtain ⟨hp, hh⟩ := hobj x fun ht => ht.2 hx'
    rw [hnext, hp, hh]
    exact hs.fresh x hx'
  · exact Nat.le_trans (hbuf x) (hs.once x)
  · exact fun fd src x hl ho => htaken x (hreg fd src x hl ho)
  · exact fun pid x hl => htaken x (hact pid x hl)

theorem Shrinks.count (hs : Shrinks s t) (x : Nat) :
    t.buffer.count (some (.spawn x)) ≤ s.buffer.count (some (.spawn x)) := by
  obtain ⟨n, hb, _⟩ := hs.queue
  have hnone : (List.replicate n (none : Option Job)).count (some (.spawn x)) = 0 := by
    rw [List.count_eq_zero]
    intro hm
    cases List.eq_of_mem_replicate hm
  rw [hb, List.count_append, hnone, Nat.add_zero]

theorem Sys.off_objects (hoff : t.off h = s.off h) {x : Nat} (hx : x ≠ h) :
    t.procs x = s.procs x ∧ t.handles x = s.handles x := by
  have hp := congrArg (fun u : Sys => u.procs x) hoff
  have hh := congrArg (fun u : Sys => u.handles x) hoff
  simp only [Sys.off, Function.update_of_ne hx] at hp hh
  exact ⟨hp, hh⟩

/-- The same where the maps and the queue only shrink. -/
theorem Isolated.shrink (hs : Isolated s) (hc : Carries s t) (hnext : t.nextHandle = s.nextHandle)
    (hobj : ∀ x, ¬s.Taken x → t.procs x = s.procs x ∧ t.handles x = s.handles x)
    (hshr : Shrinks s t) (hctrl : t.controlPipe = s.controlPipe) : Isolated t := by
  refine hs.step hc hnext hctrl hobj hshr.count
    (fun fd src x hl => hs.registered fd src x (hshr.registered fd src hl))
    (fun pid x hl => hs.active pid x (hshr.active pid x hl))
    (fun fd hl => hctrl ▸ hs.control fd (hshr.registered fd _ hl)) fun e' he' fd hm => ?_
  obtain ⟨e, he, hc, hint⟩ := hshr.loop e' he'
  rw [hc]
  exact hs.interrupt e he fd (hint fd hm)

/-- A callback about an object whose job is taken. -/
theorem Isolated.acts (hs : Isolated s) (hh : s.Taken h) (ha : Acts h s t) : Isolated t := by
  refine hs.shrink ha.carries (ha.field Sys.nextHandle fun _ => rfl) (fun x hx => ?_) ha.shrinks
    (ha.field Sys.controlPipe fun _ => rfl)
  have hne : x ≠ h := by
    rintro rfl
    exact hx hh
  exact Sys.off_objects ha.off hne

/-- A step that keeps arrays, pipes, callbacks, objects, queue and maps. -/
theorem Isolated.same (hs : Isolated s) (hc : Carries s t) (hnext : t.nextHandle = s.nextHandle)
    (hp : t.procs = s.procs) (hh : t.handles = s.handles) (hb : t.buffer = s.buffer)
    (hr : t.registered = s.registered) (ha : t.active = s.active)
    (hctrl : t.controlPipe = s.controlPipe) (hl : t.loop = s.loop) : Isolated t :=
  hs.step hc hnext hctrl (fun x _ => ⟨by rw [hp], by rw [hh]⟩) (fun x => by rw [hb])
    (fun fd src x hm => hs.registered fd src x (hr ▸ hm)) (fun pid x hm => hs.active pid x (ha ▸ hm))
    (fun fd hm => hctrl ▸ hs.control fd (hr ▸ hm)) fun e he => hs.interrupt e (hl ▸ he)

theorem emit_isolated {e : Event} (he : e.Silent) : Keeps Isolated (emit e) :=
  fun _ hs => hs.same (emit_carries he) rfl rfl rfl rfl rfl rfl rfl rfl

theorem multiProcessError_isolated (e : Error) : Keeps Isolated (multiProcessError e) :=
  Keeps.bind (fun _ hs => hs.same (Carries.same rfl rfl rfl rfl) rfl rfl rfl rfl rfl rfl rfl rfl) fun _ =>
    emit_isolated fun _ => ⟨rfl, rfl⟩

theorem handlerProcessError_isolated (e : Error) : Keeps Isolated (handlerProcessError e) := by
  refine Triple.get_bind fun s hs => ?_
  split
  next => exact fun t ht => ht ▸ hs
  next handler _ =>
    refine Triple.bind (Q := fun _ => Isolated) ?_ fun _ => ?_
    · rintro t rfl
      exact hs.same (Carries.same rfl rfl rfl rfl) rfl rfl rfl rfl rfl rfl rfl rfl
    · exact Triple.ite (fun _ => multiProcessError_isolated e) fun _ => Triple.pure fun _ => id

/-- A call that changes neither descriptors nor pipes. -/
theorem call_isolated {α : Type} {f : World → α × World}
    (hf : ∀ w, ∃ faults children sigchldBlocked, (f w).2 = { w with faults, children, sigchldBlocked }) :
    Keeps Isolated (call f) := by
  intro s hs
  obtain ⟨faults, children, sigchldBlocked, hw⟩ := hf s.toWorld
  rw [call_apply, hw]
  exact hs.same (Carries.same rfl rfl rfl rfl) rfl rfl rfl rfl rfl rfl rfl rfl

theorem sigprocmask_isolated (block : Bool) : Keeps Isolated (call (World.sigprocmask · block)) := by
  refine call_isolated fun w => ?_
  obtain ⟨faults, sigchldBlocked, hw⟩ := w.sigprocmask_frame block
  exact ⟨faults, w.children, sigchldBlocked, hw⟩

theorem waitpid_isolated (pid : Int) : Keeps Isolated (call (World.waitpid · pid)) := by
  refine call_isolated fun w => ?_
  obtain ⟨faults, children, hw⟩ := (w.waitpid_answer pid).frame
  exact ⟨faults, children, w.sigchldBlocked, hw⟩

theorem acts_isolated {α : Type} {x : Prog α} (hx : Moves (Acts h) x) :
    Triple (fun s => Isolated s ∧ s.Taken h) x (fun _ => Isolated) (fun _ => Isolated) := by
  rintro s ⟨hs, hh⟩
  cases hr : x s with
  | ok a t => exact hs.acts hh (hx.ok hr)
  | error e t => exact hs.acts hh (hx.error hr)

theorem onSignal_isolated (pid : Int) (status : WaitStatus) : Keeps Isolated (onSignal pid status) := by
  refine Triple.get_bind fun s hs => ?_
  split
  next h hl =>
    exact fun t ht => acts_isolated (updateStatus_acts status) t (ht ▸ ⟨hs, hs.active pid h hl⟩)
  next => exact fun t ht => ht ▸ hs

theorem sigchldLoop_isolated (fuel : Nat) : Keeps Isolated (sigchldLoop fuel) := by
  induction fuel with
  | zero => exact Triple.throw fun _ => id
  | succ fuel ih =>
    refine Keeps.bind (waitpid_isolated 0) fun result => Keeps.bind (emit_isolated fun _ => ⟨rfl, rfl⟩)
      fun _ => ?_
    cases waitTurn result with
    | leave => exact Triple.pure fun _ => id
    | fail => exact handlerProcessError_isolated _
    | again => exact ih
    | child pid status => exact Keeps.bind (onSignal_isolated pid status) fun _ => ih

theorem handleSigchld_isolated : Keeps Isolated handleSigchld := by
  have hrest : Keeps Isolated (do
      let s ← get
      sigchldLoop (s.faults.length + s.children.keys.length + 1)
      if !(← call (World.sigprocmask · false)) then handlerProcessError .sigUnblockError) := by
    refine Triple.get_bind fun s hs => ?_
    refine Triple.bind (fun t ht => sigchldLoop_isolated _ t (ht ▸ hs)) fun _ => ?_
    refine Triple.bind (sigprocmask_isolated false) fun ok => ?_
    exact Triple.ite (fun _ => handlerProcessError_isolated _) fun _ => Triple.pure fun _ => id
  refine Triple.bind (sigprocmask_isolated true) fun ok => ?_
  exact Triple.ite (fun _ => Triple.bind (handlerProcessError_isolated _) fun _ => hrest) fun _ => hrest

/-- A read through an array that is not an output pipe. -/
theorem Isolated.read (slot : Slot) (hs : Isolated s) (ho : ∀ x, slot ≠ .stdout x ∧ slot ≠ .stderr x)
    {count : Nat} {a : Except Errno (List UInt8)} {w : World}
    (ha : World.ReadAnswer s.toWorld (s.array slot).rd count a w) : Isolated { s with toWorld := w } := by
  have hc := read_carries slot ho ha
  obtain ⟨rf, pipes, rfl⟩ := ha.frame
  exact hs.same hc rfl rfl rfl rfl rfl rfl rfl rfl

theorem readSignalFrom_isolated (fuel : Nat) : ∀ fd want got,
    Triple (fun s => Isolated s ∧ fd = s.sigchldPipe.rd) (readSignalFrom fd fuel want got)
      (fun _ => Isolated) (fun _ => Isolated) := by
  induction fuel with
  | zero => exact fun fd want got => Triple.throw fun _ hs => hs.1
  | succ fuel ih =>
    rintro fd want got s ⟨hs, rfl⟩
    have ha := World.read_answer s.toWorld s.sigchldPipe.rd want
    have hs' := hs.read .sigchld (fun x => ⟨by simp, by simp⟩) ha
    obtain ⟨rf, pipes, hw⟩ := ha.frame
    unfold readSignalFrom
    rw [bind_of_ok (call_apply ..)]
    generalize s.toWorld.read s.sigchldPipe.rd want = r at hs' hw ⊢
    obtain ⟨a, w⟩ := r
    dsimp only at hs' hw ⊢
    have hfd : s.sigchldPipe.rd = w.sigchldPipe.rd := by rw [hw]
    split
    next => exact ih _ _ _ _ ⟨hs', hfd⟩
    next => exact hs'
    next data =>
      split
      next => exact hs'
      next => exact ih _ _ _ _ ⟨hs', hfd⟩

theorem readSignal_isolated : Keeps Isolated readSignal := by
  refine Triple.get_bind fun s hs => ?_
  refine Triple.bind (Q := fun _ => Isolated) ?_ fun signal => ?_
  · rintro t rfl
    exact readSignalFrom_isolated _ _ _ _ t ⟨hs, rfl⟩
  · cases signal with
    | none => exact Triple.pure fun _ => id
    | some signal =>
      have hlast : Keeps Isolated (pure .nothing : Prog EventReturn) := Triple.pure fun _ => id
      exact Triple.ite (fun _ => Triple.bind handleSigchld_isolated fun _ => hlast) fun _ => hlast

theorem write_isolated (f : World → Int) (data : List UInt8) :
    Keeps Isolated (onWorld fun w => w.write (f w) data) := by
  intro s hs
  have hc := write_carries s (f s.toWorld) data
  obtain ⟨pipes, hw⟩ := s.toWorld.write_frame (f s.toWorld) data
  rw [onWorld_apply]
  rw [hw] at hc ⊢
  exact hs.same hc rfl rfl rfl rfl rfl rfl rfl rfl

/-- A part of a callback that is about no object. -/
theorem Isolated.actsAll (hs : Isolated s) (ha : ∀ h, Acts h s t) : Isolated t :=
  hs.shrink (ha 0).carries ((ha 0).field Sys.nextHandle fun _ => rfl)
    (fun x _ => Sys.off_objects (ha (x + 1)).off (by omega)) (ha 0).shrinks
    ((ha 0).field Sys.controlPipe fun _ => rfl)

theorem actsAll_isolated {α : Type} {x : Prog α} (hx : ∀ h, Moves (Acts h) x) : Keeps Isolated x := by
  intro s hs
  cases hr : x s with
  | ok a t => exact hs.actsAll fun h => (hx h).ok hr
  | error e t => exact hs.actsAll fun h => (hx h).error hr

/-- The object of a job that has been taken stays taken. -/
theorem Acts.taken {h' x : Nat} (ha : Acts h' s t) (hx : s.Taken x) : t.Taken x := by
  refine ⟨(ha.field Sys.nextHandle fun _ => rfl) ▸ hx.1, fun hm => hx.2 ?_⟩
  have := ha.shrinks.count x
  have := List.count_pos_iff.mpr hm
  exact List.count_pos_iff.mp (by omega)

/-- Isolation, and a job that has been taken. -/
def Working (h : Nat) (s : Sys) : Prop := Isolated s ∧ s.Taken h

theorem addReadEvent_isolated (fd : Int) {cb : Source} (hcb : cb.owner = none) :
    Triple (fun s => Isolated s ∧ (cb = .control → fd = s.controlPipe.rd)) (addReadEvent fd cb)
      (fun _ => Isolated) (fun _ => Isolated) := by
  refine Triple.bind (Q := fun _ => Isolated) (Triple.modify fun s hs => ?_) fun _ => ?_
  · obtain ⟨hs, hfd⟩ := hs
    refine hs.step (Carries.same rfl rfl rfl rfl) rfl rfl (fun _ _ => ⟨rfl, rfl⟩) (fun _ => Nat.le_refl _)
      (fun x src h hl ho => ?_) hs.active (fun x hl => ?_) hs.interrupt
    rcases lookup_of_insert hl with ⟨_, rfl⟩ | hl
    · rw [hcb] at ho
      cases ho
    · exact hs.registered x src h hl ho
    rcases lookup_of_insert hl with ⟨rfl, hc⟩ | hl
    · exact hfd hc.symm
    · exact hs.control x hl
  · exact actsAll_isolated fun h => registerAdd_acts fd

theorem addReadEvent_working (fd : Int) {cb : Source} (hcb : cb.owner = some h) :
    Keeps (Working h) (addReadEvent fd cb) := by
  refine Triple.bind (Q := fun _ => Working h) (Triple.modify fun s hs => ?_) fun _ => ?_
  · obtain ⟨hs, hh⟩ := hs
    refine ⟨hs.step (Carries.same rfl rfl rfl rfl) rfl rfl (fun _ _ => ⟨rfl, rfl⟩) (fun _ => Nat.le_refl _)
      (fun x src y hl ho => ?_) hs.active (fun x hl => ?_) hs.interrupt, hh⟩
    rcases lookup_of_insert hl with ⟨_, rfl⟩ | hl
    · rw [hcb] at ho
      cases ho
      exact hh
    · exact hs.registered x src y hl ho
    rcases lookup_of_insert hl with ⟨_, rfl⟩ | hl
    · cases hcb
    · exact hs.control x hl
  · exact (registerAdd_acts fd).keeps fun s t ha hs => ⟨hs.1.acts hs.2 ha, ha.taken hs.2⟩

theorem loopInterrupt_isolated {κ : Type} (e : SelectEvent κ) : Keeps Isolated (loopInterrupt e) :=
  write_isolated _ _

theorem handleStop_isolated : Keeps Isolated handleStop := by
  refine Triple.get_bind fun s hs => ?_
  refine Triple.bind (fun t ht => actsAll_isolated (fun h => removeReadEvent_acts _) t (ht ▸ hs))
    fun _ => ?_
  refine Triple.get_bind fun s hs => ?_
  refine Triple.bind (fun t ht => actsAll_isolated (fun h => removeReadEvent_acts _) t (ht ▸ hs))
    fun _ => ?_
  refine Triple.bind (Q := fun _ => Isolated) (Triple.modify fun s hs =>
    hs.same (Carries.same rfl rfl rfl rfl) rfl rfl rfl rfl rfl rfl rfl rfl) fun _ => ?_
  refine Triple.get_bind fun s hs => Triple.ite (fun _ => ?_) fun _ => ?_
  · split
    next e _ => exact fun t ht => loopInterrupt_isolated e t (ht ▸ hs)
    next => exact Triple.throw fun t ht => ht ▸ hs
  · exact Triple.modify fun t ht =>
      ht ▸ hs.same (Carries.same rfl rfl rfl rfl) rfl rfl rfl rfl rfl rfl rfl rfl

theorem onSigchldReady_isolated : Keeps Isolated onSigchldReady := by
  refine Triple.bind readSignal_isolated fun ret => ?_
  exact Triple.ite (fun _ => handleStop_isolated) fun _ => Triple.pure fun _ => id

theorem Opens.objects (ho : Opens h s t) {x : Nat} (hx : x ≠ h) :
    t.procs x = s.procs x ∧ t.handles x = s.handles x := by
  have hp := congrArg (fun u : Sys => u.procs x) ho.off
  have hh := congrArg (fun u : Sys => u.handles x) ho.off
  simp only [Sys.offSpawn, Sys.off, Function.update_of_ne hx] at hp hh
  exact ⟨hp, hh⟩

/-- A handle whose job has just been taken gets its pipes. -/
theorem Isolated.opens (hs : Isolated s) (hh : s.Taken h) (hp : s.procs h = { type := .nonblocking })
    (ho : Opens h s t) : Isolated t := by
  have hstream : ∀ slot cb, StdSlot h slot cb → (s.stream slot).read = [] := by
    intro slot cb hstd
    cases hstd <;> simp only [Sys.stream, Sys.array, hp] <;> rfl
  have hreads : ∀ slot cb, StdSlot h slot cb → (t.stream slot).read = (s.stream slot).read := by
    intro slot cb hstd
    rcases ho.reads hs.owns slot cb hstd with he | he
    · exact he
    · rw [he, hstream slot cb hstd]
  have hc : Carries s t := by
    refine Carries.silent ho.owns ho.out ho.err fun hso x => ?_
    by_cases hx : x = h
    · subst x
      exact ⟨hreads _ _ .stdout, hreads _ _ .stderr⟩
    · have hne : some x ≠ some h := by simpa using hx
      rw [ho.streams hso (.stdout x) hne (by simp) (by simp),
        ho.streams hso (.stderr x) hne (by simp) (by simp)]
      exact ⟨rfl, rfl⟩
  have hnext : t.nextHandle = s.nextHandle := ho.field Sys.nextHandle fun _ => rfl
  refine hs.shrink hc hnext (fun x hx => ?_) ho.shrinks (ho.field Sys.controlPipe fun _ => rfl)
  refine ho.objects ?_
  rintro rfl
  exact hx hh

theorem Opens.taken (ho : Opens h s t) (hh : s.Taken h) : t.Taken h := by
  have hnext : t.nextHandle = s.nextHandle := ho.field Sys.nextHandle fun _ => rfl
  refine ⟨hnext ▸ hh.1, fun hm => hh.2 ?_⟩
  have := ho.shrinks.count h
  have := List.count_pos_iff.mpr hm
  exact List.count_pos_iff.mp (by omega)

theorem execStarted_local : Moves (Local h) (execStarted h) :=
  Moves.bind (modifyProc_local fun _ => rfl) fun _ => callState_local rfl

theorem execStarted_opens : Moves (Opens h) (execStarted h) :=
  Moves.bind (modifyProc_opens fun _ => rfl) fun _ => callState_opens _

theorem exec_opens (args : List Char) (htype : (s.procs h).type = .nonblocking) :
    Outcome (fun _ => Opens h s) (fun _ => Opens h s) (exec h args s) := by
  have hprep := execPrepare_launched s args s ⟨rfl, htype⟩
  unfold exec execWatch
  rw [bind_apply, bind_apply]
  cases hr : execPrepare h args s with
  | error e t =>
    rw [hr] at hprep
    exact hprep
  | ok b t =>
    rw [hr] at hprep
    obtain ⟨hopens, hlaunch⟩ := hprep
    cases b with
    | false => exact hopens
    | true =>
      have htype' : (t.procs h).type = .nonblocking := by
        have := congrArg (fun u : Sys => (u.procs h).type) (hlaunch rfl).steady
        simpa [Sys.steady, htype] using this
      simp only [Bool.not_true, Bool.false_eq_true, if_false]
      rw [bind_apply]
      cases hstart : execStarted h t with
      | error e u => exact IsTrans.trans _ _ _ hopens (execStarted_opens.error hstart)
      | ok a u =>
        have htype'' := (execStarted_local.ok hstart).type
        simp only [bind_apply, get_apply, htype'', htype', if_true, pure_apply, Bool.false_eq_true,
          if_false]
        exact IsTrans.trans _ _ _ hopens (execStarted_opens.ok hstart)

theorem handleExec_opens (htype : (s.procs h).type = .nonblocking) :
    Outcome (fun _ => Opens h s) (fun _ => Opens h s) (handleExec h s) := by
  unfold handleExec
  rw [bind_of_ok (get_apply _)]
  cases s.handles h with
  | none => exact Std.Refl.refl s
  | some hd =>
    refine Moves.bind_from (exec_opens hd.args htype) fun _ => Moves.modify fun t => ?_
    refine Acts.opens (Acts.same ?_ rfl rfl rfl rfl (.same rfl rfl rfl rfl rfl)) (fun _ => rfl) fun _ => rfl
    simp only [Sys.off, Function.update_idem]

/-- The state in which a spawn job starts. -/
def Spawnable (h : Nat) (s : Sys) : Prop := Working h s ∧ s.procs h = { type := .nonblocking }

theorem handleExec_working :
    Triple (Spawnable h) (handleExec h) (fun _ => Working h) (fun _ => Isolated) := by
  rintro s ⟨⟨hs, hh⟩, hp⟩
  have ho := handleExec_opens (h := h) (s := s) (by rw [hp])
  cases hr : handleExec h s with
  | ok a t =>
    rw [hr] at ho
    exact ⟨hs.opens hh hp ho, ho.taken hh⟩
  | error e t =>
    rw [hr] at ho
    exact hs.opens hh hp ho

theorem jobSpawnProc_isolated :
    Triple (Spawnable h) (jobSpawnProc h) (fun _ => Isolated) (fun _ => Isolated) := by
  have hadd : ∀ fd (cb : Source), cb.owner = some h →
      Triple (Working h) (addReadEvent fd cb) (fun _ => Working h) (fun _ => Isolated) :=
    fun fd cb hcb => (addReadEvent_working fd hcb).conseq (fun _ => id) (fun _ _ => id)
      fun _ _ hs => hs.1
  refine Triple.get_bind fun s hs => Triple.ite (fun _ => ?_) fun _ => ?_
  · exact Triple.pure fun t ht => ht ▸ hs.1.1
  refine Triple.bind (fun t ht => handleExec_working t (ht ▸ hs)) fun _ => ?_
  refine Triple.get_bind fun t ht => ?_
  refine Triple.bind (Q := fun _ => Working h) (Triple.ite (fun _ => ?_) fun _ => ?_) fun _ => ?_
  · exact Triple.pure fun u hu => hu ▸ ht
  · exact Triple.throw fun u hu => hu ▸ ht.1
  refine Triple.bind (Q := fun _ => Working h) (Triple.modify fun u hu => ⟨?_, hu.2⟩) fun _ => ?_
  · refine hu.1.step (Carries.same rfl rfl rfl rfl) rfl rfl (fun _ _ => ⟨rfl, rfl⟩)
      (fun _ => Nat.le_refl _) hu.1.registered (fun x y hl => ?_) hu.1.control hu.1.interrupt
    rcases lookup_of_insert hl with ⟨_, rfl⟩ | hl
    · exact hu.2
    · exact hu.1.active x y hl
  refine Triple.bind (Q := fun _ => Working h) (Triple.modify fun u hu => ⟨?_, hu.2⟩) fun _ => ?_
  · refine hu.1.step (Carries.same rfl rfl rfl rfl) rfl rfl (fun x hx => ⟨rfl, ?_⟩)
      (fun _ => Nat.le_refl _) hu.1.registered hu.1.active hu.1.control hu.1.interrupt
    have hne : x ≠ h := by
      rintro rfl
      exact hx hu.2
    exact Function.update_of_ne hne _ _
  refine Triple.get_bind fun u hu => ?_
  refine Triple.bind (fun v hv => hadd _ _ rfl v (hv ▸ hu)) fun _ => ?_
  refine Triple.bind (hadd _ _ rfl) fun _ => Triple.bind (hadd _ _ rfl) fun _ => ?_
  exact Triple.pure fun v hv => hv.1

theorem userStop_isolated (proc : ProcStatus) : Keeps Isolated (userStop proc) := by
  refine Keeps.bind (Triple.ite (fun _ => Triple.pure fun _ => id) fun _ => Triple.throw fun _ => id)
    fun _ => ?_
  exact write_isolated _ _

theorem cleanup_isolated : Keeps Isolated cleanup := by
  have huser : ∀ l, Keeps Isolated (cleanupUser l) := by
    intro l
    induction l with
    | nil => exact Triple.pure fun _ => id
    | cons p rest ih =>
      refine Triple.get_bind fun s hs => ?_
      cases s.handles p.2 with
      | none => exact fun t ht => ih t (ht ▸ hs)
      | some hd =>
        refine Triple.bind (fun t ht => userStop_isolated hd.retProc t (ht ▸ hs)) fun _ => ih
  have hkill : ∀ signum l, Keeps Isolated (cleanupKill signum l) := by
    intro signum l
    induction l with
    | nil => exact Triple.pure fun _ => id
    | cons p rest ih => exact Keeps.bind (emit_isolated fun _ => ⟨rfl, rfl⟩) fun _ => ih
  refine Triple.bind (Q := fun _ => Isolated) (Triple.modify fun s hs =>
    hs.same (Carries.same rfl rfl rfl rfl) rfl rfl rfl rfl rfl rfl rfl rfl) fun _ => ?_
  refine Triple.get_bind fun s hs => ?_
  split
  next => exact fun t ht => huser _ t (ht ▸ hs)
  next => exact fun t ht => hkill _ _ t (ht ▸ hs)
  next => exact Triple.pure fun t ht => ht ▸ hs

theorem jobNullptrStop_isolated : Keeps Isolated jobNullptrStop := by
  refine Triple.get_bind fun s hs => Triple.ite (fun _ => ?_) fun _ => Triple.ite (fun _ => ?_)
    fun _ => ?_
  · exact Triple.bind (fun t ht => cleanup_isolated t (ht ▸ hs)) fun _ => Triple.pure fun _ => id
  · exact Triple.pure fun t ht => ht ▸ hs
  · exact Triple.pure fun t ht => ht ▸ hs

theorem jobStop_isolated (flag : StopFlag) (signum : Int) : Keeps Isolated (jobStop flag signum) := by
  refine Triple.get_bind fun s hs => Triple.ite (fun _ => ?_) fun _ => ?_
  · exact Triple.pure fun t ht => ht ▸ hs
  · refine Triple.bind (Q := fun _ => Isolated) (Triple.modify fun t ht => ?_) fun _ =>
      jobNullptrStop_isolated
    exact ht ▸ hs.same (Carries.same rfl rfl rfl rfl) rfl rfl rfl rfl rfl rfl rfl rfl

/-- A job is taken; the handle of a spawn job is new. -/
theorem bufferRemove_isolated :
    Triple Isolated bufferRemove
      (fun job t => Isolated t ∧ ∀ h, job = some (.spawn h) → Spawnable h t) (fun _ => Isolated) := by
  refine Triple.get_bind fun s hs => ?_
  cases hb : s.buffer with
  | nil => exact Triple.throw fun t ht => ht ▸ hs
  | cons job rest =>
    rintro t rfl
    dsimp only
    rw [bind_of_ok (modify_apply ..)]
    have hs' : Isolated { t with buffer := rest } := by
      refine hs.step (Carries.same rfl rfl rfl rfl) rfl rfl (fun _ _ => ⟨rfl, rfl⟩) (fun x => ?_)
        hs.registered hs.active hs.control hs.interrupt
      rw [hb]
      exact List.count_le_count_cons
    refine ⟨hs', fun h hj => ?_⟩
    subst hj
    obtain ⟨hlt, hp, _⟩ := hs.fresh h (by rw [hb]; exact List.mem_cons_self)
    have honce := hs.once h
    rw [hb, List.count_cons_self] at honce
    refine ⟨⟨hs', hlt, fun hm => ?_⟩, hp⟩
    have hpos : 0 < rest.count (some (.spawn h)) := List.count_pos_iff.mpr hm
    omega

theorem dispatchJob_isolated : Keeps Isolated dispatchJob := by
  refine Triple.bind bufferRemove_isolated fun job => ?_
  rintro s ⟨hs, hspawn⟩
  match job, hspawn with
  | none, _ => exact jobNullptrStop_isolated s hs
  | some (.stop flag signum), _ => exact jobStop_isolated flag signum s hs
  | some (.spawn h), hspawn => exact jobSpawnProc_isolated s (hspawn h rfl)

theorem readRetry_isolated (slot : Slot) (ho : ∀ x, slot ≠ .stdout x ∧ slot ≠ .stderr x) (fd : Int)
    (count : Nat) :
    Triple (fun s => Isolated s ∧ fd = (s.array slot).rd) (readRetry fd count) (fun _ => Isolated)
      (fun _ => Isolated) := by
  rintro s ⟨hs, rfl⟩
  exact hs.read slot ho (World.readRetry_answer _ _ _ _)

theorem onControlReady_isolated (fd : Int) :
    Triple (fun s => Isolated s ∧ fd = s.controlPipe.rd) (onControlReady fd) (fun _ => Isolated)
      (fun _ => Isolated) := by
  refine Triple.bind (readRetry_isolated .control (fun x => ⟨by simp, by simp⟩) fd 1) fun a => ?_
  cases a with
  | error e => exact Triple.throw fun _ => id
  | ok data =>
    refine Triple.bind dispatchJob_isolated fun ret => ?_
    exact Triple.ite (fun _ => handleStop_isolated) fun _ => Triple.pure fun _ => id

theorem discard_isolated {α : Type} {x : Prog α} {P : Sys → Prop}
    (hx : Triple P x (fun _ => Isolated) (fun _ => Isolated)) :
    Triple P (discard x) (fun _ => Isolated) (fun _ => Isolated) :=
  Triple.bind hx fun _ => Triple.pure fun _ => id

theorem doAction_isolated (fd : Int) : Keeps Isolated (doAction fd) := by
  refine Triple.get_bind fun s hs => ?_
  cases hl : s.registered.lookup fd with
  | none => exact Triple.throw fun t ht => ht ▸ hs
  | some src =>
    have hown : ∀ h, src.owner = some h → Isolated s ∧ s.Taken h :=
      fun h ho => ⟨hs, hs.registered fd src h hl ho⟩
    rintro t rfl
    cases src with
    | sigchld => exact onSigchldReady_isolated t hs
    | control => exact onControlReady_isolated fd t ⟨hs, hs.control fd hl⟩
    | readClose h => exact discard_isolated (acts_isolated readClose_acts) t (hown h rfl)
    | readStdout h => exact discard_isolated (acts_isolated readStdout_acts) t (hown h rfl)
    | readStderr h => exact discard_isolated (acts_isolated readStderr_acts) t (hown h rfl)

theorem interrupt_isolated : Keeps Isolated interrupt := actsAll_isolated fun _ => interrupt_acts

theorem sendJob_isolated (job : Option Job) (hjob : ∀ h, job ≠ some (.spawn h)) :
    Keeps Isolated (sendJob job) := by
  refine Keeps.bind (Triple.modify fun s hs => ?_) fun _ => interrupt_isolated
  refine hs.step (Carries.same rfl rfl rfl rfl) rfl rfl (fun _ _ => ⟨rfl, rfl⟩) (fun x => ?_)
    hs.registered hs.active hs.control hs.interrupt
  have hzero : [job].count (some (.spawn x)) = 0 :=
    List.count_eq_zero.mpr fun hm => hjob x (List.mem_singleton.mp hm).symm
  rw [List.count_append, hzero, Nat.add_zero]

/-- A new handle and its job. -/
theorem multiExec_isolated (args : List Char) (hasOnStop : Bool) :
    Keeps Isolated (multiExec args hasOnStop) := by
  refine Triple.get_bind fun s hs => ?_
  refine Triple.bind (Q := fun _ t => t = { s with
    nextHandle := s.nextHandle + 1
    procs := Function.update s.procs s.nextHandle { type := .nonblocking }
    handles := Function.update s.handles s.nextHandle (some { args, hasOnStop }) })
    (Triple.modify fun t ht => by rw [ht]) fun _ => ?_
  refine Triple.bind (Q := fun _ => Isolated) (Triple.modify fun t ht => ?_) fun _ =>
    interrupt_isolated
  subst ht
  have hold := hs.unused s.nextHandle (Nat.le_refl _)
  have harr := array_replace s s.nextHandle (p := { type := .nonblocking }) (by rw [hold])
    (by rw [hold]) (by rw [hold]) (by rw [hold])
  have hnew : some (Job.spawn s.nextHandle) ∉ s.buffer := fun hm =>
    Nat.lt_irrefl _ (hs.fresh _ hm).1
  have htaken : ∀ x, s.Taken x → x < s.nextHandle + 1 ∧
      some (Job.spawn x) ∉ s.buffer ++ [some (.spawn s.nextHandle)] := by
    rintro x ⟨hlt, hm⟩
    refine ⟨by omega, fun hx => ?_⟩
    rcases List.mem_append.mp hx with hx | hx
    · exact hm hx
    · have he : x = s.nextHandle := by simpa using hx
      omega
  refine ⟨hs.owns.congr rfl harr, fun x => ?_, fun x hx => ?_, fun x hx => ?_, fun x => ?_,
    fun fd src x hl ho => htaken x (hs.registered fd src x hl ho),
    fun pid x hl => htaken x (hs.active pid x hl), hs.control, hs.interrupt, hs.ready⟩
  · obtain ⟨ho, he⟩ := hs.passed x
    have hread : ∀ slot, (s.toWorld.stream (s.array slot)).read = (s.toWorld.stream (Sys.array { s with
        procs := Function.update s.procs s.nextHandle { type := .nonblocking } } slot)).read :=
      fun slot => by rw [harr]
    exact ⟨ho.trans (hread _), he.trans (hread _)⟩
  · have hx' : s.nextHandle + 1 ≤ x := hx
    have hne : x ≠ s.nextHandle := by omega
    have := hs.unused x (by omega)
    simpa only [Function.update_of_ne hne] using this
  · rcases List.mem_append.mp hx with hx | hx
    · obtain ⟨hlt, hp, hh⟩ := hs.fresh x hx
      have hne : x ≠ s.nextHandle := by omega
      refine ⟨Nat.lt_succ_of_lt hlt, ?_, ?_⟩
      · simpa only [Function.update_of_ne hne] using hp
      · simpa only [Function.update_of_ne hne] using hh
    · have he : x = s.nextHandle := by simpa using hx
      subst he
      refine ⟨Nat.lt_succ_self _, ?_, args, hasOnStop, ?_⟩
      · simp only [Function.update_self]
      · simp only [Function.update_self]
  · have := hs.once x
    have hcount : (s.buffer ++ [some (Job.spawn s.nextHandle)]).count (some (.spawn x)) ≤ 1 := by
      rw [List.count_append]
      by_cases hx : x = s.nextHandle
      · subst x
        rw [List.count_eq_zero.mpr hnew]
        simp
      · have hzero : [some (Job.spawn s.nextHandle)].count (some (.spawn x)) = 0 := by
          rw [List.count_eq_zero]
          intro hm
          exact hx (by simpa using hm)
        omega
    exact hcount

/-- An array that is not an output pipe is closed. -/
theorem closeSlot_carries (slot : Slot) (p : PipeFds) (hslot : ∀ x, slot ≠ .stdout x ∧ slot ≠ .stderr x)
    (hf : t.fds = (s.toWorld.closePipe (s.array slot)).fds) (ha : t.array = Function.update s.array slot p)
    (hr : p.rd = -1) (hw : p.wr = -1)
    (hp : ∀ pipe, p.pipe = some pipe → (s.array slot).pipe = some pipe) (hpipes : t.pipes = s.pipes)
    (htrace : t.trace = s.trace) : Carries s t := by
  refine Carries.arrays (fun hs => ?_) (fun _ x => ?_) htrace
  · unfold Sys.Owns
    rw [hf, ha]
    exact Owned.close hs slot rfl hr hw hp
  · simp only [Sys.stream, World.stream, ha, hpipes, Function.update_of_ne (hslot x).1.symm,
      Function.update_of_ne (hslot x).2.symm]
    exact ⟨trivial, trivial⟩

theorem array_loop (s : Sys) (loop : Option (SelectEvent LoopSource)) :
    Sys.array { s with loop } =
      Function.update s.array .loop ((loop.map SelectEvent.controlPipe).getD {}) := by
  funext slot
  cases slot <;> simp [Sys.array]

theorem array_sigchld (s : Sys) (p : PipeFds) :
    Sys.array { s with sigchldPipe := p } = Function.update s.array .sigchld p := by
  funext slot
  cases slot <;> simp [Sys.array]

theorem sigaction_isolated {f : World → Disposition} :
    Keeps Isolated (call fun w => w.sigaction (f w)) := by
  intro s hs
  obtain ⟨faults, disposition, hw⟩ := s.toWorld.sigaction_frame (f s.toWorld)
  rw [call_apply, hw]
  exact hs.same (Carries.same rfl rfl rfl rfl) rfl rfl rfl rfl rfl rfl rfl rfl

/-- The signal pipe is closed. -/
theorem closeSigchld_isolated (f : World → Bool) :
    Keeps Isolated (onWorld fun w => { w.closePipe w.sigchldPipe with
      sigchldPipe := w.sigchldPipe.closed, sigchldActive := f w }) := by
  intro s hs
  rw [onWorld_apply]
  obtain ⟨fds, hw⟩ := s.toWorld.closePipe_frame s.sigchldPipe
  have hfds : (s.toWorld.closePipe s.sigchldPipe).fds = fds := by rw [hw]
  rw [hw]
  refine hs.same (closeSlot_carries .sigchld s.sigchldPipe.closed ?_ ?_ ?_ rfl rfl
    (fun _ => id) rfl rfl) rfl rfl rfl rfl rfl rfl rfl rfl
  · exact fun x => ⟨by simp, by simp⟩
  · exact hfds.symm
  · exact array_sigchld s s.sigchldPipe.closed

theorem sigchldResetSignalHandler_isolated : Keeps Isolated sigchldResetSignalHandler := by
  refine Triple.get_bind fun s hs => Triple.ite (fun _ => ?_) fun _ => ?_
  · exact Triple.pure fun t ht => ht ▸ hs
  · refine Triple.bind (fun t ht => sigaction_isolated t (ht ▸ hs)) fun prev => ?_
    cases prev with
    | none => exact Triple.pure fun _ => id
    | some prev => exact Triple.bind (closeSigchld_isolated _) fun _ => Triple.pure fun _ => id

theorem sigchldSetSignalHandler_isolated : Keeps Isolated sigchldSetSignalHandler := by
  intro s hs
  unfold sigchldSetSignalHandler
  rw [bind_of_ok (call_apply ..)]
  obtain ⟨faults, fds, pipes, hframe⟩ := s.toWorld.pipe2_frame true
  generalize hcall : s.toWorld.pipe2 true = r at hframe ⊢
  obtain ⟨answer, w⟩ := r
  dsimp only at hframe ⊢
  cases answer with
  | none =>
    obtain ⟨faults, rfl⟩ := World.pipe2_eq_none hcall
    exact hs.same (Carries.same rfl rfl rfl rfl) rfl rfl rfl rfl rfl rfl rfl rfl
  | some p =>
    subst hframe
    dsimp only
    rw [bind_of_ok (modify_apply ..)]
    have hopen : OpenedInto .sigchld s { s with faults, fds, pipes, sigchldPipe := p } :=
      openedInto_of_pipe2 hcall rfl rfl rfl (array_sigchld s p)
    have hs' : Isolated { s with faults, fds, pipes, sigchldPipe := p } :=
      hs.same (hopen.carries (fun x => ⟨by simp, by simp⟩) rfl) rfl rfl rfl rfl rfl rfl rfl rfl
    refine Triple.bind (Q := fun _ => Isolated) (sigaction_isolated (f := fun _ => .sigchldSignalHandler))
      (fun prev => ?_) _ hs'
    cases prev with
    | none =>
      exact Triple.bind (closeSigchld_isolated fun w => (w.closePipe w.sigchldPipe).sigchldActive)
        fun _ => Triple.pure fun _ => id
    | some prev =>
      refine Triple.bind (Q := fun _ => Isolated) (Triple.modify fun u hu => ?_) fun _ =>
        Triple.pure fun _ => id
      exact hu.same (Carries.same rfl rfl rfl rfl) rfl rfl rfl rfl rfl rfl rfl rfl

theorem destroySigchldHandler_isolated (handler : SigchldHandler) :
    Keeps Isolated (destroySigchldHandler handler) := by
  refine Triple.bind sigchldResetSignalHandler_isolated fun ok => Triple.ite (fun _ => ?_) fun _ => ?_
  · exact Triple.ite (fun _ => multiProcessError_isolated _) fun _ => Triple.pure fun _ => id
  · exact Triple.pure fun _ => id

theorem replaceSigchld_isolated : Keeps Isolated replaceSigchld := by
  have hnew : Keeps Isolated newSigchldHandler := by
    refine Triple.bind sigchldSetSignalHandler_isolated fun ok => ?_
    exact Triple.ite (fun _ => Triple.pure fun _ => id) fun _ => Triple.pure fun _ => id
  refine Triple.bind hnew fun handler => Triple.get_bind fun s hs => ?_
  refine Triple.bind (Q := fun _ => Isolated) (Triple.modify fun t ht =>
    ht ▸ hs.same (Carries.same rfl rfl rfl rfl) rfl rfl rfl rfl rfl rfl rfl rfl) fun _ => ?_
  cases s.sigchld with
  | none => exact Triple.pure fun _ => id
  | some old => exact destroySigchldHandler_isolated old

theorem closeLoop_carries {e : SelectEvent LoopSource} (hl : s.loop = some e) :
    Carries s { s with toWorld := s.toWorld.closePipe e.controlPipe, loop := none } := by
  obtain ⟨fds, hw⟩ := s.toWorld.closePipe_frame e.controlPipe
  have hslot : s.array .loop = e.controlPipe := by simp [Sys.array, hl]
  refine closeSlot_carries .loop {} (fun x => ⟨by simp, by simp⟩) ?_ ?_ rfl rfl (fun _ hp => ?_) ?_ ?_
  · rw [hslot]
  · rw [hw]
    exact array_loop s none
  · cases hp
  · rw [hw]
  · rw [hw]

theorem finishHandler_isolated : Keeps Isolated (do
    match (← get).sigchld with
    | some handler => destroySigchldHandler handler
    | none => pure ()
    modify fun s => { s with sigchld := none, running := false } : Prog Unit) := by
  have hlast : Keeps Isolated (modify fun s => { s with sigchld := none, running := false } : Prog Unit) :=
    Triple.modify fun s hs =>
      hs.same (Carries.same rfl rfl rfl rfl) rfl rfl rfl rfl rfl rfl rfl rfl
  refine Triple.get_bind fun s hs => ?_
  cases s.sigchld with
  | none => exact fun t ht => hlast t (ht ▸ hs)
  | some handler =>
    exact Triple.bind (fun t ht => destroySigchldHandler_isolated handler t (ht ▸ hs)) fun _ => hlast

theorem runFinish_isolated : Keeps Isolated runFinish := by
  intro s hs
  unfold runFinish
  rw [bind_of_ok (get_apply _)]
  cases hl : s.loop with
  | none =>
    dsimp only
    rw [bind_of_ok (modify_apply ..)]
    refine finishHandler_isolated _ (hs.step (Carries.same rfl ?_ rfl rfl) rfl rfl (fun _ _ => ⟨rfl, rfl⟩)
      (fun _ => Nat.le_refl _) hs.registered hs.active hs.control fun e he => (by cases he))
    funext slot
    cases slot <;> simp [Sys.array, hl]
  | some e =>
    dsimp only
    rw [bind_of_ok (onWorld_apply ..), bind_of_ok (modify_apply ..)]
    have hc := closeLoop_carries hl
    obtain ⟨fds, hw⟩ := s.toWorld.closePipe_frame e.controlPipe
    rw [hw] at hc ⊢
    exact finishHandler_isolated _ (hs.step hc rfl rfl (fun _ _ => ⟨rfl, rfl⟩) (fun _ => Nat.le_refl _)
      hs.registered hs.active hs.control fun e he => (by cases he))

/-- Both ends of a pipe that no array holds any more are closed. -/
theorem closeStray_carries {p : PipeFds} (hp : s.Owns → p.Ends s.fds)
    (hne : s.Owns → ∀ slot pipe, (s.array slot).pipe = some pipe → p.pipe ≠ some pipe) :
    Carries s { s with toWorld := s.toWorld.closePipe p } := by
  obtain ⟨fds, hw⟩ := s.toWorld.closePipe_frame p
  have hfds : (s.toWorld.closePipe p).fds = fds := by rw [hw]
  rw [hw]
  refine Carries.arrays (fun hs => ?_) (fun _ _ => ⟨rfl, rfl⟩) rfl
  have := Owned.closeOther hs (hp hs) (hne hs)
  rwa [hfds] at this

theorem makeLoop_isolated : Keeps Isolated makeLoop := by
  intro s hs
  unfold makeLoop newSelectEvent
  rw [bind_apply, bind_of_ok (call_apply ..)]
  obtain ⟨faults, fds, pipes, hframe⟩ := s.toWorld.pipe2_frame true
  generalize hcall : s.toWorld.pipe2 true = r at hframe ⊢
  obtain ⟨answer, w⟩ := r
  dsimp only at hframe ⊢
  cases answer with
  | none =>
    obtain ⟨faults, rfl⟩ := World.pipe2_eq_none hcall
    exact hs.same (Carries.same rfl rfl rfl rfl) rfl rfl rfl rfl rfl rfl rfl rfl
  | some p =>
    subst hframe
    dsimp only
    rw [bind_of_ok (show nextOrder _ = .ok _ _ from rfl), pure_apply]
    dsimp only
    rw [bind_of_ok (get_apply _), bind_of_ok (modify_apply ..)]
    dsimp only
    set u : Sys := { s with
      faults, fds, pipes
      mapOrder := s.mapOrder.tail
      loop := some { controlPipe := p, cbs := [(p.rd, .interrupt)] }
      registerFn := some .loop } with hu
    have hopen : OpenedInto .loop s u :=
      openedInto_of_pipe2 hcall rfl rfl rfl
        (array_loop s (some { controlPipe := p, cbs := [(p.rd, .interrupt)] }))
    have hu' : Isolated u := by
      refine hs.step (hopen.carries (fun x => ⟨by simp, by simp⟩) rfl) rfl rfl (fun _ _ => ⟨rfl, rfl⟩)
        (fun _ => Nat.le_refl _) hs.registered hs.active hs.control fun e he fd hm => ?_
      cases he
      have : fd = p.rd := by simpa using hm
      exact this
    cases hl : s.loop with
    | none => exact hu'
    | some e =>
      have hold : s.array .loop = e.controlPipe := by simp [Sys.array, hl]
      have hends : u.Owns → e.controlPipe.Ends u.fds := by
        intro _
        obtain ⟨hint, cloexec, hf, _⟩ := hopen.opened
        have := hs.owns.ends .loop
        rw [hold] at this
        refine this.mono fun x t _ hx => ?_
        rw [hf, FdTable.openPipe_get_old _ _ _ (by rw [hx]; simp), hx]
      have hne : u.Owns → ∀ slot pipe, (u.array slot).pipe = some pipe → e.controlPipe.pipe ≠ some pipe := by
        intro _ slot pipe hp hep
        rw [← hold] at hep
        have hlt := hs.owns.below .loop pipe hep
        by_cases hslot : slot = .loop
        · subst slot
          obtain ⟨hint, cloexec, _, ha⟩ := hopen.opened
          rw [ha, Function.update_self, FdTable.openPipe_pipe] at hp
          have := Option.some.inj hp
          omega
        · rw [hopen.array_ne hslot] at hp
          exact hslot (hs.owns.apart _ _ pipe hp hep)
      have hc := closeStray_carries hends hne
      dsimp only
      rw [onWorld_apply]
      obtain ⟨fds', hw⟩ := u.toWorld.closePipe_frame e.controlPipe
      rw [hw] at hc ⊢
      exact hu'.same hc rfl rfl rfl rfl rfl rfl rfl rfl

theorem runHandler_isolated : Keeps Isolated runHandler := by
  refine Triple.bind replaceSigchld_isolated fun _ => Triple.get_bind fun s hs => ?_
  cases s.sigchld with
  | none => exact Triple.pure fun t ht => ht ▸ hs
  | some handler =>
    refine Triple.ite (fun _ => ?_) fun _ => ?_
    · exact Triple.bind (fun t ht => multiProcessError_isolated _ t (ht ▸ hs)) fun _ =>
        Triple.pure fun _ => id
    refine Triple.bind (Q := fun _ => Isolated) (Triple.modify fun t ht =>
      ht ▸ hs.same (Carries.same rfl rfl rfl rfl) rfl rfl rfl rfl rfl rfl rfl rfl) fun _ => ?_
    refine Triple.get_bind fun t ht => ?_
    have hsigchld := addReadEvent_isolated t.sigchldPipe.rd (rfl : Source.owner .sigchld = none) t
      ⟨ht, fun hc => (by cases hc)⟩
    refine Triple.bind (Q := fun _ => Isolated) (fun u hu => ?_) fun _ => Triple.get_bind fun v hv => ?_
    · rw [hu]
      exact hsigchld
    have hcontrol := addReadEvent_isolated v.controlPipe.rd (rfl : Source.owner .control = none) v
      ⟨hv, fun _ => rfl⟩
    refine Triple.bind (Q := fun _ => Isolated) (fun u hu => ?_) fun _ => ?_
    · rw [hu]
      exact hcontrol
    refine Triple.bind (Q := fun _ => Isolated) (Triple.modify fun t ht =>
      ht.same (Carries.same rfl rfl rfl rfl) rfl rfl rfl rfl rfl rfl rfl rfl) fun _ => ?_
    exact Triple.pure fun _ => id

theorem runSetup_isolated : Keeps Isolated runSetup := by
  refine Triple.get_bind fun s hs => Triple.ite (fun _ => ?_) fun _ => ?_
  · exact Triple.bind (fun t ht => makeLoop_isolated t (ht ▸ hs)) fun _ => runHandler_isolated
  · exact fun t ht => runHandler_isolated t (ht ▸ hs)

theorem startRun_isolated (type : LoopType) : Keeps Isolated (startRun type) := by
  have hlast : Keeps Isolated (do let _ ← runSetup : Prog Unit) :=
    Triple.bind runSetup_isolated fun _ => Triple.pure fun _ => id
  have hset : ∀ {f : Sys → Sys}, (∀ s, Isolated s → Isolated (f s)) →
      Keeps Isolated (modify f : Prog Unit) := fun hf => Triple.modify hf
  refine Triple.bind (Q := fun _ => Isolated) (Triple.modify fun s hs => ?_) fun _ =>
    Triple.ite (fun _ => ?_) fun _ => hlast
  · exact hs.same (Carries.same rfl rfl rfl rfl) rfl rfl rfl rfl rfl rfl rfl rfl
  · refine Triple.bind (Q := fun _ => Isolated) (Triple.modify fun s hs => ?_) fun _ => hlast
    exact hs.same (Carries.same rfl rfl rfl rfl) rfl rfl rfl rfl rfl rfl rfl rfl

theorem dispatch_isolated (fd : Int) : Keeps Isolated (dispatch fd) := by
  refine Triple.get_bind fun s hs => ?_
  cases s.loopType with
  | external => exact fun t ht => doAction_isolated fd t (ht ▸ hs)
  | default =>
    cases hl : s.loop with
    | none => exact Triple.pure fun t ht => ht ▸ hs
    | some e =>
      dsimp only
      cases hf : e.cbs.find? (·.1 = fd) with
      | none => exact Triple.pure fun t ht => ht ▸ hs
      | some entry =>
        obtain ⟨key, cb⟩ := entry
        have hmem := List.mem_of_find?_eq_some hf
        have hkey : key = fd := by simpa using List.find?_some hf
        subst hkey
        have hfinish : ∀ ret, Keeps Isolated
            (if ret = EventReturn.stopLoop then runFinish else pure () : Prog Unit) :=
          fun ret => Triple.ite (fun _ => runFinish_isolated) fun _ => Triple.pure fun _ => id
        refine Triple.bind (Q := fun _ => Isolated) ?_ hfinish
        cases cb with
        | interrupt =>
          have hfd : key = (s.array .loop).rd := by
            simp only [Sys.array, hl, Option.map_some, Option.getD_some]
            exact hs.interrupt e hl key hmem
          refine Triple.bind (fun t ht => readRetry_isolated .loop (fun x => ⟨by simp, by simp⟩) key 1 t
            (ht ▸ ⟨hs, hfd⟩)) fun a => ?_
          cases a with
          | error e => exact Triple.throw fun _ => id
          | ok data => exact Triple.pure fun _ => id
        | doAction =>
          exact Triple.bind (fun t ht => doAction_isolated key t (ht ▸ hs)) fun _ =>
            Triple.pure fun _ => id

theorem push_carries (s : Sys) (pipe : Nat) (data : List UInt8) :
    Carries s { s with toWorld := s.toWorld.setPipe pipe ((s.pipes pipe).push data) } := by
  have hread : ∀ slot, (Sys.stream { s with
      toWorld := s.toWorld.setPipe pipe ((s.pipes pipe).push data) } slot).read =
      (s.stream slot).read := by
    intro slot
    have harr : Sys.array { s with
        toWorld := s.toWorld.setPipe pipe ((s.pipes pipe).push data) } = s.array := rfl
    simp only [Sys.stream, harr]
    cases hp : (s.array slot).pipe with
    | none => simp only [World.stream, hp]
    | some x =>
      simp only [World.stream_of_pipe hp]
      by_cases hx : x = pipe
      · subst x
        simp
      · rw [World.setPipe_pipes_ne _ _ hx]
  exact Carries.silent id (fun _ => rfl) (fun _ => rfl) fun _ x => ⟨hread _, hread _⟩

theorem envAct_carries (act : EnvAct) (s : Sys) : Carries s (act.apply s) := by
  have hchildren : ∀ children, Carries s { s with children } := fun _ => Carries.same rfl rfl rfl rfl
  cases act with
  | childOut h data =>
    simp only [EnvAct.apply]
    split
    next pipe _ => exact push_carries s pipe data
    next => exact Std.Refl.refl s
  | childErr h data =>
    simp only [EnvAct.apply]
    split
    next pipe _ => exact push_carries s pipe data
    next => exact Std.Refl.refl s
  | userStop h => exact write_carries s _ _
  | sigchld =>
    simp only [EnvAct.apply, World.deliverSigchld]
    split
    next => exact write_carries s _ _
    next => exact write_carries s _ _
    next => exact Std.Refl.refl s
  | exit pid status =>
    simp only [EnvAct.apply]
    split
    next => split <;> first | exact Std.Refl.refl s | exact hchildren _
    next => exact Std.Refl.refl s
  | setpgid pid pgid =>
    simp only [EnvAct.apply]
    split
    next => split <;> first | exact Std.Refl.refl s | exact hchildren _
    next => exact Std.Refl.refl s
  | fork pid pgid =>
    simp only [EnvAct.apply]
    split <;> first | exact Std.Refl.refl s | exact hchildren _
  | reap pid =>
    simp only [EnvAct.apply]
    split <;> first | exact Std.Refl.refl s | exact hchildren _
  | openFile fd =>
    simp only [EnvAct.apply]
    split
    next hfd =>
      refine Carries.arrays (fun ho => ?_) (fun _ _ => ⟨rfl, rfl⟩) rfl
      exact Owned.insertFile ho hfd.1 (by simp [FdTarget.pipe?]) hfd.2
    next => exact Std.Refl.refl s
  | closeFile fd =>
    simp only [EnvAct.apply]
    split
    next hfd =>
      refine Carries.arrays (fun ho => ?_) (fun _ _ => ⟨rfl, rfl⟩) rfl
      exact Owned.closeFile ho hfd
    next => exact Std.Refl.refl s

theorem envAct_isolated (act : EnvAct) (hs : Isolated s) : Isolated (act.apply s) := by
  have hc := envAct_carries act s
  obtain ⟨fds, pipes, children, hframe⟩ := act.frame s
  rw [hframe] at hc ⊢
  exact hs.same hc rfl rfl rfl rfl rfl rfl rfl rfl

/-- Every step keeps the isolation, also one that does not get to its end. -/
theorem label_isolated (l : Label) : Keeps Isolated l.prog := by
  have hchoose : ∀ (c : Choices) {x : Prog Unit}, Keeps Isolated x →
      Keeps Isolated (do modify (Sys.choose · c); x) := by
    intro c x hx
    refine Triple.bind (Q := fun _ => Isolated) (Triple.modify fun s hs => ?_) fun _ => hx
    exact hs.same (Carries.same rfl rfl rfl rfl) rfl rfl rfl rfl rfl rfl rfl rfl
  cases l with
  | exec args hasOnStop => exact multiExec_isolated args hasOnStop
  | stop flag signum => exact sendJob_isolated _ fun h => by simp
  | env act => exact Triple.modify fun s hs => envAct_isolated act hs
  | run type c => exact hchoose c (startRun_isolated type)
  | event fd c => exact hchoose c (dispatch_isolated fd)
  | selectError => exact Triple.bind (multiProcessError_isolated _) fun _ => runFinish_isolated

/-- A process in which no array has been used owns its arrays. -/
theorem boot_owns (w : World) : (boot w).Owns := by
  have harr : ∀ slot, (boot w).array slot = {} := by
    intro slot
    cases slot <;> rfl
  refine ⟨fun slot => ?_, fun i j pipe hi => ?_, fun i pipe hi => ?_, fun i pipe x t hi => ?_⟩
  · rw [harr]
    exact .inl ⟨rfl, rfl⟩
  · rw [harr] at hi
    cases hi
  · rw [harr] at hi
    cases hi
  · rw [harr] at hi
    cases hi

theorem newMulti_isolated {w : World} (hnew : newMulti (boot w) = .ok () s) : Isolated s := by
  rw [newMulti_ok hnew]
  have harr : ∀ p, Sys.array { boot w with controlPipe := p } =
      Function.update (boot w).array .control p := by
    intro p
    funext slot
    cases slot <;> simp [Sys.array]
  have hopen := Owned.openPipe (boot_owns w) .control (w.fdHint w.fds.nextPipe) true
  have hstream : ∀ h, ((boot w).stream (.stdout h)).read = [] ∧ ((boot w).stream (.stderr h)).read = [] :=
    fun h => ⟨rfl, rfl⟩
  refine ⟨?_, fun h => ⟨rfl, rfl⟩, fun h _ => rfl, fun h hm => ?_, fun h => ?_, fun fd src h hl => ?_,
    fun pid h hl => ?_, fun fd hl => ?_, fun e he => ?_, ?_⟩
  · rw [← harr] at hopen
    exact hopen
  · cases hm
  · exact Nat.zero_le 1
  · cases hl
  · cases hl
  · cases hl
  · cases he
  · have hpos : 0 ≤ (FdTable.openPipe (boot w).fds ((boot w).fdHint (boot w).fds.nextPipe) true).1.rd :=
      freshFd_nonneg _ _
    show (FdTable.openPipe (boot w).fds ((boot w).fdHint (boot w).fds.nextPipe) true).1.rd ≠ -1
    omega

/-- What each process has sent is passed on as it is: the callbacks of a handle have got, in
order and once, the bytes that were read from its own two pipes. -/
structure OutputSound (s : Sys) : Prop where
  out : ∀ h, outOf h s.trace = (s.stream (.stdout h)).read ∧
    outOf h s.trace <+: (s.stream (.stdout h)).written
  err : ∀ h, errOf h s.trace = (s.stream (.stderr h)).read ∧
    errOf h s.trace <+: (s.stream (.stderr h)).written
  apart : ∀ slot slot' pipe, (s.array slot).pipe = some pipe → (s.array slot').pipe = some pipe →
    slot = slot'

theorem Isolated.sound (hs : Isolated s) : OutputSound s where
  out h := by
    obtain ⟨ho, _⟩ := hs.passed h
    exact ⟨ho, ho ▸ ByteStream.read_prefix _⟩
  err h := by
    obtain ⟨_, he⟩ := hs.passed h
    exact ⟨he, he ▸ ByteStream.read_prefix _⟩
  apart := hs.owns.apart

theorem run_isolated {w : World} {ls : List Label} (hnew : newMulti (boot w) = .ok () s)
    (hrun : Run Step s ls t) : Isolated t :=
  hrun.invariant (newMulti_isolated hnew) fun _ l _ ha hstep => (label_isolated l).ok ha hstep.2

/-- In every run, whatever is called and whatever fails, and also where a step ends at an
assertion. -/
theorem output_isolated {w : World} {ls : List Label} (hnew : newMulti (boot w) = .ok () s)
    (hrun : Run Step s ls t) : OutputSound t ∧ ∀ l : Label, OutputSound (final l.prog t) :=
  ⟨(run_isolated hnew hrun).sound, fun l => ((label_isolated l).final (run_isolated hnew hrun)).sound⟩

/-- Two processes have written, one of them more than has been read of it. -/
theorem output_isolated_pair : (pairAt 10).nextHandle = 2 ∧
    ((pairAt 10).stream (.stdout 0)).written = [97, 98, 100] ∧ outOf 0 (pairAt 10).trace = [97, 98] ∧
    errOf 1 (pairAt 10).trace = [99] ∧ OutputSound (pairAt 10) ∧
    ∀ l : Label, OutputSound (final l.prog (pairAt 10)) :=
  ⟨by decide +kernel, by decide +kernel, by decide +kernel, by decide +kernel,
    output_isolated freshMulti_ok (pair_run (by decide +kernel))⟩

end Pexec
