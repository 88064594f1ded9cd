import Pexec.ObjectActs

namespace Pexec

open Effect

/-- Callbacks with data or a state, answers of `waitpid`, and signals sent. -/
def Event.loud : Event → Bool
  | .state .. | .out .. | .err .. | .waitpid .. | .kill .. => true
  | _ => false

/-- The loud part of the trace. -/
def Sys.told (s : Sys) : List Event := s.trace.filter Event.loud

variable {h : Nat} {s t : Sys}

theorem flatMap_filter {α β : Type} {f : α → List β} {p : α → Bool}
    (hf : ∀ a, p a = false → f a = []) (l : List α) : (l.filter p).flatMap f = l.flatMap f := by
  induction l with
  | nil => rfl
  | cons a l ih =>
    rw [List.filter_cons, List.flatMap_cons]
    split
    next => rw [List.flatMap_cons, ih]
    next hp => rw [hf a (by simpa using hp), ih, List.nil_append]

theorem outOf_told (s : Sys) (h : Nat) : outOf h s.told = outOf h s.trace :=
  flatMap_filter (fun e he => by cases e <;> first | rfl | cases he) s.trace

theorem errOf_told (s : Sys) (h : Nat) : errOf h s.told = errOf h s.trace :=
  flatMap_filter (fun e he => by cases e <;> first | rfl | cases he) s.trace

/-- Nothing loud happens. -/
def Hushed (s t : Sys) : Prop := t.told = s.told

instance : IsPreorder Sys Hushed where
  refl _ := rfl
  trans _ _ _ hst htu := htu.trans hst

theorem Hushed.same (ht : t.trace = s.trace) : Hushed s t := by
  unfold Hushed Sys.told
  rw [ht]

theorem emit_told (e : Event) (s : Sys) :
    Sys.told { s with toWorld := s.toWorld.emit e } = s.told ++ [e].filter Event.loud :=
  List.filter_append ..

theorem emit_hushed {e : Event} (he : e.loud = false) : Moves Hushed (emit e) := by
  refine Moves.modify fun s => ?_
  unfold Hushed
  rw [emit_told]
  simp [he]

theorem modifyProc_hushed (f : PexecSingle → PexecSingle) : Moves Hushed (modifyProc h f) :=
  Moves.modify fun _ => Hushed.same rfl

theorem processError_hushed (e : Error) : Moves Hushed (processError h e) :=
  Moves.bind (emit_hushed rfl) fun _ => modifyProc_hushed _

theorem handleProcReturnCode_hushed : Moves Hushed (handleProcReturnCode h) := by
  refine Moves.bind Moves.get fun s => ?_
  split
  next e _ => exact processError_hushed e
  next => exact Moves.pure _

theorem closeForkPipes_hushed : Moves Hushed (closeForkPipes h) := by
  refine Moves.modify fun s => Hushed.same ?_
  obtain ⟨fds, blockingPipe, hw⟩ := s.toWorld.closeForkPipes_frame (s.procs h)
  rw [hw]

theorem removeReadEvent_hushed (fd : Int) : Moves Hushed (removeReadEvent fd) :=
  removeReadEvent_moves (fun _ _ _ _ _ => Hushed.same rfl) (fun _ _ => emit_hushed rfl) fd

theorem interrupt_hushed : Moves Hushed interrupt := by
  refine Moves.modify fun s => Hushed.same ?_
  obtain ⟨pipes, hw⟩ := s.toWorld.write_frame s.controlPipe.wr [0]
  rw [hw]

theorem sendJob_hushed (job : Option Job) : Moves Hushed (sendJob job) :=
  Moves.bind (Moves.modify fun _ => Hushed.same rfl) fun _ => interrupt_hushed

theorem onProcStopped_hushed (pid : Int) : Moves Hushed (onProcStopped h pid) := by
  refine Moves.bind Moves.get fun s => Moves.bind ?_ fun _ => Moves.bind Moves.get fun s => ?_
  · exact Moves.ite (fun _ => Moves.pure _) fun _ => Moves.throw _
  · split
    next => exact Moves.pure _
    next hd _ =>
      refine Moves.bind (removeReadEvent_hushed _) fun _ => Moves.bind (removeReadEvent_hushed _)
        fun _ => Moves.bind (removeReadEvent_hushed _) fun _ => ?_
      refine Moves.bind (Moves.modify fun s => Hushed.same rfl) fun _ =>
        Moves.bind Moves.get fun s => ?_
      exact Moves.ite (fun _ => sendJob_hushed none) fun _ => Moves.pure _

theorem handleState_hushed (hd : Handle) (st : State) (proc : ProcStatus) :
    Moves Hushed (handleState h hd st proc) := by
  refine Moves.bind (Moves.modify fun s => Hushed.same rfl) fun _ => Moves.ite (fun _ => ?_)
    fun _ => Moves.pure _
  cases hd.onProcStopped with
  | none =>
    exact Moves.ite (fun _ => Moves.bind (emit_hushed rfl) fun _ => Moves.pure _) fun _ => Moves.pure _
  | some pid =>
    have hstop : Moves Hushed (onProcStopped h pid) := onProcStopped_hushed pid
    exact Moves.ite (fun _ => Moves.bind (emit_hushed rfl) fun _ => hstop) fun _ => hstop

theorem announced_told (h : Nat) (st : State) (s : Sys) :
    Sys.told { s with toWorld := s.toWorld.announced h st (s.procs h) } =
      s.told ++ [.state h st (s.procs h).proc] := by
  simp [Sys.told, World.announced, World.emit, Event.loud]

/-- A state callback tells one thing. -/
theorem callState_told (st : State) :
    Moves (fun s t => t.told = s.told ++ [.state h st (s.procs h).proc]) (callState h st) := by
  refine Moves.get_bind fun s => ?_
  have he := announced_told h st s
  rw [bind_of_ok (announce_apply ..)]
  cases s.handles h with
  | none => exact he
  | some hd =>
    have hq := handleState_hushed (h := h) hd st (s.procs h).proc
      { s with toWorld := s.toWorld.announced h st (s.procs h) }
    dsimp only
    generalize handleState h hd st (s.procs h).proc
      { s with toWorld := s.toWorld.announced h st (s.procs h) } = r at hq ⊢
    cases r with
    | ok a u => exact hq.trans he
    | error e u => exact hq.trans he

/-- The process without what a spawn of object `h` changes. -/
def Sys.offSpawn (s : Sys) (h : Nat) : Sys :=
  { s.off h with
    children := ∅
    forks := 0
    faults := [] }

/-- Object `h` may have got new pipes and a child, and nothing has been passed on. -/
structure Opens (h : Nat) (s t : Sys) : Prop where
  off : t.offSpawn h = s.offSpawn h
  shrinks : Shrinks s t
  out : ∀ x, outOf x t.trace = outOf x s.trace
  err : ∀ x, errOf x t.trace = errOf x s.trace
  owns : s.Owns → t.Owns
  streams : s.Owns → ∀ slot, slot.owner ≠ some h → slot ≠ .control → slot ≠ .blocking →
    t.stream slot = s.stream slot
  reads : s.Owns → ∀ slot cb, StdSlot h slot cb →
    (t.stream slot).read = (s.stream slot).read ∨ (t.stream slot).read = []

instance : IsPreorder Sys (Opens h) where
  refl s := ⟨rfl, Std.Refl.refl s, fun _ => rfl, fun _ => rfl, id, fun _ _ _ _ _ => rfl,
    fun _ _ _ _ => .inl rfl⟩
  trans s t u hst htu := by
    refine ⟨htu.off.trans hst.off, IsTrans.trans _ _ _ hst.shrinks htu.shrinks, fun x => (htu.out x).trans (hst.out x),
      fun x => (htu.err x).trans (hst.err x), fun hs => htu.owns (hst.owns hs), ?_, ?_⟩
    · intro hs slot ho hc hb
      rw [htu.streams (hst.owns hs) slot ho hc hb, hst.streams hs slot ho hc hb]
    · intro hs slot cb hstd
      rcases htu.reads (hst.owns hs) slot cb hstd with he | he
      · rw [he]
        exact hst.reads hs slot cb hstd
      · exact .inr he

theorem Acts.offSpawn (ha : Acts h s t) : t.offSpawn h = s.offSpawn h :=
  congrArg (fun u : Sys => { u with children := ∅, forks := 0, faults := [] }) ha.off

/-- A step that changes no array, no pipe and no trace. -/
theorem Opens.same (hoff : t.offSpawn h = s.offSpawn h) (hf : t.fds = s.fds) (ha : t.array = s.array)
    (hp : t.pipes = s.pipes) (ht : t.trace = s.trace) (hs : Shrinks s t) : Opens h s t := by
  refine ⟨hoff, hs, fun x => by rw [ht], fun x => by rw [ht], fun ho => ho.congr hf ha,
    fun _ slot _ _ _ => by rw [Sys.stream_congr hp ha],
    fun _ slot cb _ => .inl (by rw [Sys.stream_congr hp ha])⟩

theorem Opens.field {α : Type} (ho : Opens h s t) (f : Sys → α) (hf : ∀ u, f (u.offSpawn h) = f u) :
    f t = f s := by
  rw [← hf t, ho.off, hf]

theorem Hushed.outOf (hq : Hushed s t) (x : Nat) : outOf x t.trace = outOf x s.trace := by
  rw [← outOf_told t, hq, outOf_told]

theorem Hushed.errOf (hq : Hushed s t) (x : Nat) : errOf x t.trace = errOf x s.trace := by
  rw [← errOf_told t, hq, errOf_told]

/-- Where nothing is passed on, nothing was read from an output pipe. -/
theorem Acts.opens (ha : Acts h s t) (hout : ∀ x, outOf x t.trace = outOf x s.trace)
    (herr : ∀ x, errOf x t.trace = errOf x s.trace) : Opens h s t := by
  refine ⟨ha.offSpawn, ha.shrinks, hout, herr, fun hs => (ha.carries hs).1, ha.streams, fun hs slot cb hstd => .inl ?_⟩
  obtain ⟨out, err, h₁, h₂, h₃, h₄⟩ := (ha.carries hs).2 h
  rw [hout] at h₁
  rw [herr] at h₃
  have ho : out = [] := by simpa using h₁
  have he : err = [] := by simpa using h₃
  cases hstd with
  | stdout => rw [h₂, ho, List.append_nil]
  | stderr => rw [h₄, he, List.append_nil]

theorem moves_opens {α : Type} {x : Prog α} (ha : Moves (Acts h) x) (hq : Moves Hushed x) :
    Moves (Opens h) x := by
  intro s
  cases hx : x s with
  | ok a t => exact (ha.ok hx).opens (hq.ok hx).outOf (hq.ok hx).errOf
  | error e t => exact (ha.error hx).opens (hq.error hx).outOf (hq.error hx).errOf

theorem callState_opens (st : State) : Moves (Opens h) (callState h st) := by
  have hopens : ∀ s t, Acts h s t → t.told = s.told ++ [.state h st (s.procs h).proc] →
      Opens h s t := by
    intro s t ha ht
    refine ha.opens (fun x => ?_) fun x => ?_
    · rw [← outOf_told t, ht, outOf_append, outOf_told]
      exact List.append_nil _
    · rw [← errOf_told t, ht, errOf_append, errOf_told]
      exact List.append_nil _
  intro s
  cases hx : callState h st s with
  | ok a t => exact hopens s t ((callState_acts st).ok hx) ((callState_told st).ok hx)
  | error e t => exact hopens s t ((callState_acts st).error hx) ((callState_told st).error hx)

theorem modifyProc_opens {f : PexecSingle → PexecSingle} (hf : ∀ p, (f p).shell = p.shell) :
    Moves (Opens h) (modifyProc h f) :=
  moves_opens (Moves.acts (modifyProc_local hf)) (modifyProc_hushed f)

theorem failStopped_opens : Moves (Opens h) (failStopped h) :=
  Moves.bind (moves_opens closeForkPipes_acts closeForkPipes_hushed) fun _ => callState_opens _

theorem opens_keeps {α : Type} {x : Prog α} (hx : Moves (Opens h) x) (s₀ : Sys) :
    Keeps (Opens h s₀) x :=
  hx.keeps fun _ _ hst hs => IsTrans.trans _ _ _ hs hst

/-- What is done where a call of `exec` fails. -/
theorem failWith_opens (e : Error) (s₀ : Sys) (Q : Sys → Prop) :
    Triple (Opens h s₀) (do processError h e; failStopped h; return false)
      (fun b t => Opens h s₀ t ∧ (b = true → Q t)) (fun _ => Opens h s₀) := by
  have herr := moves_opens (Moves.acts (processError_local (h := h) e)) (processError_hushed e)
  refine Triple.bind (opens_keeps herr s₀) fun _ => ?_
  refine Triple.bind (opens_keeps failStopped_opens s₀) fun _ => ?_
  exact Triple.pure fun t ht => ⟨ht, fun hb => (by cases hb)⟩

/-- The process without its descriptors and pipes, and without the new ones of object `h`. -/
def Sys.steady (s : Sys) (h : Nat) : Sys :=
  { s with
    fds := {}
    pipes := fun _ => {}
    faults := []
    trace := []
    vigil := {}
    blockingPipe := {}
    procs := Function.update s.procs h { type := (s.procs h).type, proc := (s.procs h).proc } }

theorem Sys.steady_offSpawn (s : Sys) (h : Nat) : (s.steady h).offSpawn h = s.offSpawn h := by
  simp only [Sys.offSpawn, Sys.off, Sys.steady, Function.update_idem]

/-- Object `h` has got the pipes of `slots`, which are open and have not been read. -/
structure Prepared (h : Nat) (slots : List Slot) (s t : Sys) : Prop where
  steady : t.steady h = s.steady h
  told : Hushed s t
  opens : Opens h s t
  ready : ∀ slot ∈ slots, (t.array slot).rd ≠ -1 ∧ (s.Owns → (t.stream slot).read = [])
  flags : ∀ slot ∈ slots, (t.array slot).cloexec = slot.cloexec
  control : s.Owns → t.stream .control = s.stream .control

variable {slots : List Slot}

theorem Prepared.refl (s : Sys) : Prepared h [] s s :=
  ⟨rfl, rfl, Std.Refl.refl s, fun _ hs => absurd hs List.not_mem_nil,
    fun _ hs => absurd hs List.not_mem_nil, fun _ => rfl⟩

/-- A change of the object that has nothing to do with its pipes. -/
theorem Prepared.set {u : Sys} (hp : Prepared h slots s t) {p : PexecSingle}
    (hu : u = { t with procs := Function.update t.procs h p }) (hshell : p.shell = (t.procs h).shell)
    (hproc : p.proc = (t.procs h).proc) : Prepared h slots s u := by
  have htype : p.type = (t.procs h).type := by
    have := congrArg PexecSingle.type hshell
    exact this
  have harr : u.array = t.array := by
    rw [hu]
    exact array_update t h hshell
  have hpipes : u.pipes = t.pipes := by rw [hu]
  have htrace : u.trace = t.trace := by rw [hu]
  refine ⟨?_, IsTrans.trans _ _ _ hp.told (Hushed.same htrace), ?_, fun slot hslot => ?_,
    fun slot hslot => harr ▸ hp.flags slot hslot, fun hs => ?_⟩
  · rw [← hp.steady, hu]
    simp only [Sys.steady, Function.update_idem, Function.update_self, htype, hproc]
  · refine IsTrans.trans _ _ _ hp.opens (Acts.opens (Acts.same ?_ ?_ harr hpipes htrace ?_) ?_ ?_)
    · rw [hu]
      simp only [Sys.off, Function.update_idem]
    · rw [hu]
    · rw [hu]
      exact .same rfl rfl rfl rfl rfl
    · exact fun x => by rw [htrace]
    · exact fun x => by rw [htrace]
  · rw [harr, Sys.stream_congr hpipes harr]
    exact hp.ready slot hslot
  · rw [Sys.stream_congr hpipes harr]
    exact hp.control hs

theorem OpenedInto.opens {slot : Slot} (hopen : OpenedInto slot s t)
    (hslot : slot.owner = some h ∨ slot = .blocking) (hoff : t.offSpawn h = s.offSpawn h)
    (hshr : Shrinks s t) (htrace : t.trace = s.trace) : Opens h s t := by
  refine ⟨hoff, hshr, fun x => by rw [htrace], fun x => by rw [htrace], hopen.owns, ?_, ?_⟩
  · intro hs x ho _ hb
    refine hopen.stream_ne hs ?_
    rintro rfl
    exact hslot.elim ho hb
  · intro hs x cb _
    by_cases hx : x = slot
    · subst x
      rw [hopen.stream_self]
      exact .inr rfl
    · rw [hopen.stream_ne hs hx]
      exact .inl rfl

/-- One `pipe2` that goes into an array of object `h`, or into that of the signal pipe. -/
theorem preparePipe_prepared (slot : Slot) {cloexec : Bool} {store : PipeFds → Sys → Sys} (e : Error)
    (hslot : slot.owner = some h ∨ slot = .blocking) (hnew : slot ∉ slots)
    (hflag : cloexec = slot.cloexec)
    (hstore : ∀ p s, ((store p s).fds = s.fds ∧ (store p s).pipes = s.pipes ∧
      (store p s).trace = s.trace) ∧ (store p s).steady h = s.steady h ∧
      (store p s).array = Function.update s.array slot p) (s₀ : Sys) :
    Triple (Prepared h slots s₀) (preparePipe h cloexec store e)
      (fun b t => Opens h s₀ t ∧ (b = true → Prepared h (slot :: slots) s₀ t))
      (fun _ => Opens h s₀) := by
  intro s hp
  unfold preparePipe
  rw [bind_of_ok (call_apply ..)]
  obtain ⟨faults, fds, pipes, hframe⟩ := s.toWorld.pipe2_frame cloexec
  generalize hcall : s.toWorld.pipe2 cloexec = r at hframe ⊢
  obtain ⟨answer, w⟩ := r
  dsimp only at hframe
  cases answer with
  | none =>
    obtain ⟨faults, rfl⟩ := World.pipe2_eq_none hcall
    have hs : Opens h s { s with faults } :=
      Opens.same rfl rfl rfl rfl rfl (.same rfl rfl rfl rfl rfl)
    exact failWith_opens e s₀ _ _ (IsTrans.trans _ _ _ hp.opens hs)
  | some p =>
    obtain ⟨⟨hf, hpipes, htrace⟩, hsteady, harr⟩ := hstore p { s with toWorld := w }
    have hnow : OpenedInto slot s (store p { s with toWorld := w }) := by
      refine openedInto_of_pipe2 hcall rfl hf hpipes ?_
      rw [harr, hframe]
      rfl
    have hsteady' : (store p { s with toWorld := w }).steady h = s.steady h := by
      rw [hsteady, hframe]
      rfl
    have htrace' : (store p { s with toWorld := w }).trace = s.trace := by
      rw [htrace, hframe]
    have hoff := congrArg (Sys.offSpawn · h) hsteady'
    simp only [Sys.steady_offSpawn] at hoff
    have hfield : ∀ {α : Type} (f : Sys → α), (∀ u, f (u.steady h) = f u) →
        f (store p { s with toWorld := w }) = f s := fun f hf => by rw [← hf, hsteady', hf]
    have hshr : Shrinks s (store p { s with toWorld := w }) :=
      .same (hfield Sys.buffer fun _ => rfl) (hfield Sys.added fun _ => rfl)
        (hfield Sys.registered fun _ => rfl) (hfield Sys.active fun _ => rfl)
        (hfield Sys.loop fun _ => rfl)
    have hopens := IsTrans.trans _ _ _ hp.opens (hnow.opens hslot hoff hshr htrace')
    have hcontrol : Slot.control ≠ slot := by
      rintro rfl
      exact hslot.elim (by simp [Slot.owner]) (by simp)
    refine ⟨hopens, fun _ => ⟨hsteady'.trans hp.steady,
      IsTrans.trans _ _ _ hp.told (Hushed.same htrace'), hopens, ?_, fun x hx => ?_, fun hs => ?_⟩⟩
    rotate_left
    swap
    · exact (hnow.stream_ne (hp.opens.owns hs) hcontrol).trans (hp.control hs)
    · by_cases hxs : x = slot
      · subst x
        rw [harr, Function.update_self, World.pipe2_flag hcall, hflag]
      · rw [hnow.array_ne hxs]
        exact hp.flags x ((List.mem_cons.mp hx).resolve_left hxs)
    intro x hx
    rcases List.mem_cons.mp hx with rfl | hx'
    · refine ⟨hnow.rd_open, fun _ => ?_⟩
      rw [hnow.stream_self]
      rfl
    · have hne : x ≠ slot := by
        rintro rfl
        exact hnew hx'
      obtain ⟨hrd, hread⟩ := hp.ready x hx'
      refine ⟨by rwa [hnow.array_ne hne], fun hs => ?_⟩
      rw [hnow.stream_ne (hp.opens.owns hs) hne]
      exact hread hs

section Calls

variable (s₀ : Sys)

/-- The arrays of object `h` under `storePipe`. -/
theorem storePipe_stores {slot : Slot} {f : PipeFds → PexecSingle → PexecSingle}
    (hproc : ∀ p x, (f p x).type = x.type ∧ (f p x).proc = x.proc)
    (harr : ∀ p s, Sys.array (storePipe h f p s) = Function.update s.array slot p) :
    ∀ p s, ((storePipe h f p s).fds = s.fds ∧ (storePipe h f p s).pipes = s.pipes ∧
      (storePipe h f p s).trace = s.trace) ∧ (storePipe h f p s).steady h = s.steady h ∧
      (storePipe h f p s).array = Function.update s.array slot p := by
  intro p s
  refine ⟨⟨rfl, rfl, rfl⟩, ?_, harr p s⟩
  obtain ⟨ht, hp⟩ := hproc p (s.procs h)
  simp only [Sys.steady, storePipe, Function.update_idem, Function.update_self, ht, hp]

/-- Storing a pipe in a field of the object changes the array of that name. -/
theorem storePipe_array (p : PipeFds) (s : Sys) :
    Sys.array (storePipe h (fun p x => { x with pipeStdin := p }) p s) =
        Function.update s.array (.stdin h) p ∧
      Sys.array (storePipe h (fun p x => { x with pipeStdout := p }) p s) =
        Function.update s.array (.stdout h) p ∧
      Sys.array (storePipe h (fun p x => { x with pipeStderr := p }) p s) =
        Function.update s.array (.stderr h) p ∧
      Sys.array (storePipe h (fun p x => { x with pipeCloseWatch := p }) p s) =
        Function.update s.array (.watch h) p := by
  refine ⟨funext fun x => ?_, funext fun x => ?_, funext fun x => ?_, funext fun x => ?_⟩
  all_goals
    cases x with
    | stdin y | stdout y | stderr y | watch y =>
      by_cases hy : y = h
      · subst y
        simp [Sys.array, storePipe]
      · simp [Sys.array, storePipe, hy]
    | control | sigchld | blocking | loop | ioLoop => simp [Sys.array, storePipe]

theorem preparePipeStdin_prepared :
    Triple (Prepared h [] s₀) (preparePipeStdin h)
      (fun b t => Opens h s₀ t ∧ (b = true → Prepared h [.stdin h] s₀ t)) (fun _ => Opens h s₀) := by
  refine preparePipe_prepared (.stdin h) _ (.inl rfl) (by simp) rfl (storePipe_stores ?_ ?_) s₀
  · exact fun _ _ => ⟨rfl, rfl⟩
  · exact fun p s => (storePipe_array p s).1

theorem preparePipeStdout_prepared :
    Triple (Prepared h [.stdin h] s₀) (preparePipeStdout h)
      (fun b t => Opens h s₀ t ∧ (b = true → Prepared h [.stdout h, .stdin h] s₀ t))
      (fun _ => Opens h s₀) := by
  refine preparePipe_prepared (.stdout h) _ (.inl rfl) (by simp) rfl (storePipe_stores ?_ ?_) s₀
  · exact fun _ _ => ⟨rfl, rfl⟩
  · exact fun p s => (storePipe_array p s).2.1

theorem preparePipeStderr_prepared :
    Triple (Prepared h [.stdout h, .stdin h] s₀) (preparePipeStderr h)
      (fun b t => Opens h s₀ t ∧ (b = true → Prepared h [.stderr h, .stdout h, .stdin h] s₀ t))
      (fun _ => Opens h s₀) := by
  refine preparePipe_prepared (.stderr h) _ (.inl rfl) (by simp) rfl (storePipe_stores ?_ ?_) s₀
  · exact fun _ _ => ⟨rfl, rfl⟩
  · exact fun p s => (storePipe_array p s).2.2.1

theorem preparePipeSignal_prepared (hslots : .blocking ∉ slots) :
    Triple (Prepared h slots s₀) (preparePipeSignal h)
      (fun b t => Opens h s₀ t ∧ (b = true → Prepared h (.blocking :: slots) s₀ t))
      (fun _ => Opens h s₀) := by
  refine preparePipe_prepared .blocking _ (.inr rfl) hslots rfl ?_ s₀
  refine fun p s => ⟨⟨rfl, rfl, rfl⟩, rfl, funext fun x => ?_⟩
  cases x <;> simp [Sys.array]

theorem preparePipeWatch_prepared (hslots : .watch h ∉ slots) :
    Triple (Prepared h slots s₀) (preparePipeWatch h)
      (fun b t => Opens h s₀ t ∧ (b = true → Prepared h (.watch h :: slots) s₀ t))
      (fun _ => Opens h s₀) := by
  refine preparePipe_prepared (.watch h) _ (.inl rfl) hslots rfl (storePipe_stores ?_ ?_) s₀
  · exact fun _ _ => ⟨rfl, rfl⟩
  · exact fun p s => (storePipe_array p s).2.2.2

/-- The four pipes of the child's side and the watching. -/
def objectSlots (h : Nat) : List Slot := [.watch h, .stderr h, .stdout h, .stdin h]

theorem Prepared.sub {slots' : List Slot} {s t : Sys} (hp : Prepared h slots s t)
    (hsub : ∀ slot ∈ slots', slot ∈ slots) : Prepared h slots' s t :=
  ⟨hp.steady, hp.told, hp.opens, fun slot hslot => hp.ready slot (hsub slot hslot),
    fun slot hslot => hp.flags slot (hsub slot hslot), hp.control⟩

/-- A later pipe, where the earlier ones were opened. -/
theorem guard_prepared {slots' : List Slot} {x y : Prog Bool}
    (hx : Triple (Prepared h slots s₀) x
      (fun b t => Opens h s₀ t ∧ (b = true → Prepared h slots' s₀ t)) fun _ => Opens h s₀)
    (hy : Triple (Prepared h slots' s₀) y
      (fun b t => Opens h s₀ t ∧ (b = true → Prepared h (objectSlots h) s₀ t)) fun _ => Opens h s₀) :
    Triple (Prepared h slots s₀) (x >>= fun b => if (!b) = true then pure false else y)
      (fun b t => Opens h s₀ t ∧ (b = true → Prepared h (objectSlots h) s₀ t))
      fun _ => Opens h s₀ :=
  Triple.guard hx (fun _ ht => ⟨ht.1, fun hb => (by cases hb)⟩)
    (hy.conseq (fun _ ht => ht.2 rfl) (fun _ _ => id) fun _ _ => id)

theorem prepareForkPipes_prepared :
    Triple (Prepared h [] s₀) (prepareForkPipes h)
      (fun b t => Opens h s₀ t ∧ (b = true → Prepared h (objectSlots h) s₀ t))
      (fun _ => Opens h s₀) := by
  have hlast : ∀ slots, .watch h ∉ slots → (∀ slot ∈ objectSlots h, slot ∈ .watch h :: slots) →
      Triple (Prepared h slots s₀) (preparePipeWatch h)
        (fun b t => Opens h s₀ t ∧ (b = true → Prepared h (objectSlots h) s₀ t))
        (fun _ => Opens h s₀) := by
    intro slots hslots hsub
    refine (preparePipeWatch_prepared s₀ hslots).conseq (fun _ => id) ?_ fun _ _ => id
    exact fun b t ht => ⟨ht.1, fun hb => (ht.2 hb).sub hsub⟩
  unfold prepareForkPipes
  refine guard_prepared s₀ (preparePipeStdin_prepared s₀) ?_
  refine guard_prepared s₀ (preparePipeStdout_prepared s₀) ?_
  refine guard_prepared s₀ (preparePipeStderr_prepared s₀) ?_
  refine Triple.get_bind fun s hs => Triple.ite (fun _ => ?_) fun _ => ?_
  · have hsignal := guard_prepared s₀ (preparePipeSignal_prepared s₀ (by simp))
      (hlast [.blocking, .stderr h, .stdout h, .stdin h] (by simp) (by simp [objectSlots]))
    exact fun t ht => ht ▸ hsignal s hs
  · have hwatch := hlast [.stderr h, .stdout h, .stdin h] (by simp) (by simp [objectSlots])
    exact fun t ht => ht ▸ hwatch s hs

theorem prepareArgs_prepared :
    Triple (Prepared h [] s₀) (prepareArgs h)
      (fun b t => Opens h s₀ t ∧ (b = true → Prepared h [] s₀ t)) (fun _ => Opens h s₀) := by
  intro s hs
  unfold prepareArgs
  rw [bind_of_ok (modifyProc_apply ..), bind_of_ok (get_apply _)]
  set t : Sys := { s with
    procs := Function.update s.procs h
      { s.procs h with args := str2arg (s.procs h).spawnProcessArg } } with ht
  have hpt : Prepared h [] s₀ t := hs.set rfl rfl rfl
  split
  next => exact failWith_opens _ s₀ _ t hpt.opens
  next =>
    rw [bind_of_ok (modifyProc_apply ..), bind_of_ok (get_apply _)]
    set u : Sys := { t with
      procs := Function.update t.procs h
        { t.procs h with argsC := arg2argc (t.procs h).args } } with hu
    have hpu : Prepared h [] s₀ u := hpt.set rfl rfl rfl
    split
    next => exact failWith_opens _ s₀ _ u hpu.opens
    next => exact ⟨hpu.opens, fun _ => hpu⟩

/-- A change of the object that has nothing to do with its pipes. -/
theorem Opens.set {u : Sys} (ho : Opens h s t) {p : PexecSingle}
    (hu : u = { t with procs := Function.update t.procs h p }) (harr : u.array = t.array) :
    Opens h s u := by
  have hoff : u.off h = t.off h := by
    rw [hu]
    simp only [Sys.off, Function.update_idem]
  have hacts : Acts h t u := by
    refine Acts.same hoff ?_ harr ?_ ?_ ?_ <;> rw [hu]
    exact .same rfl rfl rfl rfl rfl
  exact IsTrans.trans _ _ _ ho (hacts.opens (fun x => by rw [hu]) fun x => by rw [hu])

/-- The child of object `h` has been forked, with its pipes in place. -/
structure Launched (h : Nat) (s t : Sys) : Prop where
  told : Hushed s t
  opens : Opens h s t
  ready : ∀ slot ∈ objectSlots h, (t.array slot).rd ≠ -1 ∧ (s.Owns → (t.stream slot).read = [])
  flags : ∀ slot ∈ objectSlots h, (t.array slot).cloexec = slot.cloexec
  control : s.Owns → t.stream .control = s.stream .control
  pid : 0 < (t.procs h).procPid ∧ (t.procs h).procPid ∉ s.children
  steady : t.steady h = Sys.steady { s with
    children := s.children.insert (t.procs h).procPid { pgid := s.pgid, fds := t.fds }
    forks := s.forks + 1 } h

theorem Prepared.field {α : Type} (hp : Prepared h slots s t) (f : Sys → α)
    (hf : ∀ u, f (u.steady h) = f u) : f t = f s := by
  rw [← hf t, hp.steady, hf]

theorem spawnProc_launched :
    Triple (Prepared h (objectSlots h) s₀) (spawnProc h)
      (fun b t => Opens h s₀ t ∧ (b = true → Launched h s₀ t)) (fun _ => Opens h s₀) := by
  intro s hp
  unfold spawnProc
  rw [bind_of_ok (call_apply ..)]
  cases hfault : s.faults.head?.join with
  | some e =>
    rw [World.fork_of_fault hfault]
    have hs : Opens h s { s with faults := s.faults.tail } :=
      Opens.same rfl rfl rfl rfl rfl (.same rfl rfl rfl rfl rfl)
    have hopens := IsTrans.trans _ _ _ hp.opens hs
    exact failWith_opens .forkError s₀ _ _ (hopens.set rfl (array_replace _ h rfl rfl rfl rfl))
  | none =>
    rw [World.fork_of_none hfault]
    set u : Sys := { s with
      faults := s.faults.tail
      children := s.children.insert s.freshPid { pgid := s.pgid, fds := s.fds }
      forks := s.forks + 1 } with hu
    have hs : Opens h s u := Opens.same rfl rfl rfl rfl rfl (.same rfl rfl rfl rfl rfl)
    have hopens := (IsTrans.trans _ _ _ hp.opens hs).set (u := { u with
      procs := Function.update u.procs h { u.procs h with procPid := s.freshPid } }) rfl
      (array_replace u h rfl rfl rfl rfl)
    have hchildren : s.children = s₀.children := hp.field (·.children) fun _ => rfl
    have hforks : s.forks = s₀.forks := hp.field (·.forks) fun _ => rfl
    have hpgid : s.pgid = s₀.pgid := hp.field (·.pgid) fun _ => rfl
    have harr := array_replace u h (p := { u.procs h with procPid := s.freshPid }) rfl rfl rfl rfl
    have hstream : ∀ slot, Sys.stream { u with
        procs := Function.update u.procs h { u.procs h with procPid := s.freshPid } } slot =
        s.stream slot := by
      intro slot
      simp only [Sys.stream, harr]
      rfl
    refine ⟨hopens, fun _ => ⟨hp.told, hopens, fun slot hslot => ?_,
      fun slot hslot => harr ▸ hp.flags slot hslot, fun hso => (hstream _).trans (hp.control hso), ?_, ?_⟩⟩
    · obtain ⟨hrd, hread⟩ := hp.ready slot hslot
      refine ⟨by rwa [harr], fun hso => ?_⟩
      rw [hstream]
      exact hread hso
    · simp only [Function.update_self]
      exact ⟨s.freshPid_pos, hchildren ▸ s.freshPid_not_mem⟩
    · have hsteady := congrArg (fun v : Sys => { v with
        children := s₀.children.insert s.freshPid { pgid := s₀.pgid, fds := s.fds }
        forks := s₀.forks + 1 }) hp.steady
      simp only [Sys.steady, Function.update_idem, Function.update_self, hu, hchildren, hforks,
        hpgid] at hsteady ⊢
      exact hsteady

/-- `exec` of a non-blocking object up to the fork. -/
theorem execPrepare_launched (args : List Char) :
    Triple (fun s => s = s₀ ∧ (s₀.procs h).type = .nonblocking) (execPrepare h args)
      (fun b t => Opens h s₀ t ∧ (b = true → Launched h s₀ t)) (fun _ => Opens h s₀) := by
  rintro s ⟨rfl, htype⟩
  unfold execPrepare
  rw [bind_of_ok (modifyProc_apply ..)]
  have hstart : Prepared h [] s { s with
      procs := Function.update s.procs h
        { s.procs h with spawnProcessArg := args, state_ := .noError } } :=
    (Prepared.refl s).set rfl rfl rfl
  refine Triple.guard (R := fun b t => Opens h s t ∧ (b = true → Launched h s t))
    (prepareArgs_prepared s) (fun t ht => ⟨ht.1, fun hb => (by cases hb)⟩) ?_ _ hstart
  refine Triple.guard ((prepareForkPipes_prepared s).conseq (fun _ ht => ht.2 rfl) (fun _ _ => id)
    fun _ _ => id) (fun t ht => ⟨ht.1, fun hb => (by cases hb)⟩) ?_
  refine Triple.get_bind fun t ht => ?_
  have hp := ht.2 rfl
  have htype' : (t.procs h).type = .nonblocking := by
    have := congrArg (fun u : Sys => (u.procs h).type) hp.steady
    simpa [Sys.steady, htype] using this
  rw [if_neg (by rw [htype']; decide)]
  exact fun u hu => hu ▸ spawnProc_launched s t hp

end Calls

end Pexec
