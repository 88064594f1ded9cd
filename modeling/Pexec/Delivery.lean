import Pexec.Arrays
import Pexec.Lib.Effect
import Pexec.SingleRules

namespace Pexec

open Effect

/-- Between two states `out` and `err` were read from the output pipes of object `h`, and these
bytes were passed to its callbacks. -/
structure Passed (h : Nat) (s t : Sys) (out err : List UInt8) : Prop where
  outOf : outOf h t.trace = outOf h s.trace ++ out
  outRead : (t.stream (.stdout h)).read = (s.stream (.stdout h)).read ++ out
  errOf : errOf h t.trace = errOf h s.trace ++ err
  errRead : (t.stream (.stderr h)).read = (s.stream (.stderr h)).read ++ err

/-- The process keeps its arrays in order and passes on what it reads. -/
def Carries (s t : Sys) : Prop := s.Owns → t.Owns ∧ ∀ h, ∃ out err, Passed h s t out err

instance : IsPreorder Sys Carries where
  refl s hs := ⟨hs, fun h => ⟨[], [], by simp, by simp, by simp, by simp⟩⟩
  trans s t u hst htu hs := by
    obtain ⟨ht, hpass⟩ := hst hs
    obtain ⟨hu, hpass'⟩ := htu ht
    refine ⟨hu, fun h => ?_⟩
    obtain ⟨o, e, h₁, h₂, h₃, h₄⟩ := hpass h
    obtain ⟨o', e', h₁', h₂', h₃', h₄'⟩ := hpass' h
    exact ⟨o ++ o', e ++ e', by rw [h₁', h₁, List.append_assoc], by rw [h₂', h₂, List.append_assoc],
      by rw [h₃', h₃, List.append_assoc], by rw [h₄', h₄, List.append_assoc]⟩

/-- Nothing is read from an output pipe, and nothing passed on. -/
theorem Carries.silent {s t : Sys} (howns : s.Owns → t.Owns)
    (hout : ∀ h, outOf h t.trace = outOf h s.trace) (herr : ∀ h, errOf h t.trace = errOf h s.trace)
    (hread : s.Owns → ∀ h, (t.stream (.stdout h)).read = (s.stream (.stdout h)).read ∧
      (t.stream (.stderr h)).read = (s.stream (.stderr h)).read) : Carries s t := by
  intro hs
  refine ⟨howns hs, fun h => ⟨[], [], ?_, ?_, ?_, ?_⟩⟩
  · rw [hout, List.append_nil]
  · rw [(hread hs h).1, List.append_nil]
  · rw [herr, List.append_nil]
  · rw [(hread hs h).2, List.append_nil]

theorem Sys.stream_congr {s t : Sys} (hp : t.pipes = s.pipes) (ha : t.array = s.array) :
    t.stream = s.stream := by
  funext slot
  simp only [Sys.stream, World.stream, hp, ha]

theorem Sys.Owns.congr {s t : Sys} (hs : s.Owns) (hf : t.fds = s.fds) (ha : t.array = s.array) :
    t.Owns := by
  unfold Sys.Owns
  rw [hf, ha]
  exact hs

/-- A step that has to do with none of descriptors, arrays, pipes and callbacks. -/
theorem Carries.same {s t : Sys} (hf : t.fds = s.fds) (ha : t.array = s.array)
    (hp : t.pipes = s.pipes) (ht : t.trace = s.trace) : Carries s t := by
  refine Carries.silent (fun hs => hs.congr hf ha) (fun h => by rw [ht]) (fun h => by rw [ht]) ?_
  intro _ h
  rw [Sys.stream_congr hp ha]
  exact ⟨rfl, rfl⟩

/-- What the others see of object `h` while it stays active. -/
def PexecSingle.shell (p : PexecSingle) : PexecSingle where
  type := p.type
  pipeStdin := p.pipeStdin
  pipeStdout := p.pipeStdout
  pipeStderr := p.pipeStderr
  pipeCloseWatch := p.pipeCloseWatch
  procPid := p.procPid

/-- A handle without the results in `ret_`. -/
def Handle.entry (hd : Handle) : Handle := { hd with retProc := {}, retState := .started }

/-- The process without what a callback about object `h` changes while `h` stays active. -/
def Sys.outside (s : Sys) (h : Nat) : Sys :=
  { s with
    pipes := fun _ => {}
    readFaults := []
    trace := []
    vigil := {}
    procs := Function.update s.procs h (s.procs h).shell
    handles := Function.update s.handles h ((s.handles h).map Handle.entry) }

/-- The process without anything that a callback about object `h` changes. -/
def Sys.off (s : Sys) (h : Nat) : Sys :=
  { s with
    fds := {}
    pipes := fun _ => {}
    readFaults := []
    mapOrder := []
    trace := []
    vigil := {}
    blockingPipe := {}
    procs := Function.update s.procs h {}
    handles := Function.update s.handles h none
    loop := s.loop.map fun e => { controlPipe := e.controlPipe }
    buffer := []
    added := []
    active := ∅
    registered := ∅ }

/-- A callback about object `h` that leaves it active, or a part of one. -/
structure Local (h : Nat) (s t : Sys) : Prop where
  outside : t.outside h = s.outside h
  carries : Carries s t
  streams : s.Owns → ∀ slot, slot.owner ≠ some h → t.stream slot = s.stream slot

/-- No job is added but the sentinel, nothing is registered and no process becomes active. -/
structure Shrinks (s t : Sys) : Prop where
  queue : ∃ n, t.buffer = s.buffer ++ List.replicate n none ∧ t.added = s.added ++ List.replicate n none
  registered : ∀ fd src, t.registered.lookup fd = some src → s.registered.lookup fd = some src
  active : ∀ pid h, t.active.lookup pid = some h → s.active.lookup pid = some h
  loop : ∀ e', t.loop = some e' → ∃ e, s.loop = some e ∧ e'.controlPipe = e.controlPipe ∧
    ∀ fd, (fd, LoopSource.interrupt) ∈ e'.cbs → (fd, LoopSource.interrupt) ∈ e.cbs

/-- A callback about object `h`, or a part of one. -/
structure Acts (h : Nat) (s t : Sys) : Prop where
  off : t.off h = s.off h
  carries : Carries s t
  shrinks : Shrinks s t
  streams : s.Owns → ∀ slot, slot.owner ≠ some h → slot ≠ .control → slot ≠ .blocking →
    t.stream slot = s.stream slot

variable {h : Nat} {s t : Sys}

theorem Shrinks.same (hb : t.buffer = s.buffer) (ha : t.added = s.added)
    (hr : t.registered = s.registered) (hact : t.active = s.active) (hl : t.loop = s.loop) :
    Shrinks s t where
  queue := ⟨0, by simp [hb], by simp [ha]⟩
  registered fd src hl := hr ▸ hl
  active pid h hl := hact ▸ hl
  loop e' he := ⟨e', hl ▸ he, rfl, fun _ => id⟩

instance : IsPreorder Sys Shrinks where
  refl _ := Shrinks.same rfl rfl rfl rfl rfl
  trans s t u hst htu := by
    obtain ⟨n, hb, ha⟩ := hst.queue
    obtain ⟨m, hb', ha'⟩ := htu.queue
    refine ⟨⟨n + m, ?_, ?_⟩, fun fd src hl => hst.registered fd src (htu.registered fd src hl),
      fun pid h hl => hst.active pid h (htu.active pid h hl), fun e' he' => ?_⟩
    · rw [hb', hb, List.append_assoc, List.replicate_append_replicate]
    · rw [ha', ha, List.append_assoc, List.replicate_append_replicate]
    · obtain ⟨e, he, hc, hint⟩ := htu.loop e' he'
      obtain ⟨e₀, he₀, hc₀, hint₀⟩ := hst.loop e he
      exact ⟨e₀, he₀, hc.trans hc₀, fun fd hm => hint₀ fd (hint fd hm)⟩

theorem Sys.outside_off (s : Sys) (h : Nat) : (s.outside h).off h = s.off h := by
  simp only [Sys.off, Sys.outside, Function.update_idem]

theorem Local.field {α : Type} (hl : Local h s t) (f : Sys → α) (hf : ∀ u, f (u.outside h) = f u) :
    f t = f s := by
  rw [← hf t, hl.outside, hf]

theorem Acts.field {α : Type} (ha : Acts h s t) (f : Sys → α) (hf : ∀ u, f (u.off h) = f u) :
    f t = f s := by
  rw [← hf t, ha.off, hf]

theorem Local.acts (hl : Local h s t) : Acts h s t where
  off := by rw [← Sys.outside_off t, hl.outside, Sys.outside_off]
  carries := hl.carries
  shrinks := Shrinks.same (hl.field Sys.buffer fun _ => rfl) (hl.field Sys.added fun _ => rfl)
    (hl.field Sys.registered fun _ => rfl) (hl.field Sys.active fun _ => rfl)
    (hl.field Sys.loop fun _ => rfl)
  streams hs slot ho _ _ := hl.streams hs slot ho

instance : IsPreorder Sys (Local h) where
  refl s := ⟨rfl, Std.Refl.refl s, fun _ _ _ => rfl⟩
  trans s t u hst htu := by
    refine ⟨htu.outside.trans hst.outside, IsTrans.trans _ _ _ hst.carries htu.carries, ?_⟩
    intro hs slot ho
    rw [htu.streams (hst.carries hs).1 slot ho, hst.streams hs slot ho]

instance : IsPreorder Sys (Acts h) where
  refl s := ⟨rfl, Std.Refl.refl s, Std.Refl.refl s, fun _ _ _ _ _ => rfl⟩
  trans s t u hst htu := by
    refine ⟨htu.off.trans hst.off, IsTrans.trans _ _ _ hst.carries htu.carries,
      IsTrans.trans _ _ _ hst.shrinks htu.shrinks, ?_⟩
    intro hs slot ho hc hb
    rw [htu.streams (hst.carries hs).1 slot ho hc hb, hst.streams hs slot ho hc hb]

theorem Moves.acts {ε : Type} {x : EStateM Halt Sys ε} (hx : Moves (Local h) x) : Moves (Acts h) x :=
  hx.mono fun _ _ => Local.acts

/-- An object is replaced by one that has the same pipes. -/
theorem array_replace (s : Sys) (h : Nat) {p : PexecSingle} (hin : p.pipeStdin = (s.procs h).pipeStdin)
    (hout : p.pipeStdout = (s.procs h).pipeStdout) (herr : p.pipeStderr = (s.procs h).pipeStderr)
    (hwatch : p.pipeCloseWatch = (s.procs h).pipeCloseWatch) :
    Sys.array { s with procs := Function.update s.procs h p } = s.array := by
  funext slot
  cases slot with
  | stdin x | stdout x | stderr x | watch x =>
    by_cases hx : x = h
    · subst x
      simp only [Sys.array, Function.update_self, hin, hout, herr, hwatch]
    · simp only [Sys.array, Function.update_of_ne hx]
  | control | sigchld | blocking | loop | ioLoop => rfl

theorem array_update (s : Sys) (h : Nat) {p : PexecSingle} (hp : p.shell = (s.procs h).shell) :
    Sys.array { s with procs := Function.update s.procs h p } = s.array := by
  simp only [PexecSingle.shell, PexecSingle.mk.injEq] at hp
  exact array_replace s h (by simp [hp]) (by simp [hp]) (by simp [hp]) (by simp [hp])

theorem modifyProc_local {f : PexecSingle → PexecSingle} (hf : ∀ p, (f p).shell = p.shell) :
    Moves (Local h) (modifyProc h f) := by
  refine Moves.modify fun s => ?_
  have harr := array_update s h (hf (s.procs h))
  refine ⟨?_, Carries.same rfl harr rfl rfl, fun _ slot _ => ?_⟩
  · simp only [Sys.outside, Function.update_idem, Function.update_self, hf]
  · simp only [Sys.stream, harr]

/-- An event that hands no bytes to anyone. -/
def Event.Silent (e : Event) : Prop := ∀ h, e.outData h = [] ∧ e.errData h = []

theorem emit_carries {e : Event} (he : e.Silent) :
    Carries s { s with toWorld := s.toWorld.emit e } := by
  refine Carries.silent (fun hs => hs.congr rfl rfl) ?_ ?_ fun _ _ => ⟨rfl, rfl⟩
  · intro x
    simp only [World.emit, outOf_append, outOf_singleton, (he x).1, List.append_nil]
  · intro x
    simp only [World.emit, errOf_append, errOf_singleton, (he x).2, List.append_nil]

theorem emit_local {e : Event} (he : e.Silent) : Moves (Local h) (emit e) :=
  Moves.modify fun _ => ⟨rfl, emit_carries he, fun _ _ _ => rfl⟩

theorem processError_local (e : Error) : Moves (Local h) (processError h e) :=
  Moves.bind (emit_local fun _ => ⟨rfl, rfl⟩) fun _ => modifyProc_local fun _ => rfl

theorem handleProcReturnCode_local : Moves (Local h) (handleProcReturnCode h) := by
  refine Moves.bind Moves.get fun s => ?_
  split
  next e _ => exact processError_local e
  next => exact Moves.pure _

theorem setHandle_local {hd hd' : Handle} (hh : s.handles h = some hd) (he : hd'.entry = hd.entry) :
    Local h s { s with handles := Function.update s.handles h (some hd') } := by
  refine ⟨?_, Carries.same rfl rfl rfl rfl, fun _ _ _ => rfl⟩
  simp only [Sys.outside, Function.update_idem, Function.update_self, hh, Option.map_some, he]

theorem announce_local (st : State) : Moves (Local h) (announce h st) :=
  Moves.get_bind fun s => Moves.bind_from (emit_local (fun _ => ⟨rfl, rfl⟩) s) fun _ =>
    emit_local fun _ => ⟨rfl, rfl⟩

/-- A callback that does not end the watching. -/
theorem callState_local {st : State} (hst : st.terminal = false) : Moves (Local h) (callState h st) := by
  refine Moves.get_bind fun s => ?_
  have hemit := announce_local (h := h) st s
  rw [announce_apply] at hemit
  rw [bind_of_ok (announce_apply ..)]
  cases hh : s.handles h with
  | some hd =>
    simp only [handleState, bind_of_ok (modify_apply ..), hst, Bool.false_eq_true, if_false, pure_apply]
    have hset := setHandle_local (s := { s with
      toWorld := s.toWorld.announced h st (s.procs h) }) (h := h) hh
        (show Handle.entry { hd with retProc := (s.procs h).proc, retState := st } = hd.entry from rfl)
    exact IsTrans.trans _ _ _ hemit hset
  | none => exact hemit

/-- A write takes nothing out of the output pipes. -/
theorem write_carries (s : Sys) (fd : Int) (data : List UInt8) :
    Carries s { s with toWorld := s.toWorld.write fd data } := by
  obtain ⟨pipes, hw⟩ := s.toWorld.write_frame fd data
  have harr : Sys.array { s with toWorld := s.toWorld.write fd data } = s.array := by
    rw [hw]
    rfl
  have hread : ∀ slot, (Sys.stream { s with toWorld := s.toWorld.write fd data } slot).read =
      (s.stream slot).read := fun slot => by
    simp only [Sys.stream, harr]
    exact World.write_stream_read ..
  refine Carries.silent (fun hs => hs.congr (by rw [hw]) harr) (fun x => by rw [hw])
    (fun x => by rw [hw]) fun _ x => ⟨hread _, hread _⟩

/-- Arrays that are not output pipes may be opened and closed. -/
theorem Carries.arrays {s t : Sys} (howns : s.Owns → t.Owns)
    (hstream : s.Owns → ∀ x, t.stream (.stdout x) = s.stream (.stdout x) ∧
      t.stream (.stderr x) = s.stream (.stderr x)) (htrace : t.trace = s.trace) : Carries s t := by
  refine Carries.silent howns (fun x => by rw [htrace]) (fun x => by rw [htrace]) fun hs x => ?_
  rw [(hstream hs x).1, (hstream hs x).2]
  exact ⟨rfl, rfl⟩

theorem OpenedInto.carries {slot : Slot} {s t : Sys} (ho : OpenedInto slot s t)
    (hslot : ∀ x, slot ≠ .stdout x ∧ slot ≠ .stderr x) (htrace : t.trace = s.trace) : Carries s t :=
  Carries.arrays ho.owns
    (fun hs x => ⟨ho.stream_ne hs (hslot x).1.symm, ho.stream_ne hs (hslot x).2.symm⟩) htrace

section Reads

variable {count : Nat} {a : Except Errno (List UInt8)} {w : World}

theorem Owned.Reads.frame {slot : Slot} (hr : Owned.Reads s.array s.toWorld slot count a w) :
    ∃ readFaults pipes, w = { s.toWorld with readFaults, pipes } := by
  cases hr with
  | failed e rf => exact ⟨_, _, rfl⟩
  | data rf => exact ⟨_, _, rfl⟩

/-- A read that is not about an output pipe. -/
theorem read_carries (slot : Slot) (ho : ∀ x, slot ≠ .stdout x ∧ slot ≠ .stderr x)
    (ha : World.ReadAnswer s.toWorld (s.array slot).rd count a w) : Carries s { s with toWorld := w } := by
  obtain ⟨rf, pipes, hw⟩ := ha.frame
  refine Carries.silent (fun hs => ?_) ?_ ?_ fun hs x => ?_
  · subst hw
    exact hs.congr rfl rfl
  · subst hw
    exact fun _ => rfl
  · subst hw
    exact fun _ => rfl
  · have hr := Owned.reads hs ha
    have harr : Sys.array { s with toWorld := w } = s.array := by
      subst hw
      rfl
    simp only [Sys.stream, harr]
    rw [hr.stream_ne hs (ho x).1.symm, hr.stream_ne hs (ho x).2.symm]
    exact ⟨rfl, rfl⟩

theorem read_local (slot : Slot) (howner : slot.owner = some h)
    (ho : ∀ x, slot ≠ .stdout x ∧ slot ≠ .stderr x)
    (ha : World.ReadAnswer s.toWorld (s.array slot).rd count a w) : Local h s { s with toWorld := w } := by
  refine ⟨?_, read_carries slot ho ha, fun hs x hx => ?_⟩
  · obtain ⟨rf, pipes, rfl⟩ := ha.frame
    rfl
  · have hr := Owned.reads hs ha
    have harr : Sys.array { s with toWorld := w } = s.array := by
      obtain ⟨rf, pipes, rfl⟩ := ha.frame
      rfl
    have hne : x ≠ slot := by
      rintro rfl
      exact hx howner
    simp only [Sys.stream, harr]
    exact hr.stream_ne hs hne

/-- The two output pipes of an object, with the events that pass their bytes on. -/
inductive StdSlot (h : Nat) : Slot → (List UInt8 → Event) → Prop
  | stdout : StdSlot h (.stdout h) (.out h)
  | stderr : StdSlot h (.stderr h) (.err h)

theorem StdSlot.owner {slot : Slot} {cb : List UInt8 → Event} (hs : StdSlot h slot cb) :
    slot.owner = some h := by
  cases hs <;> rfl

/-- Bytes are passed on if there are any. -/
def World.passOn (w : World) (cb : List UInt8 → Event) (data : List UInt8) : World :=
  if data = [] then w else w.emit (cb data)

theorem outOf_passOn {x : Nat} {slot : Slot} {cb : List UInt8 → Event} (hstd : StdSlot h slot cb)
    (w : World) (data : List UInt8) :
    outOf x (w.passOn cb data).trace =
      outOf x w.trace ++ if slot = .stdout x then data else [] := by
  unfold World.passOn
  by_cases hd : data = []
  · simp [hd]
  · rw [if_neg hd]
    simp only [World.emit, outOf_append, outOf_singleton]
    cases hstd with
    | stdout => simp [Event.outData, Slot.stdout.injEq]
    | stderr => simp [Event.outData]

theorem errOf_passOn {x : Nat} {slot : Slot} {cb : List UInt8 → Event} (hstd : StdSlot h slot cb)
    (w : World) (data : List UInt8) :
    errOf x (w.passOn cb data).trace =
      errOf x w.trace ++ if slot = .stderr x then data else [] := by
  unfold World.passOn
  by_cases hd : data = []
  · simp [hd]
  · rw [if_neg hd]
    simp only [World.emit, errOf_append, errOf_singleton]
    cases hstd with
    | stdout => simp [Event.errData]
    | stderr => simp [Event.errData, Slot.stderr.injEq]

/-- A read of an output pipe, and the event that passes its bytes on. -/
theorem readPass_local {slot : Slot} {cb : List UInt8 → Event} (hstd : StdSlot h slot cb)
    (ha : World.ReadAnswer s.toWorld (s.array slot).rd count a w) :
    Local h s { s with toWorld := w.passOn cb (a.toOption.getD []) } := by
  obtain ⟨rf, pipes, hw⟩ := ha.frame
  have hpass : ∃ trace vigil, w.passOn cb (a.toOption.getD []) = { w with trace, vigil } := by
    unfold World.passOn
    split
    · exact ⟨_, _, rfl⟩
    · exact ⟨_, _, rfl⟩
  obtain ⟨trace, vigil, hpass⟩ := hpass
  have hout := fun x => outOf_passOn (x := x) hstd w (a.toOption.getD [])
  have herr := fun x => errOf_passOn (x := x) hstd w (a.toOption.getD [])
  have htrace : w.trace = s.trace := by rw [hw]
  rw [hpass] at hout herr ⊢
  have harr : Sys.array { s with toWorld := { w with trace, vigil } } = s.array := by
    rw [hw]
    rfl
  have hstream : ∀ x, Sys.stream { s with toWorld := { w with trace, vigil } } x = w.stream (s.array x) :=
    fun x => by
      unfold Sys.stream
      rw [harr]
      rfl
  have hread : s.Owns → ∀ x, ((w.stream (s.array x)).read) =
      (s.stream x).read ++ if slot = x then a.toOption.getD [] else [] := by
    intro hs x
    by_cases hx : slot = x
    · subst x
      rw [if_pos rfl]
      exact (Owned.reads hs ha).stream_read
    · rw [if_neg hx, List.append_nil, (Owned.reads hs ha).stream_ne hs (Ne.symm hx)]
      rfl
  refine ⟨?_, fun hs => ⟨hs.congr (by rw [hw]) harr, fun x =>
    ⟨if slot = .stdout x then a.toOption.getD [] else [],
      if slot = .stderr x then a.toOption.getD [] else [], ?_, ?_, ?_, ?_⟩⟩, fun hs x hx => ?_⟩
  · rw [hw]
    rfl
  · rw [hout, htrace]
  · rw [hstream, hread hs]
  · rw [herr, htrace]
  · rw [hstream, hread hs]
  · rw [hstream]
    refine (Owned.reads hs ha).stream_ne hs ?_
    rintro rfl
    exact hx hstd.owner

end Reads

end Pexec
