import Pexec.Delivery

namespace Pexec

open Effect

variable {h : Nat} {s t : Sys}

theorem Sys.outside_array (s : Sys) (h : Nat) : (s.outside h).array = s.array := by
  funext slot
  cases slot with
  | stdin x | stdout x | stderr x | watch x =>
    by_cases hx : x = h
    · subst x
      simp only [Sys.array, Sys.outside, Function.update_self, PexecSingle.shell]
    · simp only [Sys.array, Sys.outside, Function.update_of_ne hx]
  | control | sigchld | blocking | loop | ioLoop => rfl

theorem Local.array (hl : Local h s t) : t.array = s.array :=
  hl.field Sys.array fun u => u.outside_array h

theorem Local.type (hl : Local h s t) : (t.procs h).type = (s.procs h).type := by
  have := congrArg (fun u : Sys => (u.procs h).type) hl.outside
  simpa [Sys.outside, PexecSingle.shell] using this

/-- A read of the watch pipe. -/
theorem readRetry_watch_local (count : Nat) :
    ∃ t, Local h s t ∧
      readRetry (s.procs h).pipeCloseWatch.rd count s =
        .ok (World.readRetry (s.procs h).pipeCloseWatch.rd count s.readFaults s.toWorld).1 t := by
  have ha := World.readRetry_answer (s.procs h).pipeCloseWatch.rd count s.readFaults s.toWorld
  exact ⟨_, read_local (.watch h) rfl (fun x => ⟨by simp, by simp⟩) ha, rfl⟩

section Std

variable {slot : Slot} {cb : List UInt8 → Event}

/-- The drain of an output pipe passes on what it reads. -/
theorem readStdRest_local (hstd : StdSlot h slot cb) (e : Error) (fuel : Nat) :
    ∀ s fd, fd = (s.array slot).rd → Outcome (fun _ => Local h s) (fun _ => Local h s)
      (readStdRest fd h cb e fuel s) := by
  induction fuel with
  | zero => exact fun s _ _ => Std.Refl.refl s
  | succ fuel ih =>
    rintro s fd rfl
    have hl := readPass_local hstd (World.read_answer s.toWorld (s.array slot).rd (bufferSize - 1))
    unfold readStdRest
    rw [bind_of_ok (call_apply ..)]
    generalize s.toWorld.read (s.array slot).rd (bufferSize - 1) = r at hl ⊢
    obtain ⟨a, w⟩ := r
    match a, hl with
    | .error e', hl =>
      refine Outcome.after hl ?_
      dsimp only
      by_cases he : e' ≠ .eintr ∧ e' ≠ .eagain
      · rw [if_pos he]
        exact processError_local e _
      · rw [if_neg he]
        exact Std.Refl.refl _
    | .ok [], hl =>
      have hfd := congrArg (fun array => (array slot).rd) hl.array.symm
      exact Outcome.after hl (ih _ _ hfd)
    | .ok (b :: bs), hl => exact hl

theorem loopRestIo_local : Moves (Local h) (loopRestIo h) := by
  refine Moves.get_bind fun s => ?_
  refine Moves.bind_from (readStdRest_local .stdout _ _ s _ rfl) fun _ => ?_
  exact Moves.get_bind fun s => readStdRest_local .stderr _ _ s _ rfl

end Std

@[simp] theorem World.closePipe_blockingPipe (w : World) (p : PipeFds) :
    (w.closePipe p).blockingPipe = w.blockingPipe := by
  obtain ⟨fds, hw⟩ := w.closePipe_frame p
  rw [hw]

theorem World.closeFd_fds {w w' : World} (hf : w'.fds = w.fds) (fd : Int) :
    (w'.closeFd fd).fds = (w.closeFd fd).fds := by
  unfold World.closeFd
  by_cases hfd : 0 ≤ fd
  · rw [if_pos hfd, if_pos hfd]
    exact congrArg (FdTable.close · fd) hf
  · rw [if_neg hfd, if_neg hfd, hf]

theorem World.closePipe_fds {w w' : World} (hf : w'.fds = w.fds) (p : PipeFds) :
    (w'.closePipe p).fds = (w.closePipe p).fds :=
  World.closeFd_fds (World.closeFd_fds hf p.rd) p.wr

theorem World.closeForkPipes_blockingPipe (w : World) (p : PexecSingle) :
    (w.closeForkPipes p).blockingPipe =
      if p.type = .blocking then w.blockingPipe.closed else w.blockingPipe := by
  unfold World.closeForkPipes
  by_cases ht : p.type = .blocking <;> simp [ht]

theorem closeForkPipes_array (s : Sys) (h : Nat) :
    Sys.array { s with
      toWorld := s.toWorld.closeForkPipes (s.procs h)
      procs := Function.update s.procs h (s.procs h).pipesClosed } = fun slot =>
        if slot.owner = some h ∨ slot = .blocking ∧ (s.procs h).type = .blocking then
          (s.array slot).closed
        else s.array slot := by
  funext slot
  cases slot with
  | stdin x | stdout x | stderr x | watch x =>
    by_cases hx : x = h
    · subst x
      simp [Sys.array, Slot.owner, PexecSingle.pipesClosed]
    · simp [Sys.array, Slot.owner, hx]
  | sigchld =>
    obtain ⟨fds, blockingPipe, hw⟩ := s.toWorld.closeForkPipes_frame (s.procs h)
    simp [Sys.array, Slot.owner, hw]
  | control | loop | ioLoop => simp [Sys.array, Slot.owner]
  | blocking => simp [Sys.array, Slot.owner, World.closeForkPipes_blockingPipe]

/-- What every `close_pipe` of an array keeps, `close_fork_pipes` keeps. -/
theorem World.closeForkPipes_rule {w : World} {array : Slot → PipeFds} {p : PexecSingle}
    {P : FdTable → (Slot → PipeFds) → Prop}
    (hclose : ∀ (w : World) array slot q, slot.owner = some h ∨ slot = .blocking ∧ p.type = .blocking →
      array slot = q → P w.fds array → P (w.closePipe q).fds (Function.update array slot q.closed))
    (hs : P w.fds array) (hin : array (.stdin h) = p.pipeStdin)
    (hout : array (.stdout h) = p.pipeStdout) (herr : array (.stderr h) = p.pipeStderr)
    (hwatch : array (.watch h) = p.pipeCloseWatch) (hblock : array .blocking = w.blockingPipe) :
    P (w.closeForkPipes p).fds fun slot =>
      if slot.owner = some h ∨ slot = .blocking ∧ p.type = .blocking then (array slot).closed
      else array slot := by
  have h₁ := hclose _ _ (.stdin h) _ (.inl rfl) hin hs
  have h₂ := hclose _ _ (.stdout h) p.pipeStdout (.inl rfl) (by simpa using hout) h₁
  have h₃ := hclose _ _ (.stderr h) p.pipeStderr (.inl rfl) (by simpa using herr) h₂
  unfold World.closeForkPipes
  by_cases ht : p.type = .blocking
  · have h₄ := hclose _ _ .blocking w.blockingPipe (.inr ⟨rfl, ht⟩) (by simpa using hblock) h₃
    have h₅ := hclose _ _ (.watch h) p.pipeCloseWatch (.inl rfl) (by simpa using hwatch) h₄
    simp only [ht, if_true, World.closePipe_blockingPipe, and_true]
    convert h₅ using 1
    · apply World.closePipe_fds
      rfl
    · funext slot
      cases slot with
      | stdin x | stdout x | stderr x | watch x =>
        by_cases hx : x = h
        · subst x
          simp [Slot.owner, hin, hout, herr, hwatch]
        · simp [Slot.owner, hx]
      | blocking => simp [hblock]
      | control | sigchld | loop | ioLoop => simp [Slot.owner]
  · have h₄ := hclose _ _ (.watch h) p.pipeCloseWatch (.inl rfl) (by simpa using hwatch) h₃
    simp only [ht, if_false, and_false, or_false]
    convert h₄ using 1
    funext slot
    cases slot with
    | stdin x | stdout x | stderr x | watch x =>
      by_cases hx : x = h
      · subst x
        simp [Slot.owner, hin, hout, herr, hwatch]
      · simp [Slot.owner, hx]
    | control | sigchld | blocking | loop | ioLoop => simp [Slot.owner]

theorem Owned.closeForkPipes {w : World} {array : Slot → PipeFds} (hs : Owned w.fds array)
    {p : PexecSingle} (hin : array (.stdin h) = p.pipeStdin) (hout : array (.stdout h) = p.pipeStdout)
    (herr : array (.stderr h) = p.pipeStderr) (hwatch : array (.watch h) = p.pipeCloseWatch)
    (hblock : array .blocking = w.blockingPipe) :
    Owned (w.closeForkPipes p).fds fun slot =>
      if slot.owner = some h ∨ slot = .blocking ∧ p.type = .blocking then (array slot).closed
      else array slot :=
  World.closeForkPipes_rule (P := Owned) (fun _ _ slot _ _ hq ho => ho.closeArray slot hq) hs hin hout
    herr hwatch hblock

/-- What was sent through the pipes stays what it was. -/
theorem closeForkPipes_stream (s : Sys) (h : Nat) :
    Sys.stream { s with
      toWorld := s.toWorld.closeForkPipes (s.procs h)
      procs := Function.update s.procs h (s.procs h).pipesClosed } = s.stream := by
  obtain ⟨fds, blockingPipe, hw⟩ := s.toWorld.closeForkPipes_frame (s.procs h)
  funext slot
  simp only [Sys.stream, closeForkPipes_array s h]
  rw [hw]
  split
  · rfl
  · rfl

theorem closeForkPipes_acts : Moves (Acts h) (closeForkPipes h) := by
  refine Moves.modify fun s => ?_
  obtain ⟨fds, blockingPipe, hw⟩ := s.toWorld.closeForkPipes_frame (s.procs h)
  have harr := closeForkPipes_array s h
  have hstream := closeForkPipes_stream s h
  refine ⟨?_, Carries.silent (fun hs => ?_) ?_ ?_ fun _ x => ?_, Shrinks.same rfl rfl rfl rfl rfl,
    fun _ slot _ _ _ => ?_⟩
  · simp only [Sys.off, hw, Function.update_idem]
  · unfold Sys.Owns
    rw [harr]
    exact Owned.closeForkPipes hs rfl rfl rfl rfl rfl
  · exact fun x => by rw [hw]
  · exact fun x => by rw [hw]
  · rw [hstream]
    exact ⟨rfl, rfl⟩
  · rw [hstream]

/-- A step that has to do with the maps and the queue alone. -/
theorem Acts.same (hoff : t.off h = s.off h) (hf : t.fds = s.fds) (ha : t.array = s.array)
    (hp : t.pipes = s.pipes) (ht : t.trace = s.trace) (hs : Shrinks s t) : Acts h s t :=
  ⟨hoff, Carries.same hf ha hp ht, hs, fun _ slot _ _ _ => by rw [Sys.stream_congr hp ha]⟩

theorem removeReadEvent_cases {κ : Type} {e e' : SelectEvent κ} {fd : Int}
    (he : e.removeReadEvent fd = some e') : fd ∈ e.keys ∧ e'.controlPipe = e.controlPipe ∧
      ∀ p, p ∈ e'.cbs ↔ p ∈ e.cbs ∧ p.1 ≠ fd := by
  have hmem : fd ∈ e.keys := by
    by_contra hn
    rw [SelectEvent.removeReadEvent, if_neg hn] at he
    cases he
  obtain ⟨e'', he'', hc, hcbs⟩ := e.removeReadEvent_of_mem hmem
  rw [he] at he''
  cases he''
  exact ⟨hmem, hc, hcbs⟩

theorem setLoop_acts {e e' : SelectEvent LoopSource} {vigil : Vigil} (hl : s.loop = some e)
    (hc : e'.controlPipe = e.controlPipe)
    (hint : ∀ fd, (fd, LoopSource.interrupt) ∈ e'.cbs → (fd, LoopSource.interrupt) ∈ e.cbs) :
    Acts h s { s with loop := some e', vigil } := by
  refine Acts.same ?_ rfl ?_ rfl rfl
    ⟨⟨0, by simp, by simp⟩, fun _ _ => id, fun _ _ => id, fun e'' he'' => ?_⟩
  · simp [Sys.off, hl, hc]
  · funext slot
    cases slot <;> simp [Sys.array, hl, hc]
  · cases he''
    exact ⟨e, hl, hc, hint⟩

theorem loopRemove_acts (fd : Int) : Moves (Acts h) (loopRemove fd) := by
  refine Moves.get_bind fun s => ?_
  cases hl : s.loop with
  | none => exact Moves.throw _ s
  | some e =>
    cases he : e.removeReadEvent fd with
    | some e' =>
      simp only [he]
      obtain ⟨_, hc, hcbs⟩ := removeReadEvent_cases he
      exact setLoop_acts hl hc fun fd' hm => ((hcbs _).mp hm).1
    | none =>
      simp only [he]
      exact Moves.throw _ s

theorem lookup_of_erase {β : Type} {m : AList (fun _ : Int => β)} {k x : Int} {v : β}
    (hl : (m.erase k).lookup x = some v) : m.lookup x = some v := by
  by_cases hx : x = k
  · subst x
    simp at hl
  · rwa [AList.lookup_erase_ne hx] at hl

theorem lookup_of_insert {β : Type} {m : AList (fun _ : Int => β)} {k x : Int} {v u : β}
    (hl : (m.insert k v).lookup x = some u) : x = k ∧ u = v ∨ m.lookup x = some u := by
  by_cases hx : x = k
  · subst x
    rw [AList.lookup_insert] at hl
    exact .inl ⟨rfl, (Option.some.inj hl).symm⟩
  · rw [AList.lookup_insert_ne hx] at hl
    exact .inr hl

theorem removeReadEvent_acts (fd : Int) : Moves (Acts h) (removeReadEvent fd) := by
  refine Moves.bind (Moves.modify fun s => Acts.same rfl rfl rfl rfl rfl ?_) fun _ => ?_
  · exact ⟨⟨0, by simp, by simp⟩, fun _ _ => lookup_of_erase, fun _ _ => id,
      fun e he => ⟨e, he, rfl, fun _ => id⟩⟩
  refine Moves.bind Moves.get fun s => ?_
  split
  next => exact Moves.pure _
  next => exact loopRemove_acts fd
  next => exact Moves.acts (emit_local fun _ => ⟨rfl, rfl⟩)

theorem addReadEvent_cases {κ : Type} {e e' : SelectEvent κ} {order : List Int} {fd : Int} {cb : κ}
    (he : e.addReadEvent order fd cb = some e') : fd ∉ e.keys ∧ e'.controlPipe = e.controlPipe ∧
      ∀ p, p ∈ e'.cbs ↔ p ∈ e.cbs ∨ p = (fd, cb) := by
  unfold SelectEvent.addReadEvent at he
  split at he
  next => cases he
  next hn =>
    cases he
    exact ⟨hn, rfl, fun p => by simp [SelectEvent.mem_arrange]⟩

theorem loopAdd_acts (fd : Int) : Moves (Acts h) (loopAdd fd) := by
  refine Moves.get_bind fun s => ?_
  cases hl : s.loop with
  | none => exact Moves.throw _ s
  | some e =>
    dsimp only
    rw [bind_of_ok (show nextOrder s = .ok _ _ from rfl)]
    have hs : Acts h s { s with mapOrder := s.mapOrder.tail } :=
      Acts.same rfl rfl rfl rfl rfl (.same rfl rfl rfl rfl rfl)
    refine Outcome.after hs ?_
    cases he : e.addReadEvent (s.mapOrder.headD []) fd .doAction with
    | some e' =>
      obtain ⟨_, hc, hcbs⟩ := addReadEvent_cases he
      exact setLoop_acts hl hc fun fd' hm => ((hcbs _).mp hm).resolve_right (by simp)
    | none => exact Moves.throw _ _

theorem addReadEvent_apply (fd : Int) (cb : Source) (s : Sys) : addReadEvent fd cb s = (do
    match (← get).registerFn with
    | none => pure ()
    | some .loop => loopAdd fd
    | some .user => emit (.register fd true) : Prog Unit)
      { s with registered := s.registered.insert fd cb } := bind_of_ok (modify_apply ..)

theorem removeReadEvent_apply (fd : Int) (s : Sys) : removeReadEvent fd s = (do
    match (← get).registerFn with
    | none => pure ()
    | some .loop => loopRemove fd
    | some .user => emit (.register fd false) : Prog Unit)
      { s with registered := s.registered.erase fd } := bind_of_ok (modify_apply ..)

/-- What `add_read_event` does after it has stored the callback. -/
theorem registerAdd_acts (fd : Int) : Moves (Acts h) (do
    match (← get).registerFn with
    | none => pure ()
    | some .loop => loopAdd fd
    | some .user => emit (.register fd true) : Prog Unit) := by
  refine Moves.bind Moves.get fun s => ?_
  split
  next => exact Moves.pure _
  next => exact loopAdd_acts fd
  next => exact Moves.acts (emit_local fun _ => ⟨rfl, rfl⟩)

theorem interrupt_acts : Moves (Acts h) interrupt := by
  refine Moves.modify fun s => ?_
  obtain ⟨pipes, hw⟩ := s.toWorld.write_frame s.controlPipe.wr [0]
  have harr : Sys.array { s with toWorld := s.toWorld.write s.controlPipe.wr [0] } = s.array := by
    rw [hw]
    rfl
  refine ⟨?_, write_carries s _ _, Shrinks.same rfl rfl rfl rfl rfl, fun hs slot _ hc _ => ?_⟩
  · rw [hw]
    rfl
  · simp only [Sys.stream, harr]
    exact Owned.write_stream_ne hs (i := Slot.control) hc [0]

theorem sendJobNullptrStop_acts : Moves (Acts h) sendJobNullptrStop :=
  Moves.bind (Moves.modify fun _ => Acts.same rfl rfl rfl rfl rfl
    ⟨⟨1, rfl, rfl⟩, fun _ _ => id, fun _ _ => id, fun e he => ⟨e, he, rfl, fun _ => id⟩⟩) fun _ => interrupt_acts

theorem onProcStopped_acts {owner : Nat} (pid : Int) : Moves (Acts h) (onProcStopped owner pid) := by
  refine Moves.bind Moves.get fun s => Moves.bind ?_ fun _ => Moves.bind Moves.get fun s => ?_
  · exact Moves.ite (fun _ => Moves.pure _) fun _ => Moves.throw _
  · split
    next => exact Moves.pure _
    next hd _ =>
      refine Moves.bind (removeReadEvent_acts _) fun _ => Moves.bind (removeReadEvent_acts _) fun _ =>
        Moves.bind (removeReadEvent_acts _) fun _ => ?_
      refine Moves.bind (Moves.modify fun s => Acts.same rfl rfl rfl rfl rfl
        ⟨⟨0, by simp, by simp⟩, fun _ _ => id, fun _ _ => lookup_of_erase,
          fun e he => ⟨e, he, rfl, fun _ => id⟩⟩) fun _ =>
        Moves.bind Moves.get fun s => ?_
      exact Moves.ite (fun _ => sendJobNullptrStop_acts) fun _ => Moves.pure _

theorem callState_acts (st : State) : Moves (Acts h) (callState h st) := by
  cases hst : st.terminal with
  | false => exact Moves.acts (callState_local hst)
  | true =>
    refine Moves.get_bind fun s => Moves.bind_from (R := Acts h)
      (Moves.acts (announce_local st) s) fun _ => ?_
    cases s.handles h with
    | none => exact Moves.pure _
    | some hd =>
      refine Moves.bind (R := Acts h) (Moves.modify fun v => ?_) fun _ => ?_
      · refine Acts.same ?_ rfl rfl rfl rfl (.same rfl rfl rfl rfl rfl)
        simp only [Sys.off, Function.update_idem]
      · rw [if_pos hst]
        have hcall : Moves (Acts h) (emit (.onStop h st)) := Moves.acts (emit_local fun _ => ⟨rfl, rfl⟩)
        cases hd.onProcStopped with
        | none => exact Moves.ite (fun _ => Moves.bind hcall fun _ => Moves.pure _) fun _ => Moves.pure _
        | some pid =>
          have hstop : Moves (Acts h) (onProcStopped h pid) := onProcStopped_acts pid
          exact Moves.ite (fun _ => Moves.bind hcall fun _ => hstop) fun _ => hstop

theorem failStopped_acts : Moves (Acts h) (failStopped h) :=
  Moves.bind closeForkPipes_acts fun _ => callState_acts _

theorem userStopped_acts : Moves (Acts h) (userStopped h) :=
  Moves.bind (Moves.acts (modifyProc_local fun _ => rfl)) fun _ =>
    Moves.bind closeForkPipes_acts fun _ => callState_acts _

theorem stopped_acts : Moves (Acts h) (stopped h) :=
  Moves.bind (Moves.acts loopRestIo_local) fun _ =>
    Moves.bind closeForkPipes_acts fun _ => callState_acts _

theorem updateStatus_acts (status : WaitStatus) : Moves (Acts h) (updateStatus h status) := by
  refine Moves.bind (Moves.acts (modifyProc_local fun _ => rfl)) fun _ =>
    Moves.bind (callState_acts _) fun _ => Moves.bind Moves.get fun s => ?_
  refine Moves.ite (fun _ => ?_) fun _ => Moves.pure _
  refine Moves.bind (Moves.acts (modifyProc_local fun _ => rfl)) fun _ =>
    Moves.bind (Moves.acts handleProcReturnCode_local) fun _ => Moves.bind Moves.get fun s => ?_
  exact Moves.ite (fun _ => stopped_acts) fun _ => Moves.pure _

theorem readClose_acts : Moves (Acts h) (readClose h) := by
  refine Moves.get_bind fun s => ?_
  obtain ⟨t, hl, hread⟩ := readRetry_watch_local (h := h) (s := s) (bufferSize - 1)
  rw [bind_of_ok hread]
  refine Outcome.after hl.acts ?_
  cases (World.readRetry (s.procs h).pipeCloseWatch.rd (bufferSize - 1) s.readFaults s.toWorld).1 with
  | error e =>
    refine Moves.bind (Moves.acts (processError_local _)) (fun _ => Moves.bind Moves.get fun _ => ?_) t
    exact Moves.ite (fun _ => Moves.bind failStopped_acts fun _ => Moves.pure _) fun _ => Moves.pure _
  | ok data =>
    refine Moves.bind Moves.get (fun _ => ?_) t
    exact Moves.ite (fun _ => Moves.bind userStopped_acts fun _ => Moves.pure _) fun _ => Moves.pure _

theorem readStd_acts {slot : Slot} {cb : List UInt8 → Event} (hstd : StdSlot h slot cb) (e : Error)
    (s : Sys) : Outcome (fun _ => Acts h s) (fun _ => Acts h s) (readStd (s.array slot).rd h cb e s) := by
  have ha := World.readRetry_answer (s.array slot).rd (bufferSize - 1) s.readFaults s.toWorld
  have hl := readPass_local hstd ha
  unfold readStd readRetry
  rw [bind_of_ok (call_apply ..)]
  generalize World.readRetry (s.array slot).rd (bufferSize - 1) s.readFaults s.toWorld = r at hl ⊢
  obtain ⟨a, w⟩ := r
  match a, hl with
  | .error e', hl =>
    refine Outcome.after hl.acts ?_
    refine Moves.bind (Moves.acts (processError_local _)) (fun _ => Moves.bind Moves.get fun _ => ?_) _
    exact Moves.ite (fun _ => Moves.bind failStopped_acts fun _ => Moves.pure _) fun _ => Moves.pure _
  | .ok [], hl => exact hl.acts
  | .ok (b :: bs), hl => exact hl.acts

theorem readStdout_acts : Moves (Acts h) (readStdout h) :=
  Moves.get_bind fun s => readStd_acts .stdout _ s

theorem readStderr_acts : Moves (Acts h) (readStderr h) :=
  Moves.get_bind fun s => readStd_acts .stderr _ s

/-- An end of an array of the object that is open is a number to be offered. -/
theorem Sys.Owns.offers (ho : s.Owns) {p : PexecSingle} (hin : p.pipeStdin = (s.procs h).pipeStdin)
    (hout : p.pipeStdout = (s.procs h).pipeStdout) (herr : p.pipeStderr = (s.procs h).pipeStderr)
    (hwatch : p.pipeCloseWatch = (s.procs h).pipeCloseWatch) (slot : Slot)
    (hslot : slot.owner = some h) (hopen : (s.array slot).rd ≠ -1) :
    p.offers s.fds (s.array slot).wr = true := by
  obtain ⟨pipe, hpipe, _, hw⟩ := (ho.ends slot).opened hopen
  have hmine : ((s.array slot).pipe.isSome &&
      (s.fds.target (s.array slot).wr).bind FdTarget.pipe? == (s.array slot).pipe) = true := by
    rw [hw, hpipe]
    simp [FdTarget.pipe?]
  have hmem : s.array slot ∈ [p.pipeStdin, p.pipeStdout, p.pipeStderr, p.pipeCloseWatch] := by
    rw [hin, hout, herr, hwatch]
    cases slot <;> cases hslot <;> simp [Sys.array]
  exact Bool.or_eq_true_iff.mpr (.inr (List.any_eq_true.mpr ⟨_, hmem, hmine⟩))

end Pexec
