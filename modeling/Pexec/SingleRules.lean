import Pexec.BlockingExec
import Pexec.Lib.Effect
import Pexec.WorldRules

namespace Pexec

open Effect

theorem World.closeForkPipes_frame (w : World) (p : PexecSingle) :
    ∃ fds blockingPipe, w.closeForkPipes p = { w with fds, blockingPipe } := by
  obtain ⟨fds₁, h₁⟩ := w.closePipe_frame p.pipeStdin
  obtain ⟨fds₂, h₂⟩ := World.closePipe_frame { w with fds := fds₁ } p.pipeStdout
  obtain ⟨fds₃, h₃⟩ := World.closePipe_frame { w with fds := fds₂ } p.pipeStderr
  unfold World.closeForkPipes
  simp only [h₁, h₂, h₃]
  split
  next =>
    obtain ⟨fds₄, h₄⟩ := World.closePipe_frame { w with fds := fds₃ } w.blockingPipe
    simp only [h₄]
    obtain ⟨fds₅, h₅⟩ := World.closePipe_frame
      { w with fds := fds₄, blockingPipe := w.blockingPipe.closed } p.pipeCloseWatch
    exact ⟨fds₅, _, h₅⟩
  next =>
    obtain ⟨fds₄, h₄⟩ := World.closePipe_frame { w with fds := fds₃ } p.pipeCloseWatch
    exact ⟨fds₄, _, h₄⟩

/-- The read of a callback fails that takes what there is behind `fd`. -/
def Unreadable (fd : Int) (s : Sys) : Prop :=
  ∃ e t, readRetry fd (bufferSize - 1) s = .ok (.error e) t

theorem Unreadable.not_of_ok {fd : Int} {data : List UInt8} {s t : Sys}
    (hr : readRetry fd (bufferSize - 1) s = .ok (.ok data) t) : ¬Unreadable fd s := by
  rintro ⟨e, u, hu⟩
  cases hr.symm.trans hu

@[simp] theorem pipesClosed_proc (p : PexecSingle) : p.pipesClosed.proc = p.proc := rfl

@[simp] theorem pipesClosed_type (p : PexecSingle) : p.pipesClosed.type = p.type := rfl

@[simp] theorem pipesClosed_procPid (p : PexecSingle) : p.pipesClosed.procPid = p.procPid := rfl

/-- The parts of the process that others can change. -/
theorem EnvAct.frame (act : EnvAct) (s : Sys) :
    ∃ fds pipes children, act.apply s = { s with fds, pipes, children } := by
  cases act with
  | childOut h data =>
    cases hp : (s.procs h).pipeStdout.pipe <;> simp only [EnvAct.apply, hp] <;> exact ⟨_, _, _, rfl⟩
  | childErr h data =>
    cases hp : (s.procs h).pipeStderr.pipe <;> simp only [EnvAct.apply, hp] <;> exact ⟨_, _, _, rfl⟩
  | userStop h =>
    obtain ⟨pipes, h⟩ := s.toWorld.write_frame (s.procs h).pipeCloseWatch.wr [0]
    simp only [EnvAct.apply, h]
    exact ⟨_, _, _, rfl⟩
  | sigchld =>
    obtain ⟨pipes, h⟩ := s.toWorld.deliverSigchld_frame
    simp only [EnvAct.apply, h]
    exact ⟨_, _, _, rfl⟩
  | exit pid status =>
    simp only [EnvAct.apply]
    split
    · split <;> exact ⟨_, _, _, rfl⟩
    · exact ⟨_, _, _, rfl⟩
  | setpgid pid pgid =>
    simp only [EnvAct.apply]
    split
    · split <;> exact ⟨_, _, _, rfl⟩
    · exact ⟨_, _, _, rfl⟩
  | fork pid pgid => simp only [EnvAct.apply]; split <;> exact ⟨_, _, _, rfl⟩
  | reap pid => simp only [EnvAct.apply]; split <;> exact ⟨_, _, _, rfl⟩
  | openFile fd => simp only [EnvAct.apply]; split <;> exact ⟨_, _, _, rfl⟩
  | closeFile fd => simp only [EnvAct.apply]; split <;> exact ⟨_, _, _, rfl⟩

theorem newSelectEvent_cases {κ : Type} (k : κ) (s : Sys) :
    (∃ t, newSelectEvent k s = .error (.assertion .loopPipe) t) ∨
      newSelectEvent k s = .ok
        { controlPipe := (s.fds.openPipe (s.fdHint s.fds.nextPipe) true).1
          cbs := [((s.fds.openPipe (s.fdHint s.fds.nextPipe) true).1.rd, k)] }
        { s with
          faults := s.faults.tail
          fds := (s.fds.openPipe (s.fdHint s.fds.nextPipe) true).2
          pipes := Function.update s.pipes s.fds.nextPipe {}
          mapOrder := s.mapOrder.tail } := by
  unfold newSelectEvent
  rw [bind_of_ok (call_apply ..)]
  cases hfault : s.faults.head?.join with
  | some e =>
    rw [World.pipe2_of_fault hfault]
    exact .inl ⟨_, rfl⟩
  | none =>
    rw [World.pipe2_of_none hfault]
    exact .inr rfl

section SelectLoop

variable {κ : Type} {ref : LoopRef κ} {callback : κ → Int → Prog EventReturn} {onError : Prog Unit}
  {I J : Sys → Prop} {E : Halt → Sys → Prop}

/-- The dispatch pass keeps what every registered callback keeps that does not end the loop. -/
theorem selectPass_triple
    (hcall : ∀ cb fd, Triple (fun s => I s ∧ (fd, cb) ∈ (ref.get s).cbs) (callback cb fd)
      (fun ret t => (ret = .stopLoop → J t) ∧ (ret ≠ .stopLoop → I t)) E)
    (hadvance : ∀ s, I s → I (ref.update SelectEvent.advance s))
    (hwait : ∀ s, I s → E .waiting s) (ready : List Int) (fuel : Nat) :
    Triple I (selectPass ref callback ready fuel)
      (fun stop t => (stop = true → J t) ∧ (stop = false → I t)) E := by
  induction fuel with
  | zero => exact Triple.throw hwait
  | succ fuel ih =>
    refine Triple.get_bind fun s hs => ?_
    split
    next =>
      refine Triple.pure fun t ht => ⟨fun hb => (by cases hb), fun _ => ht ▸ hs⟩
    next fd cb hcur =>
      refine Triple.bind (Q := fun (ret : EventReturn) t => (ret = .stopLoop → J t) ∧
        (ret ≠ .stopLoop → I t)) (Triple.ite (fun _ => ?_) fun _ => ?_) fun ret => ?_
      · rintro t rfl
        exact hcall cb fd t ⟨hs, (ref.get t).mem_of_current hcur⟩
      · exact Triple.pure fun t ht => ⟨fun hb => (by cases hb), fun _ => ht ▸ hs⟩
      · cases ret with
        | stopLoop => exact Triple.pure fun t ht => ⟨fun _ => ht.1 rfl, fun hb => (by cases hb)⟩
        | skipOtherFd =>
          exact Triple.pure fun t ht => ⟨fun hb => (by cases hb), fun _ => ht.2 (by decide)⟩
        | nothing =>
          refine Triple.bind (Q := fun _ => I) ?_ fun _ => ih
          exact Triple.modify fun t ht => hadvance t (ht.2 (by decide))

theorem envActs_keep {I : Sys → Prop} {acts : List EnvAct}
    (henv : ∀ act ∈ acts, ∀ s, I s → I (EnvAct.apply act s)) {s : Sys} (hs : I s) :
    I (acts.foldl (fun s act => act.apply s) s) := by
  induction acts generalizing s with
  | nil => exact hs
  | cons act acts ih =>
    exact ih (fun act' h => henv act' (List.mem_cons_of_mem _ h)) (henv act List.mem_cons_self s hs)

/-- The loop ends in `J` where every registered callback that ends it does. -/
theorem selectLoop_triple
    (hcall : ∀ cb fd, Triple (fun s => I s ∧ (fd, cb) ∈ (ref.get s).cbs) (callback cb fd)
      (fun ret t => (ret = .stopLoop → J t) ∧ (ret ≠ .stopLoop → I t)) E)
    (hbegin : ∀ s, I s → I (ref.update SelectEvent.begin s))
    (hadvance : ∀ s, I s → I (ref.update SelectEvent.advance s))
    (hselects : ∀ answers s, I s → I { s with selects := answers })
    (herror : Triple I onError (fun _ => J) E)
    (hwait : ∀ s, I s → E .waiting s) (answers : List SelectAnswer)
    (henv : ∀ acts fds, SelectAnswer.ready acts fds ∈ answers → ∀ act ∈ acts, ∀ s, I s →
      I (EnvAct.apply act s)) :
    Triple I (selectLoop ref callback onError answers) (fun _ => J) E := by
  induction answers with
  | nil => exact Triple.throw hwait
  | cons answer answers ih =>
    replace ih := ih fun acts fds hm => henv acts fds (List.mem_cons_of_mem _ hm)
    refine Triple.bind (Q := fun _ => I) (Triple.modify fun s hs => hselects _ s hs) fun _ => ?_
    refine Triple.get_bind fun s hs => Triple.ite (fun _ => ?_) fun _ => ?_
    · exact Triple.throw fun t ht => hwait t (ht ▸ hs)
    cases answer with
    | eintr => exact fun t ht => ih t (ht ▸ hs)
    | fail e => exact fun t ht => herror t (ht ▸ hs)
    | ready acts fds =>
      refine Triple.bind (Q := fun _ => I)
        (Triple.modify fun t ht => envActs_keep (henv acts fds List.mem_cons_self) (ht ▸ hs)) fun _ => ?_
      refine Triple.bind (Q := fun _ => I) (Triple.modify hbegin) fun _ => ?_
      refine Triple.bind (selectPass_triple hcall hadvance hwait _ _) fun stop => ?_
      cases stop with
      | true => exact Triple.pure fun t ht => ht.1 rfl
      | false => exact fun t ht => ih t (ht.2 rfl)

end SelectLoop

section Register

-- a relation that the registrations, the loop and the order of its map do not matter to
variable {R : Sys → Sys → Prop} [IsPreorder Sys R]
  (hset : ∀ s registered loop mapOrder vigil, R s { s with registered, loop, mapOrder, vigil })
  (hcall : ∀ fd add, Moves R (emit (.register fd add)))

include hset hcall

theorem addReadEvent_moves (fd : Int) (cb : Source) : Moves R (addReadEvent fd cb) := by
  have horder : Moves R nextOrder := fun s => hset s s.registered s.loop s.mapOrder.tail s.vigil
  refine Moves.bind (Moves.modify fun s => hset s _ s.loop s.mapOrder s.vigil) fun _ => Moves.bind Moves.get fun s => ?_
  split
  · exact Moves.pure _
  · unfold loopAdd
    refine Moves.bind Moves.get fun s => ?_
    split
    · exact Moves.throw _
    · refine Moves.bind horder fun order => ?_
      split
      · exact Moves.modify fun s => hset s s.registered _ s.mapOrder _
      · exact Moves.throw _
  · exact hcall fd true

theorem removeReadEvent_moves (fd : Int) : Moves R (removeReadEvent fd) := by
  refine Moves.bind (Moves.modify fun s => hset s _ s.loop s.mapOrder s.vigil) fun _ => Moves.bind Moves.get fun s => ?_
  split
  · exact Moves.pure _
  · unfold loopRemove
    refine Moves.bind Moves.get fun s => ?_
    split
    · exact Moves.throw _
    · split
      · exact Moves.modify fun s => hset s s.registered _ s.mapOrder _
      · exact Moves.throw _
  · exact hcall fd false

end Register

end Pexec
