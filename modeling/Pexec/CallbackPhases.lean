import Pexec.Lib.Observer
import Pexec.MultiEmissions
import Pexec.OutputAtStop

namespace Pexec

open Effect Runs Observer

/-- How far the callbacks of one object of a `pexec_multi` have got. -/
inductive Phase
  | unheard
  | watched
  | failing
  | reaped
  | ended (st : State)
  | notified (st : State)
  deriving DecidableEq, Repr

/-- The state callbacks that are in turn, with what they must say about `running`. -/
def Phase.call : Phase → State → Bool → Option Phase
  | .unheard, .started, true => some .watched
  | .watched, .userStopped, true => some (.ended .userStopped)
  | .failing, .failStopped, true => some (.ended .failStopped)
  | .watched, .signaled, false => some .reaped
  | .reaped, .stopped, false => some (.ended .stopped)
  | _, _, _ => none

/-- What the object may tell next. -/
def Phase.turn (p : Phase) : Event → Option Phase
  | .state _ st q => p.call st q.running
  | .out .. | .err .. => if p = .watched ∨ p = .reaped then some p else none
  | .error .. => if p = .watched then some .failing else if p = .reaped then some p else none
  | .onStop _ st => if p = .ended st then some (.notified st) else none
  | .handed .. | .waitpid .. | .kill .. | .multiError _ | .register .. => some p

/-- What is told of other objects is passed over. -/
def Phase.hear (h : Nat) (p : Phase) (e : Event) : Option Phase :=
  if e.owner = some h then p.turn e else some p

/-- The object has told what brings it to the phase, and nothing out of turn. -/
def Reached (h : Nat) (p : Phase) (s : Sys) : Prop := reads (Phase.hear h) .unheard s.trace = some p

/-- The end of the watching, and `on_stop` where the handle has it. -/
def Phase.settled (st : State) (stops : Bool) : Phase := if stops then .notified st else .ended st

/-- The end of the watching has been told. -/
def Phase.Over : Phase → Prop
  | .ended _ | .notified _ => True
  | _ => False

/-- The object in the middle of its callbacks. -/
structure Speaking (h : Nat) (stops running : Bool) (p : Phase) (s : Sys) : Prop where
  reached : Reached h p s
  stops : (s.handles h).map Handle.hasOnStop = some stops
  running : (s.procs h).proc.running = running
  type : (s.procs h).type = .nonblocking

variable {h x : Nat} {pid : Int} {p q : Phase} {stops running : Bool} {st : State} {e : Event} {s t u : Sys}
  {E : Halt → Sys → Prop}

theorem Phase.hear_own (he : e.owner = some h) : p.hear h e = p.turn e := if_pos he

theorem Phase.hear_other (he : e.owner ≠ some h) : p.hear h e = some p := if_neg he

theorem Reached.extend (hs : Reached h p s) {new : List Event} (ht : t.trace = s.trace ++ new)
    (hnew : reads (Phase.hear h) p new = some q) : Reached h q t := by
  unfold Reached at hs ⊢
  rw [ht, reads_extend hs, hnew]

/-- Events that do not bring the object any further. -/
theorem Reached.skip (hs : Reached h p s) (ht : ∃ new, t.trace = s.trace ++ new ∧ ∀ e ∈ new, p.hear h e = some p) :
    Reached h p t := by
  obtain ⟨new, htrace, hnew⟩ := ht
  exact hs.extend htrace (reads_skip hnew)

theorem Reached.same (hs : Reached h p s) (ht : t.trace = s.trace) : Reached h p t := by
  unfold Reached at hs ⊢
  rw [ht, hs]

/-- An event of the object that is in turn. -/
theorem Reached.turn (hs : Reached h p s) (he : e.owner = some h) (hq : p.turn e = some q)
    (ht : t.trace = s.trace ++ [e]) : Reached h q t :=
  hs.extend ht (by rw [reads_singleton, Phase.hear_own he, hq])

theorem Reached.announced (hs : Reached h p s) (hq : p.call st (s.procs h).proc.running = some q)
    (ht : t.trace = (s.toWorld.announced h st (s.procs h)).trace) : Reached h q t := by
  refine hs.extend (ht.trans (List.append_assoc ..)) ?_
  rw [List.singleton_append, reads_cons, Phase.hear_own rfl]
  show reads (Phase.hear h) p [_] = some q
  rw [reads_singleton, Phase.hear_own rfl]
  exact hq

/-- A state callback in turn begins with STARTED, and only ends with one of the three ends. -/
theorem Phase.call_cases (hq : p.call st running = some q) :
    q ≠ .unheard ∧ (p = .unheard ↔ st = .started) ∧ (q.Over ↔ st.terminal = true) ∧ ¬p.Over := by
  cases p <;> cases st <;> cases running <;> cases hq <;> simp [Phase.Over, State.terminal]

/-- Nothing else begins or ends the watching. -/
theorem Phase.turn_cases (he : e.call = none) (hq : p.turn e = some q) :
    (q = .unheard ↔ p = .unheard) ∧ (q.Over ↔ p.Over) := by
  cases e with
  | state => cases he
  | handed | waitpid | kill | multiError | register =>
    cases hq
    exact ⟨Iff.rfl, Iff.rfl⟩
  | out | err | error | onStop =>
    simp only [Phase.turn] at hq
    split at hq
    next hp =>
      cases hq
      simp_all [Phase.Over]
    next => simp_all [Phase.Over]

theorem Reached.states (hr : Reached h p s) :
    (p = .unheard ↔ ∀ proc, .state h .started proc ∉ s.trace) ∧
      (p.Over ↔ ∃ st proc, st.terminal = true ∧ .state h st proc ∈ s.trace) := by
  refine reads_induction (P := fun p read => (p = .unheard ↔ ∀ proc, .state h .started proc ∉ read) ∧
    (p.Over ↔ ∃ st proc, st.terminal = true ∧ .state h st proc ∈ read)) hr ?_ fun p read e q hp hq => ?_
  · simp [Phase.Over]
  by_cases hcall : ∃ st proc, e = .state h st proc
  · obtain ⟨st, proc, rfl⟩ := hcall
    rw [Phase.hear_own rfl] at hq
    obtain ⟨hheard, hstart, hover, hnot⟩ := Phase.call_cases hq
    rw [hp.2] at hnot
    refine ⟨iff_of_false hheard fun hnone => ?_, hover.trans ⟨fun hst => ⟨st, proc, hst, by simp⟩, ?_⟩⟩
    · by_cases hpu : p = .unheard
      · exact hnone proc (by simp [hstart.mp hpu])
      · exact hpu (hp.1.mpr fun q' hm => hnone q' (List.mem_append_left _ hm))
    · rintro ⟨st', proc', hst', hm⟩
      rcases List.mem_append.mp hm with hm | hm
      · exact absurd ⟨st', proc', hst', hm⟩ hnot
      · cases List.mem_singleton.mp hm
        exact hst'
  · have hmem : ∀ st proc, Event.state h st proc ∈ read ++ [e] ↔ Event.state h st proc ∈ read := by
      intro st proc
      rw [List.mem_append, List.mem_singleton]
      exact or_iff_left fun he => hcall ⟨st, proc, he.symm⟩
    have hsame : (q = .unheard ↔ p = .unheard) ∧ (q.Over ↔ p.Over) := by
      by_cases he : e.owner = some h
      · rw [Phase.hear_own he] at hq
        refine Phase.turn_cases ?_ hq
        cases e with
        | state owner st proc =>
          cases he
          exact absurd ⟨st, proc, rfl⟩ hcall
        | handed | error | out | err | onStop | waitpid | kill | multiError | register => rfl
      · rw [Phase.hear_other he] at hq
        cases hq
        exact ⟨Iff.rfl, Iff.rfl⟩
    simp only [hmem, hsame.1, hsame.2]
    exact hp

theorem Local.hasOnStop (hl : Local h s t) :
    (t.handles h).map Handle.hasOnStop = (s.handles h).map Handle.hasOnStop := by
  have hentry := congrArg (fun u : Sys => (u.handles h).map Handle.hasOnStop) hl.outside
  simp only [Sys.outside, Function.update_self, Option.map_map] at hentry
  exact hentry

theorem Speaking.local (hs : Speaking h stops running p s) (hl : Local h s t) (hreached : Reached h q t)
    (hproc : (t.procs h).proc = (s.procs h).proc) : Speaking h stops running q t :=
  ⟨hreached, hl.hasOnStop.trans hs.stops, by rw [hproc, hs.running], hl.type.trans hs.type⟩

theorem Speaking.set {running' : Bool} (hs : Speaking h stops running p s) (ht : t.trace = s.trace)
    (hh : t.handles = s.handles) {o : PexecSingle} (ho : t.procs = Function.update s.procs h o)
    (hr : o.proc.running = running') (htype : o.type = (s.procs h).type) :
    Speaking h stops running' p t := by
  refine ⟨hs.reached.same ht, by rw [hh, hs.stops], ?_, ?_⟩
  · rw [ho, Function.update_self, hr]
  · rw [ho, Function.update_self, htype, hs.type]

theorem modifyProc_speaking {f : PexecSingle → PexecSingle} (hr : ∀ p, (f p).proc.running = p.proc.running)
    (ht : ∀ p, (f p).type = p.type) :
    Triple (Speaking h stops running p) (modifyProc h f) (fun _ => Speaking h stops running p) E :=
  fun _ hs => hs.set rfl rfl rfl ((hr _).trans hs.running) (ht _)

theorem closeForkPipes_speaking :
    Triple (Speaking h stops running p) (closeForkPipes h) (fun _ => Speaking h stops running p) E := by
  refine Triple.modify fun s hs => hs.set ?_ rfl rfl ?_ rfl
  · obtain ⟨fds, blockingPipe, hw⟩ := s.toWorld.closeForkPipes_frame (s.procs h)
    rw [hw]
  · rw [pipesClosed_proc, hs.running]

theorem processError_speaking {err : Error} (hq : p.turn (.error h err) = some q) :
    Triple (Speaking h stops running p) (processError h err) (fun _ => Speaking h stops running q) E := by
  intro s hs
  have hl := processError_local (h := h) err s
  exact hs.local hl (hs.reached.turn rfl hq rfl) (processError_sameProcs err s h)

/-- A part of a callback that is about no object. -/
theorem Speaking.beside (hs : Speaking h stops running p s) (ha : Acts (h + 1) s t)
    (he : Emits (fun e => e.owner = none) s t) : Speaking h stops running p t := by
  obtain ⟨hp, hh⟩ := Sys.off_objects ha.off (Nat.ne_of_lt (Nat.lt_succ_self h))
  obtain ⟨new, htrace, hnew⟩ := he.events
  refine ⟨hs.reached.skip ⟨new, htrace, fun e hm => Phase.hear_other ?_⟩, ?_, ?_, ?_⟩
  · rw [hnew e hm]
    exact nofun
  · rw [hh, hs.stops]
  · rw [hp, hs.running]
  · rw [hp, hs.type]

theorem onProcStopped_speaking {y : Nat} :
    Triple (Speaking h stops running p) (onProcStopped y pid) (fun _ => Speaking h stops running p)
      (fun _ _ => True) := by
  intro s hs
  have hactive : Moves (Acts (h + 1)) (onProcStopped y pid) := onProcStopped_acts pid
  have hacts := hactive s
  have hemits := onProcStopped_emits (h := y) (P := fun e => e.owner = none) (fun _ _ => rfl) pid s
  generalize onProcStopped y pid s = r at hacts hemits ⊢
  cases r with
  | ok _ t => exact hs.beside hacts hemits
  | error _ t => trivial

/-- The callback of the user is made, and the handle takes the results. -/
theorem Speaking.call {hd : Handle} (hs : Speaking h stops running p s) (hq : p.call st running = some q)
    (hh : s.handles h = some hd) (hd' : Handle) (hstops : hd'.hasOnStop = hd.hasOnStop) :
    Speaking h stops running q { s with
      toWorld := s.toWorld.announced h st (s.procs h)
      handles := Function.update s.handles h (some hd') } := by
  have hold := hs.stops
  rw [hh] at hold
  refine ⟨hs.reached.announced (hs.running ▸ hq) rfl, ?_, hs.running, hs.type⟩
  dsimp only
  rw [Function.update_self, Option.map_some, hstops]
  exact hold

/-- A state callback that is in turn, while the watching goes on. -/
theorem callState_speaking (hq : p.call st running = some q) (hst : st.terminal = false) :
    Triple (Speaking h stops running p) (callState h st) (fun _ => Speaking h stops running q) E := by
  intro s hs
  obtain ⟨hd, hh, _⟩ := Option.map_eq_some_iff.mp hs.stops
  rw [callState_apply_handle hst hh]
  exact hs.call hq hh _ rfl

/-- The callback that ends the watching, with `on_stop`. -/
theorem callState_settles (hq : p.call st running = some (.ended st)) (hst : st.terminal = true) :
    Triple (Speaking h stops running p) (callState h st)
      (fun _ => Speaking h stops running (.settled st stops)) (fun _ _ => True) := by
  intro s hs
  obtain ⟨hd, hh, hstops⟩ := Option.map_eq_some_iff.mp hs.stops
  unfold callState
  rw [bind_of_ok (get_apply _), bind_of_ok (announce_apply ..)]
  simp only [hh]
  unfold handleState
  rw [bind_of_ok (modify_apply ..), if_pos hst]
  have hended := hs.call hq hh { hd with retProc := (s.procs h).proc, retState := st } rfl
  generalize ({ s with
      toWorld := s.toWorld.announced h st (s.procs h)
      handles := Function.update s.handles h
        (some { hd with retProc := (s.procs h).proc, retState := st }) } : Sys) = v at hended ⊢
  cases stops with
  | true =>
    rw [if_pos hstops, bind_of_ok (emit_apply ..)]
    have htold : Speaking h true running (.settled st true) { v with
        toWorld := v.toWorld.emit (.onStop h st) } :=
      ⟨hended.reached.turn (e := .onStop h st) rfl (if_pos rfl) rfl, hended.stops, hended.running,
        hended.type⟩
    split
    · exact onProcStopped_speaking _ htold
    · exact htold
  | false =>
    rw [if_neg (by rw [hstops]; decide)]
    split
    · exact onProcStopped_speaking v hended
    · exact hended

/-- What is done for an object of a `pexec_multi` only. -/
theorem nonblocking_speaking {α : Type} {y z : Prog α} {Q : α → Sys → Prop}
    (hy : Triple (Speaking h stops running p) y Q E) :
    Triple (Speaking h stops running p) (do if ((← get).procs h).type = .nonblocking then y else z) Q E := by
  refine Triple.get_bind fun s hs => ?_
  rintro t rfl
  rw [if_pos hs.type]
  exact hy t hs

theorem closed_speaking (hq : p.call st running = some (.ended st)) (hst : st.terminal = true) :
    Triple (Speaking h stops running p) (do closeForkPipes h; callState h st : Prog Unit)
      (fun _ => Speaking h stops running (.settled st stops)) (fun _ _ => True) :=
  closeForkPipes_speaking.bind fun _ => callState_settles hq hst

theorem loopRestIo_speaking :
    Triple (Speaking h stops running .reaped) (loopRestIo h) (fun _ => Speaking h stops running .reaped)
      (fun _ _ => True) := by
  intro s hs
  have hlocal := loopRestIo_local (h := h) s
  have hemits := loopRestIo_emits (h := h) s
  have hprocs := loopRestIo_sameProcs (h := h) s
  generalize loopRestIo h s = r at hlocal hemits hprocs ⊢
  cases r with
  | error _ t => trivial
  | ok _ t =>
    obtain ⟨new, htrace, hnew⟩ := hemits.events
    refine hs.local hlocal (hs.reached.skip ⟨new, htrace, fun e hm => ?_⟩) (hprocs h)
    have hdrain := hnew e hm
    cases e with
    | error owner | out owner | err owner =>
      obtain rfl : owner = h := hdrain
      exact Phase.hear_own rfl
    | state | handed | onStop | register | waitpid | kill | multiError => exact hdrain.elim

theorem stopped_speaking :
    Triple (Speaking h stops false .reaped) (stopped h)
      (fun _ => Speaking h stops false (.settled .stopped stops)) (fun _ _ => True) :=
  loopRestIo_speaking.bind fun _ => closed_speaking rfl rfl

theorem handleProcReturnCode_speaking :
    Triple (Speaking h stops running .reaped) (handleProcReturnCode h)
      (fun _ => Speaking h stops running .reaped) E := by
  refine Triple.get_bind fun s hs => ?_
  rintro t rfl
  cases launchError (t.procs h).proc.returnCode with
  | none => exact hs
  | some err => exact processError_speaking rfl t hs

/-- The status of a child that has ended: SIGNALED, the launch error, the last output, STOPPED. -/
theorem updateStatus_speaking {status : WaitStatus} (hdead : Terminated status) :
    Triple (Speaking h stops running .watched) (updateStatus h status)
      (fun _ => Speaking h stops false (.settled .stopped stops)) (fun _ _ => True) := by
  have hset : Triple (Speaking h stops running .watched)
      (modifyProc h fun p => { p with status, proc := p.proc.updateStatus status })
      (fun _ => Speaking h stops false .watched) (fun _ _ => True) :=
    fun _ hs => hs.set rfl rfl rfl ((updateStatus_running_iff _ _).mpr hdead) rfl
  refine hset.bind fun _ => (callState_speaking rfl rfl).bind fun _ => Triple.get_bind fun s hs => ?_
  rintro t rfl
  rw [if_pos (by rw [hs.running]; rfl)]
  have hrest : Triple (Speaking h stops false .reaped) (do
      handleProcReturnCode h
      if ((← get).procs h).type = .nonblocking then stopped h : Prog Unit)
      (fun _ => Speaking h stops false (.settled .stopped stops)) (fun _ _ => True) :=
    handleProcReturnCode_speaking.bind fun _ => nonblocking_speaking stopped_speaking
  have hkilled : Triple (Speaking h stops false .reaped)
      (modifyProc h fun p => { p with proc := { p.proc with stdinFd := -1 }, procKilled := true })
      (fun _ => Speaking h stops false .reaped) (fun _ _ => True) :=
    modifyProc_speaking (fun _ => rfl) fun _ => rfl
  exact hkilled.bind (fun _ => hrest) t hs

theorem readRetry_speaking (fd : Int) (count : Nat) :
    Triple (Speaking h stops running p) (readRetry fd count) (fun _ => Speaking h stops running p) E := by
  intro s hs
  obtain ⟨readFaults, pipes, hw⟩ := World.readRetry_frame fd count s.readFaults s.toWorld
  unfold readRetry
  rw [call_apply, hw]
  exact ⟨hs.reached.same rfl, hs.stops, hs.running, hs.type⟩

theorem failStopped_speaking :
    Triple (Speaking h stops true .failing) (failStopped h)
      (fun _ => Speaking h stops true (.settled .failStopped stops)) (fun _ _ => True) :=
  closed_speaking rfl rfl

theorem userStopped_speaking :
    Triple (Speaking h stops true .watched) (userStopped h)
      (fun _ => Speaking h stops true (.settled .userStopped stops)) (fun _ _ => True) :=
  have hset : Triple (Speaking h stops true .watched)
      (modifyProc h fun p => { p with userStopped := true, proc := { p.proc with userStopFd := -1 } })
      (fun _ => Speaking h stops true .watched) (fun _ _ => True) :=
    modifyProc_speaking (fun _ => rfl) fun _ => rfl
  hset.bind fun _ => closed_speaking rfl rfl

/-- The watch pipe is readable. -/
theorem readClose_speaking :
    Triple (Speaking h stops true .watched) (readClose h)
      (fun _ s => ∃ st, Speaking h stops true (.settled st stops) s) (fun _ _ => True) := by
  refine Triple.get_bind fun s hs => ?_
  rintro t rfl
  refine ((readRetry_speaking _ _).bind fun answer => ?_) t hs
  cases answer with
  | error e =>
    exact (processError_speaking rfl).bind fun _ => nonblocking_speaking
      (failStopped_speaking.bind fun _ => Triple.pure fun _ hv => ⟨_, hv⟩)
  | ok data =>
    exact nonblocking_speaking (userStopped_speaking.bind fun _ => Triple.pure fun _ hv => ⟨_, hv⟩)

/-- An output pipe is readable: the watching ends if it cannot be read. -/
theorem readStd_speaking {slot : Slot} {cb : List UInt8 → Event} (hstd : StdSlot h slot cb) (fd : Int) (err : Error)
    (hs : Speaking h stops true .watched s) :
    Outcome (fun _ t => ¬Unreadable fd s ∧ Speaking h stops true .watched t ∨
        Unreadable fd s ∧ Speaking h stops true (.settled .failStopped stops) t)
      (fun _ _ => True) (readStd fd h cb err s) := by
  obtain ⟨answer, u, hread⟩ : ∃ answer u, readRetry fd (bufferSize - 1) s = .ok answer u := ⟨_, _, rfl⟩
  have hu := (readRetry_speaking (E := fun _ _ => True) fd (bufferSize - 1)).ok hs hread
  unfold readStd
  rw [bind_of_ok hread]
  rcases answer with e | _ | ⟨b, bs⟩
  · have hfail : Triple (Speaking h stops true .watched) (do
        processError h err
        if ((← get).procs h).type = .nonblocking then
          failStopped h
          return .nothing
        return .stopLoop : Prog EventReturn)
        (fun _ => Speaking h stops true (.settled .failStopped stops)) (fun _ _ => True) :=
      (processError_speaking rfl).bind fun _ => nonblocking_speaking
        (failStopped_speaking.bind fun _ => Triple.pure fun _ => id)
    exact (hfail u hu).imp (fun _ _ ht => .inr ⟨⟨e, u, hread⟩, ht⟩) fun _ _ => id
  · exact .inl ⟨Unreadable.not_of_ok hread, hu⟩
  · refine .inl ⟨Unreadable.not_of_ok hread, hu.reached.turn (e := cb (b :: bs)) ?_ ?_ rfl, hu.stops, hu.running,
      hu.type⟩
    · cases hstd <;> rfl
    · cases hstd <;> rfl

end Pexec
