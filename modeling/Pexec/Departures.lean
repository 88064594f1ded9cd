import Pexec.MultiEmissions
import Pexec.OpenPipes
import Pexec.OutputAtStop

namespace Pexec

open Effect

/-- A part of a callback about object `h` that tells of it alone and changes no registration. -/
structure Says (h : Nat) (s t : Sys) : Prop where
  idle : Idle h s t
  closes : Closes s t
  registered : t.registered = s.registered
  events : ∃ new, t.trace = s.trace ++ new ∧ ∀ e ∈ new, e.owner = some h

/-- The watching of a process ends: after what there is to tell, its object closes its pipes and says
the last of it. -/
def Leaves (h : Nat) (s t : Sys) : Prop :=
  ∃ u st, Says h s u ∧ Notes s u ∧ u.array = s.array ∧ st.terminal = true ∧
    (do closeForkPipes h; callState h st : Prog Unit) u = .ok () t

/-- What `on_proc_stopped` finds then, which takes the process out. -/
def Departs (h : Nat) (pid : Int) (s t : Sys) : Prop :=
  ∃ u, Says h s u ∧ (∀ slot, slot.owner = some h → (u.array slot).rd = -1) ∧ onProcStopped h pid u = .ok () t

variable {h : Nat} {pid : Int} {s t u : Sys} {st : State} {P : Event → Prop}

instance : IsPreorder Sys (Says h) where
  refl s := ⟨Std.Refl.refl s, Std.Refl.refl s, rfl, [], (List.append_nil _).symm, fun _ hm => absurd hm List.not_mem_nil⟩
  trans s t u hst htu := by
    obtain ⟨new, ht, hnew⟩ := hst.events
    obtain ⟨new', hu, hnew'⟩ := htu.events
    refine ⟨IsTrans.trans _ _ _ hst.idle htu.idle, IsTrans.trans _ _ _ hst.closes htu.closes, htu.registered.trans hst.registered, new ++ new',
      by rw [hu, ht, List.append_assoc], fun e hm => ?_⟩
    exact (List.mem_append.mp hm).elim (hnew e) (hnew' e)

theorem Local.closes (hl : Local h s t) : Closes s t :=
  Closes.same (hl.field (·.fds) fun _ => rfl) hl.array (hl.field (·.sigchldActive) fun _ => rfl)

theorem Local.speaks (hl : Local h s t) {new : List Event} (ht : t.trace = s.trace ++ new)
    (hnew : ∀ e ∈ new, e.owner = some h) : Says h s t :=
  ⟨hl.idle, hl.closes, hl.field Sys.registered fun _ => rfl, new, ht, hnew⟩

theorem Local.speaks_one {e : Event} (hl : Local h s t) (ht : t.trace = s.trace ++ [e]) (he : e.owner = some h) :
    Says h s t :=
  hl.speaks ht fun _ hm => by rwa [List.mem_singleton.mp hm]

/-- A part that tells nothing. -/
theorem Local.mute (hl : Local h s t) (ht : t.trace = s.trace) : Says h s t :=
  hl.speaks (ht.trans (List.append_nil _).symm) fun _ hm => absurd hm List.not_mem_nil

theorem Event.IsDrain.owner {e : Event} (he : e.IsDrain h) : e.owner = some h := by
  cases e with
  | error | out | err => exact congrArg some he
  | state | handed | onStop | waitpid | kill | multiError | register => exact he.elim

theorem emit_speaks {e : Event} (he : e.owner = some h) (hsilent : e.Silent) : Moves (Says h) (emit e) := fun s =>
  (emit_local (h := h) hsilent s).speaks_one rfl he

theorem processError_speaks (e : Error) : Moves (Says h) (processError h e) := fun s =>
  (processError_local (h := h) e s).speaks_one rfl rfl

theorem closeForkPipes_closes : Moves Closes (closeForkPipes h) := by
  refine Moves.modify fun s => ⟨fun base lost hb => ?_, fun slot hc => ?_, ?_⟩
  · rw [closeForkPipes_array]
    exact World.closeForkPipes_rule (P := Books base lost) (fun _ _ _ _ _ hq hb => hb.close hq) hb rfl rfl rfl rfl rfl
  · rw [closeForkPipes_array]
    dsimp only
    split
    · rfl
    · exact hc
  · obtain ⟨fds, blockingPipe, hw⟩ := s.toWorld.closeForkPipes_frame (s.procs h)
    rw [hw]
    exact .inl ⟨rfl, rfl⟩

/-- The pipes of the object are closed then. -/
theorem closeForkPipes_shut (ht : closeForkPipes h s = .ok () t) {slot : Slot} (ho : slot.owner = some h) :
    (t.array slot).rd = -1 := by
  cases ht
  rw [closeForkPipes_array]
  dsimp only
  rw [if_pos (.inl ho)]
  rfl

theorem closeForkPipes_speaks : Moves (Says h) (closeForkPipes h) := by
  refine Moves.modify fun s => ⟨closeForkPipes_idle s h, closeForkPipes_closes.ok rfl, rfl, [], ?_, fun _ hm =>
    absurd hm List.not_mem_nil⟩
  obtain ⟨fds, blockingPipe, hw⟩ := s.toWorld.closeForkPipes_frame (s.procs h)
  rw [hw]
  exact (List.append_nil _).symm

theorem loopRestIo_speaks : Moves (Says h) (loopRestIo h) := by
  intro s
  have hlocal := loopRestIo_local (h := h) s
  have hemits := loopRestIo_emits (h := h) s
  generalize loopRestIo h s = r at hlocal hemits ⊢
  cases r with
  | ok _ t | error _ t =>
    obtain ⟨new, htrace, hnew⟩ := hemits.events
    exact hlocal.speaks htrace fun e hm => (hnew e hm).owner

/-- Before `on_proc_stopped` the handle takes the result, and may tell of it. -/
theorem handleState_stops {hd : Handle} {proc : ProcStatus} (hh : s.handles h = some hd)
    (hstop : hd.onProcStopped = some pid) (hst : st.terminal = true) (ht : handleState h hd st proc s = .ok () t) :
    ∃ u, Says h s u ∧ Notes s u ∧ onProcStopped h pid u = .ok () t := by
  have hlocal : Local h s { s with
      handles := Function.update s.handles h (some { hd with retProc := proc, retState := st }) } :=
    setHandle_local hh rfl
  have hset := hlocal.mute rfl
  have hsame : Notes s { s with
      handles := Function.update s.handles h (some { hd with retProc := proc, retState := st }) } := .same rfl rfl
  unfold handleState at ht
  rw [bind_of_ok (modify_apply ..), if_pos hst] at ht
  generalize ({ s with
    handles := Function.update s.handles h (some { hd with retProc := proc, retState := st }) } : Sys) = u
    at hset hsame ht
  simp only [hstop] at ht
  split at ht
  next =>
    obtain ⟨_, v, hv, ht⟩ := bind_eq_ok.mp ht
    have hsaid : Says h u v := (emit_speaks rfl fun _ => ⟨rfl, rfl⟩).ok hv
    have htold : Notes u v := (emit_notes fun _ _ => rfl).ok hv
    exact ⟨v, IsTrans.trans _ _ _ hset hsaid, IsTrans.trans _ _ _ hsame htold, ht⟩
  next => exact ⟨u, hset, hsame, ht⟩

/-- The last callback of an active process, and what follows it. -/
theorem callState_stops (hs : Desk s) (hl : s.active.lookup pid = some h) (hst : st.terminal = true)
    (ht : callState h st s = .ok () t) : ∃ u v, announce h st s = .ok () u ∧ Says h s u ∧ Says h u v ∧ Notes u v ∧
      onProcStopped h pid v = .ok () t := by
  obtain ⟨hd, hh, hstop⟩ := hs.linked pid h hl
  obtain ⟨_, u, hu, ht⟩ := bind_eq_ok.mp ((bind_of_ok (get_apply _)).symm.trans ht)
  have hhu : u.handles h = some hd := by
    cases hu
    exact hh
  have hsaid : Says h s u := by
    have hlocal := (announce_local (h := h) st).ok hu
    cases hu
    obtain ⟨stdin, userStop, htold⟩ := World.announced_trace s.toWorld h st (s.procs h)
    refine hlocal.speaks htold fun e hm => ?_
    rcases List.mem_cons.mp hm with rfl | hm
    · rfl
    · rw [List.mem_singleton.mp hm]
      rfl
  simp only [hh] at ht
  obtain ⟨v, hv, hnotes, hlast⟩ := handleState_stops hhu hstop hst ht
  exact ⟨u, v, hu, hsaid, hv, hnotes, hlast⟩

theorem Leaves.departs (hleft : Leaves h s t) (hs : Desk s) (hl : s.active.lookup pid = some h) : Departs h pid s t := by
  obtain ⟨u, st, hsaid, _, _, hst, ht⟩ := hleft
  obtain ⟨_, v, hv, ht⟩ := bind_eq_ok.mp ht
  have hshut := closeForkPipes_speaks.ok hv
  have hboth := IsTrans.trans _ _ _ hsaid hshut
  obtain ⟨x, y, _, hx, hy, _, hlast⟩ := callState_stops (hboth.idle.desk hs) (hboth.idle.active ▸ hl) hst ht
  have hrest : Says h v y := IsTrans.trans _ _ _ hx hy
  exact ⟨y, IsTrans.trans _ _ _ hboth hrest, fun slot ho => hrest.closes.shut slot (closeForkPipes_shut hv ho), hlast⟩

theorem Says.leaves (hs : Says h s u) (hn : Notes s u) (ha : u.array = s.array) (hleft : Leaves h u t) :
    Leaves h s t := by
  obtain ⟨v, st, hsaid, hnotes, harray, hst, ht⟩ := hleft
  exact ⟨v, st, IsTrans.trans _ _ _ hs hsaid, IsTrans.trans _ _ _ hn hnotes, harray.trans ha, hst, ht⟩

theorem closed_leaves (hst : st.terminal = true) (ht : (do closeForkPipes h; callState h st : Prog Unit) s = .ok () t) :
    Leaves h s t := ⟨s, st, Std.Refl.refl s, Std.Refl.refl s, rfl, hst, ht⟩

theorem userStopped_leaves (ht : userStopped h s = .ok () t) : Leaves h s t := by
  obtain ⟨_, u, hu, ht⟩ := bind_eq_ok.mp ht
  have hset := (modifyProc_local (h := h) (f := fun p => { p with
    userStopped := true, proc := { p.proc with userStopFd := -1 } }) fun _ => rfl).ok hu
  have hnotes := (modifyProc_notes _).ok hu
  cases hu
  have hsaid : Says h s _ := hset.mute rfl
  exact hsaid.leaves hnotes hset.array (closed_leaves rfl ht)

theorem stopped_leaves (ht : stopped h s = .ok () t) : Leaves h s t := by
  obtain ⟨_, u, hu, ht⟩ := bind_eq_ok.mp ht
  exact (loopRestIo_speaks.ok hu).leaves (loopRestIo_notes.ok hu) (loopRestIo_local.ok hu).array (closed_leaves rfl ht)

theorem updateStatus_leaves (htype : (s.procs h).type = .nonblocking) {status : WaitStatus}
    (hterm : Terminated status) (ht : updateStatus h status s = .ok () t) : Leaves h s t := by
  obtain ⟨u, hu, hr⟩ := updateStatus_reports htype hterm
  obtain ⟨stdin, userStop, launch, htrace, hlaunch⟩ := hr.trace
  have hsaid : Says h s u := by
    refine hr.inside.speaks (htrace.trans (List.append_assoc ..)) fun e hm => ?_
    rcases List.mem_append.mp hm with hm | hm
    · rcases List.mem_cons.mp hm with rfl | hm
      · rfl
      · rw [List.mem_singleton.mp hm]
        rfl
    · obtain ⟨err, rfl⟩ := hlaunch e hm
      rfl
  exact hsaid.leaves hr.notes hr.inside.array (stopped_leaves (hu.symm.trans ht))

/-- A failing read of one of its pipes. -/
theorem unreadable_leaves {err : Error} (htype : (s.procs h).type = .nonblocking) {ret : EventReturn} (ht : (do
      processError h err
      if ((← get).procs h).type = .nonblocking then
        failStopped h
        return .nothing
      return .stopLoop : Prog EventReturn) s = .ok ret t) : Leaves h s t := by
  obtain ⟨_, u, hu, ht⟩ := bind_eq_ok.mp ht
  have htype' : (u.procs h).type = .nonblocking := ((processError_local err).ok hu).type.trans htype
  rw [bind_of_ok (get_apply _), if_pos htype'] at ht
  obtain ⟨_, v, hv, ht⟩ := bind_eq_ok.mp ht
  cases ht
  exact ((processError_speaks err).ok hu).leaves ((processError_notes err).ok hu) ((processError_local err).ok hu).array
    (closed_leaves rfl hv)

theorem readClose_leaves (htype : (s.procs h).type = .nonblocking) {ret : EventReturn} (ht : readClose h s = .ok ret t) :
    Leaves h s t := by
  obtain ⟨u, hu, hread⟩ := readRetry_watch_local (h := h) (s := s) (bufferSize - 1)
  have hsaid : Says h s u := hu.mute (((readRetry_tells (P := fun _ => False) _ _).ok hread).events.elim
    fun new hnew => hnew.1.trans (by rw [List.eq_nil_iff_forall_not_mem.mpr hnew.2, List.append_nil]))
  have hnotes := (readRetry_notes _ _).ok hread
  have htype' : (u.procs h).type = .nonblocking := hu.type.trans htype
  unfold readClose at ht
  rw [bind_of_ok (get_apply _), bind_of_ok hread] at ht
  generalize (World.readRetry (s.procs h).pipeCloseWatch.rd (bufferSize - 1) s.readFaults s.toWorld).1 = answer at ht
  cases answer with
  | error e => exact hsaid.leaves hnotes hu.array (unreadable_leaves htype' ht)
  | ok data =>
    dsimp only at ht
    rw [bind_of_ok (get_apply _), if_pos htype'] at ht
    obtain ⟨_, v, hv, ht⟩ := bind_eq_ok.mp ht
    cases ht
    exact hsaid.leaves hnotes hu.array (userStopped_leaves hv)

/-- An output pipe is readable: its bytes are passed on, or the watching ends. -/
theorem readStd_leaves {slot : Slot} {cb : List UInt8 → Event} (hstd : StdSlot h slot cb) (err : Error)
    (htype : (s.procs h).type = .nonblocking) {ret : EventReturn}
    (ht : readStd (s.array slot).rd h cb err s = .ok ret t) : Says h s t ∧ Notes s t ∨ Leaves h s t := by
  have hread : readRetry (s.array slot).rd (bufferSize - 1) s = .ok _ _ := call_apply _ s
  have hnotes := (readRetry_notes _ _).ok hread
  have ha := World.readRetry_answer (s.array slot).rd (bufferSize - 1) s.readFaults s.toWorld
  have hlocal := readPass_local hstd ha
  have htrace : (World.readRetry (s.array slot).rd (bufferSize - 1) s.readFaults s.toWorld).2.trace =
      s.trace := by
    obtain ⟨rf, pipes, hw⟩ := ha.frame
    rw [hw]
  unfold readStd at ht
  rw [bind_of_ok hread] at ht
  generalize World.readRetry (s.array slot).rd (bufferSize - 1) s.readFaults s.toWorld = r
    at hlocal htrace hnotes ht
  obtain ⟨a, w⟩ := r
  rcases a with e | _ | ⟨b, bs⟩
  · have hsaid : Says h s { s with toWorld := w } := Local.mute hlocal htrace
    exact .inr (hsaid.leaves hnotes hlocal.array (unreadable_leaves htype ht))
  · cases ht
    exact .inl ⟨Local.mute hlocal htrace, hnotes⟩
  · obtain ⟨_, v, hv, hlast⟩ := bind_eq_ok.mp ht
    have htold : Notes { s with toWorld := w } v :=
      (emit_notes (e := cb (b :: bs)) (by cases hstd <;> exact fun _ _ => rfl)).ok hv
    cases hv
    cases hlast
    refine .inl ⟨Local.speaks_one hlocal (congrArg (· ++ [cb (b :: bs)]) htrace) ?_, IsTrans.trans _ _ _ hnotes htold⟩
    cases hstd <;> rfl

end Pexec
