import Pexec.PexecMulti
import Pexec.SingleRules

namespace Pexec

open Effect

namespace Vigil

variable {v : Vigil} {fds : FdTable}

theorem intact_iff : v.intact fds = true ↔
    ∀ fd x, v.added.lookup fd = some x → x ≠ none ∧ fds.target fd = x := by
  have hmem : ∀ fd x, v.added.lookup fd = some x ↔ ⟨fd, x⟩ ∈ v.added.entries := fun _ _ =>
    AList.mem_lookup_iff
  have hsome : ∀ x : Option FdTarget, x.isSome = true ↔ x ≠ none := fun x => Option.isSome_iff_ne_none
  simp only [intact, List.all_eq_true, Bool.and_eq_true, beq_iff_eq, hsome, hmem]
  exact ⟨fun h fd x hm => h ⟨fd, x⟩ hm, fun h e hm => h e.1 e.2 hm⟩

/-- What is not intact shows at one descriptor. -/
theorem not_intact {fd : Int} {x : Option FdTarget} (hl : v.added.lookup fd = some x) (hx : fds.target fd ≠ x) :
    v.intact fds = false :=
  Bool.eq_false_iff.mpr fun hi => hx (intact_iff.mp hi fd x hl).2

theorem intact_add (hi : v.intact fds = true) {fd : Int} {x : FdTarget} (hx : fds.target fd = some x) :
    (v.add fds fd).intact fds = true := by
  refine intact_iff.mpr fun y target hl => ?_
  by_cases hy : y = fd
  · rw [hy, add, AList.lookup_insert] at hl
    obtain rfl : fds.target fd = target := Option.some.inj hl
    rw [hy, hx]
    exact ⟨Option.some_ne_none x, rfl⟩
  · rw [add, AList.lookup_insert_ne hy] at hl
    exact intact_iff.mp hi y target hl

end Vigil

/-- A part of a step that leaves the descriptors and what is watched alone; whatever it tells, it
tells while what is watched is as it was. -/
structure Notes (s t : Sys) : Prop where
  fds : t.fds = s.fds
  vigil : ∃ n, t.vigil = { s.vigil with kept := s.vigil.kept ++ List.replicate n (s.vigil.intact s.fds) }

variable {h : Nat} {s t u : Sys}

theorem Notes.same (hfds : t.fds = s.fds) (hv : t.vigil = s.vigil) : Notes s t :=
  ⟨hfds, 0, by rw [hv, List.replicate_zero, List.append_nil]⟩

theorem Notes.intact (hn : Notes s t) : t.vigil.intact t.fds = s.vigil.intact s.fds := by
  obtain ⟨n, hv⟩ := hn.vigil
  rw [hv, hn.fds]
  rfl

theorem Notes.added (hn : Notes s t) : t.vigil.added = s.vigil.added := by
  obtain ⟨n, hv⟩ := hn.vigil
  rw [hv]

instance : IsPreorder Sys Notes where
  refl s := .same rfl rfl
  trans s t u hst htu := by
    obtain ⟨n, ht⟩ := hst.vigil
    obtain ⟨m, hu⟩ := htu.vigil
    refine ⟨htu.fds.trans hst.fds, n + m, ?_⟩
    rw [hu, hst.intact, ht, List.append_assoc, List.replicate_append_replicate]

/-- A callback that is not about a registration. -/
theorem emit_notes {e : Event} (he : ∀ v fds, Vigil.tell v fds e = v.note fds) : Moves Notes (emit e) :=
  Moves.modify fun s => ⟨rfl, 1, he s.vigil s.fds⟩

theorem modify_notes {f : Sys → Sys} (hf : ∀ s, (f s).fds = s.fds ∧ (f s).vigil = s.vigil) :
    Moves Notes (modify f : Prog Unit) := Moves.modify fun s => .same (hf s).1 (hf s).2

theorem call_notes {α : Type} {f : World → α × World} (hf : ∀ w, (f w).2.fds = w.fds ∧ (f w).2.vigil = w.vigil) :
    Moves Notes (call f) := fun s => .same (hf s.toWorld).1 (hf s.toWorld).2

theorem modifyProc_notes (f : PexecSingle → PexecSingle) : Moves Notes (modifyProc h f) :=
  modify_notes fun _ => ⟨rfl, rfl⟩

theorem write_notes (f : Sys → Int) (data : List UInt8) :
    Moves Notes (modify fun s => { s with toWorld := s.toWorld.write (f s) data } : Prog Unit) := by
  refine modify_notes fun s => ?_
  obtain ⟨pipes, hw⟩ := s.toWorld.write_frame (f s) data
  rw [hw]
  exact ⟨rfl, rfl⟩

theorem read_notes (fd : Int) (count : Nat) : Moves Notes (call (World.read · fd count)) :=
  call_notes fun w => by
    obtain ⟨readFaults, pipes, hw⟩ := w.read_frame fd count
    rw [hw]
    exact ⟨rfl, rfl⟩

theorem readRetry_notes (fd : Int) (count : Nat) : Moves Notes (readRetry fd count) :=
  call_notes fun w => by
    obtain ⟨readFaults, pipes, hw⟩ := World.readRetry_frame fd count w.readFaults w
    rw [hw]
    exact ⟨rfl, rfl⟩

theorem processError_notes (e : Error) : Moves Notes (processError h e) :=
  Moves.bind (emit_notes fun _ _ => rfl) fun _ => modifyProc_notes _

theorem handleProcReturnCode_notes : Moves Notes (handleProcReturnCode h) := by
  refine Moves.bind Moves.get fun s => ?_
  split
  · exact processError_notes _
  · exact Moves.pure _

theorem readStdRest_notes {cb : List UInt8 → Event} (hcb : ∀ data v fds, Vigil.tell v fds (cb data) = v.note fds)
    (fd : Int) (e : Error) (fuel : Nat) : Moves Notes (readStdRest fd h cb e fuel) := by
  induction fuel with
  | zero => exact Moves.throw _
  | succ fuel ih =>
    refine Moves.bind (read_notes fd (bufferSize - 1)) fun answer => ?_
    cases answer with
    | error e' => exact Moves.ite (fun _ => processError_notes e) fun _ => Moves.pure _
    | ok data =>
      cases data with
      | nil => exact ih
      | cons b bs => exact emit_notes (hcb _)

theorem loopRestIo_notes : Moves Notes (loopRestIo h) :=
  Moves.bind Moves.get fun _ => Moves.bind (readStdRest_notes (fun _ _ _ => rfl) _ _ _) fun _ =>
    Moves.bind Moves.get fun _ => readStdRest_notes (fun _ _ _ => rfl) _ _ _

theorem World.announced_vigil (w : World) (h : Nat) (st : State) (p : PexecSingle) : (w.announced h st p).vigil =
    { w.vigil with kept := w.vigil.kept ++ List.replicate 1 (w.vigil.intact w.fds) } := rfl

theorem announce_notes (st : State) : Moves Notes (announce h st) := fun s =>
  ⟨rfl, 1, s.toWorld.announced_vigil h st (s.procs h)⟩

/-- A callback that does not end the watching. -/
theorem callState_notes {st : State} (hst : st.terminal = false) : Moves Notes (callState h st) := by
  refine Moves.bind Moves.get fun s => Moves.bind (announce_notes st) fun _ => ?_
  split
  · unfold handleState
    exact Moves.bind (modify_notes fun _ => ⟨rfl, rfl⟩) fun _ =>
      Moves.ite (fun hend => absurd hend (by rw [hst]; decide)) fun _ => Moves.pure _
  · exact Moves.pure _

theorem multiProcessError_notes (e : Error) : Moves Notes (multiProcessError e) :=
  Moves.bind (modify_notes fun _ => ⟨rfl, rfl⟩) fun _ => emit_notes fun _ _ => rfl

theorem handlerProcessError_notes (e : Error) : Moves Notes (handlerProcessError e) := by
  refine Moves.bind Moves.get fun s => ?_
  split
  · exact Moves.pure _
  · exact Moves.bind (modify_notes fun _ => ⟨rfl, rfl⟩) fun _ =>
      Moves.ite (fun _ => multiProcessError_notes e) fun _ => Moves.pure _

theorem sendJob_notes (job : Option Job) : Moves Notes (sendJob job) :=
  Moves.bind (modify_notes fun _ => ⟨rfl, rfl⟩) fun _ => write_notes (·.controlPipe.wr) [0]

theorem loopInterrupt_notes {κ : Type} (e : SelectEvent κ) : Moves Notes (loopInterrupt e) :=
  write_notes (fun _ => e.controlPipe.wr) [0]

theorem cleanupKill_notes (signum : Int) (l : List ((_ : Int) × Nat)) : Moves Notes (cleanupKill signum l) := by
  induction l with
  | nil => exact Moves.pure _
  | cons p l ih => exact Moves.bind (modify_notes fun _ => ⟨rfl, rfl⟩) fun _ => ih

theorem loopAdd_vigil {fd : Int} (ht : loopAdd fd s = .ok () t) :
    ∃ loop mapOrder, t = { s with loop, mapOrder, vigil := s.vigil.add s.fds fd } := by
  unfold loopAdd at ht
  rw [bind_of_ok (get_apply _)] at ht
  cases hl : s.loop with
  | none =>
    rw [hl] at ht
    cases ht
  | some e =>
    rw [hl] at ht
    dsimp only at ht
    rw [bind_of_ok (show nextOrder s = .ok (s.mapOrder.headD []) { s with mapOrder := s.mapOrder.tail } from rfl)] at ht
    cases ha : e.addReadEvent (s.mapOrder.headD []) fd LoopSource.doAction with
    | none =>
      rw [ha] at ht
      cases ht
    | some e' =>
      rw [ha] at ht
      cases ht
      exact ⟨some e', s.mapOrder.tail, rfl⟩

theorem loopRemove_vigil {fd : Int} (ht : loopRemove fd s = .ok () t) :
    ∃ loop, t = { s with loop, vigil := s.vigil.remove fd } := by
  unfold loopRemove at ht
  rw [bind_of_ok (get_apply _)] at ht
  cases hl : s.loop with
  | none =>
    rw [hl] at ht
    cases ht
  | some e =>
    rw [hl] at ht
    dsimp only at ht
    cases hr : e.removeReadEvent fd with
    | none =>
      rw [hr] at ht
      cases ht
    | some e' =>
      rw [hr] at ht
      cases ht
      exact ⟨some e', rfl⟩

/-- A descriptor is watched from the call on that adds it. -/
theorem addReadEvent_vigil {fd : Int} {cb : Source} (hfn : s.registerFn ≠ none)
    (ht : addReadEvent fd cb s = .ok () t) : ∃ loop mapOrder trace n, t = { s with
      registered := s.registered.insert fd cb
      loop
      mapOrder
      trace
      vigil := { s.vigil.add s.fds fd with
        kept := s.vigil.kept ++ List.replicate n ((s.vigil.add s.fds fd).intact s.fds) } } := by
  unfold addReadEvent at ht
  rw [bind_of_ok (modify_apply ..), bind_of_ok (get_apply _)] at ht
  dsimp only at ht
  cases hf : s.registerFn with
  | none => exact absurd hf hfn
  | some f =>
    rw [hf] at ht
    cases f with
    | loop =>
      obtain ⟨loop, mapOrder, rfl⟩ := loopAdd_vigil ht
      exact ⟨loop, mapOrder, s.trace, 0, by rw [List.replicate_zero, List.append_nil]; rfl⟩
    | user =>
      cases ht
      exact ⟨s.loop, s.mapOrder, _, 1, rfl⟩

/-- It is watched for as long as the call that removes it has not come back. -/
theorem removeReadEvent_vigil {fd : Int} (hfn : s.registerFn ≠ none) (ht : removeReadEvent fd s = .ok () t) :
    ∃ loop trace n, t = { s with
      registered := s.registered.erase fd
      loop
      trace
      vigil := { s.vigil.remove fd with
        kept := s.vigil.kept ++ List.replicate n (s.vigil.intact s.fds) } } := by
  unfold removeReadEvent at ht
  rw [bind_of_ok (modify_apply ..), bind_of_ok (get_apply _)] at ht
  dsimp only at ht
  cases hf : s.registerFn with
  | none => exact absurd hf hfn
  | some f =>
    rw [hf] at ht
    cases f with
    | loop =>
      obtain ⟨loop, rfl⟩ := loopRemove_vigil ht
      exact ⟨loop, s.trace, 0, by rw [List.replicate_zero, List.append_nil]; rfl⟩
    | user =>
      cases ht
      exact ⟨s.loop, _, 1, rfl⟩

end Pexec
