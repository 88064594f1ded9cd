import Pexec.DrainedOutput
import Pexec.SigchldRules

namespace Pexec

open Effect Runs

/-- Neither output of the object nor STOPPED. -/
def Event.Spares (x : Nat) (e : Event) : Prop :=
  e.outData x = [] ∧ e.errData x = [] ∧ ∀ q, e ≠ .state x .stopped q

/-- A part of a step that has nothing to do with the output of the object. -/
structure Bypasses (x : Nat) (s t : Sys) : Prop where
  emits : Emits (Event.Spares x) s t
  output : SparesOutput x s t
  active : ∀ pid, t.active.lookup pid = some x → s.active.lookup pid = some x

/-- How far a step that began in `b` has got with the object: STOPPED has not been told yet, or it
has, and the object is not active any more. -/
inductive Course (x : Nat) (b s : Sys) : Prop
  | watched (told : ∃ new, s.trace = b.trace ++ new ∧ ∀ q, .state x .stopped q ∉ new)
      (output : SameOutput x b s)
  | stopped {told rest : List Event} {q : ProcStatus} (stops : Stops x b s told rest q)
      (gone : ∀ pid, s.active.lookup pid ≠ some x)

variable {h x y : Nat} {pid : Int} {a b c s t u : Sys} {status : WaitStatus}

instance : IsPreorder Sys (Bypasses x) where
  refl s := ⟨Std.Refl.refl s, Std.Refl.refl s, fun _ => id⟩
  trans _ _ _ hst htu := ⟨IsTrans.trans _ _ _ hst.emits htu.emits,
    IsTrans.trans _ _ _ hst.output htu.output, fun pid hl => hst.active pid (htu.active pid hl)⟩

theorem Event.Concerns.spares {e : Event} (he : e.Concerns y) (hx : x ≠ y) : e.Spares x := by
  have hne : y ≠ x := hx.symm
  cases e with
  | handed | onStop | register | error | waitpid | kill | multiError => exact ⟨rfl, rfl, by simp⟩
  | state owner st proc =>
    obtain rfl : owner = y := he.elim id False.elim
    exact ⟨rfl, rfl, by simp [hne]⟩
  | out owner data | err owner data =>
    obtain rfl : owner = y := he.elim False.elim id
    exact ⟨by simp [Event.outData, hne], by simp [Event.errData, hne], by simp⟩

/-- What is done about another object. -/
theorem Acts.bypasses (ha : Acts y s t) (hx : x ≠ y) (he : Emits (Event.Concerns y) s t) : Bypasses x s t :=
  ⟨he.mono fun _ he => he.spares hx, ha.sparesOutput hx, fun pid => ha.shrinks.active pid x⟩

theorem updateStatus_bypasses (hx : x ≠ y) (status : WaitStatus) : Moves (Bypasses x) (updateStatus y status) := by
  intro s
  have hacts := updateStatus_acts (h := y) status s
  have hemits := updateStatus_emits (h := y) status s
  generalize updateStatus y status s = r at hacts hemits ⊢
  cases r with
  | ok _ t => exact hacts.bypasses hx hemits
  | error _ t => exact hacts.bypasses hx hemits

theorem Bypasses.same (hf : t.fds = s.fds) (ha : t.array = s.array) (hp : t.pipes = s.pipes)
    (hc : t.chunk = s.chunk) (hactive : t.active = s.active) (he : Emits (Event.Spares x) s t) :
    Bypasses x s t :=
  ⟨he, .same hf ha hp hc, fun _ hl => hactive ▸ hl⟩

theorem emit_bypasses {e : Event} (he : e.Spares x) : Moves (Bypasses x) (emit e) := fun s =>
  .same rfl rfl rfl rfl rfl ((emit_emits (P := Event.Spares x) he).ok (emit_apply e s))

theorem handlerProcessError_bypasses (e : Error) : Moves (Bypasses x) (handlerProcessError e) := by
  refine Moves.bind Moves.get fun s => ?_
  cases s.sigchld with
  | none => exact Moves.pure _
  | some handler =>
    refine Moves.bind (Moves.modify fun s => .same rfl rfl rfl rfl rfl (.same rfl rfl)) fun _ =>
      Moves.ite (fun _ => ?_) fun _ => Moves.pure _
    exact Moves.bind (Moves.modify fun s => .same rfl rfl rfl rfl rfl (.same rfl rfl)) fun _ =>
      emit_bypasses ⟨rfl, rfl, by simp⟩

theorem sigprocmask_bypasses (block : Bool) : Moves (Bypasses x) (call (World.sigprocmask · block)) := by
  intro s
  have hemits := sigprocmask_emits (P := Event.Spares x) block s
  obtain ⟨faults, sigchldBlocked, hw⟩ := s.toWorld.sigprocmask_frame block
  rw [call_apply] at hemits ⊢
  rw [hw] at hemits ⊢
  exact .same rfl rfl rfl rfl rfl hemits

theorem waited_bypasses (s : Sys) (r : WaitResult) : Bypasses x s (s.waited r) :=
  .same rfl rfl rfl rfl rfl ⟨⟨[.waitpid 0 r], rfl, fun _ hm => by
    rw [List.mem_singleton.mp hm]; exact ⟨rfl, rfl, by simp⟩⟩, List.suffix_rfl⟩

theorem reaped_bypasses (s : Sys) (pid : Int) (status : WaitStatus) : Bypasses x s (s.reaped pid status) :=
  .same rfl rfl rfl rfl rfl ⟨⟨[.waitpid 0 (.reaped pid status)], rfl, fun _ hm => by
    rw [List.mem_singleton.mp hm]; exact ⟨rfl, rfl, by simp⟩⟩, List.suffix_rfl⟩

/-- What is read through another array. -/
theorem Drained.bypasses {slot : Slot} (hd : Drained slot s t) (hs : s.Owns) (hslot : slot.owner ≠ some x)
    (he : Emits (Event.Spares x) s t) : Bypasses x s t := by
  have harray : t.array = s.array := hd.field Sys.array fun _ _ _ => rfl
  have hne : ∀ {other : Slot}, other.owner = some x → other ≠ slot := by
    rintro other ho rfl
    exact hslot ho
  refine ⟨he, fun _ => ⟨hd.owns hs, hd.field (·.chunk) fun _ _ _ => rfl, ⟨?_, ?_⟩, ?_, ?_⟩, fun pid hl => ?_⟩
  · rw [harray]
  · exact hd.streams _ (hne rfl)
  · rw [harray]
  · exact hd.streams _ (hne rfl)
  · rwa [hd.field Sys.active fun _ _ _ => rfl] at hl

theorem readSignalFrom_emits (fd : Int) (fuel : Nat) : ∀ want got,
    Moves (Emits (Event.Spares x)) (readSignalFrom fd fuel want got) := by
  induction fuel with
  | zero => exact fun _ _ => Moves.throw _
  | succ fuel ih =>
    intro want got
    unfold readSignalFrom
    refine Moves.bind (read_emits fd want) fun answer => ?_
    split
    · exact ih _ _
    · exact Moves.pure _
    · exact Moves.ite (fun _ => Moves.pure _) fun _ => ih _ _

theorem removeReadEvent_bypasses (fd : Int) : Moves (Bypasses x) (removeReadEvent fd) := by
  intro s
  have hacts := removeReadEvent_acts (h := x + 1) fd s
  have hemits := removeReadEvent_emits (P := Event.Concerns (x + 1)) (fun _ _ => .inl trivial) fd s
  generalize removeReadEvent fd s = r at hacts hemits ⊢
  cases r with
  | ok _ t => exact hacts.bypasses (Nat.ne_of_lt (Nat.lt_succ_self x)) hemits
  | error _ t => exact hacts.bypasses (Nat.ne_of_lt (Nat.lt_succ_self x)) hemits

theorem loopInterrupt_array (s : Sys) (e : SelectEvent LoopSource) :
    Sys.array { s with toWorld := s.toWorld.write e.controlPipe.wr [0] } = s.array := by
  obtain ⟨pipes, hw⟩ := s.toWorld.write_frame e.controlPipe.wr [0]
  rw [hw]
  rfl

/-- The loop is interrupted through its own pipe. -/
theorem loopInterrupt_stream {e : SelectEvent LoopSource} (hl : s.loop = some e) (hs : s.Owns) {slot : Slot}
    (hslot : slot ≠ .loop) :
    Sys.stream { s with toWorld := s.toWorld.write e.controlPipe.wr [0] } slot = s.stream slot := by
  have hwr : e.controlPipe.wr = (s.array .loop).wr := by simp [Sys.array, hl]
  simp only [Sys.stream, loopInterrupt_array]
  rw [hwr]
  exact Owned.write_stream_ne hs hslot [0]

theorem loopInterrupt_bypasses {e : SelectEvent LoopSource} (hl : s.loop = some e) :
    Bypasses x s { s with toWorld := s.toWorld.write e.controlPipe.wr [0] } := by
  have hemits := write_emits (P := Event.Spares x) (fun _ => e.controlPipe.wr) [0] s
  have harray := loopInterrupt_array s e
  obtain ⟨pipes, hw⟩ := s.toWorld.write_frame e.controlPipe.wr [0]
  refine ⟨hemits, fun hs => ⟨hs.congr (by rw [hw]) harray, by rw [hw], ⟨?_, ?_⟩, ?_, ?_⟩, fun _ hl => hl⟩
  · rw [harray]
  · exact loopInterrupt_stream hl hs (by simp)
  · rw [harray]
  · exact loopInterrupt_stream hl hs (by simp)

theorem handleStop_bypasses : Moves (Bypasses x) handleStop := by
  unfold handleStop
  refine Moves.bind Moves.get fun s => Moves.bind (removeReadEvent_bypasses _) fun _ =>
    Moves.bind Moves.get fun s => Moves.bind (removeReadEvent_bypasses _) fun _ =>
    Moves.bind (Moves.modify fun s => .same rfl rfl rfl rfl rfl (.same rfl rfl)) fun _ =>
    Moves.get_bind fun s => ?_
  by_cases hd : s.loopType = .default
  · rw [if_pos hd]
    cases hl : s.loop with
    | none => exact Moves.throw _ s
    | some e => exact loopInterrupt_bypasses hl
  · rw [if_neg hd]
    exact Bypasses.same rfl rfl rfl rfl rfl (.same rfl rfl)

theorem Course.bypass (hs : Course x b s) (ho : s.Owns) (hst : Bypasses x s t) : Course x b t := by
  obtain ⟨new, htrace, hnew⟩ := hst.emits.events
  have hsame := hst.output ho
  cases hs with
  | watched told output =>
    obtain ⟨told, htold, hfirst⟩ := told
    refine .watched ⟨told ++ new, by rw [htrace, htold, List.append_assoc], fun q hm => ?_⟩ (output.trans hsame)
    rcases List.mem_append.mp hm with hm | hm
    · exact hfirst q hm
    · exact (hnew _ hm).2.2 q rfl
  | @stopped told rest q stops gone =>
    have hstops : Stops x b t told (rest ++ new) q := by
      refine ⟨?_, stops.first, fun e hm => ?_, hsame.outputRead.trans stops.fits⟩
      · simp only [htrace, stops.trace, List.append_assoc, List.cons_append]
      rcases List.mem_append.mp hm with hm | hm
      · exact stops.silent e hm
      · exact ⟨(hnew e hm).1, (hnew e hm).2.1⟩
    exact .stopped hstops fun pid hl => gone pid (hst.active pid hl)

/-- The object is active when STOPPED is told. -/
theorem Course.stop {told rest : List Event} {q : ProcStatus} (hs : Course x b s)
    (hl : s.active.lookup pid = some x) (hstops : Stops x s t told rest q)
    (hgone : ∀ pid, t.active.lookup pid ≠ some x) : Course x b t := by
  cases hs with
  | watched htold output =>
    obtain ⟨told', htold, hfirst⟩ := htold
    have hstops' : Stops x b t (told' ++ told) rest q := by
      refine ⟨?_, fun q' hm => ?_, hstops.silent, hstops.fits.trans output.fits⟩
      · rw [hstops.trace, htold, List.append_assoc b.trace]
      rcases List.mem_append.mp hm with hm | hm
      · exact hfirst q' hm
      · exact hstops.first q' hm
    exact .stopped hstops' hgone
  | stopped _ gone => exact absurd hl (gone pid)

/-- Between two parts of a step in which children are reaped. -/
structure Coursing (x : Nat) (b s : Sys) : Prop where
  reads : s.ReadsWell
  course : Course x b s

theorem Coursing.bypass (hs : Coursing x b s) (ho : s.Owns) (hst : Bypasses x s t) : Coursing x b t :=
  ⟨hs.reads.suffix hst.emits.reads, hs.course.bypass ho hst⟩

/-- The child of the object is reaped, or another one. -/
theorem onSignal_coursing (hs : Sound s) (hc : Coursing x b s) (hdead : Terminated status)
    (ht : onSignal pid status (s.reaped pid status) = .ok () t) : Coursing x b t := by
  have hcourse : Course x b (s.reaped pid status) :=
    hc.course.bypass hs.isolated.owns (reaped_bypasses s pid status)
  have howns : (s.reaped pid status).Owns := (hs.isolated.reaped pid status).owns
  have hwell : (s.reaped pid status).ReadsWell := hc.reads
  unfold onSignal at ht
  rw [bind_of_ok (get_apply _), show (s.reaped pid status).active = s.active from rfl] at ht
  cases ha : s.active.lookup pid with
  | none =>
    rw [ha] at ht
    cases ht
    exact ⟨hwell, hcourse⟩
  | some y =>
    rw [ha] at ht
    refine ⟨hwell.suffix ((updateStatus_emits _).ok ht).reads, ?_⟩
    by_cases hx : x = y
    · subst hx
      have hserved := hs.on.served pid x ha
      have hopen : (s.reaped pid status).OutputOpen x :=
        ⟨hserved.ready (.stdout x) (by simp [objectSlots]), hserved.ready (.stderr x) (by simp [objectSlots])⟩
      obtain ⟨told, rest, q, hstops⟩ := updateStatus_stops howns hopen hwell hserved.type hdead ht
      obtain ⟨t', ht', hf⟩ := updateStatus_ends (reaped_desk hs.on.desk pid status) howns ha hserved.type hdead
      cases ht.symm.trans ht'
      refine hcourse.stop ha hstops fun p => ?_
      rw [hf.gone.active]
      exact hs.on.desk.active_erase ha p
    · exact hcourse.bypass howns ((updateStatus_bypasses hx _).ok ht)

theorem coursing_keeps : SigchldKeeps (Coursing x b) where
  read {s _ _} hs hc hr := by
    have hdrained := readSignalFrom_drained (s.readFaults.length + 4) 4 [] s hs.isolated.owns
    rw [hr] at hdrained
    exact hc.bypass hs.isolated.owns (hdrained.bypasses hs.isolated.owns (by simp [Slot.owner])
      ((readSignalFrom_emits _ _ _ _).ok hr))
  mask block hs hc := hc.bypass hs.isolated.owns ((sigprocmask_bypasses block).ok (call_apply ..))
  error hs hc ht := hc.bypass hs.isolated.owns ((handlerProcessError_bypasses _).ok ht)
  waited r hs hc := hc.bypass hs.isolated.owns (waited_bypasses _ r)
  signal {_ _ _ status} hs hc ht := onSignal_coursing hs hc status.2 ht

theorem onSigchldReady_course (hs : Sound s) (hc : Coursing x b s) (ht : onSigchldReady s = .ok () t) :
    Course x b t :=
  (coursing_keeps.ready_keeps hs hc ht fun _ hu _ hcu hstop =>
    hcu.bypass hu.isolated.owns (handleStop_bypasses.ok hstop)).course

variable {l : Label} {told rest : List Event} {q : ProcStatus}

/-- No read of the step fails. -/
def Label.ReadsWell : Label → Prop
  | .event _ c => ∀ fault ∈ c.readFaults, fault = none
  | _ => True

theorem Life.stopped_source (hs : Life b) (hp : PreviousFinished b l) (hstep : Step b l c)
    (ht : c.trace = b.trace ++ told ++ .state x .stopped q :: rest) :
    ∃ fd k, l = .event fd k ∧ b.registered.lookup fd = some .sigchld := by
  obtain ⟨rs, hv, hreaps⟩ := hs.verdicts hp hstep
  have hcalls : reports c.calls = reports b.calls ++
      reports ((told ++ .state x .stopped q :: rest).filterMap Event.call) := by
    rw [Sys.calls, ht, List.append_assoc, List.filterMap_append, reports_append]
    rfl
  have hmem : (x, State.stopped, q) ∈ rs.flatMap b.verdict := by
    have hsame := List.append_cancel_left (hcalls.symm.trans hv.reports)
    rw [← hsame]
    refine List.mem_filter.mpr ⟨List.mem_filterMap.mpr ⟨.state x .stopped q, by simp, rfl⟩, by simp⟩
  obtain ⟨r, hr, _⟩ := List.mem_flatMap.mp hmem
  have hreap := (hreaps r.1).mp (List.mem_map.mpr ⟨r, hr, rfl⟩)
  cases l with
  | event fd k => exact ⟨fd, k, rfl, hreap.1⟩
  | exec | stop | env | run | selectError => exact hreap.elim

theorem Life.stops (hs : Life b) (hp : PreviousFinished b l) (hstep : Step b l c) (hreads : l.ReadsWell)
    (ht : c.trace = b.trace ++ told ++ .state x .stopped q :: rest) :
    ∃ told' rest' q', Stops x b c told' rest' q' := by
  obtain ⟨fd, k, rfl, hsrc⟩ := hs.stopped_source hp hstep ht
  obtain ⟨he, hrun⟩ := hstep
  obtain ⟨hsound, hprog⟩ := hs.event_source he hsrc
  have hstart : Coursing x (b.choose k) (b.choose k) := ⟨hreads,
    .watched ⟨[], (List.append_nil _).symm, fun _ hm => absurd hm List.not_mem_nil⟩
      ⟨hsound.isolated.owns, rfl, ⟨rfl, rfl⟩, rfl, rfl⟩⟩
  cases onSigchldReady_course hsound hstart (hprog.symm.trans hrun) with
  | watched htold =>
    obtain ⟨new, hnew, hnone⟩ := htold
    refine absurd ?_ (hnone q)
    rw [ht] at hnew
    have hsame : told ++ .state x .stopped q :: rest = new :=
      List.append_cancel_left ((List.append_assoc ..).symm.trans hnew)
    simp [← hsame]
  | stopped stops => exact ⟨_, _, _, stops.trace, stops.first, stops.silent, stops.fits⟩

/-- Where nothing comes after STOPPED, all the output is told before it. -/
theorem told_whole {told' rest' : List Event} {e e' : Event} (hsplit : told ++ e :: rest = told' ++ e' :: rest')
    (hfirst : e ∉ told') (hsilent : ∀ z ∈ e' :: rest', z.outData x = [] ∧ z.errData x = []) :
    outOf x told = outOf x (told ++ e :: rest) ∧ errOf x told = errOf x (told ++ e :: rest) := by
  have hrest : ∀ z ∈ e :: rest, z.outData x = [] ∧ z.errData x = [] := by
    rcases List.append_eq_append_iff.mp hsplit with ⟨mid, hmid, htail⟩ | ⟨mid, _, htail⟩
    · cases mid with
      | nil =>
        rw [List.nil_append] at htail
        exact fun z hz => hsilent z (htail ▸ hz)
      | cons z zs =>
        rw [List.cons_append, List.cons.injEq] at htail
        refine absurd ?_ hfirst
        simp [hmid, htail.1]
    · exact fun z hz => hsilent z (htail ▸ List.mem_append_right _ hz)
  rw [outOf_append, errOf_append]
  unfold outOf errOf
  rw [List.flatMap_eq_nil_iff.mpr fun z hz => (hrest z hz).1, List.flatMap_eq_nil_iff.mpr fun z hz => (hrest z hz).2,
    List.append_nil, List.append_nil]
  exact ⟨rfl, rfl⟩

/-- What has been read is all that was written if nothing is left. -/
theorem passed_complete_iff {events : List Event} (hout : outOf x events = (s.stream (.stdout x)).read)
    (herr : errOf x events = (s.stream (.stderr x)).read) : Complete x events s ↔ s.OutputRead x := by
  have hread : ∀ stream : ByteStream UInt8, stream.read = stream.written ↔ stream.unread = [] := by
    intro stream
    have hsplit := stream.read_append_unread
    constructor
    · intro hr
      rw [hr] at hsplit
      exact List.append_cancel_left (hsplit.trans (List.append_nil _).symm)
    · intro hu
      rwa [hu, List.append_nil] at hsplit
  unfold Complete Sys.OutputRead
  rw [hout, herr, hread, hread]

/-- In a `pexec_multi` the output is told completely before STOPPED if one read of each pipe gets
what is left. -/
theorem Life.complete_iff (hs : Life b) (hstep : Under PreviousFinished Step b l c) (hreads : l.ReadsWell)
    (ht : c.trace = b.trace ++ told ++ .state x .stopped q :: rest) :
    Complete x (b.trace ++ told) c ↔ b.OutputFits x := by
  obtain ⟨hp, hstep⟩ := hstep
  obtain ⟨told', rest', q', hstops⟩ := hs.stops hp hstep hreads ht
  have hlife := life_step hs hstep.1 hp
  rw [hstep.2] at hlife
  obtain ⟨hout, herr⟩ := hlife.isolated.passed x
  have hsplit : told ++ .state x .stopped q :: rest = told' ++ .state x .stopped q' :: rest' := by
    apply (List.append_right_inj b.trace).mp
    rw [← List.append_assoc, ← List.append_assoc, ← ht, hstops.trace]
  obtain ⟨hwhole, hwhole'⟩ := told_whole (x := x) hsplit (hstops.first q) fun z hz => by
    rcases List.mem_cons.mp hz with rfl | hz
    · exact ⟨rfl, rfl⟩
    · exact hstops.silent z hz
  refine (passed_complete_iff ?_ ?_).trans hstops.fits
  · rw [← hout, ht, List.append_assoc, outOf_append, outOf_append, hwhole]
  · rw [← herr, ht, List.append_assoc, errOf_append, errOf_append, hwhole']

end Pexec
