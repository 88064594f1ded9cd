import Pexec.Serving

namespace Pexec

open Effect

variable {h : Nat} {pid : Int} {s t u : Sys}

/-- Something was read through an array, or a read has failed. -/
structure Drained (slot : Slot) (s t : Sys) : Prop where
  frame : ∃ readFaults pipes, t = { s with readFaults, pipes }
  streams : ∀ x, x ≠ slot → t.stream x = s.stream x

theorem Drained.refl (slot : Slot) (s : Sys) : Drained slot s s :=
  ⟨⟨s.readFaults, s.pipes, rfl⟩, fun _ _ => rfl⟩

theorem Drained.trans {slot : Slot} (hst : Drained slot s t) (htu : Drained slot t u) :
    Drained slot s u := by
  obtain ⟨rf, pipes, ht⟩ := hst.frame
  obtain ⟨rf', pipes', hu⟩ := htu.frame
  refine ⟨⟨rf', pipes', by rw [hu, ht]⟩, fun x hx => ?_⟩
  rw [htu.streams x hx, hst.streams x hx]

theorem Drained.field {slot : Slot} {α : Type} (hd : Drained slot s t) (f : Sys → α)
    (hf : ∀ u readFaults pipes, f { u with readFaults, pipes } = f u) : f t = f s := by
  obtain ⟨rf, pipes, ht⟩ := hd.frame
  rw [ht]
  exact hf ..

theorem Drained.owns {slot : Slot} (hd : Drained slot s t) (hs : s.Owns) : t.Owns :=
  hs.congr (hd.field (·.fds) fun _ _ _ => rfl) (hd.field Sys.array fun _ _ _ => rfl)

theorem Drained.on {slot : Slot} (hd : Drained slot s t) (hs : On s) : On t := by
  have hchildren : t.children = s.children := hd.field (·.children) fun _ _ _ => rfl
  refine hs.congr (hd.field Sys.registered fun _ _ _ => rfl) (hd.field Sys.active fun _ _ _ => rfl)
    (hd.field Sys.watching fun _ _ _ => rfl) (hd.field (·.sigchldPipe) fun _ _ _ => rfl)
    (hd.field Sys.controlPipe fun _ _ _ => rfl) (hd.field Sys.handles fun _ _ _ => rfl)
    (hd.field Sys.procs fun _ _ _ => rfl) (fun hm => ?_) fun _ _ hc => hchildren ▸ hc
  exact hm.congr (hd.field Sys.loopType fun _ _ _ => rfl) (hd.field Sys.registerFn fun _ _ _ => rfl)
    (hd.field Sys.loop fun _ _ _ => rfl) (hd.field Sys.registered fun _ _ _ => rfl)

theorem Drained.serves {slot : Slot} (hd : Drained slot s t) (hslot : slot ≠ .loop) : Serves s t := by
  have htrace : t.trace = s.trace := hd.field (·.trace) fun _ _ _ => rfl
  have hservice : t.service = s.service :=
    Sys.service_eq (hd.field Sys.buffer fun _ _ _ => rfl) (hd.field Sys.added fun _ _ _ => rfl)
      (hd.field Sys.active fun _ _ _ => rfl) (hd.field Sys.nextHandle fun _ _ _ => rfl)
      (hd.field Sys.stopping fun _ _ _ => rfl) (hd.field Sys.stopFlag fun _ _ _ => rfl)
      (hd.field Sys.stopSignum fun _ _ _ => rfl) (hd.field Sys.watching fun _ _ _ => rfl)
      (Uncalled.same htrace)
  exact ⟨by rw [hservice], hd.field Sys.core fun _ _ _ => rfl, (Uncalled.same htrace).kills,
    fun hs => ⟨hd.owns hs, hd.streams .loop hslot.symm⟩⟩

theorem Drained.harvested {slot : Slot} {rs : List (Int × WaitStatus)} (hd : Drained slot s t)
    (hs : Harvested rs t u) : Harvested rs s u :=
  hs.before (hd.field (·.children) fun _ _ _ => rfl) (hd.field Sys.active fun _ _ _ => rfl)
    (hd.field Sys.procs fun _ _ _ => rfl) (Uncalled.same (hd.field (·.trace) fun _ _ _ => rfl))

theorem read_drained (slot : Slot) (hs : s.Owns) {count : Nat} {a : Except Errno (List UInt8)}
    {w : World} (ha : World.ReadAnswer s.toWorld (s.array slot).rd count a w) :
    Drained slot s { s with toWorld := w } := by
  have hr := Owned.reads hs ha
  obtain ⟨rf, pipes, rfl⟩ := ha.frame
  exact ⟨⟨rf, pipes, rfl⟩, fun x hx => hr.stream_ne hs hx⟩

theorem readRetry_drained (slot : Slot) (hs : s.Owns) (count : Nat) :
    ∃ a t, readRetry (s.array slot).rd count s = .ok a t ∧ Drained slot s t :=
  ⟨_, _, rfl, read_drained slot hs (World.readRetry_answer _ count s.readFaults s.toWorld)⟩

/-- The reads of `read_signal`. -/
theorem readSignalFrom_drained (fuel : Nat) : ∀ want got s, s.Owns →
    Outcome (fun _ t => Drained .sigchld s t) (fun e _ => e = .waiting)
      (readSignalFrom s.sigchldPipe.rd fuel want got s) := by
  induction fuel with
  | zero => exact fun want got s _ => rfl
  | succ fuel ih =>
    intro want got s hs
    have hd := read_drained .sigchld hs (World.read_answer s.toWorld s.sigchldPipe.rd want)
    unfold readSignalFrom
    rw [bind_of_ok (call_apply ..)]
    generalize s.toWorld.read s.sigchldPipe.rd want = r at hd ⊢
    obtain ⟨a, w⟩ := r
    dsimp only at hd ⊢
    have hpipe : w.sigchldPipe = s.sigchldPipe := hd.field (·.sigchldPipe) fun _ _ _ => rfl
    have hagain : ∀ want got, Outcome (fun _ t => Drained .sigchld s t) (fun e _ => e = .waiting)
        (readSignalFrom s.sigchldPipe.rd fuel want got { s with toWorld := w }) := by
      intro want got
      have := ih want got { s with toWorld := w } (hd.owns hs)
      rw [show Sys.toWorld { s with toWorld := w } = w from rfl, hpipe] at this
      revert this
      generalize readSignalFrom s.sigchldPipe.rd fuel want got { s with toWorld := w } = r
      cases r with
      | ok a t => exact hd.trans
      | error e t => exact id
    split
    next => exact hagain _ _
    next => exact hd
    next data =>
      split
      next => exact hd
      next => exact hagain _ _

/-- `read_signal` where the process is in order. -/
theorem readSignal_serves (hs : Sound s) :
    Outcome (fun _ t => Sound t ∧ Serves s t ∧ ∃ rs, Harvested rs s t) (fun e _ => e = .waiting)
      (readSignal s) := by
  have hiso := readSignal_isolated s hs.isolated
  have hread := readSignalFrom_drained (s.readFaults.length + 4) 4 [] s hs.isolated.owns
  have hiso' := readSignalFrom_isolated (s.readFaults.length + 4) s.sigchldPipe.rd 4 [] s
    ⟨hs.isolated, rfl⟩
  unfold readSignal at hiso ⊢
  rw [bind_of_ok (get_apply _)] at hiso ⊢
  cases hr : readSignalFrom s.sigchldPipe.rd (s.readFaults.length + 4) 4 [] s with
  | error e t =>
    rw [hr] at hread
    rw [bind_of_error hr]
    exact hread
  | ok signal t =>
    rw [hr] at hread hiso'
    rw [bind_of_ok hr] at hiso ⊢
    have hst : Sound t := ⟨hiso', hread.on hs.on⟩
    have hserves := hread.serves (by simp)
    have hnone : Harvested [] s t := hread.harvested (.none rfl (fun _ _ => id) rfl)
    cases signal with
    | none => exact ⟨hst, hserves, [], hnone⟩
    | some signal =>
      dsimp only
      split
      next =>
        obtain ⟨rs, u, hu, hsu, hharvested, hsound⟩ := handleSigchld_serves hst
        rw [bind_of_ok hu]
        exact ⟨hsound, IsTrans.trans _ _ _ hserves hsu, rs, hread.harvested hharvested⟩
      next => exact ⟨hst, hserves, [], hnone⟩

/-- The active processes have been told to stop. -/
structure Told (s t : Sys) : Prop where
  frame : ∃ pipes trace vigil, t = { s with pipes, trace, vigil, stopping := true }
  calls : t.calls = s.calls
  kills : ∃ pids, t.kills = s.kills ++ pids ∧ ∀ pid ∈ pids, pid ∈ s.active
  current : HandsCurrent s t
  streams : ∀ slot : Slot, slot.owner = none → t.stream slot = s.stream slot
  notes : Notes s t

theorem Told.field {α : Type} (ht : Told s t) (f : Sys → α)
    (hf : ∀ u pipes trace vigil, f { u with pipes, trace, vigil, stopping := true } = f u) : f t = f s := by
  obtain ⟨pipes, trace, vigil, ht⟩ := ht.frame
  rw [ht]
  exact hf ..

/-- A write to the watch pipe of an active process. -/
theorem userStop_ok (hs : On s) (ho : s.Owns) (hl : s.active.lookup pid = some h) {hd : Handle}
    (hh : s.handles h = some hd) :
    ∃ pipes, userStop hd.retProc s = .ok () { s with pipes } ∧
      ∀ slot : Slot, slot.owner = none → Sys.stream { s with pipes } slot = s.stream slot := by
  have hserved := hs.served pid h hl
  obtain ⟨hd', hh', hret⟩ := hserved.handle
  rw [hh] at hh'
  cases hh'
  have hfd : hd.retProc.userStopFd = (s.array (.watch h)).wr := by rw [hret, hserved.proc]
  obtain ⟨pipe, _, _, hwr⟩ := (Owned.ends ho (.watch h)).opened (hserved.ready _ (by simp [objectSlots]))
  have hopen := FdTable.target_nonneg hwr
  obtain ⟨pipes, hw⟩ := s.toWorld.write_frame (s.array (.watch h)).wr [0]
  refine ⟨pipes, ?_, fun slot hslot => ?_⟩
  swap
  · have hstream := Owned.write_stream_ne ho (i := .watch h) (j := slot) (by rintro rfl; cases hslot) [0]
    rwa [hw] at hstream
  unfold userStop
  rw [hfd, bind_of_ok (show assert (decide ((s.array (.watch h)).wr ≠ -1)) .userStopFd s = .ok () s by
    rw [decide_eq_true (by omega)]; rfl), onWorld_apply, hw]

theorem On.pipes (hs : On s) (pipes : Nat → ByteStream UInt8) : On { s with pipes } :=
  hs.congr rfl rfl rfl rfl rfl rfl rfl (fun hm => hm.congr rfl rfl rfl rfl) fun _ _ hc => hc

theorem cleanupUser_ok (l : List ((_ : Int) × Nat)) : ∀ s, On s → s.Owns →
    (∀ p ∈ l, s.active.lookup p.1 = some p.2) →
    ∃ pipes, cleanupUser l s = .ok () { s with pipes } ∧
      ∀ slot : Slot, slot.owner = none → Sys.stream { s with pipes } slot = s.stream slot := by
  induction l with
  | nil => exact fun s _ _ _ => ⟨s.pipes, rfl, fun _ _ => rfl⟩
  | cons p l ih =>
    intro s hs ho hl
    obtain ⟨hd, hh, _⟩ := (hs.served p.1 p.2 (hl p List.mem_cons_self)).handle
    obtain ⟨pipes, hstop, hstream⟩ := userStop_ok hs ho (hl p List.mem_cons_self) hh
    obtain ⟨pipes', hrest, hstream'⟩ := ih { s with pipes } (hs.pipes pipes) (ho.congr rfl rfl)
      fun q hq => hl q (List.mem_cons_of_mem p hq)
    refine ⟨pipes', ?_, fun slot hslot => (hstream' slot hslot).trans (hstream slot hslot)⟩
    unfold cleanupUser
    rw [bind_of_ok (get_apply _)]
    simp only [hh]
    rw [bind_of_ok hstop]
    exact hrest

theorem cleanupKill_ok (signum : Int) (l : List ((_ : Int) × Nat)) : ∀ s,
    ∃ vigil, cleanupKill signum l s = .ok () { s with
      trace := s.trace ++ l.map fun p => .kill p.1 signum
      vigil } := by
  induction l with
  | nil =>
    intro s
    refine ⟨s.vigil, ?_⟩
    simp only [List.map_nil, List.append_nil]
    rfl
  | cons p l ih =>
    intro s
    obtain ⟨vigil, hrest⟩ := ih { s with toWorld := s.toWorld.emit (.kill p.1 signum) }
    refine ⟨vigil, ?_⟩
    unfold cleanupKill kill
    rw [bind_of_ok (emit_apply ..), hrest]
    simp only [World.emit, List.append_assoc, List.map_cons]
    rfl

/-- `cleanup` goes through. -/
theorem cleanup_ok (hs : On s) (ho : s.Owns) : ∃ t, cleanup s = .ok () t ∧ Told s t := by
  unfold cleanup
  rw [bind_of_ok (modify_apply ..), bind_of_ok (get_apply _)]
  set v : Sys := { s with stopping := true } with hv
  have hon : On v := hs.congr rfl rfl rfl rfl rfl rfl rfl (fun hm => hm.congr rfl rfl rfl rfl)
    fun _ _ hc => hc
  have hmem : ∀ p ∈ v.active.entries, v.active.lookup p.1 = some p.2 := fun p hp =>
    AList.mem_lookup_iff.mpr hp
  cases hflag : v.stopFlag with
  | stopWait =>
    exact ⟨v, rfl, ⟨⟨_, _, _, rfl⟩, rfl, ⟨[], (List.append_nil _).symm, by simp⟩, .same rfl, fun _ _ => rfl, .same rfl rfl⟩⟩
  | stopUser =>
    obtain ⟨pipes, hrun, hstream⟩ := cleanupUser_ok v.active.entries v hon (ho.congr rfl rfl) hmem
    exact ⟨_, hrun, ⟨⟨_, _, _, rfl⟩, rfl, ⟨[], (List.append_nil _).symm, by simp⟩, .same rfl, hstream, .same rfl rfl⟩⟩
  | stopKill =>
    have hcurrent : ∀ e ∈ v.active.entries.map fun p => Event.kill p.1 v.stopSignum, e.Current := by
      intro e hm
      obtain ⟨p, _, rfl⟩ := List.mem_map.mp hm
      trivial
    obtain ⟨vigil, hrun⟩ := cleanupKill_ok v.stopSignum v.active.entries v
    have hnotes : Notes s v := .same rfl rfl
    refine ⟨_, hrun, ⟨⟨_, _, _, rfl⟩, ?_, ?_, ⟨_, rfl, hcurrent⟩, fun _ _ => rfl,
      IsTrans.trans _ _ _ hnotes ((cleanupKill_notes _ _).ok hrun)⟩⟩
    · have hnone : (v.active.entries.map fun p => Event.kill p.1 v.stopSignum).filterMap Event.call =
          [] := by simp [Event.call]
      simp only [Sys.calls, List.filterMap_append, hnone, List.append_nil]
      rfl
    · refine ⟨v.active.keys, ?_, fun pid hpid => AList.mem_keys.mpr hpid⟩
      have hkeys : (v.active.entries.map fun p => Event.kill p.1 v.stopSignum).filterMap Event.killed =
          v.active.keys := by
        rw [List.filterMap_map]
        exact List.filterMap_eq_map_iff_forall_eq_some.mpr fun p _ => rfl
      simp only [Sys.kills, List.filterMap_append, hkeys]
      rfl

theorem jobNullptrStop_cases (hs : On s) (ho : s.Owns) :
    s.active.keys = [] ∧ jobNullptrStop s = .ok .stopLoop s ∨
      s.active.keys ≠ [] ∧ s.stopping = true ∧ jobNullptrStop s = .ok .nothing s ∨
      s.active.keys ≠ [] ∧ s.stopping = false ∧
        ∃ t, jobNullptrStop s = .ok .nothing t ∧ Told s t := by
  unfold jobNullptrStop
  rw [bind_of_ok (get_apply _)]
  by_cases hkeys : s.active.keys = []
  · refine .inl ⟨hkeys, ?_⟩
    simp only [hkeys, ne_eq, not_true_eq_false, and_false, if_false, if_true]
    rfl
  · cases hstopping : s.stopping with
    | true =>
      refine .inr (.inl ⟨hkeys, rfl, ?_⟩)
      simp only [hkeys, Bool.true_eq_false, false_and, if_false]
      rfl
    | false =>
      obtain ⟨t, ht, htold⟩ := cleanup_ok hs ho
      refine .inr (.inr ⟨hkeys, rfl, t, ?_, htold⟩)
      rw [if_pos ⟨rfl, hkeys⟩, bind_of_ok ht]
      rfl

/-- At most a new child has been forked, with the descriptors there are, and made an active
process. -/
def Sys.Hires (s t : Sys) : Prop :=
  t.children = s.children ∧ t.active = s.active ∨
    ∃ pid h child, pid ∉ s.children ∧ pid ∉ s.active ∧ (∀ p, s.active.lookup p ≠ some h) ∧
      t.children = s.children.insert pid child ∧ child.fds = t.fds ∧
      t.active = s.active.insert pid h

/-- A job was taken from the queue and done, and the loop goes on. -/
structure Jobbed (s t : Sys) : Prop where
  on : On t
  move : GracefulStop.Move s.service t.service
  core : t.core = s.core
  hires : s.Hires t
  reports : reports t.calls = reports s.calls
  kills : ∃ pids, t.kills = s.kills ++ pids ∧ ∀ pid ∈ pids, pid ∈ s.active
  current : HandsCurrent s t
  loop : t.stream .loop = s.stream .loop

/-- A job was taken from the queue that found no active process, and the loop is to stop. -/
structure Emptied (s t : Sys) : Prop where
  idle : s.active.keys = []
  head : ∃ job, s.buffer = job :: t.buffer ∧
    (job = none ∨ s.stopping = false ∧ ∃ flag signum, job = some (.stop flag signum))
  frame : t = { s with buffer := t.buffer, stopFlag := t.stopFlag, stopSignum := t.stopSignum }

theorem On.queue (hs : On s) (buffer : List (Option Job)) (stopFlag : StopFlag) (stopSignum : Int) :
    On { s with buffer, stopFlag, stopSignum } :=
  hs.congr rfl rfl rfl rfl rfl rfl rfl (fun hm => hm.congr rfl rfl rfl rfl) fun _ _ hc => hc

theorem Told.on (ht : Told s t) (hs : On s) : On t := by
  have hchildren : t.children = s.children := ht.field (·.children) fun _ _ _ _ => rfl
  refine hs.congr (ht.field Sys.registered fun _ _ _ _ => rfl) (ht.field Sys.active fun _ _ _ _ => rfl)
    (ht.field Sys.watching fun _ _ _ _ => rfl) (ht.field (·.sigchldPipe) fun _ _ _ _ => rfl)
    (ht.field Sys.controlPipe fun _ _ _ _ => rfl) (ht.field Sys.handles fun _ _ _ _ => rfl)
    (ht.field Sys.procs fun _ _ _ _ => rfl) (fun hm => ?_) fun _ _ hc => hchildren ▸ hc
  exact hm.congr (ht.field Sys.loopType fun _ _ _ _ => rfl) (ht.field Sys.registerFn fun _ _ _ _ => rfl)
    (ht.field Sys.loop fun _ _ _ _ => rfl) (ht.field Sys.registered fun _ _ _ _ => rfl)

theorem Told.service (ht : Told s t) : t.service = { s.service with stopping := true } := by
  have hcalls := ht.calls
  have hstopping : t.stopping = true := by
    obtain ⟨pipes, trace, vigil, he⟩ := ht.frame
    rw [he]
  simp only [Sys.service, hcalls, hstopping, ht.field Sys.buffer fun _ _ _ _ => rfl,
    ht.field Sys.added fun _ _ _ _ => rfl, ht.field Sys.active fun _ _ _ _ => rfl,
    ht.field Sys.nextHandle fun _ _ _ _ => rfl, ht.field Sys.stopFlag fun _ _ _ _ => rfl,
    ht.field Sys.stopSignum fun _ _ _ _ => rfl, ht.field Sys.watching fun _ _ _ _ => rfl]

/-- A stop job, or the sentinel, that finds active processes. -/
theorem Told.jobbed {buffer : List (Option Job)} {stopFlag : StopFlag} {stopSignum : Int}
    (ht : Told { s with buffer, stopFlag, stopSignum } t) (hs : On s)
    (hmove : GracefulStop.Move s.service { Sys.service { s with buffer, stopFlag, stopSignum } with
      stopping := true }) : Jobbed s t :=
  ⟨ht.on (hs.queue ..), ht.service ▸ hmove, ht.field Sys.core fun _ _ _ _ => rfl,
    .inl ⟨ht.field (·.children) fun _ _ _ _ => rfl, ht.field Sys.active fun _ _ _ _ => rfl⟩,
    congrArg Pexec.reports ht.calls, ht.kills, ht.current, ht.streams .loop rfl⟩

/-- A job that changes the queue alone. -/
theorem Jobbed.dropped {buffer : List (Option Job)} (hs : On s)
    (hmove : GracefulStop.Move s.service (Sys.service { s with buffer })) :
    Jobbed s { s with buffer } :=
  ⟨hs.queue .., hmove, rfl, .inl ⟨rfl, rfl⟩, rfl, ⟨[], (List.append_nil _).symm, by simp⟩, .same rfl, rfl⟩

theorem jobStop_cases {rest : List (Option Job)} {flag : StopFlag} {signum : Int} (hs : On s)
    (ho : s.Owns) (hw : s.watching = true) (hb : s.buffer = some (.stop flag signum) :: rest) :
    ∃ ret t, jobStop flag signum { s with buffer := rest } = .ok ret t ∧
      (ret = .nothing ∧ Jobbed s t ∨ ret = .stopLoop ∧ Emptied s t) := by
  have hq : s.service.queue = .stop (flag, signum) :: rest.map ticket := by
    simp only [Sys.service, hb, List.map_cons, ticket]
  unfold jobStop
  rw [bind_of_ok (get_apply _)]
  rcases Bool.eq_false_or_eq_true s.stopping with hstopping | hstopping
  · refine ⟨.nothing, { s with buffer := rest }, ?_, .inl ⟨rfl, ?_⟩⟩
    · rw [if_pos hstopping]
      rfl
    · exact .dropped hs (.ignore hq hw hstopping)
  · rw [if_neg (by rw [hstopping]; decide), bind_of_ok (modify_apply ..)]
    have hon : On { s with buffer := rest, stopFlag := flag, stopSignum := signum } := hs.queue ..
    rcases jobNullptrStop_cases hon (ho.congr rfl rfl) with ⟨hk, hrun⟩ | ⟨hk, hst, hrun⟩ |
        ⟨hk, _, t, hrun, ht⟩
    · exact ⟨_, _, hrun, .inr ⟨rfl, hk, ⟨_, hb, .inr ⟨hstopping, flag, signum, rfl⟩⟩, rfl⟩⟩
    · exact absurd (hst.symm.trans hstopping) (by decide)
    · refine ⟨_, _, hrun, .inl ⟨rfl, ht.jobbed hs ?_⟩⟩
      have hbusy : s.service.running ≠ ∅ := fun he => hk (Sys.running_empty.mp he)
      exact .stop hq hw hstopping hbusy

theorem jobNull_cases {rest : List (Option Job)} (hs : On s) (ho : s.Owns) (hw : s.watching = true)
    (hb : s.buffer = none :: rest) :
    ∃ ret t, jobNullptrStop { s with buffer := rest } = .ok ret t ∧
      (ret = .nothing ∧ Jobbed s t ∨ ret = .stopLoop ∧ Emptied s t) := by
  have hq : s.service.queue = .sentinel :: rest.map ticket := by
    simp only [Sys.service, hb, List.map_cons, ticket]
  have hon : On { s with buffer := rest } := hs.queue ..
  rcases jobNullptrStop_cases hon (ho.congr rfl rfl) with ⟨hk, hrun⟩ | ⟨hk, hst, hrun⟩ |
      ⟨hk, hst, t, hrun, ht⟩
  · exact ⟨_, _, hrun, .inr ⟨rfl, hk, ⟨_, hb, .inl rfl⟩, rfl⟩⟩
  · have hbusy : s.service.running ≠ ∅ := fun he => hk (Sys.running_empty.mp he)
    exact ⟨_, _, hrun, .inl ⟨rfl, .dropped hs (.late hq hw hst hbusy)⟩⟩
  · have hbusy : s.service.running ≠ ∅ := fun he => hk (Sys.running_empty.mp he)
    exact ⟨_, _, hrun, .inl ⟨rfl, Told.jobbed
      ht hs (.early hq hw hst hbusy)⟩⟩

theorem Enrolled.core (he : Enrolled h pid s t) : t.core = s.core := by
  refine he.field Sys.core fun u => ?_
  simp only [Sys.core, Sys.apart, Sys.beside, Option.map_map]
  rfl

/-- A spawn job that was taken from the queue. -/
theorem Enrolled.jobbed {rest : List (Option Job)} (he : Enrolled h pid { s with buffer := rest } t)
    (ho : s.Owns) (hw : s.watching = true) (hgoing : s.stopping = false)
    (hb : s.buffer = some (.spawn h) :: rest) (hnew : ∀ p, s.active.lookup p ≠ some h) :
    Jobbed s t := by
  have hq : s.service.queue = .start h :: rest.map ticket := by
    simp only [Sys.service, hb, List.map_cons, ticket]
  have hrun : t.service.running = insert h s.service.running := by
    ext x
    simp only [Sys.service, Set.mem_ofPred_eq, Set.mem_insert_iff, he.active,
      lookup_insert_fresh he.inactive]
    constructor
    · rintro ⟨p, ⟨_, hx⟩ | hp⟩
      · exact .inl hx
      · exact .inr ⟨p, hp⟩
    · rintro (rfl | ⟨p, hp⟩)
      · exact ⟨pid, .inl ⟨rfl, rfl⟩⟩
      · exact ⟨p, .inr hp⟩
  have hservice : t.service = { s.service with
      queue := rest.map ticket
      running := insert h s.service.running
      started := s.service.started ++ [h] } := by
    have hcalls : t.calls = s.calls ++ [(h, .started, (t.procs h).proc)] := he.called.calls
    rw [← hrun]
    simp only [Sys.service, hcalls, he.field Sys.buffer fun _ => rfl,
      he.field Sys.added fun _ => rfl, he.field Sys.nextHandle fun _ => rfl,
      he.field Sys.stopping fun _ => rfl, he.field Sys.stopFlag fun _ => rfl,
      he.field Sys.stopSignum fun _ => rfl, he.field Sys.watching fun _ => rfl,
      List.filterMap_append]
    simp [startedBy, endedBy, State.terminal]
  refine ⟨he.on, ?_, he.core, .inr ⟨pid, h, _, he.fresh, he.inactive, hnew, he.children, rfl, he.active⟩, ?_,
    ⟨[], ?_, by simp⟩, he.current (ho.congr rfl rfl), he.loop (ho.congr rfl rfl)⟩
  · rw [hservice]
    exact .start hq hw hgoing
  · rw [he.called.calls, reports_append]
    exact List.append_nil _
  · exact he.called.kills.trans (List.append_nil _).symm

/-- One job from the queue. -/
theorem dispatchJob_cases (hs : Sound s) (hw : s.watching = true) :
    (∃ e t, dispatchJob s = .error e t ∧ e.Harmless) ∨
      ∃ ret t, dispatchJob s = .ok ret t ∧
        (ret = .nothing ∧ Jobbed s t ∨ ret = .stopLoop ∧ Emptied s t) := by
  have ho := hs.isolated.owns
  cases hb : s.buffer with
  | nil =>
    refine .inl ⟨.waiting, s, ?_, by simp [Halt.Harmless]⟩
    unfold dispatchJob bufferRemove
    rw [bind_apply, bind_of_ok (get_apply _), hb]
    rfl
  | cons job rest =>
    have hremove : bufferRemove s = .ok job { s with buffer := rest } := by
      unfold bufferRemove
      rw [bind_of_ok (get_apply _), hb]
      rfl
    have hiso : Isolated { s with buffer := rest } :=
      (bufferRemove_isolated.ok hs.isolated hremove).1
    unfold dispatchJob
    rw [bind_of_ok hremove]
    cases job with
    | none =>
      obtain ⟨ret, t, ht, hcases⟩ := jobNull_cases hs.on ho hw hb
      exact .inr ⟨ret, t, ht, hcases⟩
    | some job =>
      cases job with
      | stop flag signum =>
        obtain ⟨ret, t, ht, hcases⟩ := jobStop_cases hs.on ho hw hb
        exact .inr ⟨ret, t, ht, hcases⟩
      | spawn h =>
        have hmem : some (Job.spawn h) ∈ s.buffer := by
          rw [hb]
          exact List.mem_cons_self
        obtain ⟨_, hp, args, hasOnStop, hh⟩ := hs.isolated.fresh h hmem
        have hnew : ∀ p, s.active.lookup p ≠ some h := fun p hl => (hs.isolated.active p h hl).2 hmem
        have hunspawned : Unspawned h { s with buffer := rest } :=
          ⟨⟨_, hh, rfl, rfl⟩, by show (s.procs h).proc.pid = 0; rw [hp],
            by show (s.procs h).type = .nonblocking; rw [hp]⟩
        rcases jobSpawnProc_cases ⟨hiso, hs.on.queue ..⟩ hp hh hunspawned hnew with
          ⟨hstopping, ht⟩ | ⟨t, ht⟩ | ⟨hgoing, pid, t, ht, hen⟩
        · refine .inr ⟨_, _, ht, .inl ⟨rfl, .dropped hs.on ?_⟩⟩
          have hq : s.service.queue = .start h :: rest.map ticket := by
            simp only [Sys.service, hb, List.map_cons, ticket]
          exact .refuse hq hw hstopping
        · exact .inl ⟨_, t, ht, by simp [Halt.Harmless]⟩
        · exact .inr ⟨_, t, ht, .inl ⟨rfl, hen.jobbed ho hw hgoing hb hnew⟩⟩

/-- `handle_stop` has ended the run, as far as its own two descriptors go. -/
structure Halted (s t : Sys) : Prop where
  on : On t
  frame : ∃ registered loop mapOrder trace vigil pipes, t = { s with
    registered
    loop
    mapOrder
    trace
    vigil
    pipes
    stopFlag := .stopWait
    stopSignum := -1
    stopping := false
    watching := false
    running := if s.loopType = .default then s.running else false }
  control : t.loop.map SelectEvent.controlPipe = s.loop.map SelectEvent.controlPipe
  uncalled : Uncalled s t

theorem Sys.expected_unwatch (hact : t.active = s.active) (hw : s.watching = true)
    (hw' : t.watching = false) (src : Source) :
    t.Expected src ↔ s.Expected src ∧ src ≠ .sigchld ∧ src ≠ .control := by
  cases src <;> simp [Sys.Expected, hact, hw, hw']

theorem handleStop_ok (hs : On s) (hw : s.watching = true) :
    ∃ t, handleStop s = .ok () t ∧ Halted s t := by
  have hkey : ∀ fd src, s.registered.lookup fd = some src → s.keyOf src = fd :=
    fun fd src hl => ((hs.desk.keys fd src).mp hl).2
  have hsig : s.registered.lookup (s.keyOf .sigchld) = some .sigchld :=
    (hs.desk.keys _ _).mpr ⟨hw, rfl⟩
  have hctrl : s.registered.lookup (s.keyOf .control) = some .control :=
    (hs.desk.keys _ _).mpr ⟨hw, rfl⟩
  have hctrl' := (lookup_erase_key hkey hsig).mpr ⟨hctrl, by simp⟩
  have hmem : ∀ {m : AList (fun _ : Int => Source)} {fd : Int} {src : Source},
      m.lookup fd = some src → fd ∈ m := fun hl => AList.lookup_isSome.mp (by rw [hl]; rfl)
  obtain ⟨t₁, h₁, hr₁, hm₁, hf₁⟩ := removeReadEvent_ok hs.desk.mirrored (hmem hsig)
  obtain ⟨t₂, h₂, hr₂, hm₂, hf₂⟩ := removeReadEvent_ok hm₁ (by rw [hr₁]; exact hmem hctrl')
  have hrw : Rewired s t₂ := IsTrans.trans _ _ _ hf₁ hf₂
  have hlook : ∀ fd src, t₂.registered.lookup fd = some src ↔
      s.registered.lookup fd = some src ∧ src ≠ .sigchld ∧ src ≠ .control := by
    intro fd src
    have hkey' : ∀ fd src, (s.registered.erase (s.keyOf .sigchld)).lookup fd = some src →
        s.keyOf src = fd := fun fd src hl => hkey fd src (lookup_of_erase hl)
    rw [hr₂, hr₁, lookup_erase_key hkey' hctrl', lookup_erase_key hkey hsig, and_assoc]
  have hfield : ∀ {α : Type} (f : Sys → α),
      (∀ u registered loop mapOrder trace vigil,
        f { u with registered, loop, mapOrder, trace, vigil } = f u) →
      f t₂ = f s := fun f hf => hrw.field f hf
  -- whatever the last step does to the pipes and to `running`
  have hon : ∀ pipes running, On { t₂ with
      pipes
      stopFlag := .stopWait
      stopSignum := -1
      stopping := false
      watching := false
      running } := by
    intro pipes running
    refine ⟨⟨fun fd src => ?_, fun p x hp => ?_, hm₂.congr rfl rfl rfl rfl⟩, fun p x hp => ?_⟩
    · have hexp := Sys.expected_unwatch (hfield Sys.active fun _ _ _ _ _ _ => rfl) hw
        (t := { t₂ with pipes, stopFlag := .stopWait, stopSignum := -1, stopping := false,
                        watching := false, running }) rfl src
      have hk : Sys.keyOf { t₂ with
          pipes
          stopFlag := .stopWait
          stopSignum := -1
          stopping := false
          watching := false
          running } = s.keyOf := hfield Sys.keyOf fun _ _ _ _ _ _ => rfl
      rw [hexp, hk]
      refine (hlook fd src).trans ?_
      rw [hs.desk.keys]
      tauto
    · have hp' : s.active.lookup p = some x := (hfield Sys.active fun _ _ _ _ _ _ => rfl) ▸ hp
      have hhandles : t₂.handles = s.handles := hfield Sys.handles fun _ _ _ _ _ _ => rfl
      exact hhandles ▸ hs.desk.linked p x hp'
    · have hp' : s.active.lookup p = some x := (hfield Sys.active fun _ _ _ _ _ _ => rfl) ▸ hp
      have hchildren : t₂.children = s.children := hfield (·.children) fun _ _ _ _ _ _ => rfl
      refine (hs.served p x hp').congr ?_ ?_ ?_
      · exact congrFun (hfield Sys.procs fun _ _ _ _ _ _ => rfl) x
      · exact congrFun (hfield Sys.handles fun _ _ _ _ _ _ => rfl) x
      · show p ∈ t₂.children
        rw [hchildren]
        exact (hs.served p x hp').child
  obtain ⟨loop, mapOrder, trace, vigil, hframe⟩ := hrw.frame
  have hend : ∀ pipes running, ({ t₂ with
      pipes
      stopFlag := .stopWait
      stopSignum := -1
      stopping := false
      watching := false
      running } : Sys) = { s with
      registered := t₂.registered
      loop
      mapOrder
      trace
      vigil
      pipes
      stopFlag := .stopWait
      stopSignum := -1
      stopping := false
      watching := false
      running } := by
    intro pipes running
    generalize t₂.registered = r at hframe ⊢
    rw [hframe]
  have hcontrol : t₁.controlPipe = s.controlPipe := hf₁.field Sys.controlPipe fun _ _ _ _ _ _ => rfl
  have htype : t₂.loopType = s.loopType := hfield Sys.loopType fun _ _ _ _ _ _ => rfl
  have hrunning : t₂.running = s.running := hfield Sys.running fun _ _ _ _ _ _ => rfl
  have hquiet : ∀ pipes running, Uncalled s { t₂ with
      pipes
      stopFlag := .stopWait
      stopSignum := -1
      stopping := false
      watching := false
      running } := fun _ _ => IsTrans.trans _ t₂ _ hrw.told.uncalled (Uncalled.same rfl)
  have hstart : removeReadEvent s.sigchldPipe.rd s = .ok () t₁ := h₁
  have hnext : removeReadEvent t₁.controlPipe.rd t₁ = .ok () t₂ := by
    rw [hcontrol]
    exact h₂
  unfold handleStop
  rw [bind_of_ok (get_apply _), bind_of_ok hstart, bind_of_ok (get_apply _), bind_of_ok hnext,
    bind_of_ok (modify_apply ..), bind_of_ok (get_apply _)]
  rcases hm₂ with ⟨hext, _⟩ | ⟨hdef, _, e, he, _⟩
  · have hne : t₂.loopType ≠ .default := by rw [hext]; decide
    refine ⟨_, if_neg hne ▸ rfl, hon t₂.pipes false, ?_, hrw.control, hquiet ..⟩
    refine ⟨t₂.registered, loop, mapOrder, trace, vigil, t₂.pipes, ?_⟩
    rw [if_neg (htype ▸ hne)]
    exact hend ..
  · obtain ⟨pipes, hpipes⟩ := t₂.toWorld.write_frame e.controlPipe.wr [0]
    refine ⟨{ t₂ with
      pipes
      stopFlag := .stopWait
      stopSignum := -1
      stopping := false
      watching := false }, ?_, hon pipes t₂.running, ?_, hrw.control, hquiet ..⟩
    · have hrun : ∀ u : Sys, u.toWorld = t₂.toWorld →
          loopInterrupt e u = .ok () { u with pipes } := by
        intro u hu
        unfold loopInterrupt
        rw [onWorld_apply, hu, hpipes, ← hu]
      rw [if_pos hdef]
      simp only [he]
      exact hrun _ rfl
    · refine ⟨t₂.registered, loop, mapOrder, trace, vigil, pipes, ?_⟩
      rw [if_pos (htype ▸ hdef), ← hrunning]
      exact hend ..

/-- What one callback of the loop comes to, where the process is in order. -/
inductive Evented (s : Sys) (fd : Int) : Sys → Prop
  | serves {t : Sys} {rs : List (Int × WaitStatus)} (serves : Serves s t) (harvested : Harvested rs s t) :
      Evented s fd t
  | jobbed {u t : Sys} (watching : s.watching = true) (read : Drained .control s u)
      (jobbed : Jobbed u t) : Evented s fd t
  | emptied {u v t : Sys} (watching : s.watching = true) (read : Drained .control s u)
      (emptied : Emptied u v) (halted : Halted v t) : Evented s fd t
  | broken {u t : Sys} {rs : List (Int × WaitStatus)} (watching : s.watching = true)
      (source : s.registered.lookup fd = some .sigchld) (failed : readSignal s = .ok .stopLoop u)
      (serves : Serves s u) (harvested : Harvested rs s u) (halted : Halted u t) : Evented s fd t

/-- A callback that passes something on keeps the object and its handle. -/
theorem Local.serves (hl : Local h s t) (hq : Uncalled s t) : Serves s t := by
  have hservice : t.service = s.service :=
    Sys.service_eq (hl.field Sys.buffer fun _ => rfl) (hl.field Sys.added fun _ => rfl)
      (hl.field Sys.active fun _ => rfl) (hl.field Sys.nextHandle fun _ => rfl)
      (hl.field Sys.stopping fun _ => rfl) (hl.field Sys.stopFlag fun _ => rfl)
      (hl.field Sys.stopSignum fun _ => rfl) (hl.field Sys.watching fun _ => rfl) hq
  exact ⟨by rw [hservice], hl.field Sys.core fun _ => rfl, hq.kills,
    fun hs => ⟨(hl.carries hs).1, hl.streams hs .loop (by simp [Slot.owner])⟩⟩

theorem Local.on (hl : Local h s t) (hp : t.procs = s.procs) (hh : t.handles = s.handles)
    (hs : On s) : On t := by
  have hchildren : t.children = s.children := hl.field (·.children) fun _ => rfl
  refine hs.congr (hl.field Sys.registered fun _ => rfl) (hl.field Sys.active fun _ => rfl)
    (hl.field Sys.watching fun _ => rfl) (hl.field (·.sigchldPipe) fun _ => rfl)
    (hl.field Sys.controlPipe fun _ => rfl) hh hp (fun hm => ?_) fun _ _ hc => hchildren ▸ hc
  exact hm.congr (hl.field Sys.loopType fun _ => rfl) (hl.field Sys.registerFn fun _ => rfl)
    (hl.field Sys.loop fun _ => rfl) (hl.field Sys.registered fun _ => rfl)

theorem Local.harvested (hl : Local h s t) (hq : Uncalled s t) : Harvested [] s t := by
  have hactive : t.active = s.active := hl.field Sys.active fun _ => rfl
  refine .none (hl.field (·.children) fun _ => rfl) (fun p x hp => hactive ▸ hp) ?_
  rw [hq.calls, List.append_nil]

/-- The end of a process that is not reported as the end of the child. -/
theorem Finished.harvested {st : State} {proc : ProcStatus} (hf : Finished pid h [(h, st, proc)] s t)
    (hst : st ≠ .signaled ∧ st ≠ .stopped) : Harvested [] s t := by
  refine .none (hf.acts.field (·.children) fun _ => rfl) (fun p x hp => ?_) ?_
  · rw [hf.gone.active] at hp
    exact lookup_of_erase hp
  · rw [hf.called.calls, reports_append]
    simp [Pexec.reports, hst.1, hst.2]

theorem readStd_evented {slot : Slot} {cb : List UInt8 → Event} (hs : Sound s)
    (hl : s.active.lookup pid = some h) (hstd : StdSlot h slot cb) (e : Error) (fd : Int) :
    ∃ ret t, readStd (s.array slot).rd h cb e s = .ok ret t ∧ On t ∧ Evented s fd t := by
  have htype := (hs.on.served pid h hl).type
  obtain ⟨ret, t, ht, _, ⟨_, hlocal, hq, hp, hh⟩ | ⟨_, hf⟩⟩ := readStd_ends hstd e hs.on.desk hl htype
  · exact ⟨ret, t, ht, hlocal.on hp hh hs.on, .serves (hlocal.serves hq) (hlocal.harvested hq)⟩
  · exact ⟨ret, t, ht, hf.on hs.on.desk (fun p x hp _ => hs.on.served p x hp) hl,
      .serves (hf.serves hs.on.desk hl rfl rfl) (hf.harvested (by simp))⟩

theorem readClose_evented (hs : Sound s) (hl : s.active.lookup pid = some h) (fd : Int) :
    ∃ ret t, readClose h s = .ok ret t ∧ On t ∧ Evented s fd t := by
  have htype := (hs.on.served pid h hl).type
  obtain ⟨t, ht, ⟨_, hf⟩ | ⟨_, hf⟩⟩ := readClose_ends hs.on.desk hl htype
  · exact ⟨_, t, ht, hf.on hs.on.desk (fun p x hp _ => hs.on.served p x hp) hl,
      .serves (hf.serves hs.on.desk hl rfl rfl) (hf.harvested (by simp))⟩
  · exact ⟨_, t, ht, hf.on hs.on.desk (fun p x hp _ => hs.on.served p x hp) hl,
      .serves (hf.serves hs.on.desk hl rfl rfl) (hf.harvested (by simp))⟩

theorem onSigchldReady_evented {fd : Int} (hs : Sound s) (hw : s.watching = true)
    (hsrc : s.registered.lookup fd = some .sigchld) :
    Outcome (fun _ t => On t ∧ Evented s fd t) (fun e _ => e.Harmless) (onSigchldReady s) := by
  have hread := readSignal_serves hs
  unfold onSigchldReady
  cases hr : readSignal s with
  | error e t =>
    rw [hr] at hread
    have hwait : e = .waiting := hread
    rw [bind_of_error hr, hwait]
    show Halt.Harmless .waiting
    simp [Halt.Harmless]
  | ok ret u =>
    rw [hr] at hread
    obtain ⟨hsound, hserves, rs, hharvested⟩ := hread
    rw [bind_of_ok hr]
    split
    next hret =>
      subst hret
      have hwu : u.watching = true := (congrArg (·.2.2.2.1) hserves.core).trans hw
      obtain ⟨t, ht, hhalted⟩ := handleStop_ok hsound.on hwu
      rw [ht]
      exact ⟨hhalted.on, .broken hw hsrc hr hserves hharvested hhalted⟩
    next => exact ⟨hsound.on, .serves hserves hharvested⟩

/-- A byte was read from the control pipe, and one job was done. -/
inductive Controlled (s t : Sys) : Prop
  | jobbed {u : Sys} (read : Drained .control s u) (jobbed : Jobbed u t) : Controlled s t
  | emptied {u v : Sys} (read : Drained .control s u) (emptied : Emptied u v) (halted : Halted v t) :
      Controlled s t

theorem onControlReady_controlled {fd : Int} (hs : Sound s) (hw : s.watching = true)
    (hfd : fd = s.controlPipe.rd) :
    Outcome (fun _ t => Controlled s t) (fun e _ => e.Harmless) (onControlReady fd s) := by
  obtain ⟨a, u, hu, hd⟩ := readRetry_drained .control hs.isolated.owns 1
  have hiso : Isolated u := by
    have := (readRetry_isolated .control (fun x => ⟨by simp, by simp⟩) (s.array .control).rd 1).ok
      ⟨hs.isolated, rfl⟩ hu
    exact this
  have hsu : Sound u := ⟨hiso, hd.on hs.on⟩
  have hwu : u.watching = true := (hd.field Sys.watching fun _ _ _ => rfl).trans hw
  have hu' : readRetry fd 1 s = .ok a u := by
    rw [hfd]
    exact hu
  unfold onControlReady
  rw [bind_of_ok hu']
  cases a with
  | error e => simp [Halt.Harmless, Outcome]
  | ok data =>
    dsimp only
    rcases dispatchJob_cases hsu hwu with ⟨e, t, ht, he⟩ | ⟨ret, v, hv, ⟨rfl, hjob⟩ | ⟨rfl, hempty⟩⟩
    · rw [bind_of_error ht]
      exact he
    · rw [bind_of_ok hv]
      exact .jobbed hd hjob
    · rw [bind_of_ok hv, if_pos rfl]
      have hon : On v := by
        rw [hempty.frame]
        exact hsu.on.queue ..
      have hwv : v.watching = true := by
        rw [hempty.frame]
        exact hwu
      obtain ⟨t, ht, hhalted⟩ := handleStop_ok hon hwv
      rw [ht]
      exact .emptied hd hempty hhalted

theorem onControlReady_evented {fd : Int} (hs : Sound s) (hw : s.watching = true)
    (hfd : fd = s.controlPipe.rd) :
    Outcome (fun _ t => On t ∧ Evented s fd t) (fun e _ => e.Harmless) (onControlReady fd s) := by
  refine (onControlReady_controlled hs hw hfd).imp (fun _ t ht => ?_) fun _ _ => id
  cases ht with
  | jobbed hd hjob => exact ⟨hjob.on, .jobbed hw hd hjob⟩
  | emptied hd hempty hhalted => exact ⟨hhalted.on, .emptied hw hd hempty hhalted⟩

theorem discard_of_ok {α : Type} {x : Prog α} {a : α} (hx : x s = .ok a t) :
    (discard x : Prog Unit) s = .ok () t :=
  (bind_of_ok hx : (x >>= fun _ => pure ()) s = .ok () t)

/-- What is registered is called, and leaves the process in order. -/
theorem doAction_evented {fd : Int} (hs : Sound s) (hm : fd ∈ s.registered) :
    Outcome (fun _ t => On t ∧ Evented s fd t) (fun e _ => e.Harmless) (doAction fd s) := by
  obtain ⟨src, hsrc⟩ := Option.isSome_iff_exists.mp (AList.lookup_isSome.mpr hm)
  obtain ⟨hexp, hkey⟩ := (hs.on.desk.keys fd src).mp hsrc
  unfold doAction
  rw [bind_of_ok (get_apply _)]
  simp only [hsrc]
  cases src with
  | sigchld => exact onSigchldReady_evented hs hexp hsrc
  | control => exact onControlReady_evented hs hexp hkey.symm
  | readClose h =>
    obtain ⟨pid, hl⟩ := hexp
    obtain ⟨ret, t, ht, hon, hev⟩ := readClose_evented hs hl fd
    have hrun : runSource fd (.readClose h) s = .ok () t := discard_of_ok ht
    rw [hrun]
    exact ⟨hon, hev⟩
  | readStdout h =>
    obtain ⟨pid, hl⟩ := hexp
    obtain ⟨ret, t, ht, hon, hev⟩ := readStd_evented hs hl .stdout .stdoutPipeReadError fd
    have hrun : runSource fd (.readStdout h) s = .ok () t := discard_of_ok (x := readStdout h) ht
    rw [hrun]
    exact ⟨hon, hev⟩
  | readStderr h =>
    obtain ⟨pid, hl⟩ := hexp
    obtain ⟨ret, t, ht, hon, hev⟩ := readStd_evented hs hl .stderr .stderrPipeReadError fd
    have hrun : runSource fd (.readStderr h) s = .ok () t := discard_of_ok (x := readStderr h) ht
    rw [hrun]
    exact ⟨hon, hev⟩

end Pexec
