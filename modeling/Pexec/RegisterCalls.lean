import Pexec.Departures
import Pexec.EventRules
import Pexec.Lib.Watchlist
import Pexec.Rerunning
import Pexec.SpawnEmissions

namespace Pexec

open Effect Runs Observer Watchlist

/-- A call of the user's `register_event`. -/
def Event.registration : Event → Option (Int × Bool)
  | .register fd add => some (fd, add)
  | _ => none

/-- What an external loop has been told, in order. -/
def Sys.registrations (s : Sys) : List (Int × Bool) := s.trace.filterMap Event.registration

/-- Who follows the calls of `register_event` has what is registered, while a run uses it. -/
structure Followed (s : Sys) : Prop where
  set : ∃ set, reads listen ∅ s.registrations = some set ∧
    ∀ fd, fd ∈ set ↔ s.registerFn = some .user ∧ fd ∈ s.registered
  mode : s.registerFn = some .user → s.loopType = .external

/-- A part of a step that leaves the registrations as they are. -/
structure Unlisted (s t : Sys) : Prop where
  registrations : t.registrations = s.registrations
  registered : t.registered = s.registered
  registerFn : t.registerFn = s.registerFn
  loopType : t.loopType = s.loopType

variable {h : Nat} {pid fd : Int} {cb : Source} {s t u : Sys}

instance : IsPreorder Sys Unlisted where
  refl _ := ⟨rfl, rfl, rfl, rfl⟩
  trans _ _ _ hst htu := ⟨htu.registrations.trans hst.registrations, htu.registered.trans hst.registered,
    htu.registerFn.trans hst.registerFn, htu.loopType.trans hst.loopType⟩

theorem Followed.same (hs : Followed s) (hu : Unlisted s t) : Followed t := by
  obtain ⟨set, hreads, hset⟩ := hs.set
  refine ⟨⟨set, by rw [hu.registrations, hreads], ?_⟩, ?_⟩
  · rw [hu.registerFn, hu.registered]
    exact hset
  · rw [hu.registerFn, hu.loopType]
    exact hs.mode

/-- Events that are no calls of `register_event`. -/
theorem registrations_append {new : List Event} (ht : t.trace = s.trace ++ new)
    (hnew : ∀ e ∈ new, e.registration = none) : t.registrations = s.registrations := by
  unfold Sys.registrations
  rw [ht, List.filterMap_append, List.filterMap_eq_nil_iff.mpr hnew, List.append_nil]

theorem registrations_snoc {e : Event} (ht : t.trace = s.trace ++ [e]) (he : e.registration = none) :
    t.registrations = s.registrations :=
  registrations_append ht fun _ hm => by rwa [List.mem_singleton.mp hm]

theorem Event.registration_of_owner {e : Event} (he : e.owner = some h) : e.registration = none := by
  cases e <;> first | rfl | cases he

theorem Tells.registrations (ht : Tells (fun e => e.registration = none) s t) :
    t.registrations = s.registrations := by
  obtain ⟨new, htrace, hnew⟩ := ht.events
  exact registrations_append htrace hnew

theorem Says.unlisted (hs : Says h s t) : Unlisted s t := by
  obtain ⟨new, htrace, hnew⟩ := hs.events
  exact ⟨registrations_append htrace fun e hm => Event.registration_of_owner (hnew e hm), hs.registered,
    hs.idle.acts.field Sys.registerFn fun _ => rfl, hs.idle.acts.field Sys.loopType fun _ => rfl⟩

theorem loopAdd_unlisted (fd : Int) : Moves Unlisted (loopAdd fd) := by
  unfold loopAdd
  refine Moves.bind Moves.get fun s => ?_
  split
  · exact Moves.throw _
  · have horder : Moves Unlisted nextOrder := fun _ => ⟨rfl, rfl, rfl, rfl⟩
    refine Moves.bind horder fun order => ?_
    split
    · exact Moves.modify fun _ => ⟨rfl, rfl, rfl, rfl⟩
    · exact Moves.throw _

theorem loopRemove_unlisted (fd : Int) : Moves Unlisted (loopRemove fd) := by
  unfold loopRemove
  refine Moves.bind Moves.get fun s => ?_
  split
  · exact Moves.throw _
  · split
    · exact Moves.modify fun _ => ⟨rfl, rfl, rfl, rfl⟩
    · exact Moves.throw _

/-- The registrations change, and `register_event` is called for it if it is the user's. -/
theorem Followed.change {registered : AList fun _ : Int => Source} {call : Prog Unit} {add : Bool}
    (hs : Followed s) (hloop : Moves Unlisted call)
    (hnext : ∀ set : Finset Int, (∀ x, x ∈ set ↔ x ∈ s.registered) →
      reads listen ∅ s.registrations = some set → ∃ set', reads listen ∅ (s.registrations ++ [(fd, add)]) = some set' ∧
        ∀ x, x ∈ set' ↔ x ∈ registered)
    (ht : (do
      match (← get).registerFn with
      | none => pure ()
      | some .loop => call
      | some .user => emit (.register fd add) : Prog Unit) { s with registered } = .ok () t) :
    Followed t ∧ t.registered = registered := by
  obtain ⟨set, hreads, hset⟩ := hs.set
  obtain ⟨u, hu⟩ : ∃ u : Sys, u = { s with registered } := ⟨_, rfl⟩
  have hregistered : u.registered = registered := by rw [hu]
  have hquiet : u.registerFn ≠ some .user → Followed u := by
    rw [hu]
    exact fun hne => ⟨⟨set, hreads, fun x => iff_of_false (fun hm => hne ((hset x).mp hm).1) fun hx => hne hx.1⟩,
      hs.mode⟩
  rw [← hu, bind_of_ok (get_apply _)] at ht
  rcases hfn : u.registerFn with _ | _ | _
  · rw [hfn] at ht
    cases ht
    exact ⟨hquiet (hfn ▸ nofun), hregistered⟩
  · rw [hfn] at ht
    have hunlisted := hloop.ok ht
    exact ⟨(hquiet (hfn ▸ nofun)).same hunlisted, hunlisted.registered.trans hregistered⟩
  · rw [hfn] at ht
    cases ht
    subst hu
    obtain ⟨set', hreads', hset'⟩ := hnext set (fun x => (hset x).trans (and_iff_right hfn)) hreads
    refine ⟨⟨⟨set', ?_, fun x => (hset' x).trans (and_iff_right hfn).symm⟩, hs.mode⟩, rfl⟩
    rw [← hreads']
    simp only [Sys.registrations, World.emit, List.filterMap_append]
    rfl

theorem addReadEvent_followed (hs : Followed s) (hn : fd ∉ s.registered) (ht : addReadEvent fd cb s = .ok () t) :
    Followed t ∧ t.registered = s.registered.insert fd cb := by
  rw [addReadEvent_apply] at ht
  refine hs.change (loopAdd_unlisted fd) (fun set hset hreads => ?_) ht
  refine ⟨insert fd set, reads_add hreads fun hm => hn ((hset fd).mp hm), fun x => ?_⟩
  rw [Finset.mem_insert, AList.mem_insert, hset]

theorem removeReadEvent_followed (hs : Followed s) (hm : fd ∈ s.registered) (ht : removeReadEvent fd s = .ok () t) :
    Followed t ∧ t.registered = s.registered.erase fd := by
  rw [removeReadEvent_apply] at ht
  refine hs.change (loopRemove_unlisted fd) (fun set hset hreads => ?_) ht
  refine ⟨set.erase fd, reads_remove hreads ((hset fd).mpr hm), fun x => ?_⟩
  rw [Finset.mem_erase, AList.mem_erase, hset]

/-- A callback is removed that is registered under its key. -/
theorem removeSource_followed {key : Source → Int} {src : Source} (hs : Followed s)
    (hkey : ∀ fd x, s.registered.lookup fd = some x → key x = fd) (hsrc : s.registered.lookup (key src) = some src)
    (ht : removeReadEvent (key src) s = .ok () t) :
    Followed t ∧ ∀ fd x, t.registered.lookup fd = some x ↔ s.registered.lookup fd = some x ∧ x ≠ src := by
  obtain ⟨hf, hreg⟩ := removeReadEvent_followed hs (AList.lookup_isSome.mp (hsrc ▸ rfl)) ht
  exact ⟨hf, fun fd x => hreg ▸ lookup_erase_key hkey hsrc⟩

theorem write_unlisted (f : Sys → Int) (data : List UInt8) :
    Moves Unlisted (modify fun s => { s with toWorld := s.toWorld.write (f s) data } : Prog Unit) := by
  refine Moves.modify fun s => ?_
  obtain ⟨pipes, hw⟩ := s.toWorld.write_frame (f s) data
  rw [hw]
  exact ⟨rfl, rfl, rfl, rfl⟩

theorem sendJob_unlisted (job : Option Job) : Moves Unlisted (sendJob job) :=
  have hadd : Moves Unlisted (bufferAdd job) := fun _ => ⟨rfl, rfl, rfl, rfl⟩
  Moves.bind hadd fun _ => write_unlisted (·.controlPipe.wr) [0]

/-- What happens to an active process: three removals, and what is sent after them. -/
theorem onProcStopped_removes (hdesk : Desk s) (hl : s.active.lookup pid = some h) (ht : onProcStopped h pid s = .ok () t) :
    ∃ u v w, removeReadEvent (s.keyOf (.readClose h)) s = .ok () u ∧ removeReadEvent (s.keyOf (.readStdout h)) u = .ok () v ∧
      removeReadEvent (s.keyOf (.readStderr h)) v = .ok () w ∧ Unlisted w t ∧ Notes w t := by
  obtain ⟨hd, hh, _⟩ := hdesk.linked pid h hl
  have hfds : s.fdsOf h = hd.fds := by simp [Sys.fdsOf, hh]
  unfold onProcStopped at ht
  rw [bind_of_ok (get_apply _), bind_of_ok (show assert (alive s h) .procAlive s = .ok () s by
    rw [Sys.alive_of_lookup hl]; rfl), bind_of_ok (get_apply _)] at ht
  simp only [hh] at ht
  obtain ⟨_, u, hu, ht⟩ := bind_eq_ok.mp ht
  obtain ⟨_, v, hv, ht⟩ := bind_eq_ok.mp ht
  obtain ⟨_, w, hw, ht⟩ := bind_eq_ok.mp ht
  have herase : Moves Unlisted (modify fun s => { s with active := s.active.erase pid } : Prog Unit) :=
    fun _ => ⟨rfl, rfl, rfl, rfl⟩
  have hnotes : Moves Notes (modify fun s => { s with active := s.active.erase pid } : Prog Unit) :=
    modify_notes fun _ => ⟨rfl, rfl⟩
  refine ⟨u, v, w, ?_, ?_, ?_, Moves.ok (Moves.bind herase fun _ => Moves.bind Moves.get fun s =>
    Moves.ite (fun _ => sendJob_unlisted none) fun _ => Moves.pure _) ht, Moves.ok (Moves.bind hnotes fun _ =>
    Moves.bind Moves.get fun s => Moves.ite (fun _ => sendJob_notes none) fun _ => Moves.pure _) ht⟩
  · simpa only [Sys.keyOf, hfds] using hu
  · simpa only [Sys.keyOf, hfds] using hv
  · simpa only [Sys.keyOf, hfds] using hw

/-- The three callbacks of a process are removed. -/
theorem onProcStopped_followed (hdesk : Desk s) (hl : s.active.lookup pid = some h) (hs : Followed s)
    (ht : onProcStopped h pid s = .ok () t) : Followed t := by
  have hkey : ∀ fd x, s.registered.lookup fd = some x → s.keyOf x = fd := fun fd x hx => ((hdesk.keys fd x).mp hx).2
  have hown : ∀ src : Source, s.Expected src → s.registered.lookup (s.keyOf src) = some src := fun src he =>
    (hdesk.keys _ _).mpr ⟨he, rfl⟩
  obtain ⟨u, v, w, hu, hv, hw, hrest, _⟩ := onProcStopped_removes hdesk hl ht
  obtain ⟨hfu, hlu⟩ := removeSource_followed hs hkey (hown (.readClose h) ⟨pid, hl⟩) hu
  obtain ⟨hfv, hlv⟩ := removeSource_followed hfu (fun fd x hx => hkey fd x ((hlu fd x).mp hx).1)
    ((hlu _ _).mpr ⟨hown (.readStdout h) ⟨pid, hl⟩, by simp⟩) hv
  obtain ⟨hfw, _⟩ := removeSource_followed hfv (fun fd x hx => hkey fd x ((hlu fd x).mp ((hlv fd x).mp hx).1).1)
    ((hlv _ _).mpr ⟨(hlu _ _).mpr ⟨hown (.readStderr h) ⟨pid, hl⟩, by simp⟩, by simp⟩) hw
  exact hfw.same hrest

theorem handleStop_removes (hon : On s) (hw : s.watching = true) (ht : handleStop s = .ok () t) :
    ∃ u v, removeReadEvent (s.keyOf .sigchld) s = .ok () u ∧ removeReadEvent (s.keyOf .control) u = .ok () v ∧
      Unlisted v t ∧ Notes v t := by
  unfold handleStop at ht
  rw [bind_of_ok (get_apply _)] at ht
  obtain ⟨_, u, hu, ht⟩ := bind_eq_ok.mp ht
  rw [bind_of_ok (get_apply _)] at ht
  obtain ⟨_, v, hv, ht⟩ := bind_eq_ok.mp ht
  have hmem : s.keyOf .sigchld ∈ s.registered :=
    AList.lookup_isSome.mp (by rw [(hon.desk.keys _ .sigchld).mpr ⟨hw, rfl⟩]; rfl)
  obtain ⟨u', hu', _, _, hrw⟩ := removeReadEvent_ok hon.desk.mirrored hmem
  cases hu.symm.trans hu'
  rw [show u.controlPipe.rd = s.keyOf .control from hrw.field (·.controlPipe.rd) fun _ _ _ _ _ _ => rfl] at hv
  refine ⟨u, v, hu, hv, Moves.ok (Moves.bind (Moves.modify fun _ => ⟨rfl, rfl, rfl, rfl⟩) fun _ => Moves.bind Moves.get
    fun s => Moves.ite (fun _ => ?_) fun _ => Moves.modify fun _ => ⟨rfl, rfl, rfl, rfl⟩) ht, Moves.ok (Moves.bind
    (Moves.modify fun _ => .same rfl rfl) fun _ => Moves.bind Moves.get fun s => Moves.ite (fun _ => ?_) fun _ =>
    Moves.modify fun _ => .same rfl rfl) ht⟩
  · split
    · exact write_unlisted (fun _ => _) [0]
    · exact Moves.throw _
  · split
    · exact loopInterrupt_notes _
    · exact Moves.throw _

/-- The two callbacks of `pexec_multi` itself are removed. -/
theorem handleStop_followed (hon : On s) (hw : s.watching = true) (hs : Followed s)
    (ht : handleStop s = .ok () t) : Followed t := by
  have hkey : ∀ fd x, s.registered.lookup fd = some x → s.keyOf x = fd := fun fd x hx =>
    ((hon.desk.keys fd x).mp hx).2
  have hown : ∀ src : Source, s.Expected src → s.registered.lookup (s.keyOf src) = some src := fun src he =>
    (hon.desk.keys _ _).mpr ⟨he, rfl⟩
  obtain ⟨u, v, hu, hv, hrest, _⟩ := handleStop_removes hon hw ht
  obtain ⟨hfu, hlu⟩ := removeSource_followed hs hkey (hown .sigchld hw) hu
  obtain ⟨hfv, _⟩ := removeSource_followed hfu (fun fd x hx => hkey fd x ((hlu fd x).mp hx).1)
    ((hlu _ _).mpr ⟨hown .control hw, by simp⟩) hv
  exact hfv.same hrest

theorem Departs.followed (hd : Departs h pid s t) (hdesk : Desk s) (hl : s.active.lookup pid = some h)
    (hs : Followed s) : Followed t := by
  obtain ⟨u, hsaid, _, ht⟩ := hd
  exact onProcStopped_followed (hsaid.idle.desk hdesk) (hsaid.idle.active ▸ hl) (hs.same hsaid.unlisted) ht

theorem Drained.unlisted {slot : Slot} (hd : Drained slot s t) : Unlisted s t :=
  ⟨hd.field Sys.registrations fun _ _ _ => rfl, hd.field Sys.registered fun _ _ _ => rfl,
    hd.field Sys.registerFn fun _ _ _ => rfl, hd.field Sys.loopType fun _ _ _ => rfl⟩

theorem onSignal_followed {status : WaitStatus} (hs : Sound s) (hf : Followed s) (hdead : Terminated status)
    (ht : onSignal pid status (s.reaped pid status) = .ok () t) : Followed t := by
  have hunlisted : Unlisted s (s.reaped pid status) :=
    ⟨registrations_snoc rfl rfl, rfl, rfl, rfl⟩
  have hfr := hf.same hunlisted
  unfold onSignal at ht
  rw [bind_of_ok (get_apply _), show (s.reaped pid status).active = s.active from rfl] at ht
  cases ha : s.active.lookup pid with
  | none =>
    rw [ha] at ht
    cases ht
    exact hfr
  | some h =>
    rw [ha] at ht
    have hdesk : Desk (s.reaped pid status) := reaped_desk hs.on.desk pid status
    exact ((updateStatus_leaves (s := s.reaped pid status) (hs.on.served pid h ha).type hdead ht).departs hdesk ha).followed hdesk ha hfr

theorem sigchldKeeps_followed : SigchldKeeps Followed where
  read {s _ _} hs hf hr := by
    have hd := readSignalFrom_drained (s.readFaults.length + 4) 4 [] s hs.isolated.owns
    rw [hr] at hd
    exact hf.same hd.unlisted
  mask {s} block _ hf := by
    obtain ⟨faults, sigchldBlocked, hw⟩ := s.toWorld.sigprocmask_frame block
    refine hf.same ?_
    rw [hw]
    exact ⟨rfl, rfl, rfl, rfl⟩
  error _ hf ht := by
    have haside := (handlerProcessError_aside _).ok ht
    exact hf.same ⟨((handlerProcessError_tells (fun _ => rfl) _).ok ht).registrations,
      haside.field Sys.registered fun _ => rfl, haside.field Sys.registerFn fun _ => rfl,
      haside.field Sys.loopType fun _ => rfl⟩
  waited r _ hf := hf.same ⟨registrations_snoc rfl rfl, rfl, rfl, rfl⟩
  signal {_ _ _ status} hs hf ht := onSignal_followed hs hf status.2 ht

/-- A spawn job that goes through: the process is started, and then its callbacks are registered. -/
theorem jobSpawnProc_adds {hd : Handle} (hp : s.procs h = { type := .nonblocking }) (hh : s.handles h = some hd)
    (hu : Unspawned h s) (hgoing : s.stopping = false) {ret : EventReturn} (ht : jobSpawnProc h s = .ok ret t) :
    ∃ pid u v w, handleExec h s = .ok () u ∧ Spawned h pid s u ∧
      addReadEvent (u.array (.watch h)).rd (.readClose h) (u.activated h pid) = .ok () v ∧
      addReadEvent (u.array (.stdout h)).rd (.readStdout h) v = .ok () w ∧
      addReadEvent (u.array (.stderr h)).rd (.readStderr h) w = .ok () t := by
  unfold jobSpawnProc at ht
  rw [bind_of_ok (get_apply _), if_neg (by rw [hgoing]; decide)] at ht
  rcases handleExec_cases hh hp hu with ⟨u, hexec, hpid⟩ | ⟨pid, u, hexec, hsp⟩
  · rw [bind_of_ok hexec, bind_of_ok (get_apply _), hpid] at ht
    cases ht
  · rw [bind_of_ok hexec, bind_of_ok (get_apply _), hsp.handlePid,
      bind_of_ok (show assert (decide (0 < pid)) .pidPositive u = .ok () u by rw [decide_eq_true hsp.pos]; rfl),
      bind_of_ok (modify_apply ..), bind_of_ok (modify_apply ..), bind_of_ok (get_apply _)] at ht
    have hfds : (((u.activated h pid).handles h).map Handle.fds).getD {} = (u.procs h).getFds :=
      hsp.served.activated.fds
    obtain ⟨_, v, hv, ht⟩ := bind_eq_ok.mp ht
    obtain ⟨_, w, hw, ht⟩ := bind_eq_ok.mp ht
    obtain ⟨_, y, hy, ht⟩ := bind_eq_ok.mp ht
    cases ht
    refine ⟨pid, u, v, w, hexec, hsp, ?_, ?_, ?_⟩
    · rw [← hv]
      exact congrArg (fun fds : PexecFds => addReadEvent fds.watchCloseWrite _ _) hfds.symm
    · rw [← hw]
      exact congrArg (fun fds : PexecFds => addReadEvent fds.stdoutRead _ _) hfds.symm
    · rw [← hy]
      exact congrArg (fun fds : PexecFds => addReadEvent fds.stderrRead _ _) hfds.symm

/-- The callbacks of a new process are registered. -/
theorem jobSpawnProc_followed {hd : Handle} (hs : Sound s) (hp : s.procs h = { type := .nonblocking })
    (hh : s.handles h = some hd) (hu : Unspawned h s) (hnew : ∀ p, s.active.lookup p ≠ some h)
    (hgoing : s.stopping = false) (hf : Followed s) {ret : EventReturn} (ht : jobSpawnProc h s = .ok ret t) :
    Followed t := by
  obtain ⟨pid, u, v, w, hexec, hsp, hv, hw, hy⟩ := jobSpawnProc_adds hp hh hu hgoing ht
  obtain ⟨stdin, userStop, proc, htold, _⟩ := handleExec_told hh hu hexec (by rw [hsp.handlePid]; exact Int.ne_of_gt hsp.pos)
  have hunlisted : Unlisted s (u.activated h pid) := by
    refine ⟨registrations_append (t := u) htold fun e hm => ?_, hsp.field Sys.registered fun _ => rfl,
      hsp.field Sys.registerFn fun _ => rfl, hsp.field Sys.loopType fun _ => rfl⟩
    rcases List.mem_cons.mp hm with rfl | hm
    · rfl
    · rw [List.mem_singleton.mp hm]
      rfl
  have hfu := hf.same hunlisted
  have howns := hsp.opens.owns hs.isolated.owns
  have hfresh : ∀ slot ∈ objectSlots h, (u.array slot).rd ∉ u.registered := fun slot hslot =>
    (hsp.fds_new hs hnew hslot).1
  have hne : ∀ {i j : Slot}, i ≠ j → i ∈ objectSlots h → (u.array i).rd ≠ (u.array j).rd := fun hij hi =>
    (Owned.rd_ne howns hij (hsp.served.ready _ hi)).1
  obtain ⟨hfv, hrv⟩ := addReadEvent_followed hfu (hfresh (.watch h) (by simp [objectSlots])) hv
  obtain ⟨hfw, hrw⟩ := addReadEvent_followed hfv (by
    rw [hrv, AList.mem_insert]
    exact not_or.mpr ⟨hne (by simp) (by simp [objectSlots]), hfresh (.stdout h) (by simp [objectSlots])⟩) hw
  exact (addReadEvent_followed hfw (by
    rw [hrw, hrv, AList.mem_insert, AList.mem_insert]
    exact not_or.mpr ⟨hne (by simp) (by simp [objectSlots]), not_or.mpr ⟨hne (by simp) (by simp [objectSlots]),
      hfresh (.stderr h) (by simp [objectSlots])⟩⟩) hy).1

theorem jobsKeep_followed : JobsKeep Followed where
  read hf hd := hf.same hd.unlisted
  take _ hf := hf.same ⟨rfl, rfl, rfl, rfl⟩
  order _ _ hf := hf.same ⟨rfl, rfl, rfl, rfl⟩
  told _ hf htold htells := hf.same ⟨(htells.mono fun _ ⟨_, _, he⟩ => he ▸ rfl).registrations,
    htold.field Sys.registered fun _ _ _ _ => rfl, htold.field Sys.registerFn fun _ _ _ _ => rfl,
    htold.field Sys.loopType fun _ _ _ _ => rfl⟩
  spawn hs hp hh hu hnew hgoing hf ht _ := jobSpawnProc_followed hs hp hh hu hnew hgoing hf ht
  stop hon hw hf ht := handleStop_followed hon hw hf ht

theorem readRetry_unlisted (fd : Int) (count : Nat) : Moves Unlisted (readRetry fd count) := by
  intro s
  obtain ⟨readFaults, pipes, hw⟩ := World.readRetry_frame fd count s.readFaults s.toWorld
  unfold readRetry
  rw [call_apply, hw]
  exact ⟨rfl, rfl, rfl, rfl⟩

theorem runFinish_unlisted : Moves Unlisted runFinish := by
  intro s
  obtain ⟨t, ht, hend⟩ := runFinish_ok s
  have htells := (runFinish_tells (P := fun e => e.registration = none) fun _ => rfl).ok ht
  rw [ht]
  exact ⟨htells.registrations, hend.field Sys.registered fun _ => rfl, hend.field Sys.registerFn fun _ => rfl,
    hend.field Sys.loopType fun _ => rfl⟩

theorem interrupted_unlisted {fd : Int} : Moves Unlisted (do
    if (← loopCallback .interrupt fd) = .stopLoop then runFinish : Prog Unit) := by
  have hcontrol : Moves Unlisted (loopCallback .interrupt fd) := by
    refine Moves.bind (readRetry_unlisted fd 1) fun answer => ?_
    cases answer with
    | error => exact Moves.throw _
    | ok => exact Moves.pure _
  exact Moves.bind hcontrol fun _ => Moves.ite (fun _ => runFinish_unlisted) fun _ => Moves.pure _

theorem multiProcessError_unlisted (e : Error) : Moves Unlisted (multiProcessError e) :=
  Moves.bind (Moves.modify fun _ => ⟨rfl, rfl, rfl, rfl⟩) fun _ => Moves.modify fun _ =>
    ⟨registrations_snoc rfl rfl, rfl, rfl, rfl⟩

theorem selectFails_unlisted : Moves Unlisted selectFails :=
  Moves.bind (multiProcessError_unlisted _) fun _ => runFinish_unlisted

theorem callbacksKeep_followed : CallbacksKeep Followed Followed where
  sigchld hs hw hf ht := sigchldKeeps_followed.ready_keeps hs hf ht fun _ hsound hwu hfu hstop =>
    handleStop_followed hsound.on (hwu.trans hw) hfu hstop
  control hs hw hf ht := jobsKeep_followed.ready_keeps hs hw hf ht
  close hs hl hf ht :=
    ((readClose_leaves (hs.on.served _ _ hl).type ht).departs hs.on.desk hl).followed hs.on.desk hl hf
  output hs hl hstd hf ht := by
    rcases readStd_leaves hstd _ (hs.on.served _ _ hl).type ht with ⟨hsaid, _⟩ | hleft
    · exact hf.same hsaid.unlisted
    · exact (hleft.departs hs.on.desk hl).followed hs.on.desk hl hf
  interrupt _ _ hf ht := hf.same (interrupted_unlisted.ok ht)

/-- Between runs nothing is registered, whoever registers. -/
theorem Followed.bare (hs : Followed s) (hr : s.registered = ∅) (ht : t.registered = ∅)
    (hlist : t.registrations = s.registrations) (hmode : t.registerFn = some .user → t.loopType = .external) :
    Followed t := by
  obtain ⟨set, hreads, hset⟩ := hs.set
  have hnone : ∀ {fd : Int} {p : AList fun _ : Int => Source}, p = ∅ → fd ∉ p := fun hp => hp ▸ AList.notMem_empty _
  exact ⟨⟨set, by rw [hlist, hreads], fun fd => iff_of_false (fun hm => hnone hr ((hset fd).mp hm).2)
    fun hx => hnone ht hx.2⟩, hmode⟩

theorem runPrelude_followed {type : LoopType} (hiso : Isolated s) (hr : s.registered = ∅) (hf : Followed s)
    (ht : runPrelude type s = .ok () t) : Followed t ∧ Ready type s t := by
  rcases runPrelude_cases type hiso with ⟨u, hu⟩ | ⟨u, hu, hready⟩
  · cases ht.symm.trans hu
  · cases ht.symm.trans hu
    refine ⟨hf.bare hr (hready.registered.trans hr) ?_ fun huser => ?_, hready⟩
    · cases type with
      | external =>
        cases hu
        rfl
      | default => exact (makeLoop_tells.ok (show makeLoop { s with loopType := .default } = .ok () t from hu)).registrations
    · rcases hready.mirrored hr with ⟨hext, _⟩ | ⟨_, hloop, _⟩
      · exact hext
      · cases hloop.symm.trans huser

/-- `run` registers its two descriptors, or nothing. -/
theorem startRun_followed {type : LoopType} (hiso : Isolated s) (hc : s.controlPipe.rd ≠ -1)
    (hr : s.registered = ∅) (hf : Followed s) (ht : startRun type s = .ok () t) : Followed t := by
  rcases runPrelude_cases type hiso with ⟨u, hu⟩ | ⟨u, hu, _⟩
  · cases (startRun_of_error hu).symm.trans ht
  obtain ⟨hfu, hready⟩ := runPrelude_followed hiso hr hf hu
  rw [startRun_of_prelude hu] at ht
  obtain ⟨_, v, hv, ht⟩ := bind_eq_ok.mp ht
  cases ht
  obtain ⟨_, w, hw, hv⟩ := bind_eq_ok.mp hv
  obtain ⟨_, w', hw', hre⟩ := replaceSigchld_rehandled u
  cases hw.symm.trans hw'
  have hisow := replaceSigchld_isolated.ok hready.isolated hw
  have hfw : Followed w := hfu.same ⟨((replaceSigchld_tells fun _ => rfl).ok hw).registrations,
    hre.field Sys.registered fun _ => rfl, hre.field Sys.registerFn fun _ => rfl, hre.field Sys.loopType fun _ => rfl⟩
  rw [bind_of_ok (get_apply _)] at hv
  cases hsig : w.sigchld with
  | none =>
    rw [hsig] at hv
    cases hv
    exact hfw
  | some handler =>
    rw [hsig] at hv
    dsimp only at hv
    split at hv
    next =>
      obtain ⟨_, x, hx, hv⟩ := bind_eq_ok.mp hv
      cases hv
      exact hfw.same ((multiProcessError_unlisted _).ok hx)
    next =>
      have hregw : w.registered = ∅ := (hre.field Sys.registered fun _ => rfl).trans (hready.registered.trans hr)
      have hctrl : w.controlPipe = s.controlPipe := by
        have h₁ : w.controlPipe = u.controlPipe := hre.field Sys.controlPipe fun _ => rfl
        have h₂ := congrArg Sys.controlPipe hready.frame
        exact h₁.trans h₂
      have hne : w.controlPipe.rd ≠ w.sigchldPipe.rd :=
        (Owned.rd_ne hisow.owns (i := .control) (j := .sigchld) (by simp) (show w.controlPipe.rd ≠ -1 from hctrl ▸ hc)).1
      rw [bind_of_ok (modify_apply ..), bind_of_ok (get_apply _)] at hv
      obtain ⟨_, x, hx, hv⟩ := bind_eq_ok.mp hv
      rw [bind_of_ok (get_apply _)] at hv
      obtain ⟨_, y, hy, hv⟩ := bind_eq_ok.mp hv
      rw [bind_of_ok (modify_apply ..)] at hv
      cases hv
      have hfc : Followed { w with sigchld := some { handler with callbacks := true } } :=
        hfw.same ⟨rfl, rfl, rfl, rfl⟩
      obtain ⟨hfx, hregx⟩ := addReadEvent_followed hfc (hregw ▸ AList.notMem_empty _) hx
      rw [addReadEvent_apply] at hx
      have hcx : x.controlPipe = w.controlPipe :=
        ((registerAdd_acts (h := 0) _).ok hx).field Sys.controlPipe fun _ => rfl
      have hfy := (addReadEvent_followed hfx (by
        rw [hregx, hcx, AList.mem_insert]
        exact not_or.mpr ⟨hne, hregw ▸ AList.notMem_empty _⟩) hy).1
      exact hfy.same ⟨rfl, rfl, rfl, rfl⟩

theorem Life.followed {l : Label} (hs : Life s) (hstep : Under PreviousFinished Step s l t) (hf : Followed s) :
    Followed t := by
  obtain ⟨hp, he, ht⟩ := hstep
  cases l with
  | exec args hasOnStop =>
    obtain ⟨t', ht', hsent⟩ := multiExec_ok hs.isolated args hasOnStop
    cases (show multiExec args hasOnStop s = .ok () t from ht).symm.trans ht'
    exact hf.same ⟨hsent.field Sys.registrations fun _ _ _ _ => rfl, hsent.field Sys.registered fun _ _ _ _ => rfl,
      hsent.field Sys.registerFn fun _ _ _ _ => rfl, hsent.field Sys.loopType fun _ _ _ _ => rfl⟩
  | stop flag signum => exact hf.same ((sendJob_unlisted _).ok (show sendJob (some (.stop flag signum)) s = _ from ht))
  | env act =>
    cases ht
    have hel := envAct_elsewhere act s
    exact hf.same ⟨hel.field Sys.registrations fun _ _ _ _ => rfl, hel.field Sys.registered fun _ _ _ _ => rfl,
      hel.field Sys.registerFn fun _ _ _ _ => rfl, hel.field Sys.loopType fun _ _ _ _ => rfl⟩
  | run type c =>
    exact startRun_followed (hs.choose c).isolated hs.control hp.2 (hf.same ⟨rfl, rfl, rfl, rfl⟩) ht
  | event fd c => exact callbacksKeep_followed.event_keeps hs he (hf.same ⟨rfl, rfl, rfl, rfl⟩) ht
  | selectError => exact hf.same (selectFails_unlisted.ok ht)

/-- What a `pexec_multi` tells an external loop, in a whole life: a descriptor is added only if it is not
watched, and removed only if it is; at any time the loop watches what is registered, while it is used. These
are open read ends, but for the -1 of a handler for SIGCHLD that has lost its pipe. -/
theorem register_calls_legal {w : World} {ls : List Label} (hnew : newMulti (boot w) = .ok () s)
    (hrun : Run (Under PreviousFinished Step) s ls t) :
    ∃ set, reads listen ∅ t.registrations = some set ∧
      (∀ fd, fd ∈ set ↔ t.registerFn = some .user ∧ fd ∈ t.registered) ∧
      ∀ fd ∈ set, (∃ pipe, t.fds.target fd = some (.readEnd pipe)) ∨ fd = -1 ∧ t.registered.lookup fd = some .sigchld := by
  have hall : Life t ∧ Followed t := by
    refine hrun.invariant (I := fun u => Life u ∧ Followed u) ⟨newMulti_life hnew, ?_⟩ fun a l b ⟨hlife, hf⟩ hstep => ?_
    · rw [newMulti_ok hnew]
      exact ⟨⟨∅, rfl, fun fd => iff_of_false (Finset.notMem_empty fd) fun hx => nomatch hx.1⟩, nofun⟩
    · have hnext := life_step hlife hstep.2.1 hstep.1
      rw [hstep.2.2] at hnext
      exact ⟨hnext, hlife.followed hstep hf⟩
  obtain ⟨hlife, hfollowed⟩ := hall
  obtain ⟨set, hreads, hset⟩ := hfollowed.set
  refine ⟨set, hreads, hset, fun fd hm => ?_⟩
  obtain ⟨huser, hreg⟩ := (hset fd).mp hm
  have hon : On t := by
    rcases hlife.mode with ⟨hon, _⟩ | ⟨_, hdef | hnone⟩
    · exact hon
    · exact absurd ((hfollowed.mode huser).symm.trans hdef) (by decide)
    · exact absurd (hnone ▸ hreg) (AList.notMem_empty _)
  obtain ⟨src, hsrc⟩ := Option.isSome_iff_exists.mp (AList.lookup_isSome.mpr hreg)
  obtain ⟨hexp, hkey⟩ := (hon.desk.keys fd src).mp hsrc
  rw [hon.keyOf_eq hexp] at hkey
  have hopen : (t.array src.slot).rd ≠ -1 → ∃ pipe, t.fds.target fd = some (.readEnd pipe) := by
    intro hne
    obtain ⟨pipe, _, htarget, _⟩ := (Owned.ends hlife.isolated.owns src.slot).opened hne
    exact ⟨pipe, hkey ▸ htarget⟩
  cases src with
  | sigchld =>
    by_cases hlost : fd = -1
    · exact .inr ⟨hlost, hsrc⟩
    · exact .inl (hopen (hkey ▸ hlost))
  | control => exact .inl (hopen hlife.control)
  | readClose h | readStdout h | readStderr h =>
    obtain ⟨pid, hl⟩ := hexp
    exact .inl (hopen ((hon.served pid h hl).ready _ (by simp [objectSlots, Source.slot])))

/-- An external loop has had a program started, which exits. -/
def enlistedLife : List Label :=
  [.exec ['a'] false, .run .external {}, .event 0 {}, .env (.exit 1 ⟨0, terminated_zero⟩), .env .sigchld,
    .event 2 {}]

def enlistedMulti : Sys := freshMulti.after enlistedLife

/-- The three descriptors of the process have been added and removed. -/
theorem register_calls_legal_enlisted : enlistedMulti.registrations =
      [(2, true), (0, true), (10, true), (6, true), (8, true), (10, false), (6, false), (8, false)] ∧
    ∃ set, reads listen ∅ enlistedMulti.registrations = some set ∧
      (∀ fd, fd ∈ set ↔ enlistedMulti.registerFn = some .user ∧ fd ∈ enlistedMulti.registered) ∧
      ∀ fd ∈ set, (∃ pipe, enlistedMulti.fds.target fd = some (.readEnd pipe)) ∨
        fd = -1 ∧ enlistedMulti.registered.lookup fd = some .sigchld :=
  ⟨by decide +kernel, register_calls_legal freshMulti_ok
    (run_after _ finished_sound enlistedLife (by decide +kernel))⟩

end Pexec
