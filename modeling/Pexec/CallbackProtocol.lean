import Pexec.CallbackPhases
import Pexec.JobTiming
import Pexec.SigchldRules
import Pexec.SpawnEmissions

namespace Pexec

open Effect Runs Observer

/-- Where the callbacks of an object are between two steps, by its `on_stop`. -/
def Phase.Rests (stops : Option Bool) : Phase → Prop
  | .unheard | .watched => True
  | .failing | .reaped => False
  | .ended _ => stops = some false
  | .notified _ => stops = some true

/-- The object has kept to its turn, and if it is active it is watched. -/
def Heeds (x : Nat) (s : Sys) : Prop :=
  ∃ p, Reached x p s ∧ p.Rests ((s.handles x).map Handle.hasOnStop) ∧
    ∀ pid, s.active.lookup pid = some x → p = .watched

/-- A part of a step that is not about the object. -/
structure Overlooks (x : Nat) (s t : Sys) : Prop where
  events : ∃ new, t.trace = s.trace ++ new ∧ ∀ e ∈ new, e.owner ≠ some x
  stops : (t.handles x).map Handle.hasOnStop = (s.handles x).map Handle.hasOnStop
  active : ∀ pid, t.active.lookup pid = some x → s.active.lookup pid = some x

variable {h x y : Nat} {pid : Int} {p q : Phase} {stops : Bool} {st : State} {s t u v : Sys}
  {status : WaitStatus}

theorem Phase.settled_rests : (Phase.settled st stops).Rests (some stops) := by
  cases stops <;> rfl

theorem Overlooks.heeds (ho : Overlooks x s t) (hs : Heeds x s) : Heeds x t := by
  obtain ⟨p, hreached, hrests, hactive⟩ := hs
  obtain ⟨new, htrace, hnew⟩ := ho.events
  refine ⟨p, hreached.skip ⟨new, htrace, fun e hm => Phase.hear_other (hnew e hm)⟩, ?_,
    fun pid hl => hactive pid (ho.active pid hl)⟩
  rw [ho.stops]
  exact hrests

theorem Tells.overlooks (ht : Tells (fun e => e.owner ≠ some x) s t) : Overlooks x s t :=
  ⟨ht.events, by rw [ht.handles], fun _ hl => ht.active ▸ hl⟩

theorem Overlooks.same (ht : t.trace = s.trace) (hh : t.handles = s.handles) (ha : t.active = s.active) :
    Overlooks x s t := (Tells.same ht hh ha).overlooks

/-- What is told is told by the object, or by none. -/
def Voices (h : Nat) (s t : Sys) : Prop :=
  ∃ new, t.trace = s.trace ++ new ∧ ∀ e ∈ new, e.owner = some h ∨ e.owner = none

instance : IsPreorder Sys (Voices h) where
  refl _ := ⟨[], (List.append_nil _).symm, fun _ hm => absurd hm List.not_mem_nil⟩
  trans s t u := by
    rintro ⟨new, ht, hnew⟩ ⟨new', hu, hnew'⟩
    refine ⟨new ++ new', by rw [hu, ht, List.append_assoc], fun e hm => ?_⟩
    exact (List.mem_append.mp hm).elim (hnew e) (hnew' e)

theorem Emits.voices (he : Emits (Event.Concerns h) s t) : Voices h s t := by
  obtain ⟨new, htrace, hnew⟩ := he.events
  exact ⟨new, htrace, fun e hm => (hnew e hm).owner⟩

theorem failStopped_voices : Moves (Voices h) (failStopped h) :=
  (Moves.bind closeForkPipes_emits fun _ => (callState_emits _).mono fun _ _ hs => hs.mono fun _ => .inl).mono
    fun _ _ hs => hs.voices

theorem userStopped_voices : Moves (Voices h) (userStopped h) :=
  (Moves.bind (modifyProc_emits _) fun _ => Moves.bind closeForkPipes_emits fun _ =>
    (callState_emits _).mono fun _ _ hs => hs.mono fun _ => .inl).mono fun _ _ hs => hs.voices

theorem processError_voices (e : Error) : Moves (Voices h) (processError h e) :=
  (processError_emits (.inr rfl)).mono fun _ _ hs => hs.voices

theorem readRetry_voices (fd : Int) (count : Nat) : Moves (Voices h) (readRetry fd count) :=
  (readRetry_tells (P := fun e => e.owner = some h ∨ e.owner = none) fd count).mono fun _ _ hs => hs.events

theorem readClose_voices : Moves (Voices h) (readClose h) := by
  refine Moves.bind Moves.get fun s => Moves.bind (readRetry_voices _ _) fun answer => ?_
  cases answer with
  | error e =>
    exact Moves.bind (processError_voices _) fun _ => Moves.bind Moves.get fun _ => Moves.ite
      (fun _ => Moves.bind failStopped_voices fun _ => Moves.pure _) fun _ => Moves.pure _
  | ok data =>
    exact Moves.bind Moves.get fun _ => Moves.ite
      (fun _ => Moves.bind userStopped_voices fun _ => Moves.pure _) fun _ => Moves.pure _

theorem readStd_voices {slot : Slot} {cb : List UInt8 → Event} (hstd : StdSlot h slot cb) (fd : Int) (err : Error) :
    Moves (Voices h) (readStd fd h cb err) := by
  refine Moves.bind (readRetry_voices _ _) fun answer => ?_
  rcases answer with e | _ | ⟨b, bs⟩
  · exact Moves.bind (processError_voices _) fun _ => Moves.bind Moves.get fun _ => Moves.ite
      (fun _ => Moves.bind failStopped_voices fun _ => Moves.pure _) fun _ => Moves.pure _
  · exact Moves.pure _
  · have hcb : (cb (b :: bs)).owner = some h := by cases hstd <;> rfl
    refine Moves.bind (fun s => ⟨[cb (b :: bs)], rfl, fun e hm => ?_⟩) fun _ => Moves.pure _
    rw [List.mem_singleton.mp hm]
    exact .inl hcb

/-- What is done about another object. -/
theorem Acts.overlooks (ha : Acts y s t) (hx : x ≠ y) (hv : Voices y s t) : Overlooks x s t := by
  obtain ⟨new, htrace, hnew⟩ := hv
  refine ⟨⟨new, htrace, fun e hm howner => ?_⟩, ?_, fun pid => ha.shrinks.active pid x⟩
  · rcases hnew e hm with hy | hnone
    · exact hx (Option.some.inj (howner.symm.trans hy))
    · cases howner.symm.trans hnone
  · rw [(Sys.off_objects ha.off hx).2]

/-- An active object that has kept to its turn is about to speak. -/
theorem Heeds.speaking (hs : Heeds x s) (hl : s.active.lookup pid = some x) (hserved : Served s pid x) :
    ∃ stops, Speaking x stops true .watched s := by
  obtain ⟨p, hreached, _, hactive⟩ := hs
  obtain rfl := hactive pid hl
  obtain ⟨hd, hh, _⟩ := hserved.handle
  exact ⟨hd.hasOnStop, hreached, by rw [hh]; rfl, by rw [hserved.proc], hserved.type⟩

theorem Speaking.heeds {running : Bool} (hs : Speaking x stops running (.settled st stops) s)
    (hgone : ∀ pid, s.active.lookup pid ≠ some x) : Heeds x s :=
  ⟨_, hs.reached, hs.stops ▸ Phase.settled_rests, fun pid hl => absurd hl (hgone pid)⟩

theorem waited_overlooks (s : Sys) (r : WaitResult) : Overlooks x s (s.waited r) :=
  ⟨⟨[.waitpid 0 r], rfl, fun _ hm => by rw [List.mem_singleton.mp hm]; exact nofun⟩, rfl, fun _ => id⟩

theorem reaped_overlooks (s : Sys) (pid : Int) (status : WaitStatus) : Overlooks x s (s.reaped pid status) :=
  ⟨⟨[.waitpid 0 (.reaped pid status)], rfl, fun _ hm => by rw [List.mem_singleton.mp hm]; exact nofun⟩, rfl,
    fun _ => id⟩

/-- The end of the child of the object. -/
theorem updateStatus_heeds (hs : Sound s) (hl : s.active.lookup pid = some x) (hheeds : Heeds x (s.reaped pid status))
    (hdead : Terminated status) (ht : updateStatus x status (s.reaped pid status) = .ok () t) : Heeds x t := by
  obtain ⟨stops, hspeaking⟩ : ∃ stops, Speaking x stops true .watched (s.reaped pid status) := by
    obtain ⟨p, hreached, _, hactive⟩ := hheeds
    obtain rfl := hactive pid hl
    have hserved := hs.on.served pid x hl
    obtain ⟨hd, hh, _⟩ := hserved.handle
    refine ⟨hd.hasOnStop, hreached, ?_, ?_, hserved.type⟩
    · exact congrArg (Option.map Handle.hasOnStop) hh
    · exact congrArg ProcStatus.running hserved.proc
  obtain ⟨t', ht', hf⟩ := updateStatus_ends (reaped_desk hs.on.desk pid status) (hs.isolated.reaped pid status).owns
    hl (hs.on.served pid x hl).type hdead
  cases ht.symm.trans ht'
  refine ((updateStatus_speaking hdead).ok hspeaking ht).heeds fun p => ?_
  rw [hf.gone.active]
  exact hs.on.desk.active_erase hl p

theorem onSignal_heeds (hs : Sound s) (hh : Heeds x s) (hdead : Terminated status)
    (ht : onSignal pid status (s.reaped pid status) = .ok () t) : Heeds x t := by
  have hheeds : Heeds x (s.reaped pid status) := (reaped_overlooks s pid status).heeds hh
  unfold onSignal at ht
  rw [bind_of_ok (get_apply _), show (s.reaped pid status).active = s.active from rfl] at ht
  cases ha : s.active.lookup pid with
  | none =>
    rw [ha] at ht
    cases ht
    exact hheeds
  | some y =>
    rw [ha] at ht
    by_cases hx : x = y
    · subst hx
      exact updateStatus_heeds hs ha hheeds hdead ht
    · exact (((updateStatus_acts _).ok ht).overlooks hx ((updateStatus_emits _).ok ht).voices).heeds hheeds

theorem readSignalFrom_tells {P : Event → Prop} (fd : Int) (fuel : Nat) :
    ∀ want got, Moves (Tells P) (readSignalFrom fd fuel want got) := by
  induction fuel with
  | zero => exact fun _ _ => Moves.throw _
  | succ fuel ih =>
    intro want got
    unfold readSignalFrom
    refine Moves.bind (read_tells fd want) fun answer => ?_
    split
    · exact ih _ _
    · exact Moves.pure _
    · exact Moves.ite (fun _ => Moves.pure _) fun _ => ih _ _

/-- A part of a step in which nothing is told that an object tells. -/
theorem heeds_of_tells {α : Type} {y : Prog α} {a : α} (hy : Moves (Tells fun e => e.owner ≠ some x) y)
    (hs : Heeds x s) (ht : y s = .ok a t) : Heeds x t := (hy.ok ht).overlooks.heeds hs

theorem heeds_keeps : SigchldKeeps (Heeds x) where
  read _ hs hr := heeds_of_tells (readSignalFrom_tells _ _ _ _) hs hr
  mask block _ hs := heeds_of_tells (sigprocmask_tells block) hs (call_apply ..)
  error _ hs ht := heeds_of_tells (handlerProcessError_tells (fun _ => nofun) _) hs ht
  waited r _ hs := (waited_overlooks _ r).heeds hs
  signal {_ _ _ status} hs hh ht := onSignal_heeds hs hh status.2 ht

theorem onSigchldReady_heeds (hs : Sound s) (hh : Heeds x s) (ht : onSigchldReady s = .ok () t) : Heeds x t :=
  heeds_keeps.ready_keeps hs hh ht fun _ _ _ hu hstop =>
    heeds_of_tells (handleStop_tells fun _ _ => nofun) hu hstop

theorem readClose_heeds {ret : EventReturn} (hs : Sound s) (hl : s.active.lookup pid = some h) (hh : Heeds x s)
    (ht : readClose h s = .ok ret t) : Heeds x t := by
  by_cases hx : x = h
  · subst hx
    have hserved := hs.on.served pid x hl
    obtain ⟨stops, hspeaking⟩ := hh.speaking hl hserved
    obtain ⟨st, hsettled⟩ := readClose_speaking.ok hspeaking ht
    obtain ⟨t', ht', hcases⟩ := readClose_ends hs.on.desk hl hserved.type
    cases ht.symm.trans ht'
    refine hsettled.heeds fun p => ?_
    rcases hcases with ⟨_, hf⟩ | ⟨_, hf⟩
    · rw [hf.gone.active]
      exact hs.on.desk.active_erase hl p
    · rw [hf.gone.active]
      exact hs.on.desk.active_erase hl p
  · exact ((readClose_acts.ok ht).overlooks hx (readClose_voices.ok ht)).heeds hh

theorem readStd_heeds {slot : Slot} {cb : List UInt8 → Event} {err : Error} {ret : EventReturn} (hstd : StdSlot h slot cb)
    (hs : Sound s) (hl : s.active.lookup pid = some h) (hh : Heeds x s)
    (ht : readStd (s.array slot).rd h cb err s = .ok ret t) : Heeds x t := by
  by_cases hx : x = h
  · subst hx
    have hserved := hs.on.served pid x hl
    obtain ⟨stops, hspeaking⟩ := hh.speaking hl hserved
    have hcases := readStd_speaking hstd (s.array slot).rd err hspeaking
    rw [ht] at hcases
    obtain ⟨ret', t', ht', _, hends⟩ := readStd_ends hstd err hs.on.desk hl hserved.type
    cases ht.symm.trans ht'
    rcases hcases with ⟨_, hwatched⟩ | ⟨hbad, hsettled⟩
    · exact ⟨_, hwatched.reached, trivial, fun _ _ => rfl⟩
    · refine hsettled.heeds fun p => ?_
      rcases hends with ⟨hgood, _⟩ | ⟨_, hf⟩
      · exact absurd hbad hgood
      · rw [hf.gone.active]
        exact hs.on.desk.active_erase hl p
  · have hacts := readStd_acts hstd err s
    rw [ht] at hacts
    exact (hacts.overlooks hx ((readStd_voices hstd _ _).ok ht)).heeds hh

/-- A process is started: its object tells so first. -/
theorem Introduced.heeds (hi : Introduced h s t) (hen : Enrolled h pid s t) (hnew : Reached h .unheard s)
    (hh : Heeds x s) : Heeds x t := by
  obtain ⟨stdin, userStop, proc, rest, htrace, hrunning, hrest⟩ := hi.trace
  by_cases hx : x = h
  · subst hx
    refine ⟨.watched, hnew.extend (htrace.trans (List.append_assoc ..)) ?_, trivial, fun _ _ => rfl⟩
    have hstarted : reads (Phase.hear x) .unheard [.handed x stdin userStop, .state x .started proc] =
        some .watched := by
      rw [reads_cons, Phase.hear_own rfl]
      show reads (Phase.hear x) .unheard [_] = _
      rw [reads_singleton, Phase.hear_own rfl]
      show Phase.call .unheard .started proc.running = _
      rw [hrunning]
      rfl
    rw [reads_extend hstarted]
    refine reads_skip fun e hm => Phase.hear_other ?_
    rw [hrest e hm]
    exact nofun
  · have hhandles : t.handles x = s.handles x := by
      refine hen.field (fun u => u.handles x) fun u => ?_
      exact Function.update_of_ne hx ..
    refine Overlooks.heeds ⟨⟨_, htrace.trans (List.append_assoc ..), fun e hm => ?_⟩, by rw [hhandles], ?_⟩ hh
    · rcases List.mem_append.mp hm with hm | hm
      · have howner : e.owner = some h := by
          rcases List.mem_cons.mp hm with rfl | hm
          · rfl
          · rw [List.mem_singleton.mp hm]
            rfl
        rw [howner]
        exact fun he => hx (Option.some.inj he).symm
      · rw [hrest e hm]
        exact nofun
    · intro p hl
      rw [hen.active, lookup_insert_fresh hen.inactive] at hl
      exact hl.resolve_left fun he => hx he.2

theorem jobSpawnProc_heeds {ret : EventReturn} {rest : List (Option Job)} (hs : Sound s)
    (hb : s.buffer = some (.spawn h) :: rest) (hnew : Reached h .unheard s) (hh : Heeds x s)
    (ht : jobSpawnProc h { s with buffer := rest } = .ok ret t) : Heeds x t := by
  have hmem : some (Job.spawn h) ∈ s.buffer := by
    rw [hb]
    exact List.mem_cons_self
  have hremove : bufferRemove s = .ok (some (.spawn h)) { s with buffer := rest } := by
    unfold bufferRemove
    rw [bind_of_ok (get_apply _), hb]
    rfl
  have hsound : Sound { s with buffer := rest } :=
    ⟨(bufferRemove_isolated.ok hs.isolated hremove).1, hs.on.queue ..⟩
  obtain ⟨_, hp, args, hasOnStop, hhandle⟩ := hs.isolated.fresh h hmem
  have hunspawned : Unspawned h { s with buffer := rest } :=
    ⟨⟨_, hhandle, rfl, rfl⟩, by show (s.procs h).proc.pid = 0; rw [hp],
      by show (s.procs h).type = .nonblocking; rw [hp]⟩
  rcases jobSpawnProc_cases hsound hp hhandle hunspawned fun p hl => (hs.isolated.active p h hl).2 hmem with
    ⟨_, ht'⟩ | ⟨u, ht'⟩ | ⟨hgoing, pid, u, ht', hen⟩
  · cases ht.symm.trans ht'
    exact hh
  · cases ht.symm.trans ht'
  · cases ht.symm.trans ht'
    exact (jobSpawnProc_introduces hgoing hhandle hunspawned ht).heeds hen (hnew.same rfl) hh

/-- One job from the queue. -/
theorem dispatchJob_heeds {ret : EventReturn} (hs : Sound s)
    (hnew : ∀ h, some (.spawn h) ∈ s.buffer → Reached h .unheard s) (hh : Heeds x s)
    (ht : dispatchJob s = .ok ret t) : Heeds x t := by
  obtain ⟨job, u, hu, ht⟩ := bind_eq_ok.mp ht
  cases hb : s.buffer with
  | nil =>
    unfold bufferRemove at hu
    rw [bind_of_ok (get_apply _), hb] at hu
    cases hu
  | cons job' rest =>
    unfold bufferRemove at hu
    rw [bind_of_ok (get_apply _), hb] at hu
    cases hu
    have hheeds : Heeds x { s with buffer := rest } := hh
    have hkill : ∀ pid signum, (fun e : Event => e.owner ≠ some x) (.kill pid signum) := fun _ _ => nofun
    rcases job with _ | h | ⟨flag, signum⟩
    · exact heeds_of_tells (jobNullptrStop_tells hkill) hheeds ht
    · exact jobSpawnProc_heeds hs hb (hnew h (hb ▸ List.mem_cons_self)) hh ht
    · exact heeds_of_tells (jobStop_tells hkill flag signum) hheeds ht

theorem onControlReady_heeds (hs : Sound s) (hnew : ∀ h, some (.spawn h) ∈ s.buffer → Reached h .unheard s)
    (hh : Heeds x s) (ht : onControlReady (s.array .control).rd s = .ok () t) : Heeds x t := by
  obtain ⟨a, u, hu, hd⟩ := readRetry_drained .control hs.isolated.owns 1
  have hiso : Isolated u := (readRetry_isolated .control (fun x => ⟨by simp, by simp⟩) (s.array .control).rd 1).ok
    ⟨hs.isolated, rfl⟩ hu
  have hsound : Sound u := ⟨hiso, hd.on hs.on⟩
  have htells := (readRetry_tells (P := fun e => e.owner ≠ some x) (s.array .control).rd 1).ok hu
  have htrace : u.trace = s.trace := hd.field (·.trace) fun _ _ _ => rfl
  have hbuffer : u.buffer = s.buffer := hd.field Sys.buffer fun _ _ _ => rfl
  have hheeds : Heeds x u := htells.overlooks.heeds hh
  unfold onControlReady at ht
  rw [bind_of_ok hu] at ht
  cases a with
  | error e => cases ht
  | ok data =>
    obtain ⟨ret, v, hv, ht⟩ := bind_eq_ok.mp ht
    have hv' := dispatchJob_heeds hsound (fun h hm => (hnew h (hbuffer ▸ hm)).same htrace) hheeds hv
    split at ht
    next => exact heeds_of_tells (handleStop_tells fun _ _ => nofun) hv' ht
    next =>
      cases ht
      exact hv'

theorem Heeds.choose (hh : Heeds x s) (c : Choices) : Heeds x (s.choose c) := hh

/-- A callback of the loop. -/
theorem Life.event_heeds {fd : Int} {c : Choices} (hs : Life s) (he : (Label.event fd c).enabled s)
    (hnew : ∀ h, some (.spawn h) ∈ s.buffer → Reached h .unheard s) (hh : Heeds x s)
    (ht : (Label.event fd c).prog s = .ok () t) : Heeds x t := by
  obtain ⟨hon, hdue, _⟩ := hs.due he
  have hsound := Sound.choose ⟨hs.isolated, hon⟩ c
  have hheeds : Heeds x (s.choose c) := hh
  rcases dispatch_split hsound hdue with ⟨hreg, _⟩ | ⟨_, _, hint⟩
  · obtain ⟨src, hsrc⟩ := Option.isSome_iff_exists.mp (AList.lookup_isSome.mpr hreg)
    obtain ⟨hexp, hkey⟩ := (hsound.on.desk.keys fd src).mp hsrc
    obtain ⟨_, hprog⟩ := hs.event_source he hsrc
    rw [hprog] at ht
    cases src with
    | sigchld => exact onSigchldReady_heeds hsound hheeds ht
    | control =>
      obtain rfl : (s.choose c).controlPipe.rd = fd := hkey
      exact onControlReady_heeds hsound hnew hheeds ht
    | readClose h =>
      obtain ⟨pid, hl⟩ := hexp
      obtain ⟨ret, u, hu, hlast⟩ := bind_eq_ok.mp (show (readClose h >>= fun _ => pure ()) (s.choose c) = _ from ht)
      cases hlast
      exact readClose_heeds hsound hl hheeds hu
    | readStdout h =>
      obtain ⟨pid, hl⟩ := hexp
      obtain ⟨ret, u, hu, hlast⟩ := bind_eq_ok.mp (show (readStdout h >>= fun _ => pure ()) (s.choose c) = _ from ht)
      cases hlast
      exact readStd_heeds .stdout hsound hl hheeds hu
    | readStderr h =>
      obtain ⟨pid, hl⟩ := hexp
      obtain ⟨ret, u, hu, hlast⟩ := bind_eq_ok.mp (show (readStderr h >>= fun _ => pure ()) (s.choose c) = _ from ht)
      cases hlast
      exact readStd_heeds .stderr hsound hl hheeds hu
  · have hprog : (Label.event fd c).prog s =
        (do if (← loopCallback .interrupt fd) = .stopLoop then runFinish : Prog Unit) (s.choose c) := hint
    rw [hprog] at ht
    refine heeds_of_tells (Moves.bind (loopControl_tells (Moves.pure _) fd) fun ret => ?_) hheeds ht
    exact Moves.ite (fun _ => runFinish_tells fun _ => nofun) fun _ => Moves.pure _

theorem Life.heeds {l : Label} (hs : Life s) (hstep : Under PreviousFinished Step s l t)
    (hnew : ∀ h, some (.spawn h) ∈ s.buffer ∨ s.nextHandle ≤ h → Reached h .unheard s) (hh : Heeds x s) :
    Heeds x t := by
  obtain ⟨hp, he, ht⟩ := hstep
  cases l with
  | exec args hasOnStop =>
    obtain ⟨t', ht', hsent⟩ := multiExec_ok hs.isolated args hasOnStop
    cases (show multiExec args hasOnStop s = .ok () t from ht).symm.trans ht'
    have htrace : t.trace = s.trace := hsent.field (·.trace) fun _ _ _ _ => rfl
    have hhandles : t.handles = (s.issue args hasOnStop).handles := hsent.field Sys.handles fun _ _ _ _ => rfl
    have hactive : t.active = s.active := hsent.field Sys.active fun _ _ _ _ => rfl
    by_cases hx : x = s.nextHandle
    · subst hx
      refine ⟨.unheard, (hnew _ (.inr (Nat.le_refl _))).same htrace, trivial, fun pid hl => ?_⟩
      rw [hactive] at hl
      exact absurd (hs.isolated.active pid _ hl).1 (Nat.lt_irrefl _)
    · refine Overlooks.heeds ⟨⟨[], by rw [htrace, List.append_nil], fun _ hm => absurd hm List.not_mem_nil⟩, ?_,
        fun _ hl => hactive ▸ hl⟩ hh
      rw [hhandles]
      exact congrArg _ (Function.update_of_ne hx ..)
  | stop flag signum =>
    exact heeds_of_tells (sendJob_tells _) hh (show sendJob (some (.stop flag signum)) s = .ok () t from ht)
  | env act =>
    cases ht
    have hel := envAct_elsewhere act s
    exact (Overlooks.same (hel.field (·.trace) fun _ _ _ _ => rfl) (hel.field Sys.handles fun _ _ _ _ => rfl)
      (hel.field Sys.active fun _ _ _ _ => rfl)).heeds hh
  | run type c =>
    exact heeds_of_tells (startRun_tells (fun _ _ => nofun) (fun _ => nofun) type) (hh.choose c) ht
  | event fd c => exact hs.event_heeds he (fun h hm => hnew h (.inl hm)) hh ht
  | selectError => exact heeds_of_tells (selectFails_tells fun _ => nofun) hh ht

theorem Sys.mem_starts : h ∈ s.starts ↔ ∃ proc, .state h .started proc ∈ s.trace := by
  simp only [Sys.starts, Sys.calls, List.mem_filterMap]
  constructor
  · rintro ⟨⟨y, st, proc⟩, ⟨e, hm, he⟩, hst⟩
    cases e <;> cases he
    cases st <;> cases hst
    exact ⟨proc, hm⟩
  · rintro ⟨proc, hm⟩
    exact ⟨(h, .started, proc), ⟨_, hm, rfl⟩, rfl⟩

theorem Sys.mem_ends : h ∈ s.ends ↔ ∃ st proc, st.terminal = true ∧ .state h st proc ∈ s.trace := by
  simp only [Sys.ends, Sys.calls, List.mem_filterMap]
  constructor
  · rintro ⟨⟨y, st, proc⟩, ⟨e, hm, he⟩, hst⟩
    cases e <;> cases he
    cases hterm : st.terminal with
    | false => simp [endedBy, hterm] at hst
    | true =>
      simp only [endedBy, hterm, if_true, Option.some.injEq] at hst
      exact ⟨st, proc, hterm, hst ▸ hm⟩
  · rintro ⟨st, proc, hst, hm⟩
    exact ⟨(h, st, proc), ⟨_, hm, rfl⟩, by simp [endedBy, hst]⟩

theorem Reached.unheard_iff (hr : Reached h p s) : p = .unheard ↔ h ∉ s.starts := by
  rw [hr.states.1, Sys.mem_starts, not_exists]

theorem Reached.over_iff (hr : Reached h p s) : p.Over ↔ h ∈ s.ends := hr.states.2.trans Sys.mem_ends.symm

/-- At any point of a life, all objects have kept to their turn. -/
structure Spoken (s : Sys) : Prop where
  history : History s
  tracked : s.service.Tracked
  heeds : ∀ x, Heeds x s

/-- What was not started has not been heard of. -/
theorem Spoken.unheard (hs : Spoken s) (hnew : some (.spawn h) ∈ s.buffer ∨ s.nextHandle ≤ h) :
    Reached h .unheard s := by
  obtain ⟨p, hreached, _⟩ := hs.heeds h
  suffices h ∉ s.starts by
    rwa [← hreached.unheard_iff.mpr this]
  intro hstart
  have hpast : s.service.Past h := by
    rcases hs.tracked h hstart with hrunning | hended
    · exact hs.history.orderly.running h hrunning
    · exact (hs.history.orderly.ended h hended).1
  rcases hnew with hm | hle
  · exact hpast.2 (mem_jobs.mpr hm)
  · exact absurd hpast.1 (Nat.not_lt.mpr hle)

theorem Spoken.step {l : Label} (hs : Spoken s) (hstep : Under PreviousFinished Step s l t) : Spoken t where
  history := hs.history.step hstep
  tracked := hs.history.life.stable GracefulStop.tracked_stable hstep.1 hstep.2 hs.tracked
  heeds x := hs.history.life.heeds hstep (fun _ => hs.unheard) (hs.heeds x)

theorem run_spoken {w : World} {ls : List Label} (hnew : newMulti (boot w) = .ok () s)
    (hrun : Run (Under PreviousFinished Step) s ls t) : Spoken t := by
  refine hrun.invariant ⟨run_history hnew .nil, run_tracked hnew .nil, fun x => ⟨.unheard, ?_, trivial, ?_⟩⟩
    fun _ _ _ ha hstep => ha.step hstep
  · rw [newMulti_ok hnew]
    rfl
  · rw [newMulti_ok hnew]
    exact fun pid hl => nomatch hl

/-- In every life of a `pexec_multi` each object makes its callbacks in turn: STARTED first; output and
errors while it is watched; USER_STOPPED, or an error and FAIL_STOPPED, or SIGNALED, the last output
and STOPPED; and `on_stop` once after that, if the handle has it. -/
theorem callbacks_in_turn {w : World} {ls : List Label} (hnew : newMulti (boot w) = .ok () s)
    (hrun : Run (Under PreviousFinished Step) s ls t) (h : Nat) :
    ∃ p, Reached h p t ∧ p.Rests ((t.handles h).map Handle.hasOnStop) ∧ (p = .unheard ↔ h ∉ t.starts) ∧
      (p = .watched ↔ ∃ pid, t.active.lookup pid = some h) ∧ (p.Over ↔ h ∈ t.ends) := by
  have hs := run_spoken hnew hrun
  obtain ⟨p, hreached, hrests, hactive⟩ := hs.heeds h
  refine ⟨p, hreached, hrests, hreached.unheard_iff, ⟨?_, fun ⟨pid, hl⟩ => hactive pid hl⟩, hreached.over_iff⟩
  rintro rfl
  have hstart : h ∈ t.starts := by
    by_contra hno
    cases hreached.unheard_iff.mpr hno
  rcases hs.tracked h hstart with hrunning | hended
  · exact hrunning
  · exact (hreached.over_iff.mpr hended).elim

theorem callbacks_in_turn_told : ∃ p, Reached 0 p toldMulti ∧
    p.Rests ((toldMulti.handles 0).map Handle.hasOnStop) ∧ (p = .unheard ↔ 0 ∉ toldMulti.starts) ∧
    (p = .watched ↔ ∃ pid, toldMulti.active.lookup pid = some 0) ∧ (p.Over ↔ 0 ∈ toldMulti.ends) :=
  callbacks_in_turn freshMulti_ok (hundredMulti_run.snoc toldMulti_step) 0

end Pexec
