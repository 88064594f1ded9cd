import Pexec.Lifetime

namespace Pexec

open Effect Runs

variable {h : Nat} {pid : Int} {s t u : Sys}

/-- The process without what the end of a DEFAULT run takes down. -/
def Sys.offEnd (s : Sys) : Sys :=
  { s.offHandler with
    loop := none
    running := false }

/-- A DEFAULT run has ended. -/
structure Ended (s t : Sys) : Prop where
  frame : t.offEnd = s.offEnd
  uncalled : Uncalled s t
  loop : t.loop = none
  running : t.running = false

theorem Ended.field {α : Type} (he : Ended s t) (f : Sys → α) (hf : ∀ u, f u.offEnd = f u) :
    f t = f s := by
  rw [← hf t, he.frame, hf]

theorem Rehandled.offEnd (hr : Rehandled s t) : t.offEnd = s.offEnd :=
  congrArg (fun u : Sys => { u with
    loop := none
    running := false }) hr.frame

theorem Ended.after (hr : Rehandled s t) (he : Ended t u) : Ended s u :=
  ⟨he.frame.trans hr.offEnd, IsTrans.trans _ _ _ hr.uncalled he.uncalled, he.loop, he.running⟩

/-- What a DEFAULT run does once its loop object is gone. -/
theorem finishHandler_ok {handler : Option SigchldHandler} (hl : s.loop = none) :
    ∃ t, (do
      match handler with
      | some handler => destroySigchldHandler handler
      | none => pure ()
      modify fun s => { s with
        sigchld := none
        running := false } : Prog Unit) s = .ok () t ∧ Ended s t := by
  have hdestroy : ∃ t, Rehandled s t ∧ ∀ k : Prog Unit, (do
      match handler with
      | some handler => destroySigchldHandler handler
      | none => pure ()
      k) s = k t := by
    cases handler with
    | none => exact ⟨s, Std.Refl.refl s, fun k => rfl⟩
    | some handler =>
      obtain ⟨_, t, ht, hr⟩ := destroySigchldHandler_rehandled handler s
      exact ⟨t, hr, fun k => bind_of_ok ht⟩
  obtain ⟨t, hr, hrun⟩ := hdestroy
  exact ⟨_, hrun _, hr.offEnd, IsTrans.trans _ _ _ hr.uncalled (Uncalled.same rfl),
    (hr.field Sys.loop fun _ => rfl).trans hl, rfl⟩

theorem runFinish_ok (s : Sys) : ∃ t, runFinish s = .ok () t ∧ Ended s t := by
  have hclosed : ∀ fds, ∃ t, (do
      modify fun s => { s with loop := none }
      match (← get).sigchld with
      | some handler => destroySigchldHandler handler
      | none => pure ()
      modify fun s => { s with
        sigchld := none
        running := false } : Prog Unit) { s with fds } = .ok () t ∧ Ended s t := by
    intro fds
    obtain ⟨t, ht, he⟩ := finishHandler_ok (s := { s with
      fds
      loop := none }) rfl
    have hq : Uncalled s { s with
        fds
        loop := none } := Uncalled.same rfl
    exact ⟨t, ht, he.frame, IsTrans.trans _ _ _ hq he.uncalled, he.loop, he.running⟩
  unfold runFinish
  rw [bind_of_ok (get_apply _)]
  cases s.loop with
  | some e =>
    obtain ⟨fds, hw⟩ := s.toWorld.closePipe_frame e.controlPipe
    dsimp only
    rw [bind_of_ok (onWorld_apply ..), hw]
    exact hclosed fds
  | none => exact hclosed s.fds

theorem selectFails_ok (s : Sys) : ∃ t, selectFails s = .ok () t ∧ Ended s t := by
  obtain ⟨_, u, hu, hr⟩ := multiProcessError_rehandled .selectError s
  obtain ⟨t, ht, he⟩ := runFinish_ok u
  exact ⟨t, (bind_of_ok hu).trans ht, he.after hr⟩

/-- A read that brings something is of a pipe with something in it. -/
theorem readRetry_unread {slot : Slot} (hs : s.Owns) {count : Nat} {data : List UInt8}
    (hr : readRetry (s.array slot).rd count s = .ok (.ok data) t) : (s.stream slot).unread ≠ [] := by
  have ha := Owned.reads hs (World.readRetry_answer (s.array slot).rd count s.readFaults s.toWorld)
  have hdata := (EStateM.Result.ok.inj ((call_apply _ s).symm.trans hr)).1
  generalize (World.readRetry (s.array slot).rd count s.readFaults s.toWorld).2 = w at ha
  rw [hdata] at ha
  cases ha with
  | data rf own some =>
    unfold Sys.stream
    rw [World.stream_of_pipe own]
    exact some

/-- The loop of a DEFAULT run has been interrupted, which ends the run. -/
structure Interrupted (s t : Sys) : Prop where
  default : s.loopType = .default
  unread : (s.stream .loop).unread ≠ []
  ended : ∃ u, Drained .loop s u ∧ Ended u t

/-- The loop has the descriptor: what is registered, and in a DEFAULT run its own pipe. -/
def Sys.Due (s : Sys) (fd : Int) : Prop :=
  match s.loopType with
  | .default => ∃ e, s.loop = some e ∧ fd ∈ e.keys
  | .external => fd ∈ s.registered

theorem dispatch_external {fd : Int} (ht : s.loopType = .external) : dispatch fd s = doAction fd s := by
  unfold dispatch
  rw [bind_of_ok (get_apply _)]
  simp only [ht]

theorem dispatch_default {fd : Int} {e : SelectEvent LoopSource} {cb : LoopSource}
    (ht : s.loopType = .default) (hl : s.loop = some e)
    (hf : e.cbs.find? (·.1 = fd) = some (fd, cb)) :
    dispatch fd s = (do if (← loopCallback cb fd) = .stopLoop then runFinish : Prog Unit) s := by
  unfold dispatch
  rw [bind_of_ok (get_apply _)]
  simp only [ht, hl, hf]

theorem loopCallback_interrupted {fd : Int} (ho : s.Owns) (ht : s.loopType = .default)
    (hfd : fd = (s.array .loop).rd) :
    Outcome (fun _ t => Interrupted s t) (fun e _ => e.Harmless)
      ((do if (← loopCallback .interrupt fd) = .stopLoop then runFinish : Prog Unit) s) := by
  obtain ⟨a, u, hu, hd⟩ := readRetry_drained .loop ho 1
  subst hfd
  cases a with
  | error e =>
    have hstop : loopCallback .interrupt (s.array .loop).rd s = .error (.assertion .loopRead) u :=
      bind_of_ok hu
    rw [bind_of_error hstop]
    show Halt.Harmless (.assertion .loopRead)
    simp [Halt.Harmless]
  | ok data =>
    have hstop : loopCallback .interrupt (s.array .loop).rd s = .ok .stopLoop u := bind_of_ok hu
    rw [bind_of_ok hstop, if_pos rfl]
    obtain ⟨t, ht', he⟩ := runFinish_ok u
    rw [ht']
    exact ⟨ht, readRetry_unread ho hu, u, hd, he⟩

/-- The loop calls `do_action`, or its own interrupt callback. -/
theorem dispatch_split {fd : Int} (hs : Sound s) (hdue : s.Due fd) :
    fd ∈ s.registered ∧ dispatch fd s = doAction fd s ∨
      s.loopType = .default ∧ fd = (s.array .loop).rd ∧ dispatch fd s =
        (do if (← loopCallback .interrupt fd) = .stopLoop then runFinish : Prog Unit) s := by
  unfold Sys.Due at hdue
  rcases hs.on.desk.mirrored with ⟨ht, _⟩ | ⟨ht, _, e, he, hw⟩
  · rw [ht] at hdue
    exact .inl ⟨hdue, dispatch_external ht⟩
  · rw [ht] at hdue
    obtain ⟨e', he', hm⟩ := hdue
    cases he.symm.trans he'
    obtain ⟨cb, hcb⟩ := (SelectEvent.mem_keys e).mp hm
    obtain ⟨⟨fd', cb'⟩, hfind⟩ : ∃ p, e.cbs.find? (·.1 = fd) = some p :=
      Option.isSome_iff_exists.mp (List.find?_isSome.mpr ⟨(fd, cb), hcb, decide_eq_true rfl⟩)
    have hfd : fd' = fd := of_decide_eq_true (List.find?_some hfind :)
    subst hfd
    rw [dispatch_default ht he hfind]
    rcases (hw.cbs _).mp (List.mem_of_find?_eq_some hfind) with hown | ⟨hreg, hact⟩
    · cases hown
      have hfd : e.controlPipe.rd = (s.array .loop).rd := by
        simp only [Sys.array, he]
        rfl
      exact .inr ⟨ht, hfd, rfl⟩
    · cases hact
      refine .inl ⟨hreg, ?_⟩
      rw [bind_apply, show loopCallback .doAction fd' = (do doAction fd'; return .nothing) from rfl,
        bind_apply]
      cases doAction fd' s <;> rfl

/-- One call of the loop, where the process is in order. -/
theorem dispatch_cases {fd : Int} (hs : Sound s) (hdue : s.Due fd) :
    Outcome (fun _ t => On t ∧ Evented s fd t ∨ Interrupted s t) (fun e _ => e.Harmless)
      (dispatch fd s) := by
  rcases dispatch_split hs hdue with ⟨hreg, hact⟩ | ⟨ht, hfd, hint⟩
  · rw [hact]
    exact (doAction_evented hs hreg).imp (fun _ _ => .inl) fun _ _ => id
  · rw [hint]
    exact (loopCallback_interrupted hs.isolated.owns ht hfd).imp (fun _ _ => .inr) fun _ _ => id

/-- A job has been put into the queue, and the control pipe has been written to. -/
structure Sent (job : Option Job) (s t : Sys) : Prop where
  frame : ∃ pipes, t = { s with
    buffer := s.buffer ++ [job]
    added := s.added ++ [job]
    pipes }
  loop : t.stream .loop = s.stream .loop

theorem Sent.field {α : Type} {job : Option Job} (hs : Sent job s t) (f : Sys → α)
    (hf : ∀ u buffer added pipes, f { u with buffer, added, pipes } = f u) : f t = f s := by
  obtain ⟨pipes, ht⟩ := hs.frame
  rw [ht]
  exact hf ..

theorem sendJob_ok (ho : s.Owns) (job : Option Job) :
    ∃ t, sendJob job s = .ok () t ∧ Sent job s t := by
  obtain ⟨pipes, hw⟩ := s.toWorld.write_frame s.controlPipe.wr [0]
  have hloop := Owned.write_stream_ne ho (i := .control) (j := .loop) (by simp) [0]
  rw [show (s.array .control).wr = s.controlPipe.wr from rfl, hw] at hloop
  have hrun : interrupt { s with buffer := s.buffer ++ [job], added := s.added ++ [job] } =
      .ok () { s with
        buffer := s.buffer ++ [job]
        added := s.added ++ [job]
        pipes } := by
    unfold interrupt
    rw [modify_apply]
    dsimp only
    rw [hw]
  exact ⟨_, (bind_of_ok (modify_apply ..)).trans hrun, ⟨pipes, rfl⟩, hloop⟩

theorem Sent.on {job : Option Job} (hs : Sent job s t) (hon : On s) : On t := by
  have hchildren : t.children = s.children := hs.field (·.children) fun _ _ _ _ => rfl
  refine hon.congr (hs.field Sys.registered fun _ _ _ _ => rfl) (hs.field Sys.active fun _ _ _ _ => rfl)
    (hs.field Sys.watching fun _ _ _ _ => rfl) (hs.field (·.sigchldPipe) fun _ _ _ _ => rfl)
    (hs.field Sys.controlPipe fun _ _ _ _ => rfl) (hs.field Sys.handles fun _ _ _ _ => rfl)
    (hs.field Sys.procs fun _ _ _ _ => rfl) (fun hm => ?_) fun _ _ hc => hchildren ▸ hc
  exact hm.congr (hs.field Sys.loopType fun _ _ _ _ => rfl) (hs.field Sys.registerFn fun _ _ _ _ => rfl)
    (hs.field Sys.loop fun _ _ _ _ => rfl) (hs.field Sys.registered fun _ _ _ _ => rfl)

/-- The handle that `pexec_multi::exec` makes. -/
def Sys.issue (s : Sys) (args : List Char) (hasOnStop : Bool) : Sys :=
  { s with
    nextHandle := s.nextHandle + 1
    procs := Function.update s.procs s.nextHandle { type := .nonblocking }
    handles := Function.update s.handles s.nextHandle (some { args, hasOnStop }) }

theorem Isolated.issue_array (hs : Isolated s) (args : List Char) (hasOnStop : Bool) :
    (s.issue args hasOnStop).array = s.array := by
  have hold := hs.unused s.nextHandle (Nat.le_refl _)
  exact array_replace s s.nextHandle (by rw [hold]) (by rw [hold]) (by rw [hold]) (by rw [hold])

/-- A new handle is not the handle of an active process. -/
theorem Sound.issue_on (hs : Sound s) (args : List Char) (hasOnStop : Bool) :
    On (s.issue args hasOnStop) := by
  have hold : ∀ p x, s.active.lookup p = some x → x ≠ s.nextHandle := by
    intro p x hp he
    exact Nat.lt_irrefl _ (he ▸ (hs.isolated.active p x hp).1)
  have hhandles : ∀ x, x ≠ s.nextHandle → (s.issue args hasOnStop).handles x = s.handles x :=
    fun x hx => Function.update_of_ne hx ..
  have hprocs : ∀ x, x ≠ s.nextHandle → (s.issue args hasOnStop).procs x = s.procs x :=
    fun x hx => Function.update_of_ne hx ..
  have hkey : ∀ src, s.Expected src → (s.issue args hasOnStop).keyOf src = s.keyOf src := by
    intro src he
    cases src with
    | sigchld | control => rfl
    | readClose x | readStdout x | readStderr x =>
      obtain ⟨p, hp⟩ := he
      simp only [Sys.keyOf, Sys.fdsOf, hhandles x (hold p x hp)]
  refine ⟨⟨fun fd src => ?_, fun p x hp => ?_, hs.on.desk.mirrored.congr rfl rfl rfl rfl⟩,
    fun p x hp => ?_⟩
  · refine (hs.on.desk.keys fd src).trans ?_
    have hexp : (s.issue args hasOnStop).Expected src ↔ s.Expected src := by cases src <;> rfl
    rw [hexp]
    exact and_congr_right fun he => by rw [hkey src he]
  · rw [hhandles x (hold p x hp)]
    exact hs.on.desk.linked p x hp
  · exact (hs.on.served p x hp).congr (hprocs x (hold p x hp)) (hhandles x (hold p x hp))
      (hs.on.served p x hp).child

theorem multiExec_ok (hs : Isolated s) (args : List Char) (hasOnStop : Bool) :
    ∃ t, multiExec args hasOnStop s = .ok () t ∧
      Sent (some (.spawn s.nextHandle)) (s.issue args hasOnStop) t := by
  have ho : (s.issue args hasOnStop).Owns := hs.owns.congr rfl (hs.issue_array args hasOnStop)
  obtain ⟨t, ht, hsent⟩ := sendJob_ok ho (some (.spawn s.nextHandle))
  exact ⟨t, (bind_of_ok (get_apply _)).trans ((bind_of_ok (modify_apply ..)).trans ht), hsent⟩

/-- What others have done. They do not wait for the children of active processes. -/
structure Elsewhere (s t : Sys) : Prop where
  frame : ∃ fds pipes children, t = { s with fds, pipes, children }
  children : ∀ pid ∈ s.active, pid ∈ s.children → pid ∈ t.children
  streams : s.Owns → ∀ slot : Slot, slot = .loop ∨ slot = .control → t.stream slot = s.stream slot

theorem Elsewhere.field {α : Type} (he : Elsewhere s t) (f : Sys → α)
    (hf : ∀ u fds pipes children, f { u with fds, pipes, children } = f u) : f t = f s := by
  obtain ⟨fds, pipes, children, ht⟩ := he.frame
  rw [ht]
  exact hf ..

theorem Elsewhere.refl (s : Sys) : Elsewhere s s := ⟨⟨_, _, _, rfl⟩, fun _ _ hc => hc, fun _ _ _ => rfl⟩

/-- A child, or a user, writes to a pipe of an object. -/
theorem Elsewhere.wrote (slot : Slot) (hslot : slot ≠ .loop ∧ slot ≠ .control) {pipes : Nat → ByteStream UInt8}
    (hp : ∀ pipe, (s.array slot).pipe ≠ some pipe → pipes pipe = s.pipes pipe) :
    Elsewhere s { s with pipes } := by
  refine ⟨⟨_, _, _, rfl⟩, fun _ _ hc => hc, fun ho other hother => ?_⟩
  show World.stream { s.toWorld with pipes } (s.array other) = s.toWorld.stream (s.array other)
  cases hl : (s.array other).pipe with
  | none => simp only [World.stream, hl]
  | some pipe =>
    simp only [World.stream_of_pipe hl]
    refine hp pipe fun he => ?_
    obtain rfl := ho.apart _ _ pipe he hl
    exact hother.elim hslot.1 hslot.2

theorem Elsewhere.write (slot : Slot) (hslot : slot ≠ .loop ∧ slot ≠ .control) (data : List UInt8) :
    Elsewhere s { s with toWorld := s.toWorld.write (s.array slot).wr data } := by
  obtain ⟨pipes, hw⟩ := s.toWorld.write_frame (s.array slot).wr data
  refine ⟨⟨s.fds, pipes, s.children, by rw [hw]⟩, fun pid _ hc => by rw [hw]; exact hc,
    fun ho other hother => ?_⟩
  have hne : other ≠ slot := by
    rintro rfl
    exact hother.elim hslot.1 hslot.2
  have hstream := Owned.write_stream_ne (w := s.toWorld) ho hne data
  rcases hother with rfl | rfl
  · exact hstream
  · exact hstream

theorem Elsewhere.inserted (pid : Int) (child : Child) :
    Elsewhere s { s with children := s.children.insert pid child } :=
  ⟨⟨_, _, _, rfl⟩, fun _ _ hc => (AList.mem_insert _).mpr (.inr hc), fun _ _ _ => rfl⟩

theorem envAct_elsewhere (act : EnvAct) (s : Sys) : Elsewhere s (act.apply s) := by
  cases act with
  | childOut h data =>
    simp only [EnvAct.apply]
    split
    next pipe hp =>
      refine Elsewhere.wrote (.stdout h) (by simp) fun x hx => ?_
      have hne : x ≠ pipe := by
        rintro rfl
        exact hx hp
      exact Function.update_of_ne hne ..
    next => exact .refl s
  | childErr h data =>
    simp only [EnvAct.apply]
    split
    next pipe hp =>
      refine Elsewhere.wrote (.stderr h) (by simp) fun x hx => ?_
      have hne : x ≠ pipe := by
        rintro rfl
        exact hx hp
      exact Function.update_of_ne hne ..
    next => exact .refl s
  | userStop h => exact Elsewhere.write (.watch h) (by simp) [0]
  | sigchld =>
    simp only [EnvAct.apply, World.deliverSigchld]
    split
    next => exact Elsewhere.write .sigchld (by simp) _
    next => exact Elsewhere.write .blocking (by simp) _
    next => exact .refl s
  | exit pid status =>
    simp only [EnvAct.apply]
    split
    next =>
      split
      next => exact .refl s
      next => exact .inserted ..
    next => exact .refl s
  | setpgid pid pgid =>
    simp only [EnvAct.apply]
    split
    next =>
      split
      next => exact .refl s
      next => exact .inserted ..
    next => exact .refl s
  | fork pid pgid =>
    simp only [EnvAct.apply]
    split
    next => exact .inserted ..
    next => exact .refl s
  | reap pid =>
    simp only [EnvAct.apply]
    split
    next hpid =>
      refine ⟨⟨_, _, _, rfl⟩, fun p hp hc => ?_, fun _ _ _ => rfl⟩
      exact AList.mem_erase.mpr ⟨fun he => hpid.1 (he ▸ hp), hc⟩
    next => exact .refl s
  | openFile fd =>
    simp only [EnvAct.apply]
    split
    next => exact ⟨⟨_, _, _, rfl⟩, fun _ _ hc => hc, fun _ _ _ => rfl⟩
    next => exact .refl s
  | closeFile fd =>
    simp only [EnvAct.apply]
    split
    next => exact ⟨⟨_, _, _, rfl⟩, fun _ _ hc => hc, fun _ _ _ => rfl⟩
    next => exact .refl s

theorem Elsewhere.on (he : Elsewhere s t) (hs : On s) : On t := by
  refine hs.congr (he.field Sys.registered fun _ _ _ _ => rfl) (he.field Sys.active fun _ _ _ _ => rfl)
    (he.field Sys.watching fun _ _ _ _ => rfl) (he.field (·.sigchldPipe) fun _ _ _ _ => rfl)
    (he.field Sys.controlPipe fun _ _ _ _ => rfl) (he.field Sys.handles fun _ _ _ _ => rfl)
    (he.field Sys.procs fun _ _ _ _ => rfl) (fun hm => ?_) he.children
  exact hm.congr (he.field Sys.loopType fun _ _ _ _ => rfl) (he.field Sys.registerFn fun _ _ _ _ => rfl)
    (he.field Sys.loop fun _ _ _ _ => rfl) (he.field Sys.registered fun _ _ _ _ => rfl)

end Pexec
