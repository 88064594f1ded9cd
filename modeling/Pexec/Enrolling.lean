import Pexec.DescriptorUse
import Pexec.SigchldReap

namespace Pexec

open Effect

variable {h : Nat} {pid : Int} {s t u : Sys}

/-- The process without what a spawn changes besides the registrations. -/
def Sys.beside (s : Sys) (h : Nat) : Sys :=
  { s with
    fds := {}
    pipes := fun _ => {}
    faults := []
    trace := []
    vigil := {}
    children := ∅
    forks := 0
    blockingPipe := {}
    procs := Function.update s.procs h {}
    handles := Function.update s.handles h none }

/-- The process of a spawn job runs, and its handle has its descriptors. -/
structure Spawned (h : Nat) (pid : Int) (s t : Sys) : Prop where
  opens : Opens h s t
  beside : t.beside h = s.beside h
  pos : 0 < pid
  fresh : pid ∉ s.children
  children : t.children = s.children.insert pid { pgid := s.pgid, fds := t.fds }
  served : Served t pid h
  called : Called [(h, .started, (t.procs h).proc)] s t
  current : s.Owns → HandsCurrent s t
  control : s.Owns → t.stream .control = s.stream .control

theorem Spawned.handlePid (hs : Spawned h pid s t) : handlePid t h = pid := by
  obtain ⟨hd, hh, hret⟩ := hs.served.handle
  simp only [Pexec.handlePid, hh, Option.map_some, Option.getD_some, hret, hs.served.proc]

theorem Spawned.field {α : Type} (hs : Spawned h pid s t) (f : Sys → α)
    (hf : ∀ u, f (u.beside h) = f u) : f t = f s := by
  rw [← hf t, hs.beside, hf]

theorem Sys.steady_beside (s : Sys) (h : Nat) :
    Sys.beside { s.steady h with children := ∅, forks := 0 } h = s.beside h := by
  simp only [Sys.beside, Sys.steady, Function.update_idem]

theorem callState_apply_handle {st : State} {hd : Handle} (hst : st.terminal = false)
    (hh : s.handles h = some hd) :
    callState h st s = .ok () { s with
      toWorld := s.toWorld.announced h st (s.procs h)
      handles := Function.update s.handles h
        (some { hd with retProc := (s.procs h).proc, retState := st }) } := by
  unfold callState
  rw [bind_of_ok (get_apply _), bind_of_ok (announce_apply ..)]
  simp only [hh]
  unfold handleState
  rw [bind_of_ok (modify_apply ..), if_neg (by rw [hst]; decide)]
  rfl

/-- A spawn that fails leaves the pid of its handle at 0. -/
theorem handleExec_failed {hd : Handle} (hh : s.handles h = some hd)
    (hexec : execPrepare h hd.args s = .ok false t) (ht : Unspawned h t) :
    ∃ u, handleExec h s = .ok () u ∧ handlePid u h = 0 := by
  obtain ⟨hd', hh', hpid, _⟩ := ht.handle
  have hrun : exec h hd.args s = .ok () t := by
    simp only [exec, execWatch, bind_apply, hexec, Bool.not_false, if_true, pure_apply,
      Bool.false_eq_true, if_false]
  refine ⟨{ t with
    handles := Function.update t.handles h ((t.handles h).map fun hd => { hd with
      fds := (t.procs h).getFds }) }, ?_, ?_⟩
  · unfold handleExec
    rw [bind_of_ok (get_apply _)]
    simp only [hh]
    rw [bind_of_ok hrun]
    rfl
  · simp only [handlePid, Function.update_self, hh', Option.map_some, Option.getD_some, hpid]

/-- Without a state callback nothing is handed over. -/
theorem Uses.current (hu : Uses s t) (hq : Uncalled s t) : HandsCurrent s t := by
  obtain ⟨new, ht, hnew, _⟩ := hu.events
  have hcalls : new.filterMap Event.call = [] := by
    have := hq.calls
    simp only [Sys.calls, ht, List.filterMap_append, List.append_nil] at this
    exact List.self_eq_append_right.mp this.symm
  have hnone : ∀ e ∈ new, e.hands = false := hnew fun h st q hm => by
    simpa [Event.call] using List.filterMap_eq_nil_iff.mp hcalls _ hm
  refine ⟨new, ht, fun e hm => ?_⟩
  have he := hnone e hm
  cases e <;> trivial

/-- STARTED hands over two ends that are open. -/
theorem Launched.started_current (ht : Launched h s t) (hu : Uses s t) (hs : s.Owns) {u : Sys}
    (htrace : u.trace = (t.toWorld.announced h .started (t.procs h).started).trace) :
    HandsCurrent s u := by
  have howns := ht.opens.owns hs
  have hslot : ∀ slot : Slot, slot.owner = some h → slot ∈ objectSlots h →
      (t.procs h).started.offers t.fds (t.array slot).wr = true := fun slot ho hm =>
    howns.offers rfl rfl rfl rfl slot ho (ht.ready slot hm).1
  have hin := hslot (.stdin h) rfl (by simp [objectSlots])
  have hwatch := hslot (.watch h) rfl (by simp [objectSlots])
  refine IsTrans.trans _ _ _ (hu.current ht.told.uncalled) ⟨[_, _], htrace.trans (List.append_assoc ..), ?_⟩
  intro e hm
  rcases List.mem_cons.mp hm with rfl | hm
  · exact ⟨hin, hwatch⟩
  · rw [List.mem_singleton.mp hm]
    trivial

/-- A spawn that succeeds. -/
theorem handleExec_launched {hd : Handle} (hh : s.handles h = some hd)
    (hp : s.procs h = { type := .nonblocking })
    (hexec : execPrepare h hd.args s = .ok true t) (ht : Launched h s t) :
    ∃ pid u, handleExec h s = .ok () u ∧ Spawned h pid s u := by
  have hhandles : t.handles = s.handles := by
    have := congrArg Sys.handles ht.steady
    exact this
  have htype : (s.procs h).type = .nonblocking := by rw [hp]
  have htype' : (t.procs h).type = .nonblocking := by
    have := congrArg (fun u : Sys => (u.procs h).type) ht.steady
    simpa [Sys.steady, htype] using this
  have hproc : (t.procs h).proc = {} := by
    have := congrArg (fun u : Sys => (u.procs h).proc) ht.steady
    simpa [Sys.steady, hp] using this
  -- `execStarted`
  set t₁ : Sys := { t with procs := Function.update t.procs h (t.procs h).started } with ht₁
  have hset : modifyProc h PexecSingle.started t = .ok () t₁ := modifyProc_apply ..
  have hh₁ : t₁.handles h = some hd := by
    show t.handles h = some hd
    rw [hhandles, hh]
  have hcall := callState_apply_handle (h := h) (rfl : State.terminal .started = false) hh₁
  set hd₂ : Handle := { hd with retProc := (t₁.procs h).proc, retState := .started } with hhd₂
  set t₂ : Sys := { t₁ with
    toWorld := t₁.toWorld.announced h .started (t₁.procs h)
    handles := Function.update t₁.handles h (some hd₂) } with ht₂
  have hstart : execStarted h t = .ok () t₂ := by
    unfold execStarted
    rw [bind_of_ok hset, hcall]
  have htype₂ : (t₂.procs h).type = .nonblocking := by
    simpa [ht₂, ht₁, PexecSingle.started] using htype'
  have hrun : exec h hd.args s = .ok () t₂ := by
    simp only [exec, execWatch, bind_apply, hexec, Bool.not_true, Bool.false_eq_true, if_false,
      hstart, get_apply, htype₂, if_true, pure_apply]
  have hh₂ : t₂.handles h = some hd₂ := Function.update_self ..
  set u : Sys := { t₂ with
    handles := Function.update t₂.handles h (some { hd₂ with fds := (t₂.procs h).getFds }) } with hu
  have hexecs : handleExec h s = .ok () u := by
    unfold handleExec
    rw [bind_of_ok (get_apply _)]
    simp only [hh]
    rw [bind_of_ok hrun, modify_apply, hh₂]
    rfl
  have hopens : Opens h s u := by
    have := handleExec_opens (h := h) htype
    rwa [hexecs] at this
  have hbeside : u.beside h = s.beside h := by
    have h₁ : u.beside h = t.beside h := by
      simp only [hu, ht₂, ht₁, Sys.beside, World.announced, World.emit, Function.update_idem]
    have h₂ := congrArg (fun v : Sys => Sys.beside { v with children := ∅, forks := 0 } h) ht.steady
    simp only [Sys.steady_beside] at h₂
    rw [h₁, h₂]
    simp only [Sys.beside]
  have hchildren : t.children =
      s.children.insert (t.procs h).procPid { pgid := s.pgid, fds := t.fds } := by
    have := congrArg (·.children) ht.steady
    exact this
  have harr : u.array = t.array := array_update t h (p := (t.procs h).started) rfl
  have hstarted : u.procs h = (t.procs h).started := by simp [hu, ht₂, ht₁]
  refine ⟨(t.procs h).procPid, u, hexecs, hopens, hbeside, ht.pid.1, ht.pid.2, hchildren, ?_, ?_,
    fun hs => ht.started_current ((execPrepare_uses hd.args).ok hexec) hs (by simp [hu, ht₂, ht₁]),
    fun hs => (congrFun (Sys.stream_congr (s := t) (t := u) rfl harr) .control).trans (ht.control hs)⟩
  · refine ⟨htype₂, ?_, ?_, ⟨_, Function.update_self .., rfl⟩, ?_, fun slot hslot => ?_,
      fun slot hslot => harr ▸ ht.flags slot hslot, ?_⟩
    · rw [hstarted]
      rfl
    · rw [hstarted, harr]
      simp only [PexecSingle.started, hproc, Sys.array]
    · simp [Sys.fdsOf, hu]
    · rw [harr]
      exact (ht.ready slot hslot).1
    · show _ ∈ t.children
      rw [hchildren]
      exact (AList.mem_insert _).mpr (.inl rfl)
  · have hstart₁ : Uncalled s t₁ := IsTrans.trans _ t _ ht.told.uncalled (Uncalled.same rfl)
    have hstart₂ : Called [(h, .started, (t₁.procs h).proc)] t₁ t₂ :=
      Called.of_told ((callState_told (h := h) .started).ok hcall) rfl
    exact (hstart₁.trans hstart₂).trans (Uncalled.same (t := u) rfl)

/-- What a spawn job can come to. -/
theorem handleExec_cases {hd : Handle} (hh : s.handles h = some hd)
    (hp : s.procs h = { type := .nonblocking }) (hu : Unspawned h s) :
    (∃ u, handleExec h s = .ok () u ∧ handlePid u h = 0) ∨
      ∃ pid u, handleExec h s = .ok () u ∧ Spawned h pid s u := by
  obtain ⟨b, t, hprep, ht, _⟩ := (execPrepare_through hd.args (F := s.faults)).total ⟨hu, rfl⟩
  cases b with
  | false => exact .inl (handleExec_failed hh hprep ht)
  | true =>
    have hlaunch := (execPrepare_launched s hd.args).ok ⟨rfl, by rw [hp]⟩ hprep
    exact .inr (handleExec_launched hh hp hprep (hlaunch.2 rfl))

theorem lookup_insert_fresh {β : Type} {m : AList (fun _ : Int => β)} {a k : Int} {x v : β}
    (ha : a ∉ m) : (m.insert a x).lookup k = some v ↔ k = a ∧ v = x ∨ m.lookup k = some v := by
  by_cases hk : k = a
  · subst k
    rw [AList.lookup_insert, AList.lookup_eq_none.mpr ha]
    simp [eq_comm]
  · rw [AList.lookup_insert_ne hk]
    simp [hk]

theorem Rewired.loop_rd (hr : Rewired s t) : (t.array .loop).rd = (s.array .loop).rd := by
  simp only [Sys.array, hr.control]

/-- The three registrations of a process. -/
theorem addThree_ok {a b c : Int} {x y z : Source} (hm : s.Mirrored)
    (hfresh : ∀ fd ∈ [a, b, c], fd ∉ s.registered ∧ fd ≠ (s.array .loop).rd)
    (hab : b ≠ a) (hac : c ≠ a) (hbc : c ≠ b) :
    ∃ t, (do addReadEvent a x; addReadEvent b y; addReadEvent c z : Prog Unit) s = .ok () t ∧
      t.registered = ((s.registered.insert a x).insert b y).insert c z ∧ t.Mirrored ∧
      Rewired s t := by
  have hfa := hfresh a (by simp)
  have hfb := hfresh b (by simp)
  have hfc := hfresh c (by simp)
  obtain ⟨t₁, h₁, hr₁, hm₁, hw₁⟩ := addReadEvent_ok _ x hm hfa.1 fun _ => hfa.2
  obtain ⟨t₂, h₂, hr₂, hm₂, hw₂⟩ := addReadEvent_ok _ y hm₁
    (by rw [hr₁, AList.mem_insert]; exact not_or.mpr ⟨hab, hfb.1⟩)
    (fun _ => by rw [hw₁.loop_rd]; exact hfb.2)
  obtain ⟨t₃, h₃, hr₃, hm₃, hw₃⟩ := addReadEvent_ok _ z hm₂
    (by rw [hr₂, hr₁, AList.mem_insert, AList.mem_insert]; exact not_or.mpr ⟨hbc, not_or.mpr ⟨hac, hfc.1⟩⟩)
    (fun _ => by rw [hw₂.loop_rd, hw₁.loop_rd]; exact hfc.2)
  refine ⟨t₃, ?_, by rw [hr₃, hr₂, hr₁], hm₃, IsTrans.trans _ _ _ hw₁ (IsTrans.trans _ _ _ hw₂ hw₃)⟩
  rw [bind_of_ok h₁, bind_of_ok h₂]
  exact h₃

theorem Spawned.array_ne (hs : Spawned h pid s t) {slot : Slot} (ho : slot.owner ≠ some h)
    (hb : slot ≠ .blocking) : t.array slot = s.array slot := by
  have hx : ∀ x, x ≠ h → t.procs x = s.procs x := fun x hx => (hs.opens.objects hx).1
  cases slot with
  | blocking => exact absurd rfl hb
  | control => exact hs.field Sys.controlPipe fun _ => rfl
  | sigchld => exact hs.field (·.sigchldPipe) fun _ => rfl
  | loop => exact hs.field (fun u => u.array .loop) fun _ => rfl
  | ioLoop => exact hs.field (fun u => u.array .ioLoop) fun _ => rfl
  | stdin x | stdout x | stderr x | watch x =>
    have hne : x ≠ h := by
      rintro rfl
      exact ho rfl
    simp only [Sys.array, hx x hne]

/-- The process without what a spawn job changes. -/
def Sys.apart (s : Sys) (h : Nat) : Sys :=
  { s.beside h with
    mapOrder := []
    active := ∅
    registered := ∅
    loop := (s.loop.map SelectEvent.controlPipe).map fun p => { controlPipe := p } }

/-- The process of a spawn job is watched. -/
structure Enrolled (h : Nat) (pid : Int) (s t : Sys) : Prop where
  apart : t.apart h = s.apart h
  on : On t
  inactive : pid ∉ s.active
  active : t.active = s.active.insert pid h
  fresh : pid ∉ s.children
  children : t.children = s.children.insert pid { pgid := s.pgid, fds := t.fds }
  called : Called [(h, .started, (t.procs h).proc)] s t
  current : s.Owns → HandsCurrent s t
  loop : s.Owns → t.stream .loop = s.stream .loop
  control : s.Owns → t.stream .control = s.stream .control

theorem Enrolled.field {α : Type} (he : Enrolled h pid s t) (f : Sys → α)
    (hf : ∀ u, f (u.apart h) = f u) : f t = f s := by
  rw [← hf t, he.apart, hf]

/-- What is expected to be registered, once there is one more active process. -/
theorem Sys.expected_insert (hactive : t.active = s.active.insert pid h) (hfresh : pid ∉ s.active)
    (hw : t.watching = s.watching) (src : Source) :
    t.Expected src ↔ src.owner = some h ∨ s.Expected src := by
  have hother : ∀ x, (∃ p, t.active.lookup p = some x) ↔ x = h ∨ ∃ p, s.active.lookup p = some x := by
    intro x
    simp only [hactive, lookup_insert_fresh hfresh]
    constructor
    · rintro ⟨p, ⟨_, hx⟩ | hp⟩
      · exact .inl hx
      · exact .inr ⟨p, hp⟩
    · rintro (rfl | ⟨p, hp⟩)
      · exact ⟨pid, .inl ⟨rfl, rfl⟩⟩
      · exact ⟨p, .inr hp⟩
  cases src <;> simp [Sys.Expected, Source.owner, hother, hw]

/-- `job_spawn_proc` makes the process active and gives its handle the callback for its end. -/
def Sys.activated (s : Sys) (h : Nat) (pid : Int) : Sys :=
  { s with
    active := s.active.insert pid h
    handles := Function.update s.handles h
      ((s.handles h).map fun hd => { hd with onProcStopped := some pid }) }

theorem Served.activated (hs : Served s pid h) : Served (s.activated h pid) pid h := by
  obtain ⟨hd, hh, hret⟩ := hs.handle
  refine ⟨hs.type, hs.procPid, hs.proc, ⟨{ hd with onProcStopped := some pid }, ?_, hret⟩, ?_,
    hs.ready, hs.flags, hs.child⟩
  · simp only [Sys.activated, hh, Option.map_some, Function.update_self]
  · have hfds := hs.fds
    simp only [Sys.fdsOf, hh, Option.map_some, Option.getD_some] at hfds
    simp only [Sys.fdsOf, Sys.activated, hh, Option.map_some, Option.getD_some, Function.update_self]
    exact hfds

/-- The descriptors of the new process are new to the loop. -/
theorem Spawned.fds_new (hs : Sound s) (hnew : ∀ p, s.active.lookup p ≠ some h)
    (hsp : Spawned h pid s u) {slot : Slot} (hslot : slot ∈ objectSlots h) :
    (u.array slot).rd ∉ u.registered ∧ (u.array slot).rd ≠ (u.array .loop).rd := by
  have howns := hsp.opens.owns hs.isolated.owns
  have hopen := hsp.served.ready slot hslot
  have howner : slot.owner = some h := by
    simp only [objectSlots, List.mem_cons, List.not_mem_nil, or_false] at hslot
    rcases hslot with rfl | rfl | rfl | rfl <;> rfl
  have hne : ∀ x : Slot, x.owner ≠ some h → (u.array slot).rd ≠ (u.array x).rd := by
    intro x hx
    refine (Owned.rd_ne howns ?_ hopen).1
    rintro rfl
    exact hx howner
  refine ⟨fun hm => ?_, hne .loop (by simp [Slot.owner])⟩
  rw [hsp.field Sys.registered fun _ => rfl, hs.on.mem_registered] at hm
  obtain ⟨src, hexp, hrd⟩ := hm
  have hsrc : src.slot.owner ≠ some h := by
    rw [src.slot_owner]
    cases src with
    | sigchld | control => simp [Source.owner]
    | readClose x | readStdout x | readStderr x =>
      obtain ⟨p, hp⟩ := hexp
      rintro hx
      cases hx
      exact hnew p hp
  have hblock : src.slot ≠ .blocking := by cases src <;> simp [Source.slot]
  rw [← hsp.array_ne hsrc hblock] at hrd
  exact hne src.slot hsrc hrd.symm

theorem Spawned.enrolled (hs : Sound s) (hnew : ∀ p, s.active.lookup p ≠ some h)
    (hsp : Spawned h pid s u) :
    ∃ t, (do
      addReadEvent (u.array (.watch h)).rd (.readClose h)
      addReadEvent (u.array (.stdout h)).rd (.readStdout h)
      addReadEvent (u.array (.stderr h)).rd (.readStderr h) : Prog Unit) (u.activated h pid) =
        .ok () t ∧ Enrolled h pid s t := by
  have howns := hsp.opens.owns hs.isolated.owns
  have hreg : u.registered = s.registered := hsp.field Sys.registered fun _ => rfl
  have hact : u.active = s.active := hsp.field Sys.active fun _ => rfl
  have hinactive : pid ∉ s.active := by
    intro hm
    obtain ⟨x, hx⟩ := Option.isSome_iff_exists.mp (AList.lookup_isSome.mpr hm)
    exact hsp.fresh (hs.on.served pid x hx).child
  have hnewfd : ∀ slot ∈ objectSlots h, (u.array slot).rd ∉ u.registered ∧
      (u.array slot).rd ≠ (u.array .loop).rd := fun _ => hsp.fds_new hs hnew
  have hmirror : (u.activated h pid).Mirrored := by
    have := hs.on.desk.mirrored.congr (t := u) (hsp.field Sys.loopType fun _ => rfl)
      (hsp.field Sys.registerFn fun _ => rfl) (hsp.field Sys.loop fun _ => rfl) hreg
    exact this.congr rfl rfl rfl rfl
  have hne : ∀ {i j : Slot}, i ≠ j → i ∈ objectSlots h → (u.array i).rd ≠ (u.array j).rd :=
    fun hij hi => (Owned.rd_ne howns hij (hsp.served.ready _ hi)).1
  obtain ⟨t, ht, hregt, hmt, hrw⟩ := addThree_ok (x := .readClose h) (y := .readStdout h)
    (z := .readStderr h) (a := (u.array (.watch h)).rd) (b := (u.array (.stdout h)).rd)
    (c := (u.array (.stderr h)).rd) hmirror
    (by
      intro fd hfd
      simp only [List.mem_cons, List.not_mem_nil, or_false] at hfd
      rcases hfd with rfl | rfl | rfl
      · exact hnewfd _ (by simp [objectSlots])
      · exact hnewfd _ (by simp [objectSlots])
      · exact hnewfd _ (by simp [objectSlots]))
    (hne (by simp) (by simp [objectSlots])) (hne (by simp) (by simp [objectSlots]))
    (hne (by simp) (by simp [objectSlots]))
  refine ⟨t, ht, ?_⟩
  have hactive : t.active = s.active.insert pid h := by
    rw [hrw.field Sys.active fun _ _ _ _ _ _ => rfl]
    show u.active.insert pid h = _
    rw [hact]
  have hprocs : t.procs = u.procs := hrw.field Sys.procs fun _ _ _ _ _ _ => rfl
  have hhandles : t.handles = (u.activated h pid).handles :=
    hrw.field Sys.handles fun _ _ _ _ _ _ => rfl
  have hchildren : t.children = u.children := hrw.field (·.children) fun _ _ _ _ _ _ => rfl
  have hother : ∀ x, x ≠ h → t.procs x = s.procs x ∧ t.handles x = s.handles x := by
    intro x hx
    obtain ⟨hp, hh⟩ := hsp.opens.objects hx
    refine ⟨by rw [hprocs, hp], ?_⟩
    rw [hhandles]
    exact (Function.update_of_ne hx ..).trans hh
  have hserved : Served t pid h := by
    refine hsp.served.activated.congr (by rw [hprocs]; rfl) (by rw [hhandles]) ?_
    rw [hchildren]
    exact hsp.served.child
  have hkey : ∀ src, src.owner ≠ some h → t.keyOf src = s.keyOf src := by
    intro src hsrc
    cases src with
    | sigchld =>
      exact (hrw.field (·.sigchldPipe.rd) fun _ _ _ _ _ _ => rfl).trans
        (hsp.field (·.sigchldPipe.rd) fun _ => rfl)
    | control =>
      exact (hrw.field (·.controlPipe.rd) fun _ _ _ _ _ _ => rfl).trans
        (hsp.field (·.controlPipe.rd) fun _ => rfl)
    | readClose x | readStdout x | readStderr x =>
      have hx : x ≠ h := fun he => hsrc (by rw [he]; rfl)
      simp only [Sys.keyOf, Sys.fdsOf, (hother x hx).2]
  have hlook : ∀ fd src, t.registered.lookup fd = some src ↔
      fd = (u.array (.stderr h)).rd ∧ src = .readStderr h ∨
      fd = (u.array (.stdout h)).rd ∧ src = .readStdout h ∨
      fd = (u.array (.watch h)).rd ∧ src = .readClose h ∨ s.registered.lookup fd = some src := by
    intro fd src
    have h₁ := (hnewfd (.watch h) (by simp [objectSlots])).1
    have h₂ := (hnewfd (.stdout h) (by simp [objectSlots])).1
    have h₃ := (hnewfd (.stderr h) (by simp [objectSlots])).1
    have hreg' : (u.activated h pid).registered = u.registered := rfl
    rw [hregt, hreg', lookup_insert_fresh, lookup_insert_fresh, lookup_insert_fresh h₁, hreg]
    · rw [AList.mem_insert]
      exact not_or.mpr ⟨hne (by simp) (by simp [objectSlots]), h₂⟩
    · rw [AList.mem_insert, AList.mem_insert]
      exact not_or.mpr ⟨hne (by simp) (by simp [objectSlots]),
        not_or.mpr ⟨hne (by simp) (by simp [objectSlots]), h₃⟩⟩
  have hown : t.keyOf (.readClose h) = (u.array (.watch h)).rd ∧
      t.keyOf (.readStdout h) = (u.array (.stdout h)).rd ∧
      t.keyOf (.readStderr h) = (u.array (.stderr h)).rd := by
    simp only [Sys.keyOf, hserved.fds, hprocs]
    exact ⟨rfl, rfl, rfl⟩
  have hdesk : Desk t := by
    refine ⟨fun fd src => ?_, fun p x hp => ?_, hmt⟩
    · have hexp := Sys.expected_insert hactive hinactive
        ((hrw.field Sys.watching fun _ _ _ _ _ _ => rfl).trans (hsp.field Sys.watching fun _ => rfl)) src
      have hunexp : src.owner = some h → s.registered.lookup fd ≠ some src := by
        intro ho hl
        obtain ⟨he, _⟩ := (hs.on.desk.keys fd src).mp hl
        cases src with
        | sigchld | control => cases ho
        | readClose x | readStdout x | readStderr x =>
          cases ho
          exact hnew _ he.choose_spec
      rw [hlook, hexp]
      by_cases ho : src.owner = some h
      · have hs' := hunexp ho
        cases src with
        | sigchld | control => cases ho
        | readClose x | readStdout x | readStderr x =>
          cases ho
          simp [hs', hown, Source.owner, eq_comm]
      · rw [hkey src ho, hs.on.desk.keys]
        have hsrc : src ≠ .readStderr h ∧ src ≠ .readStdout h ∧ src ≠ .readClose h := by
          refine ⟨?_, ?_, ?_⟩ <;> rintro rfl <;> exact ho rfl
        simp [hsrc, ho]
    · rw [hactive, lookup_insert_fresh hinactive] at hp
      rcases hp with ⟨rfl, rfl⟩ | hp
      · obtain ⟨hd, hh, _⟩ := hsp.served.handle
        refine ⟨{ hd with onProcStopped := some p }, ?_, rfl⟩
        rw [hhandles]
        simp [Sys.activated, hh]
      · have hx : x ≠ h := fun he => hnew p (he ▸ hp)
        rw [(hother x hx).2]
        exact hs.on.desk.linked p x hp
  have hon : On t := by
    refine ⟨hdesk, fun p x hp => ?_⟩
    rw [hactive, lookup_insert_fresh hinactive] at hp
    rcases hp with ⟨rfl, rfl⟩ | hp
    · exact hserved
    · have hx : x ≠ h := fun he => hnew p (he ▸ hp)
      refine (hs.on.served p x hp).congr (hother x hx).1 (hother x hx).2 ?_
      rw [hchildren, hsp.children]
      exact (AList.mem_insert _).mpr (.inr (hs.on.served p x hp).child)
  have hfds : u.fds = t.fds := (hrw.field (·.fds) fun _ _ _ _ _ _ => rfl).symm
  have hpipes : t.pipes = u.pipes := hrw.field (·.pipes) fun _ _ _ _ _ _ => rfl
  refine ⟨?_, hon, hinactive, hactive, hsp.fresh, hchildren.trans (hfds ▸ hsp.children), ?_,
    fun ho => ?_, fun _ => ?_, fun ho => ?_⟩
  · obtain ⟨loop, mapOrder, trace, vigil, hframe⟩ := hrw.frame
    have hcontrol : t.loop.map SelectEvent.controlPipe = s.loop.map SelectEvent.controlPipe :=
      hrw.control.trans (hsp.field (fun u => u.loop.map SelectEvent.controlPipe) fun _ => rfl)
    have hbeside := congrArg (fun v : Sys => { v with
      mapOrder := []
      active := ∅
      registered := ∅
      loop := (t.loop.map SelectEvent.controlPipe).map fun p => { controlPipe := p } }) hsp.beside
    have h₁ : t.apart h = { u.beside h with
        mapOrder := []
        active := ∅
        registered := ∅
        loop := (t.loop.map SelectEvent.controlPipe).map fun p => { controlPipe := p } } := by
      have hloop : t.loop = loop := by rw [hframe]
      rw [hloop, hframe]
      simp only [Sys.apart, Sys.beside, Sys.activated, Function.update_idem]
    have h₂ : { s.beside h with
        mapOrder := []
        active := ∅
        registered := ∅
        loop := (t.loop.map SelectEvent.controlPipe).map fun p => { controlPipe := p } } =
          s.apart h := by
      rw [hcontrol]
      rfl
    exact h₁.trans (hbeside.trans h₂)
  · rw [hprocs]
    exact (hsp.called.trans (Uncalled.same (t := u.activated h pid) rfl)).trans hrw.told.uncalled
  · have huses : Uses (u.activated h pid) t :=
      (Moves.bind (addReadEvent_uses _ _) fun _ => Moves.bind (addReadEvent_uses _ _) fun _ =>
        addReadEvent_uses _ _).ok ht
    exact IsTrans.trans _ _ _ (hsp.current ho)
      (IsTrans.trans _ (u.activated h pid) _ (.same rfl) (huses.current hrw.told.uncalled))
  · have harr : t.array .loop = u.array .loop := congrArg (Option.getD · ({} : PipeFds)) hrw.control
    have hstream : t.stream .loop = u.stream .loop := by
      simp only [Sys.stream, World.stream, harr, hpipes]
    exact hstream.trans (hsp.opens.streams hs.isolated.owns .loop (by simp [Slot.owner]) (by simp)
      (by simp))
  · have harr : t.array .control = u.array .control := hrw.field (·.controlPipe) fun _ _ _ _ _ _ => rfl
    have hstream : t.stream .control = u.stream .control := by
      simp only [Sys.stream, World.stream, harr, hpipes]
    exact hstream.trans (hsp.control ho)

/-- A spawn job is refused, or its process is started and watched, or the assertion on its pid
fails. -/
theorem jobSpawnProc_cases {hd : Handle} (hs : Sound s) (hp : s.procs h = { type := .nonblocking })
    (hh : s.handles h = some hd) (hu : Unspawned h s) (hnew : ∀ p, s.active.lookup p ≠ some h) :
    s.stopping = true ∧ jobSpawnProc h s = .ok .nothing s ∨
      (∃ t, jobSpawnProc h s = .error (.assertion .pidPositive) t) ∨
      s.stopping = false ∧ ∃ pid t, jobSpawnProc h s = .ok .nothing t ∧ Enrolled h pid s t := by
  unfold jobSpawnProc
  rw [bind_of_ok (get_apply _)]
  cases hstopping : s.stopping with
  | true => exact .inl ⟨rfl, rfl⟩
  | false =>
    refine .inr ?_
    rw [if_neg (by decide)]
    rcases handleExec_cases hh hp hu with ⟨u, hu, hpid⟩ | ⟨pid, u, hu, hsp⟩
    · refine .inl ⟨u, ?_⟩
      rw [bind_of_ok hu, bind_of_ok (get_apply _), hpid]
      rfl
    · obtain ⟨t, ht, hen⟩ := hsp.enrolled hs hnew
      refine .inr ⟨rfl, pid, t, ?_, hen⟩
      have hfds : (((u.activated h pid).handles h).map Handle.fds).getD {} = (u.procs h).getFds :=
        hsp.served.activated.fds
      rw [bind_of_ok hu, bind_of_ok (get_apply _), hsp.handlePid,
        bind_of_ok (show assert (decide (0 < pid)) .pidPositive u = .ok () u by
          rw [decide_eq_true hsp.pos]; rfl),
        bind_of_ok (modify_apply ..), bind_of_ok (modify_apply ..), bind_of_ok (get_apply _)]
      obtain ⟨_, t₁, h₁, hrest⟩ := bind_eq_ok.mp ht
      obtain ⟨_, t₂, h₂, h₃⟩ := bind_eq_ok.mp hrest
      show (do
        addReadEvent (((u.activated h pid).handles h).map Handle.fds |>.getD {}).watchCloseWrite _
        addReadEvent (((u.activated h pid).handles h).map Handle.fds |>.getD {}).stdoutRead _
        addReadEvent (((u.activated h pid).handles h).map Handle.fds |>.getD {}).stderrRead _
        return .nothing : Prog EventReturn) (u.activated h pid) = _
      rw [hfds]
      exact (bind_of_ok h₁).trans ((bind_of_ok h₂).trans (bind_of_ok h₃))

end Pexec
