import Pexec.Spawning

namespace Pexec

open Effect

/-- The descriptors that the handle of object `h` keeps for the loop. -/
def Sys.fdsOf (s : Sys) (h : Nat) : PexecFds := ((s.handles h).map Handle.fds).getD {}

/-- The descriptor that a callback is for. -/
def Sys.keyOf (s : Sys) : Source → Int
  | .sigchld => s.sigchldPipe.rd
  | .control => s.controlPipe.rd
  | .readClose h => (s.fdsOf h).watchCloseWrite
  | .readStdout h => (s.fdsOf h).stdoutRead
  | .readStderr h => (s.fdsOf h).stderrRead

/-- The callbacks that are to be registered. -/
def Sys.Expected (s : Sys) : Source → Prop
  | .sigchld | .control => s.watching = true
  | .readClose h | .readStdout h | .readStderr h => ∃ pid, s.active.lookup pid = some h

/-- The loop watches what is registered, and its own pipe. -/
structure Watches (s : Sys) (e : SelectEvent LoopSource) : Prop where
  own : e.controlPipe.rd ∉ s.registered
  cbs : ∀ p, p ∈ e.cbs ↔ p = (e.controlPipe.rd, .interrupt) ∨ p.1 ∈ s.registered ∧ p.2 = .doAction

/-- Registrations go to the loop that runs. -/
def Sys.Mirrored (s : Sys) : Prop :=
  s.loopType = .external ∧ s.registerFn = some .user ∨
    s.loopType = .default ∧ s.registerFn = some .loop ∧ ∃ e, s.loop = some e ∧ Watches s e

/-- `registered_fd_` holds what is expected, and nothing else. -/
structure Desk (s : Sys) : Prop where
  keys : ∀ fd src, s.registered.lookup fd = some src ↔ s.Expected src ∧ s.keyOf src = fd
  linked : ∀ pid h, s.active.lookup pid = some h →
    ∃ hd, s.handles h = some hd ∧ hd.onProcStopped = some pid
  mirrored : s.Mirrored

variable {h : Nat} {pid : Int} {s t : Sys} {st : State}

theorem Watches.mem_keys {e : SelectEvent LoopSource} (hw : Watches s e) {fd : Int} :
    fd ∈ e.keys ↔ fd = e.controlPipe.rd ∨ fd ∈ s.registered := by
  rw [SelectEvent.mem_keys]
  constructor
  · rintro ⟨cb, hm⟩
    rcases (hw.cbs _).mp hm with he | ⟨hr, _⟩
    · exact .inl (congrArg Prod.fst he)
    · exact .inr hr
  · rintro (rfl | hr)
    · exact ⟨_, (hw.cbs _).mpr (.inl rfl)⟩
    · exact ⟨_, (hw.cbs (fd, .doAction)).mpr (.inr ⟨hr, rfl⟩)⟩

/-- A change of one registration. -/
structure Rewired (s t : Sys) : Prop where
  frame : ∃ loop mapOrder trace vigil,
    t = { s with registered := t.registered, loop, mapOrder, trace, vigil }
  control : t.loop.map SelectEvent.controlPipe = s.loop.map SelectEvent.controlPipe
  told : Hushed s t

instance : IsPreorder Sys Rewired where
  refl s := ⟨⟨_, _, _, _, rfl⟩, rfl, Std.Refl.refl s⟩
  trans s t u hst htu := by
    obtain ⟨loop, mapOrder, trace, vigil, hu⟩ := htu.frame
    obtain ⟨loop', mapOrder', trace', vigil', ht⟩ := hst.frame
    refine ⟨⟨loop, mapOrder, trace, vigil, ?_⟩, htu.control.trans hst.control, IsTrans.trans _ _ _ hst.told htu.told⟩
    rw [hu, ht]

theorem Rewired.field {α : Type} (hr : Rewired s t) (f : Sys → α)
    (hf : ∀ u registered loop mapOrder trace vigil,
      f { u with registered, loop, mapOrder, trace, vigil } = f u) : f t = f s := by
  obtain ⟨loop, mapOrder, trace, vigil, ht⟩ := hr.frame
  rw [ht]
  exact hf ..

theorem loopAdd_ok {fd : Int} {e : SelectEvent LoopSource} (hl : s.loop = some e)
    (hn : fd ∉ e.keys) :
    ∃ e' mapOrder vigil, loopAdd fd s = .ok () { s with loop := some e', mapOrder, vigil } ∧
      e'.controlPipe = e.controlPipe ∧ ∀ p, p ∈ e'.cbs ↔ p ∈ e.cbs ∨ p = (fd, .doAction) := by
  have hadd := @SelectEvent.addReadEvent_of_not_mem _ e (s.mapOrder.headD []) _ LoopSource.doAction hn
  obtain ⟨_, hc, hcbs⟩ := addReadEvent_cases hadd
  refine ⟨_, s.mapOrder.tail, s.vigil.add s.fds fd, ?_, hc, hcbs⟩
  unfold loopAdd
  rw [bind_of_ok (get_apply _)]
  simp only [hl]
  rw [bind_of_ok (show nextOrder s = .ok (s.mapOrder.headD []) { s with mapOrder := s.mapOrder.tail } from rfl)]
  simp only [hadd]
  rfl

theorem loopRemove_ok {fd : Int} {e : SelectEvent LoopSource} (hl : s.loop = some e)
    (hm : fd ∈ e.keys) : ∃ e' vigil, loopRemove fd s = .ok () { s with loop := some e', vigil } ∧
      e'.controlPipe = e.controlPipe ∧ ∀ p, p ∈ e'.cbs ↔ p ∈ e.cbs ∧ p.1 ≠ fd := by
  obtain ⟨e', he, hc, hcbs⟩ := e.removeReadEvent_of_mem hm
  refine ⟨e', s.vigil.remove fd, ?_, hc, hcbs⟩
  unfold loopRemove
  rw [bind_of_ok (get_apply _)]
  simp only [hl, he]
  rfl

/-- A descriptor that is not registered and not the loop's own can be added. -/
theorem addReadEvent_ok (fd : Int) (cb : Source) (hm : s.Mirrored) (hn : fd ∉ s.registered)
    (hloop : s.loopType = .default → fd ≠ (s.array .loop).rd) :
    ∃ t, addReadEvent fd cb s = .ok () t ∧ t.registered = s.registered.insert fd cb ∧
      t.Mirrored ∧ Rewired s t := by
  obtain ⟨u, hu⟩ : ∃ u : Sys, u = { s with registered := s.registered.insert fd cb } := ⟨_, rfl⟩
  rw [addReadEvent_apply, ← hu, bind_of_ok (get_apply _)]
  rcases hm with ⟨ht, hf⟩ | ⟨ht, hf, e, hl, hw⟩
  · have hf' : u.registerFn = some .user := by rw [hu]; exact hf
    rw [hf']
    refine ⟨{ u with toWorld := u.toWorld.emit (.register fd true) }, rfl, by rw [hu], .inl ?_,
      ⟨u.loop, u.mapOrder, s.trace ++ [.register fd true], u.vigil.tell u.fds (.register fd true), ?_⟩, ?_, ?_⟩
    · rw [hu]
      exact ⟨ht, hf⟩
    · rw [hu]
      rfl
    · rw [hu]
    · rw [hu]
      exact emit_hushed (e := .register fd true) rfl { s with registered := s.registered.insert fd cb }
  · have hf' : u.registerFn = some .loop := by rw [hu]; exact hf
    have hl' : u.loop = some e := by rw [hu]; exact hl
    have hk : fd ∉ e.keys := by
      rw [hw.mem_keys, not_or]
      exact ⟨by simpa [Sys.array, hl] using hloop ht, hn⟩
    obtain ⟨e', mapOrder, vigil, hadd, hc, hcbs⟩ := loopAdd_ok hl' hk
    rw [hf']
    refine ⟨_, hadd, by rw [hu], .inr ⟨?_, ?_, e', rfl, ?_, fun p => ?_⟩,
      ⟨some e', mapOrder, s.trace, vigil, by rw [hu]⟩, ?_, by rw [hu]; rfl⟩
    · rw [hu]
      exact ht
    · rw [hu]
      exact hf
    · rw [hc, hu, AList.mem_insert, not_or]
      exact ⟨fun he => hk (hw.mem_keys.mpr (.inl he.symm)), hw.own⟩
    · rw [hcbs, hc, hw.cbs, hu, AList.mem_insert]
      constructor
      · rintro ((hp | ⟨hp, hd⟩) | rfl)
        · exact .inl hp
        · exact .inr ⟨.inr hp, hd⟩
        · exact .inr ⟨.inl rfl, rfl⟩
      · rintro (hp | ⟨hp | hp, hd⟩)
        · exact .inl (.inl hp)
        · exact .inr (Prod.ext hp hd)
        · exact .inl (.inr ⟨hp, hd⟩)
    · rw [hl, Option.map_some, Option.map_some, hc]

/-- A descriptor that is registered can be removed. -/
theorem removeReadEvent_ok {fd : Int} (hm : s.Mirrored) (hr : fd ∈ s.registered) :
    ∃ t, removeReadEvent fd s = .ok () t ∧ t.registered = s.registered.erase fd ∧
      t.Mirrored ∧ Rewired s t := by
  obtain ⟨u, hu⟩ : ∃ u : Sys, u = { s with registered := s.registered.erase fd } := ⟨_, rfl⟩
  rw [removeReadEvent_apply, ← hu, bind_of_ok (get_apply _)]
  rcases hm with ⟨ht, hf⟩ | ⟨ht, hf, e, hl, hw⟩
  · have hf' : u.registerFn = some .user := by rw [hu]; exact hf
    rw [hf']
    refine ⟨{ u with toWorld := u.toWorld.emit (.register fd false) }, rfl, by rw [hu], .inl ?_,
      ⟨u.loop, u.mapOrder, s.trace ++ [.register fd false], u.vigil.tell u.fds (.register fd false), ?_⟩, ?_, ?_⟩
    · rw [hu]
      exact ⟨ht, hf⟩
    · rw [hu]
      rfl
    · rw [hu]
    · rw [hu]
      exact emit_hushed (e := .register fd false) rfl { s with registered := s.registered.erase fd }
  · have hf' : u.registerFn = some .loop := by rw [hu]; exact hf
    have hl' : u.loop = some e := by rw [hu]; exact hl
    obtain ⟨e', vigil, hrem, hc, hcbs⟩ := loopRemove_ok hl' (hw.mem_keys.mpr (.inr hr))
    have hne : e.controlPipe.rd ≠ fd := by
      rintro rfl
      exact hw.own hr
    rw [hf']
    refine ⟨_, hrem, by rw [hu], .inr ⟨?_, ?_, e', rfl, ?_, fun p => ?_⟩,
      ⟨some e', s.mapOrder, s.trace, vigil, by rw [hu]⟩, ?_, by rw [hu]; rfl⟩
    · rw [hu]
      exact ht
    · rw [hu]
      exact hf
    · rw [hc, hu, AList.mem_erase]
      exact fun hm => hw.own hm.2
    · rw [hcbs, hc, hw.cbs, hu, AList.mem_erase]
      constructor
      · rintro ⟨hp | ⟨hp, hd⟩, hfd⟩
        · exact .inl hp
        · exact .inr ⟨⟨hfd, hp⟩, hd⟩
      · rintro (rfl | ⟨⟨hfd, hp⟩, hd⟩)
        · exact ⟨.inl rfl, hne⟩
        · exact ⟨.inr ⟨hp, hd⟩, hfd⟩
    · rw [hl, Option.map_some, Option.map_some, hc]

theorem Desk.congr (hs : Desk s) (hr : t.registered = s.registered) (ha : t.active = s.active)
    (hw : t.watching = s.watching) (hsig : t.sigchldPipe = s.sigchldPipe)
    (hctrl : t.controlPipe = s.controlPipe)
    (hh : ∀ x, (t.handles x).map Handle.entry = (s.handles x).map Handle.entry)
    (hm : s.Mirrored → t.Mirrored) : Desk t := by
  have hfds : ∀ x, t.fdsOf x = s.fdsOf x := by
    intro x
    have := congrArg (Option.map Handle.fds) (hh x)
    simp only [Option.map_map] at this
    exact congrArg (Option.getD · {}) this
  have hkey : t.keyOf = s.keyOf := by
    funext src
    cases src <;> simp only [Sys.keyOf, hsig, hctrl, hfds]
  have hexp : t.Expected = s.Expected := by
    funext src
    cases src <;> simp only [Sys.Expected, hw, ha]
  refine ⟨fun fd src => ?_, fun pid x hl => ?_, hm hs.mirrored⟩
  · rw [hr, hexp, hkey]
    exact hs.keys fd src
  · rw [ha] at hl
    obtain ⟨hd, hd₁, hd₂⟩ := hs.linked pid x hl
    have hx := hh x
    rw [hd₁] at hx
    cases htx : t.handles x with
    | none =>
      rw [htx] at hx
      cases hx
    | some hd' =>
      rw [htx] at hx
      have := congrArg (fun o => o.bind Handle.onProcStopped) hx
      exact ⟨hd', rfl, this.trans hd₂⟩

theorem Sys.outside_entry (s : Sys) (h x : Nat) :
    ((s.outside h).handles x).map Handle.entry = (s.handles x).map Handle.entry := by
  by_cases hx : x = h
  · subst x
    cases hh : s.handles h <;> simp [Sys.outside, Handle.entry, hh]
  · simp only [Sys.outside, Function.update_of_ne hx]

theorem Local.entry (hl : Local h s t) (x : Nat) :
    (t.handles x).map Handle.entry = (s.handles x).map Handle.entry :=
  hl.field (fun u => (u.handles x).map Handle.entry) fun u => u.outside_entry h x

theorem Sys.Mirrored.congr (hs : s.Mirrored) (ht : t.loopType = s.loopType)
    (hf : t.registerFn = s.registerFn) (hl : t.loop = s.loop) (hr : t.registered = s.registered) :
    t.Mirrored := by
  rcases hs with ⟨h₁, h₂⟩ | ⟨h₁, h₂, e, he, hw⟩
  · exact .inl ⟨ht.trans h₁, hf.trans h₂⟩
  · exact .inr ⟨ht.trans h₁, hf.trans h₂, e, hl.trans he, hr ▸ hw.own, hr ▸ hw.cbs⟩

/-- A callback that leaves its object active leaves the registrations as they are. -/
theorem Local.desk (hl : Local h s t) (hs : Desk s) : Desk t := by
  refine hs.congr (hl.field Sys.registered fun _ => rfl) (hl.field Sys.active fun _ => rfl)
    (hl.field Sys.watching fun _ => rfl) (hl.field (·.sigchldPipe) fun _ => rfl)
    (hl.field Sys.controlPipe fun _ => rfl) hl.entry fun hm => ?_
  exact hm.congr (hl.field Sys.loopType fun _ => rfl) (hl.field Sys.registerFn fun _ => rfl)
    (hl.field Sys.loop fun _ => rfl) (hl.field Sys.registered fun _ => rfl)

/-- The sentinel that the end of the last process adds to the queue. -/
def Sys.sentinel (s : Sys) (pid : Int) : List (Option Job) :=
  if s.stopping ∧ (s.active.erase pid).keys = [] then [none] else []

/-- The process of pid `pid` is not watched any more. -/
structure Unwatched (pid : Int) (s t : Sys) : Prop where
  desk : Desk t
  active : t.active = s.active.erase pid
  buffer : t.buffer = s.buffer ++ s.sentinel pid
  added : t.added = s.added ++ s.sentinel pid

theorem Sys.alive_of_lookup (hl : s.active.lookup pid = some h) : alive s h = true := by
  have hmem := AList.mem_lookup_iff.mp (Option.mem_def.mpr hl)
  unfold alive
  rw [Bool.or_eq_true]
  exact .inl (List.any_eq_true.mpr ⟨⟨pid, h⟩, hmem, beq_self_eq_true h⟩)

theorem erase_erase_lookup {β : Type} {m : AList (fun _ : Int => β)} {a b c x : Int} {v : β} :
    (((m.erase a).erase b).erase c).lookup x = some v ↔
      m.lookup x = some v ∧ x ≠ a ∧ x ≠ b ∧ x ≠ c := by
  have hstep : ∀ (m : AList (fun _ : Int => β)) k, (m.erase k).lookup x = some v ↔
      m.lookup x = some v ∧ x ≠ k := by
    intro m k
    by_cases hx : x = k
    · subst x
      simp
    · simp [AList.lookup_erase_ne hx, hx]
  rw [hstep, hstep, hstep]
  simp only [and_assoc]

/-- Where a callback tells its descriptor, one registration goes with one callback. -/
theorem lookup_erase_key {m : AList (fun _ : Int => Source)} {key : Source → Int}
    (hkey : ∀ fd src, m.lookup fd = some src → key src = fd) {src x : Source} {fd : Int}
    (hs : m.lookup (key src) = some src) :
    (m.erase (key src)).lookup fd = some x ↔ m.lookup fd = some x ∧ x ≠ src := by
  by_cases hfd : fd = key src
  · subst fd
    rw [AList.lookup_erase, hs]
    simp [eq_comm]
  · rw [AList.lookup_erase_ne hfd]
    refine ⟨fun hx => ⟨hx, ?_⟩, And.left⟩
    rintro rfl
    exact hfd (hkey fd x hx).symm

/-- The callbacks of other objects, and those of `pexec_multi` itself. -/
theorem Desk.expected_erase (hs : Desk s) (hl : s.active.lookup pid = some h) {src : Source}
    (hactive : t.active = s.active.erase pid) (hw : t.watching = s.watching) :
    t.Expected src ↔ s.Expected src ∧ src ≠ .readClose h ∧ src ≠ .readStdout h ∧
      src ≠ .readStderr h := by
  have hother : ∀ x, (∃ p, t.active.lookup p = some x) ↔ (∃ p, s.active.lookup p = some x) ∧ x ≠ h := by
    intro x
    constructor
    · rintro ⟨p, hp⟩
      rw [hactive] at hp
      have hps := lookup_of_erase hp
      refine ⟨⟨p, hps⟩, ?_⟩
      rintro rfl
      obtain ⟨hd, h₁, h₂⟩ := hs.linked p x hps
      obtain ⟨hd', h₁', h₂'⟩ := hs.linked pid x hl
      rw [h₁] at h₁'
      cases h₁'
      rw [h₂] at h₂'
      cases h₂'
      rw [AList.lookup_erase] at hp
      cases hp
    · rintro ⟨⟨p, hp⟩, hx⟩
      refine ⟨p, ?_⟩
      have hne : p ≠ pid := by
        rintro rfl
        rw [hl] at hp
        exact hx (Option.some.inj hp).symm
      rwa [hactive, AList.lookup_erase_ne hne]
  cases src <;> simp [Sys.Expected, hother, hw]

/-- The end of the watching finds all three descriptors registered. -/
theorem onProcStopped_ok (hs : Desk s) (hl : s.active.lookup pid = some h) :
    ∃ t, onProcStopped h pid s = .ok () t ∧ Unwatched pid s t := by
  obtain ⟨hd, hh, hstop⟩ := hs.linked pid h hl
  have hfds : s.fdsOf h = hd.fds := by simp [Sys.fdsOf, hh]
  have hkey : ∀ src, src = .readClose h ∨ src = .readStdout h ∨ src = .readStderr h →
      s.registered.lookup (s.keyOf src) = some src := by
    intro src hsrc
    refine (hs.keys _ _).mpr ⟨?_, rfl⟩
    rcases hsrc with rfl | rfl | rfl <;> exact ⟨pid, hl⟩
  have hw := hkey _ (.inl rfl)
  have ho := hkey _ (.inr (.inl rfl))
  have he := hkey _ (.inr (.inr rfl))
  simp only [Sys.keyOf] at hw ho he
  rw [hfds] at hw ho he
  have how : hd.fds.stdoutRead ≠ hd.fds.watchCloseWrite := by
    intro heq
    rw [heq, hw] at ho
    cases ho
  have hew : hd.fds.stderrRead ≠ hd.fds.watchCloseWrite := by
    intro heq
    rw [heq, hw] at he
    cases he
  have heo : hd.fds.stderrRead ≠ hd.fds.stdoutRead := by
    intro heq
    rw [heq, ho] at he
    cases he
  have hmem : ∀ {fd : Int} {src : Source}, s.registered.lookup fd = some src → fd ∈ s.registered :=
    fun hl => AList.lookup_isSome.mp (by rw [hl]; rfl)
  obtain ⟨t₁, h₁, hr₁, hm₁, hf₁⟩ := removeReadEvent_ok hs.mirrored (hmem hw)
  obtain ⟨t₂, h₂, hr₂, hm₂, hf₂⟩ := removeReadEvent_ok hm₁
    (by rw [hr₁]; exact AList.mem_erase.mpr ⟨how, hmem ho⟩)
  obtain ⟨t₃, h₃, hr₃, hm₃, hf₃⟩ := removeReadEvent_ok hm₂
    (by rw [hr₂, hr₁]; exact AList.mem_erase.mpr ⟨heo, AList.mem_erase.mpr ⟨hew, hmem he⟩⟩)
  have hrw : Rewired s t₃ := IsTrans.trans _ _ _ hf₁ (IsTrans.trans _ _ _ hf₂ hf₃)
  have hreg : t₃.registered = ((s.registered.erase hd.fds.watchCloseWrite).erase
      hd.fds.stdoutRead).erase hd.fds.stderrRead := by rw [hr₃, hr₂, hr₁]
  have hactive₃ : t₃.active = s.active := hrw.field Sys.active fun _ _ _ _ _ _ => rfl
  -- the state before the sentinel, whatever is added to the queue and to the control pipe
  have hdesk : ∀ pipes buffer added, Desk { t₃ with
      active := t₃.active.erase pid, pipes, buffer, added } := by
    intro pipes buffer added
    have hact : Sys.active { t₃ with active := t₃.active.erase pid, pipes, buffer, added } =
        s.active.erase pid := congrArg (AList.erase pid) hactive₃
    refine ⟨fun fd src => ?_, fun p x hp => ?_, ?_⟩
    · have hk : Sys.keyOf { t₃ with active := t₃.active.erase pid, pipes, buffer, added } =
          s.keyOf := by
        have := hrw.field Sys.keyOf fun _ _ _ _ _ _ => rfl
        exact this
      have hlook : t₃.registered.lookup fd = some src ↔ s.registered.lookup fd = some src ∧
          fd ≠ hd.fds.watchCloseWrite ∧ fd ≠ hd.fds.stdoutRead ∧ fd ≠ hd.fds.stderrRead := by
        rw [hreg, erase_erase_lookup]
      have hwatching := hrw.field Sys.watching fun _ _ _ _ _ _ => rfl
      rw [hs.expected_erase hl hact hwatching, hk]
      refine hlook.trans ?_
      rw [hs.keys]
      constructor
      · rintro ⟨⟨hexp, rfl⟩, n₁, n₂, n₃⟩
        refine ⟨⟨hexp, ?_, ?_, ?_⟩, rfl⟩
        · rintro rfl
          exact n₁ (by simp only [Sys.keyOf, hfds])
        · rintro rfl
          exact n₂ (by simp only [Sys.keyOf, hfds])
        · rintro rfl
          exact n₃ (by simp only [Sys.keyOf, hfds])
      · rintro ⟨⟨hexp, n₁, n₂, n₃⟩, rfl⟩
        have hsrc := (hs.keys (s.keyOf src) src).mpr ⟨hexp, rfl⟩
        refine ⟨⟨hexp, rfl⟩, ?_, ?_, ?_⟩
        · intro heq
          rw [heq, hw] at hsrc
          exact n₁ (Option.some.inj hsrc).symm
        · intro heq
          rw [heq, ho] at hsrc
          exact n₂ (Option.some.inj hsrc).symm
        · intro heq
          rw [heq, he] at hsrc
          exact n₃ (Option.some.inj hsrc).symm
    · rw [hact] at hp
      have := hs.linked p x (lookup_of_erase hp)
      have hhandles := hrw.field Sys.handles fun _ _ _ _ _ _ => rfl
      exact hhandles ▸ this
    · exact Sys.Mirrored.congr hm₃ rfl rfl rfl rfl
  have hstart : onProcStopped h pid s = (do
      modify fun s => { s with active := s.active.erase pid }
      let s ← get
      if s.stopping ∧ s.active.keys = [] then sendJobNullptrStop : Prog Unit) t₃ := by
    unfold onProcStopped
    rw [bind_of_ok (get_apply _), bind_of_ok (show assert (alive s h) .procAlive s = .ok () s by
      rw [Sys.alive_of_lookup hl]; rfl), bind_of_ok (get_apply _)]
    simp only [hh]
    rw [bind_of_ok h₁, bind_of_ok h₂, bind_of_ok h₃]
  rw [hstart, bind_of_ok (modify_apply ..), bind_of_ok (get_apply _)]
  have hstopping : t₃.stopping = s.stopping := hrw.field Sys.stopping fun _ _ _ _ _ _ => rfl
  have hbuffer : t₃.buffer = s.buffer := hrw.field Sys.buffer fun _ _ _ _ _ _ => rfl
  have hadded : t₃.added = s.added := hrw.field Sys.added fun _ _ _ _ _ _ => rfl
  have hactive : t₃.active.erase pid = s.active.erase pid := congrArg (AList.erase pid) hactive₃
  by_cases hlast : s.stopping ∧ (s.active.erase pid).keys = []
  · have hlast' : t₃.stopping = true ∧ (t₃.active.erase pid).keys = [] := by
      rw [hstopping, hactive]
      exact hlast
    have hsent : s.sentinel pid = [none] := if_pos hlast
    rw [if_pos hlast']
    obtain ⟨pipes, hpipes⟩ := t₃.toWorld.write_frame t₃.controlPipe.wr [0]
    refine ⟨{ t₃ with
      active := t₃.active.erase pid
      pipes
      buffer := t₃.buffer ++ [none]
      added := t₃.added ++ [none] }, ?_, hdesk _ _ _, hactive, ?_, ?_⟩
    · unfold sendJobNullptrStop sendJob bufferAdd interrupt
      rw [bind_of_ok (modify_apply ..), modify_apply]
      dsimp only
      rw [hpipes]
    · rw [hsent, ← hbuffer]
    · rw [hsent, ← hadded]
  · have hlast' : ¬(t₃.stopping = true ∧ (t₃.active.erase pid).keys = []) := by
      rw [hstopping, hactive]
      exact hlast
    have hsent : s.sentinel pid = [] := if_neg hlast
    rw [if_neg hlast']
    refine ⟨{ t₃ with active := t₃.active.erase pid }, rfl, hdesk _ _ _, hactive, ?_, ?_⟩
    · rw [hsent, List.append_nil]
      exact hbuffer
    · rw [hsent, List.append_nil]
      exact hadded

end Pexec
