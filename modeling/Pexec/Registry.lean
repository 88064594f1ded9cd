import Pexec.FailedSpawn
import Pexec.Finishing
import Pexec.OutputIsolation

namespace Pexec

open Effect Runs

/-- An active process as the loop serves it: its pipes are open, the loop has its descriptors, and
its child has not been waited for. -/
structure Served (s : Sys) (pid : Int) (h : Nat) : Prop where
  type : (s.procs h).type = .nonblocking
  procPid : (s.procs h).procPid = pid
  proc : (s.procs h).proc = {
    pid
    running := true
    stdinFd := (s.array (.stdin h)).wr
    userStopFd := (s.array (.watch h)).wr }
  handle : ∃ hd, s.handles h = some hd ∧ hd.retProc = (s.procs h).proc
  fds : s.fdsOf h = (s.procs h).getFds
  ready : ∀ slot ∈ objectSlots h, (s.array slot).rd ≠ -1
  flags : ∀ slot ∈ objectSlots h, (s.array slot).cloexec = slot.cloexec
  child : pid ∈ s.children

/-- The array that holds the descriptor of a callback. -/
def Source.slot : Source → Slot
  | .sigchld => .sigchld
  | .control => .control
  | .readClose h => .watch h
  | .readStdout h => .stdout h
  | .readStderr h => .stderr h

/-- The object in the middle of a run, between two callbacks. -/
structure On (s : Sys) : Prop where
  desk : Desk s
  served : ∀ pid h, s.active.lookup pid = some h → Served s pid h

variable {h : Nat} {pid : Int} {s t u : Sys} {st : State}

theorem Served.congr (hs : Served s pid h) (hp : t.procs h = s.procs h)
    (hh : t.handles h = s.handles h) (hc : pid ∈ t.children) : Served t pid h := by
  have hsame : ∀ slot ∈ objectSlots h, t.array slot = s.array slot := by
    intro slot hslot
    simp only [objectSlots, List.mem_cons, List.not_mem_nil, or_false] at hslot
    rcases hslot with rfl | rfl | rfl | rfl <;> simp only [Sys.array, hp]
  refine ⟨hp ▸ hs.type, hp ▸ hs.procPid, ?_, ?_, ?_, fun slot hslot => ?_, fun slot hslot => ?_, hc⟩
  · rw [hp, hsame _ (by simp [objectSlots]), hsame _ (by simp [objectSlots])]
    exact hs.proc
  · rw [hp, hh]
    exact hs.handle
  · have hfds := hs.fds
    unfold Sys.fdsOf at hfds ⊢
    rw [hh, hp]
    exact hfds
  · rw [hsame slot hslot]
    exact hs.ready slot hslot
  · rw [hsame slot hslot]
    exact hs.flags slot hslot

/-- Another object is served as before. -/
theorem Served.acts {x : Nat} (hs : Served s pid x) (hx : x ≠ h) (ha : Acts h s t) : Served t pid x := by
  obtain ⟨hp, hh⟩ := Sys.off_objects ha.off hx
  refine hs.congr hp hh ?_
  rw [ha.field (·.children) fun _ => rfl]
  exact hs.child

/-- After a watching has ended, the others are served as before. -/
theorem Finished.on {new : List (Nat × State × ProcStatus)} (hdesk : Desk s)
    (hserved : ∀ p x, s.active.lookup p = some x → x ≠ h → Served s p x)
    (hl : s.active.lookup pid = some h) (hf : Finished pid h new s t) : On t := by
  refine ⟨hf.gone.desk, fun p x hp => ?_⟩
  rw [hf.gone.active] at hp
  have hps := lookup_of_erase hp
  have hx : x ≠ h := by
    rintro rfl
    obtain ⟨hd, h₁, h₂⟩ := hdesk.linked p x hps
    obtain ⟨hd', h₁', h₂'⟩ := hdesk.linked pid x hl
    rw [h₁] at h₁'
    cases h₁'
    rw [h₂] at h₂'
    cases h₂'
    rw [AList.lookup_erase] at hp
    cases hp
  exact (hserved p x hps hx).acts hx hf.acts

/-- The descriptor of an expected callback is the read end in its array. -/
theorem On.keyOf_eq (hs : On s) {src : Source} (he : s.Expected src) :
    s.keyOf src = (s.array src.slot).rd := by
  cases src with
  | sigchld | control => rfl
  | readClose h | readStdout h | readStderr h =>
    obtain ⟨pid, hl⟩ := he
    simp only [Sys.keyOf, (hs.served pid h hl).fds]
    rfl

theorem On.mem_registered (hs : On s) {fd : Int} :
    fd ∈ s.registered ↔ ∃ src, s.Expected src ∧ (s.array src.slot).rd = fd := by
  constructor
  · intro hm
    obtain ⟨src, hsrc⟩ := Option.isSome_iff_exists.mp (AList.lookup_isSome.mpr hm)
    obtain ⟨he, hk⟩ := (hs.desk.keys fd src).mp hsrc
    exact ⟨src, he, by rw [← hs.keyOf_eq he, hk]⟩
  · rintro ⟨src, he, hk⟩
    have := (hs.desk.keys fd src).mpr ⟨he, by rw [hs.keyOf_eq he, hk]⟩
    exact AList.lookup_isSome.mp (by rw [this]; rfl)

theorem Source.slot_owner (src : Source) : src.slot.owner = src.owner := by
  cases src <;> rfl

theorem Source.slot_inj {src src' : Source} (h : src.slot = src'.slot) : src = src' := by
  cases src <;> cases src' <;> simp_all [Source.slot]

/-- How the event loop of a process in order may stop: not at the assertions about what is
registered, and not because a callback or the loop is missing. -/
def Halt.Harmless (e : Halt) : Prop :=
  e ≠ .assertion .procAlive ∧ e ≠ .assertion .notWatched ∧ e ≠ .assertion .watched ∧
    e ≠ .badFunctionCall ∧ e ≠ .nullLoop

/-- A step that keeps the registrations, the objects and the children. -/
theorem On.congr (hs : On s) (hr : t.registered = s.registered) (ha : t.active = s.active)
    (hw : t.watching = s.watching) (hsig : t.sigchldPipe = s.sigchldPipe)
    (hctrl : t.controlPipe = s.controlPipe) (hh : t.handles = s.handles) (hp : t.procs = s.procs)
    (hm : s.Mirrored → t.Mirrored) (hc : ∀ pid ∈ s.active, pid ∈ s.children → pid ∈ t.children) :
    On t := by
  refine ⟨hs.desk.congr hr ha hw hsig hctrl (fun x => by rw [hh]) hm, fun pid x hl => ?_⟩
  rw [ha] at hl
  have hserved := hs.served pid x hl
  refine hserved.congr (by rw [hp]) (by rw [hh]) (hc pid ?_ hserved.child)
  exact AList.lookup_isSome.mp (by rw [hl]; rfl)

end Pexec
