import Pexec.MultiLife

namespace Pexec

open Effect Runs

variable {h : Nat} {pid : Int} {s t u : Sys}

/-- The descriptors that are watched for an object. -/
def Sys.watched (s : Sys) (h : Nat) : List Int :=
  [(s.procs h).pipeCloseWatch.rd, (s.procs h).pipeStdout.rd, (s.procs h).pipeStderr.rd]

/-- `registered_fd_` and the `cbs_` of the select loop hold what they should, and nothing else. -/
structure RegistryExact (s : Sys) : Prop where
  registered : ∀ fd, fd ∈ s.registered ↔
    s.watching = true ∧ (fd = s.sigchldPipe.rd ∨ fd = s.controlPipe.rd) ∨
      ∃ pid h, s.active.lookup pid = some h ∧ fd ∈ s.watched h
  opened : ∀ pid h, s.active.lookup pid = some h →
    (s.watched h).Nodup ∧ ∀ fd ∈ s.watched h, s.fds.target fd ≠ none
  loop : ∃ e, s.loop = some e ∧ e.controlPipe.rd ∉ s.registered ∧
    ∀ fd, fd ∈ e.keys ↔ fd = e.controlPipe.rd ∨ fd ∈ s.registered

theorem Sound.watched_open (hs : Sound s) (hl : s.active.lookup pid = some h) :
    (s.watched h).Nodup ∧ ∀ fd ∈ s.watched h, s.fds.target fd ≠ none := by
  have hready := (hs.on.served pid h hl).ready
  have hne : ∀ i ∈ objectSlots h, ∀ j, i ≠ j → (s.array i).rd ≠ (s.array j).rd :=
    fun i hi j hij => (Owned.rd_ne hs.isolated.owns hij (hready i hi)).1
  have hopen : ∀ i ∈ objectSlots h, s.fds.target (s.array i).rd ≠ none := by
    intro i hi
    obtain ⟨pipe, _, hrd, _⟩ := (Owned.ends hs.isolated.owns i).opened (hready i hi)
    rw [hrd]
    simp
  have hslots : ∀ i ∈ [Slot.watch h, .stdout h, .stderr h], i ∈ objectSlots h := by
    simp [objectSlots]
  have harrays : s.watched h = [Slot.watch h, .stdout h, .stderr h].map fun i => (s.array i).rd := rfl
  refine ⟨?_, fun fd hm => ?_⟩
  · rw [harrays]
    refine List.Nodup.map_on (fun i hi j _ he => ?_) (by simp)
    by_contra hij
    exact hne i (hslots i hi) j hij he
  · rw [harrays] at hm
    obtain ⟨i, hi, rfl⟩ := List.mem_map.mp hm
    exact hopen i (hslots i hi)

theorem Sound.registryExact (hs : Sound s) (hd : s.loopType = .default) : RegistryExact s := by
  refine ⟨fun fd => hs.on.mem_registered.trans ⟨?_, ?_⟩, fun pid h hl => hs.watched_open hl, ?_⟩
  · rintro ⟨src, hexp, rfl⟩
    cases src with
    | sigchld => exact .inl ⟨hexp, .inl rfl⟩
    | control => exact .inl ⟨hexp, .inr rfl⟩
    | readClose h | readStdout h | readStderr h =>
      obtain ⟨pid, hl⟩ := hexp
      exact .inr ⟨pid, h, hl, by simp [Sys.watched, Source.slot, Sys.array]⟩
  · rintro (⟨hw, rfl | rfl⟩ | ⟨pid, h, hl, hm⟩)
    · exact ⟨.sigchld, hw, rfl⟩
    · exact ⟨.control, hw, rfl⟩
    · simp only [Sys.watched, List.mem_cons, List.not_mem_nil, or_false] at hm
      rcases hm with rfl | rfl | rfl
      · exact ⟨.readClose h, ⟨pid, hl⟩, rfl⟩
      · exact ⟨.readStdout h, ⟨pid, hl⟩, rfl⟩
      · exact ⟨.readStderr h, ⟨pid, hl⟩, rfl⟩
  · rcases hs.on.desk.mirrored with ⟨hext, _⟩ | ⟨_, _, e, he, hw⟩
    · exact absurd (hext.symm.trans hd) (by decide)
    · exact ⟨e, he, hw.own, fun fd => hw.mem_keys⟩

/-- The two registries agree with the active processes, and whatever happens next does not fail at an
assertion about them. -/
def RegistryKept (s : Sys) : Prop :=
  RegistryExact s ∧ ∀ l : Label, l.enabled s →
    Outcome (fun _ _ => True) (fun e _ => e.Harmless) (l.prog s)

/-- In every state of a DEFAULT run of a life in which runs are started only when the one before has
left nothing active and nothing registered. -/
theorem registry_exact {w : World} {ls : List Label} (hnew : newMulti (boot w) = .ok () s)
    (hrun : Run (Under PreviousFinished Step) s ls t) (hd : t.loopType = .default)
    (hr : t.running = true) : RegistryKept t := by
  have hlife := run_life hnew hrun
  refine ⟨Sound.registryExact ⟨hlife.isolated, hlife.running_on hr⟩ hd, fun l he => ?_⟩
  have hp : PreviousFinished t l := by
    cases l with
    | run type c => exact absurd (hr.symm.trans he) (by decide)
    | _ => trivial
  exact (life_step hlife he hp).imp (fun _ _ _ => trivial) fun _ _ => id

/-- Two processes are started, write and are read; one of them has exited. -/
def halfMulti : Sys := freshMulti.after (pairStarts ++ pairWrites ++ pairEnds.take 4)

theorem registry_exact_half : RegistryKept halfMulti :=
  registry_exact freshMulti_ok (run_after finished finished_sound _ (by decide +kernel))
    (by decide +kernel) (by decide +kernel)

/-- A process is started, `select` fails, the object is run again and the process exits. -/
def staleLife : List Label :=
  [.exec ['a'] false, .run .default {}, .event 0 {}, .selectError, .run .default {},
    .env (.exit 1 ⟨0, terminated_zero⟩), .env .sigchld]

def staleRegistry : Sys := freshMulti.after staleLife

theorem staleRegistry_run : Run (Under (fun _ _ => True) Step) freshMulti staleLife staleRegistry :=
  run_after (fun _ _ => true) (fun _ _ _ => trivial) staleLife (by decide +kernel)

theorem staleRegistry_running : staleRegistry.loopType = .default ∧ staleRegistry.running = true ∧
    (Label.event 16 {}).enabled staleRegistry := by
  decide +kernel

/-- The second loop watches none of the descriptors of the process, and their removal fails at the
assertion. -/
theorem stale_registry_asserts :
    halt (Label.event 16 {}).prog staleRegistry = some (.assertion .watched) := by
  decide +kernel

theorem RegistryKept.harmless {l : Label} {e : Halt} (hs : RegistryKept s) (he : l.enabled s)
    (hx : l.prog s = .error e t) : e.Harmless := by
  have hnext := hs.2 l he
  rwa [hx] at hnext

/-- What the first run has left in `registered_fd_` and `active_procs_` stays there in the second. -/
theorem registry_stale : ¬∀ (w : World) (s t : Sys) (ls : List Label), newMulti (boot w) = .ok () s →
    Run Step s ls t → t.loopType = .default → t.running = true → RegistryKept t := by
  intro hall
  have hrun : Run Step freshMulti staleLife staleRegistry := staleRegistry_run.mono fun _ _ _ h => h.2
  obtain ⟨hd, hr, he⟩ := staleRegistry_running
  have hkept : RegistryKept staleRegistry := hall {} freshMulti _ _ freshMulti_ok hrun hd hr
  exact (hkept.harmless he (error_halt stale_registry_asserts)).2.2.1 rfl

end Pexec
