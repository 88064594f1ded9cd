import Pexec.BlockingLaunch
import Pexec.Spawning

namespace Pexec

open Attempts Effect

/-- The arrays that a blocking run of object `h` fills. -/
def Mine (h : Nat) (slot : Slot) : Prop := slot.owner = some h ∨ slot = .blocking ∨ slot = .ioLoop

/-- The array that the stage fills. -/
def Stage.slot (h : Nat) : Stage → Option Slot
  | .stdin => some (.stdin h)
  | .stdout => some (.stdout h)
  | .stderr => some (.stderr h)
  | .signal => some .blocking
  | .watch => some (.watch h)
  | _ => none

/-- A blocking object between two runs: its arrays are closed. -/
structure Resting (h : Nat) (s : Sys) : Prop where
  alone : Standalone h s
  owns : s.Owns
  closed : ∀ slot, Mine h slot → (s.array slot).rd = -1

variable {h : Nat} {line : List Char} {s t u : Sys} {rest : List Stage}

theorem Stage.slot_inj {st st' : Stage} {slot : Slot} (hst : st.slot h = some slot)
    (hst' : st'.slot h = some slot) : st = st' := by
  cases st <;> cases hst <;> cases st' <;> first | rfl | cases hst'

theorem Stage.slot_mine {st : Stage} {slot : Slot} (hst : st.slot h = some slot) :
    Mine h slot ∧ slot ≠ .ioLoop := by
  cases st <;> cases hst
  · exact ⟨.inl rfl, by simp⟩
  · exact ⟨.inl rfl, by simp⟩
  · exact ⟨.inl rfl, by simp⟩
  · exact ⟨.inr (.inl rfl), by simp⟩
  · exact ⟨.inl rfl, by simp⟩

theorem World.opened_eq {w : World} {cloexec : Bool} (hf : w.faults.head?.join = none) :
    w.pipe2 cloexec = (some (w.opened cloexec).1, (w.opened cloexec).2) :=
  World.pipe2_of_none hf

theorem Stage.run_opened {st : Stage} {slot : Slot} (hst : st.slot h = some slot)
    (hf : s.faults.head?.join = none) : OpenedInto slot s (st.run h line s) := by
  cases st <;> cases hst
  · exact openedInto_of_pipe2 (World.opened_eq hf) rfl rfl rfl (storePipe_array _ _).1
  · exact openedInto_of_pipe2 (World.opened_eq hf) rfl rfl rfl (storePipe_array _ _).2.1
  · exact openedInto_of_pipe2 (World.opened_eq hf) rfl rfl rfl (storePipe_array _ _).2.2.1
  · refine openedInto_of_pipe2 (World.opened_eq hf) rfl rfl rfl (funext fun x => ?_)
    simp only [Stage.run, Stage.object, Function.update_eq_self]
    cases x <;> simp [Sys.array, Stage.kernel, World.opened]
  · exact openedInto_of_pipe2 (World.opened_eq hf) rfl rfl rfl (storePipe_array _ _).2.2.2

theorem Sys.array_congr {p : PexecSingle} (hin : p.pipeStdin = (s.procs h).pipeStdin)
    (hout : p.pipeStdout = (s.procs h).pipeStdout) (herr : p.pipeStderr = (s.procs h).pipeStderr)
    (hwatch : p.pipeCloseWatch = (s.procs h).pipeCloseWatch) :
    Sys.array { s with procs := Function.update s.procs h p } = s.array := by
  funext slot
  cases slot with
  | stdin x | stdout x | stderr x | watch x =>
    by_cases hx : x = h
    · subst x
      simp [Sys.array, hin, hout, herr, hwatch]
    · simp [Sys.array, hx]
  | control | sigchld | blocking | loop | ioLoop => simp [Sys.array]

theorem Stage.run_unopened {st : Stage} (hst : st.slot h = none) :
    (st.run h line s).fds = s.fds ∧ (st.run h line s).pipes = s.pipes ∧
      (st.run h line s).array = s.array := by
  cases st <;> cases hst
  · exact ⟨rfl, rfl, Sys.array_congr rfl rfl rfl rfl⟩
  · exact ⟨rfl, rfl, Sys.array_congr rfl rfl rfl rfl⟩
  · exact ⟨rfl, rfl, Sys.array_congr (s := s) rfl rfl rfl rfl⟩
  · exact ⟨rfl, rfl, Sys.array_congr (s := s) rfl rfl rfl rfl⟩

/-- The process without what the preparations of a run change. -/
def Sys.offLaunch (s : Sys) (h : Nat) : Sys :=
  { s with
    fds := {}
    pipes := fun _ => {}
    faults := []
    children := ∅
    forks := 0
    disposition := .default
    blockingPipe := {}
    procs := Function.update s.procs h {} }

/-- The preparations of a run from `s`, with `rest` still to be done. -/
structure Preparing (h : Nat) (s : Sys) (rest : List Stage) (u : Sys) : Prop where
  suffix : rest <:+ Stage.all
  frame : u.offLaunch h = s.offLaunch h
  type : (u.procs h).type = (s.procs h).type
  proc : (u.procs h).proc = (s.procs h).proc
  owns : u.Owns
  ledger : Ledger s.fds u.fds u.array (Mine h)
  closed : ∀ slot, Mine h slot → slot = .ioLoop ∨ (∃ st ∈ rest, st.slot h = some slot) →
    (u.array slot).rd = -1
  opened : ∀ st ∉ rest, ∀ slot, st.slot h = some slot →
    (u.array slot).rd ≠ -1 ∧ u.stream slot = {}
  handler : .handler ∈ rest → u.disposition = s.disposition
  handled : .handler ∉ rest → u.disposition = .sigchldBlockingSignalHandler ∧
    (u.procs h).saPrev = s.disposition
  fork : .fork ∈ rest → u.forks = s.forks ∧ u.children = s.children
  forked : .fork ∉ rest → u.forks = s.forks + 1 ∧ 0 < (u.procs h).procPid

theorem Resting.preparing (hs : Resting h s) : Preparing h s Stage.all s where
  suffix := List.suffix_rfl
  frame := rfl
  type := rfl
  proc := rfl
  owns := hs.owns
  ledger := Ledger.start hs.closed
  closed slot hslot _ := hs.closed slot hslot
  opened st hst := by cases st <;> exact absurd (by decide) hst
  handler _ := rfl
  handled hn := absurd (by decide) hn
  fork _ := ⟨rfl, rfl⟩
  forked hn := absurd (by decide) hn

theorem Stage.run_offLaunch (st : Stage) : (st.run h line s).offLaunch h = s.offLaunch h := by
  unfold Stage.run Sys.offLaunch
  rw [Function.update_idem]
  cases st <;> rfl

theorem Preparing.field {α : Type} (hu : Preparing h s rest u) (f : Sys → α)
    (hf : ∀ v, f (v.offLaunch h) = f v) : f u = f s := by
  rw [← hf u, hu.frame, hf s]

theorem Stage.object_proc (st : Stage) (w : World) (p : PexecSingle) :
    (st.object line w p).proc = p.proc := by
  cases st <;> rfl

@[simp] theorem Stage.run_procs (st : Stage) :
    (st.run h line s).procs h = st.object line s.toWorld (s.procs h) := Function.update_self ..

theorem Stage.run_handler {st : Stage} (hst : st ≠ .handler) :
    (st.run h line s).disposition = s.disposition ∧
      ((st.run h line s).procs h).saPrev = (s.procs h).saPrev := by
  rw [Stage.run_procs]
  cases st <;> first | exact ⟨rfl, rfl⟩ | exact absurd rfl hst

theorem Stage.run_fork {st : Stage} (hst : st ≠ .fork) :
    (st.run h line s).forks = s.forks ∧ (st.run h line s).children = s.children ∧
      ((st.run h line s).procs h).procPid = (s.procs h).procPid := by
  rw [Stage.run_procs]
  cases st <;> first | exact ⟨rfl, rfl, rfl⟩ | exact absurd rfl hst

theorem Stage.fails_call {st : Stage} {slot : Slot} (hst : st.slot h = some slot)
    {faults : List (Option Errno)} (hf : st.fails line faults = false) : faults.head?.join = none := by
  have hsome : faults.head?.join.isSome = false := by cases st <;> first | exact hf | cases hst
  simpa using hsome

theorem OpenedInto.ledger {ι : Slot → Prop} {base : FdTable} {slot : Slot} (ho : OpenedInto slot s t)
    (hs : s.Owns) (hl : Ledger base s.fds s.array ι) (hslot : ι slot)
    (hclosed : (s.array slot).rd = -1) : Ledger base t.fds t.array ι := by
  obtain ⟨hint, cloexec, hf, ha⟩ := ho.opened
  rw [hf, ha]
  exact hl.openPipe hs hslot hclosed hint cloexec

/-- What the stage does to the arrays. -/
theorem Preparing.run_arrays {st : Stage} (hu : Preparing h s (st :: rest) u)
    (hf : st.fails line u.faults = false) : (st.run h line u).Owns ∧
      Ledger s.fds (st.run h line u).fds (st.run h line u).array (Mine h) ∧
      (∀ slot, st.slot h ≠ some slot → (st.run h line u).array slot = u.array slot ∧
        (st.run h line u).stream slot = u.stream slot) ∧
      ∀ slot, st.slot h = some slot →
        ((st.run h line u).array slot).rd ≠ -1 ∧ (st.run h line u).stream slot = {} := by
  cases hst : st.slot h with
  | none =>
    obtain ⟨hfds, hpipes, harray⟩ := Stage.run_unopened (s := u) hst
    refine ⟨hu.owns.congr hfds harray, ?_, fun slot _ => ?_, fun slot hs => by cases hs⟩
    · rw [hfds, harray]
      exact hu.ledger
    · rw [Sys.stream_congr hpipes harray, harray]
      exact ⟨rfl, rfl⟩
  | some slot =>
    have ho : OpenedInto slot u (st.run h line u) := Stage.run_opened hst (Stage.fails_call hst hf)
    have hclosed := hu.closed slot (Stage.slot_mine hst).1 (.inr ⟨st, List.mem_cons_self, hst⟩)
    refine ⟨ho.owns hu.owns, ho.ledger hu.owns hu.ledger (Stage.slot_mine hst).1 hclosed,
      fun slot' hne => ?_, fun slot' he => ?_⟩
    · have hne' : slot' ≠ slot := fun he => hne (he ▸ rfl)
      exact ⟨ho.array_ne hne', ho.stream_ne hu.owns hne'⟩
    · cases he
      exact ⟨ho.rd_open, ho.stream_self⟩

theorem Preparing.run {st : Stage} (hu : Preparing h s (st :: rest) u)
    (hf : st.fails line u.faults = false) : Preparing h s rest (st.run h line u) := by
  obtain ⟨howns, hledger, hother, hself⟩ := hu.run_arrays hf
  have hnot : st ∉ rest := (List.nodup_cons.mp (hu.suffix.sublist.nodup (by decide))).1
  have hmem : ∀ {st' : Stage}, st' ∈ rest → st' ∈ st :: rest := List.mem_cons_of_mem _
  have hnmem : ∀ {st' : Stage}, st' ∉ rest → st' ≠ st → st' ∉ st :: rest := fun hn hne hm =>
    (List.mem_cons.mp hm).elim hne hn
  refine ⟨(List.suffix_cons st rest).trans hu.suffix, st.run_offLaunch.trans hu.frame, (Stage.run_type st).trans hu.type, ?_, howns, hledger, ?_, ?_, ?_, ?_, ?_, ?_⟩
  · rw [Stage.run_procs, Stage.object_proc, hu.proc]
  · rintro slot hslot (rfl | ⟨st', hst', hslot'⟩)
    · rw [(hother .ioLoop fun he => (Stage.slot_mine he).2 rfl).1]
      exact hu.closed _ hslot (.inl rfl)
    · rw [(hother slot fun he => hnot (Stage.slot_inj hslot' he ▸ hst')).1]
      exact hu.closed slot hslot (.inr ⟨st', hmem hst', hslot'⟩)
  · intro st' hst' slot hslot
    by_cases he : st' = st
    · exact hself slot (he ▸ hslot)
    · obtain ⟨harray, hstream⟩ := hother slot fun hs => he (Stage.slot_inj hslot hs)
      rw [harray, hstream]
      exact hu.opened st' (hnmem hst' he) slot hslot
  · intro hm
    rw [(Stage.run_handler fun he : st = .handler => hnot (he ▸ hm)).1]
    exact hu.handler (hmem hm)
  · intro hm
    by_cases he : st = .handler
    · subst he
      rw [Stage.run_procs]
      exact ⟨rfl, hu.handler List.mem_cons_self⟩
    · rw [(Stage.run_handler he).1, (Stage.run_handler he).2]
      exact hu.handled (hnmem hm (Ne.symm he))
  · intro hm
    obtain ⟨hforks, hchildren, _⟩ := Stage.run_fork (s := u) (h := h)
      fun he : st = .fork => hnot (he ▸ hm)
    rw [hforks, hchildren]
    exact hu.fork (hmem hm)
  · intro hm
    by_cases he : st = .fork
    · subst he
      rw [Stage.run_procs]
      exact ⟨congrArg (· + 1) (hu.fork List.mem_cons_self).1, u.freshPid_pos⟩
    · obtain ⟨hforks, _, hpid⟩ := Stage.run_fork (s := u) (h := h) he
      rw [hforks, hpid]
      exact hu.forked (hnmem hm (Ne.symm he))

/-- The handler is installed, and the process forked, at the very end. -/
theorem Stage.suffix_cases {st : Stage} (hs : st :: rest <:+ Stage.all) :
    .fork ∈ st :: rest ∧ (st = .fork ↔ .handler ∉ st :: rest) := by
  have ht := hs
  simp only [Stage.all, List.suffix_cons_iff, List.suffix_nil, List.cons.injEq, reduceCtorEq,
    or_false] at ht
  rcases ht with ⟨rfl, rfl⟩ | ⟨rfl, rfl⟩ | ⟨rfl, rfl⟩ | ⟨rfl, rfl⟩ | ⟨rfl, rfl⟩ | ⟨rfl, rfl⟩ |
    ⟨rfl, rfl⟩ | ⟨rfl, rfl⟩ | ⟨rfl, rfl⟩ <;> decide

theorem Sys.closedCall_array (s : Sys) (h : Nat) (st : State) :
    (s.closedCall h st).array = fun slot =>
      if slot.owner = some h ∨ slot = .blocking ∧ (s.procs h).type = .blocking then
        (s.array slot).closed
      else s.array slot := by
  rw [← closeForkPipes_array s h]
  funext slot
  cases slot <;> rfl

theorem Sys.closedCall_fds (s : Sys) (h : Nat) (st : State) :
    (s.closedCall h st).fds = (s.toWorld.closeForkPipes (s.procs h)).fds := rfl

theorem Ledger.closeForkPipes {base : FdTable} (ho : s.Owns)
    (hl : Ledger base s.fds s.array (Mine h)) (st : State) :
    Ledger base (s.closedCall h st).fds (s.closedCall h st).array (Mine h) := by
  rw [Sys.closedCall_array, Sys.closedCall_fds]
  have hrule := World.closeForkPipes_rule (h := h) (w := s.toWorld) (p := s.procs h)
    (P := fun fds array => Owned fds array ∧ Ledger base fds array (Mine h)) ?_ ⟨ho, hl⟩
    rfl rfl rfl rfl rfl
  · exact hrule.2
  · rintro w array slot q hslot hq ⟨ho, hl⟩
    have hmine : Mine h slot := hslot.imp id fun hb => .inl hb.1
    refine ⟨ho.closeArray slot hq, ?_⟩
    rw [World.closePipe_table]
    exact hl.close ho hmine hq

theorem Sys.closedCall_owns (ho : s.Owns) (st : State) : (s.closedCall h st).Owns := by
  unfold Sys.Owns
  rw [Sys.closedCall_array, Sys.closedCall_fds]
  exact Owned.closeForkPipes ho rfl rfl rfl rfl rfl

theorem Sys.closedCall_closed (halone : Standalone h s) (hio : (s.array .ioLoop).rd = -1) (st : State)
    {slot : Slot} (hslot : Mine h slot) : ((s.closedCall h st).array slot).rd = -1 := by
  rw [Sys.closedCall_array]
  rcases hslot with hslot | rfl | rfl
  · simp [hslot]
  · simp [halone.type]
  · simpa [Slot.owner] using hio

theorem Sys.closedCall_resting (halone : Standalone h s) (ho : s.Owns)
    (hio : (s.array .ioLoop).rd = -1) (st : State) : Resting h (s.closedCall h st) where
  alone := ⟨halone.handles, by simpa [Sys.closedCall] using halone.type⟩
  owns := Sys.closedCall_owns ho st
  closed _ hslot := Sys.closedCall_closed halone hio st hslot

theorem Resting.wr (hs : Resting h s) {slot : Slot} (hslot : Mine h slot) :
    (s.array slot).wr = -1 :=
  (hs.owns.ends slot).closed_wr (hs.closed slot hslot)

theorem Resting.neutral {base : FdTable} (hs : Resting h s)
    (hl : Ledger base s.fds s.array (Mine h)) : Neutral base s.fds :=
  hl.neutral fun _ hslot => ⟨hs.closed _ hslot, hs.wr hslot⟩

/-- Where all arrays are closed, the only number that is not stale is -1. -/
theorem Resting.offers (hs : Resting h s) {p : PexecSingle}
    (harray : p.pipeStdin = (s.procs h).pipeStdin ∧ p.pipeStdout = (s.procs h).pipeStdout ∧
      p.pipeStderr = (s.procs h).pipeStderr ∧ p.pipeCloseWatch = (s.procs h).pipeCloseWatch)
    (fd : Int) : p.offers s.fds fd = (fd == -1) := by
  obtain ⟨hin, hout, herr, hwatch⟩ := harray
  have hnone : ∀ slot, slot.owner = some h → ((s.array slot).pipe.isSome &&
      (s.fds.target fd).bind FdTarget.pipe? == (s.array slot).pipe) = false := by
    intro slot hslot
    rw [Bool.and_eq_false_iff]
    cases hp : (s.array slot).pipe with
    | none => exact .inl rfl
    | some pipe =>
      refine .inr (beq_eq_false_iff_ne.mpr fun hb => ?_)
      obtain ⟨target, ht, hpipe⟩ := Option.bind_eq_some_iff.mp hb
      have hrd := hs.closed slot (.inl hslot)
      have hwr := hs.wr (.inl hslot)
      have := FdTable.target_nonneg ht
      rcases hs.owns.only slot pipe fd target hp ht hpipe with he | he <;> omega
  have h₁ := hnone (.stdin h) rfl
  have h₂ := hnone (.stdout h) rfl
  have h₃ := hnone (.stderr h) rfl
  have h₄ := hnone (.watch h) rfl
  simp only [Sys.array] at h₁ h₂ h₃ h₄
  simp only [PexecSingle.offers, hin, hout, herr, hwatch, List.any_cons, List.any_nil, h₁, h₂, h₃, h₄,
    Bool.or_false]

theorem Sys.closedCall_frame (s : Sys) (h : Nat) (st : State) :
    ∃ fds blockingPipe trace vigil p, s.closedCall h st =
      { s with fds, blockingPipe, trace, vigil, procs := Function.update s.procs h p } := by
  obtain ⟨fds, blockingPipe, hw⟩ := s.toWorld.closeForkPipes_frame (s.procs h)
  unfold Sys.closedCall
  rw [hw]
  exact ⟨_, _, _, _, _, rfl⟩

theorem Sys.closedCall_field {α : Type} (f : Sys → α) (hf : ∀ v fds blockingPipe trace vigil p,
    f { v with fds, blockingPipe, trace, vigil, procs := Function.update v.procs h p } = f v) (s : Sys)
    (st : State) : f (s.closedCall h st) = f s := by
  obtain ⟨_, _, _, _, _, hframe⟩ := s.closedCall_frame h st
  rw [hframe, hf]

theorem Sys.closedCall_trace (halone : Standalone h s) (ho : s.Owns)
    (hio : (s.array .ioLoop).rd = -1) (st : State) : (s.closedCall h st).trace = s.trace ++
      [.handed h ((s.procs h).proc.stdinFd == -1) ((s.procs h).proc.userStopFd == -1),
        .state h st (s.procs h).proc] := by
  have hoffers : ∀ fd, (s.procs h).pipesClosed.offers (s.toWorld.closeForkPipes (s.procs h)).fds fd =
      (fd == -1) := by
    have hrest := Sys.closedCall_resting halone ho hio st
    refine hrest.offers ?_
    simp [Sys.closedCall]
  obtain ⟨fds, blockingPipe, hw⟩ := s.toWorld.closeForkPipes_frame (s.procs h)
  have htrace : (s.toWorld.closeForkPipes (s.procs h)).trace = s.trace := by rw [hw]
  simp only [Sys.closedCall, World.announced, World.emit, hoffers, htrace, List.append_assoc,
    pipesClosed_proc]
  rfl

/-- A run that was given up at a stage, with one callback. -/
structure Abandoned (h : Nat) (s : Sys) (st : Stage) (t : Sys) : Prop where
  trace : t.trace = s.trace ++ [.error h st.error,
    .handed h ((s.procs h).proc.stdinFd == -1) ((s.procs h).proc.userStopFd == -1),
    .state h .failStopped (s.procs h).proc]
  resting : Resting h t
  neutral : Neutral s.fds t.fds
  forks : t.forks = s.forks
  blocked : t.sigchldBlocked = s.sigchldBlocked
  disposition : t.disposition =
    if st = .fork then .sigchldBlockingSignalHandler else s.disposition

/-- The object as the failing stage leaves it to `process_error`. -/
def Stage.refuse (h : Nat) (line : List Char) (st : Stage) (s : Sys) : Sys :=
  Sys.processed h st.error { s with
    faults := st.spend s.faults
    procs := Function.update s.procs h (st.refused line s.toWorld (s.procs h)) }

theorem Stage.refused_same (st : Stage) (line : List Char) (w : World) (p : PexecSingle) :
    (st.refused line w p).pipeStdin = p.pipeStdin ∧ (st.refused line w p).pipeStdout = p.pipeStdout ∧
      (st.refused line w p).pipeStderr = p.pipeStderr ∧
      (st.refused line w p).pipeCloseWatch = p.pipeCloseWatch ∧
      (st.refused line w p).proc = p.proc ∧ (st.refused line w p).type = p.type := by
  cases st <;> exact ⟨rfl, rfl, rfl, rfl, rfl, rfl⟩

theorem Stage.refuse_array (st : Stage) : (st.refuse h line s).array = s.array := by
  obtain ⟨hin, hout, herr, hwatch, _⟩ := st.refused_same line s.toWorld (s.procs h)
  have harr := Sys.array_congr (s := s) (h := h)
    (p := { st.refused line s.toWorld (s.procs h) with state_ := st.error }) hin hout herr hwatch
  rw [← harr]
  simp only [Stage.refuse, Sys.processed, Function.update_self, Function.update_idem]
  funext slot
  cases slot <;> rfl

theorem Preparing.undo {st : Stage} (halone : Standalone h s) (hu : Preparing h s (st :: rest) u) :
    Abandoned h s st (st.undo h line u) := by
  obtain ⟨hfork, hhandler⟩ := Stage.suffix_cases hu.suffix
  obtain ⟨_, _, _, _, hproc, htype⟩ := st.refused_same line u.toWorld (u.procs h)
  have halone' : Standalone h (st.refuse h line u) := by
    refine ⟨?_, ?_⟩
    · exact (hu.field Sys.handles fun _ => rfl) ▸ halone.handles
    · simpa [Stage.refuse, Sys.processed, htype, hu.type] using halone.type
  have ho : (st.refuse h line u).Owns := hu.owns.congr rfl st.refuse_array
  have hl : Ledger s.fds (st.refuse h line u).fds (st.refuse h line u).array (Mine h) := by
    rw [st.refuse_array]
    exact hu.ledger
  have hio : ((st.refuse h line u).array .ioLoop).rd = -1 := by
    rw [st.refuse_array]
    exact hu.closed _ (.inr (.inr rfl)) (.inl rfl)
  have hrest := Sys.closedCall_resting halone' ho hio .failStopped
  have hproc' : ((st.refuse h line u).procs h).proc = (s.procs h).proc := by
    simpa [Stage.refuse, Sys.processed, hproc] using hu.proc
  refine ⟨?_, hrest, hrest.neutral (Ledger.closeForkPipes ho hl _), ?_, ?_, ?_⟩
  · refine (Sys.closedCall_trace halone' ho hio .failStopped).trans ?_
    have htrace : (st.refuse h line u).trace = s.trace ++ [.error h st.error] :=
      congrArg (· ++ [_]) (hu.field (fun v => v.trace) fun _ => rfl)
    rw [htrace, hproc', List.append_assoc]
    rfl
  · have hforks : (st.undo h line u).forks = u.forks :=
      Sys.closedCall_field (fun v => v.forks) (fun _ _ _ _ _ _ => rfl) (st.refuse h line u) .failStopped
    exact hforks.trans (hu.fork hfork).1
  · have hblocked : (st.undo h line u).sigchldBlocked = u.sigchldBlocked :=
      Sys.closedCall_field (fun v => v.sigchldBlocked) (fun _ _ _ _ _ _ => rfl) (st.refuse h line u) _
    exact hblocked.trans (hu.field (fun v => v.sigchldBlocked) fun _ => rfl)
  · have hdisp : (st.undo h line u).disposition = u.disposition :=
      Sys.closedCall_field (fun v => v.disposition) (fun _ _ _ _ _ _ => rfl) (st.refuse h line u) _
    rw [hdisp]
    by_cases he : st = .fork
    · rw [if_pos he]
      exact (hu.handled (hhandler.mp he)).1
    · rw [if_neg he]
      exact hu.handler (not_not.mp fun hm => he (hhandler.mpr hm))

end Pexec
