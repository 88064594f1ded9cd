import Pexec.BlockingCourse
import Pexec.OutputIsolation

namespace Pexec

open Attempts Effect Runs

/-- What happens around a blocking object: an `exec`, what others do, and the choices that the
kernel has made for the next `exec`. The application sets a handler and a mask of its own. -/
inductive BlockingLabel
  | exec (line : List Char)
  | env (act : EnvAct)
  | choose (c : Choices) (selects : List SelectAnswer)
  | signals (disposition : Disposition) (blocked : Bool)

def BlockingLabel.prog (h : Nat) : BlockingLabel → Prog Unit
  | .exec line => Pexec.exec h line
  | .env act => modify act.apply
  | .choose c selects => modify fun s => { s.choose c with selects }
  | .signals disposition blocked => modify fun s => { s with disposition, sigchldBlocked := blocked }

def BlockingStep (h : Nat) (s : Sys) (l : BlockingLabel) (t : Sys) : Prop := l.prog h s = .ok () t

variable {h : Nat} {line : List Char} {s t : Sys} {w : World} {ls : List BlockingLabel}

theorem boot_resting (h : Nat) (w : World) : Resting h (boot w) where
  alone := ⟨rfl, rfl⟩
  owns := boot_owns w
  closed slot _ := by cases slot <;> rfl

theorem Resting.act (hs : Resting h s) (act : EnvAct) : Resting h (act.apply s) := by
  have howns := act.owns hs.owns
  have harray := act.array s
  obtain ⟨fds, pipes, children, hframe⟩ := act.frame s
  rw [hframe] at howns harray ⊢
  refine ⟨⟨hs.alone.handles, hs.alone.type⟩, howns, ?_⟩
  rw [harray]
  exact hs.closed

theorem exec_resting (hs : Resting h s) (ht : exec h line s = .ok () t) : Resting h t := by
  rcases exec_course hs ht with ⟨_, _, ha⟩ | ⟨_, _, _, _, _, hc⟩
  · exact ha.resting
  · exact hc.resting

theorem Resting.step {l : BlockingLabel} (hs : Resting h s) (ht : BlockingStep h s l t) :
    Resting h t := by
  cases l with
  | exec line => exact exec_resting hs ht
  | env act =>
    cases ht
    exact hs.act act
  | choose c selects =>
    cases ht
    exact ⟨⟨hs.alone.handles, hs.alone.type⟩, hs.owns, hs.closed⟩
  | signals disposition blocked =>
    cases ht
    exact ⟨⟨hs.alone.handles, hs.alone.type⟩, hs.owns, hs.closed⟩

/-- Between two runs of the object its arrays are closed. -/
theorem run_resting (hrun : Run (BlockingStep h) (boot w) ls s) : Resting h s :=
  hrun.invariant (boot_resting h w) fun _ _ _ hs ht => hs.step ht

/-- A run leaves the descriptors of the process as they were, and the arrays closed. -/
theorem exec_neutral (hrun : Run (BlockingStep h) (boot w) ls s) (hkept : s.FilesKept)
    (ht : exec h line s = .ok () t) :
    Neutral s.fds t.fds ∧ ∀ slot, Mine h slot → (t.array slot).rd = -1 ∧ (t.array slot).wr = -1 := by
  have hs := run_resting hrun
  have hrest := exec_resting hs ht
  refine ⟨?_, fun slot hslot => ⟨hrest.closed slot hslot, hrest.wr hslot⟩⟩
  rcases exec_course hs ht with ⟨_, _, ha⟩ | ⟨_, _, _, _, _, hc⟩
  · exact ha.neutral
  · exact hc.neutral hkept

/-- A process that exits at once, and the answer of `select` that tells of it. -/
def exitingRun : Sys :=
  { (boot {}).choose {} with selects := [.ready [.exit 1 ⟨0, terminated_zero⟩, .sigchld] [6]] }

theorem exitingRun_run : Run (BlockingStep 0) (boot {})
    ([] ++ [.choose {} [.ready [.exit 1 ⟨0, terminated_zero⟩, .sigchld] [6]]]) exitingRun :=
  .snoc .nil rfl

/-- It was run. -/
def exitedRun : Sys := final (exec 0 ['a']) exitingRun

theorem exitedRun_ok : exec 0 ['a'] exitingRun = .ok () exitedRun := ok_final (by decide +kernel)

theorem exec_neutral_exited : Neutral exitingRun.fds exitedRun.fds ∧
    ∀ slot, Mine 0 slot → (exitedRun.array slot).rd = -1 ∧ (exitedRun.array slot).wr = -1 :=
  exec_neutral exitingRun_run (by simp [Sys.FilesKept, exitingRun, EnvAct.onFiles]) exitedRun_ok

/-- The state that an event tells the user of object `h`. -/
def Event.told (h : Nat) : Event → Option State
  | .state owner st _ => if owner = h then some st else none
  | _ => none

def statesOf (h : Nat) (events : List Event) : List State := events.filterMap (Event.told h)

/-- No process was started: FAIL_STOPPED alone. -/
structure GivenUp (h : Nat) (events : List Event) : Prop where
  states : statesOf h events = [.failStopped]
  quiet : ∀ x ∈ events, ¬x.IsData h

/-- A process was started: STARTED, then SIGNALED any number of times, and one of STOPPED and
USER_STOPPED at the very end. -/
structure SeenThrough (h : Nat) (events before body : List Event) (st : State) (q r : ProcStatus) :
    Prop where
  split : events = before ++ [.state h .started q] ++ body ++ [.state h st r]
  last : st = .stopped ∨ st = .userStopped
  quiet : ∀ x ∈ before, ¬x.IsData h ∧ x.told h = none
  signaled : ∀ st' ∈ statesOf h body, st' = .signaled

/-- What there is between STARTED and the last callback. -/
def Event.IsWatching (h : Nat) : Event → Prop
  | .state owner st _ => owner = h ∧ st = .signaled
  | .handed owner .. | .error owner _ | .out owner _ | .err owner _ => owner = h
  | .waitpid .. => True
  | _ => False

theorem Event.IsData.watching {x : Event} (hx : x.IsData h) : x.IsWatching h := by
  cases x <;> first | exact hx | cases hx

theorem Event.IsDrain.watching {x : Event} (hx : x.IsDrain h) : x.IsWatching h := by
  cases x <;> first | exact hx | cases hx

theorem Event.IsWait.watching {x : Event} (hx : x.IsWait h) : x.IsWatching h := by
  cases x <;> first | exact hx.1 | exact hx | cases hx

theorem Ending.events {q : ProcStatus} {e : Sys} (he : Ending h s q e) : ∃ mid,
    e.trace = s.trace ++ startedEvents h q ++ mid ∧ ∀ x ∈ mid, x.IsWatching h := by
  cases he with
  | interrupted _ _ trace isData => exact ⟨_, trace, fun x hx => (isData x hx).watching⟩
  | @failed data err _ _ _ trace isData =>
    refine ⟨data ++ [.error h err], by rw [trace, List.append_assoc], fun x hx => ?_⟩
    rcases List.mem_append.mp hx with hx | hx
    · exact (isData x hx).watching
    · rw [List.mem_singleton.mp hx]
      rfl
  | @handled data wait launch status _ _ _ trace isData isWait isLaunch =>
    refine ⟨data ++ wait ++ [.handed h true true, .state h .signaled (q.updateStatus status)] ++ launch,
      by simp only [trace, List.append_assoc], fun x hx => ?_⟩
    simp only [List.mem_append, List.mem_cons, List.not_mem_nil, or_false] at hx
    rcases hx with ((hx | hx) | rfl | rfl) | hx
    · exact (isData x hx).watching
    · exact (isWait x hx).watching
    · rfl
    · exact ⟨rfl, rfl⟩
    · obtain ⟨code, err, _, rfl⟩ := isLaunch x hx
      rfl

theorem Event.IsWatching.told {x : Event} {st : State} (hx : x.IsWatching h) (ht : x.told h = some st) :
    st = .signaled := by
  cases x with
  | state owner st' proc =>
    obtain ⟨rfl, rfl⟩ := hx
    rw [Event.told, if_pos rfl] at ht
    exact (Option.some.inj ht).symm
  | handed | error | out | err | onStop | waitpid | kill | multiError | register => cases ht

theorem newEvents_eq {new : List Event} (ht : t.trace = s.trace ++ new) : newEvents s t = new := by
  rw [newEvents, ht, List.drop_left]

theorem Abandoned.givenUp {st : Stage} (ht : Abandoned h s st t) : GivenUp h (newEvents s t) := by
  rw [newEvents_eq ht.trace]
  constructor
  · simp [statesOf, List.filterMap_cons, Event.told]
  · intro x hx
    simp only [List.mem_cons, List.not_mem_nil, or_false] at hx
    rcases hx with rfl | rfl | rfl <;> exact id

theorem Completed.events {q : ProcStatus} {e : Sys} (ht : Completed h s q e t) : ∃ mid,
    newEvents s t = startedEvents h q ++ mid ++ (e.procs h).lastEvents h ∧
      ∀ x ∈ mid, x.IsWatching h := by
  obtain ⟨mid, hmid, hwatching⟩ := ht.ending.events
  obtain ⟨reset, drain, htrace, hreset, hdrain⟩ := ht.trace
  refine ⟨mid ++ reset ++ drain, newEvents_eq (by simp only [htrace, hmid, List.append_assoc]), ?_⟩
  intro x hx
  rcases List.mem_append.mp hx with hx | hx
  · rcases List.mem_append.mp hx with hx | hx
    · exact hwatching x hx
    · rcases hreset with ⟨rfl, _⟩ | rfl
      · exact absurd hx List.not_mem_nil
      · rw [List.mem_singleton.mp hx]
        rfl
  · exact (hdrain x hx).watching

theorem PexecSingle.lastState_ends (p : PexecSingle) :
    p.lastState = .stopped ∨ p.lastState = .userStopped := by
  unfold PexecSingle.lastState
  split
  next => exact .inr rfl
  next => exact .inl rfl

theorem Completed.seenThrough {q : ProcStatus} {e : Sys} (ht : Completed h s q e t) :
    ∃ before body st r, SeenThrough h (newEvents s t) before body st q r := by
  obtain ⟨mid, hevents, hwatching⟩ := ht.events
  set last := (e.procs h).lastStatus
  refine ⟨[.handed h true true],
    mid ++ [.handed h (last.stdinFd == -1) (last.userStopFd == -1)], (e.procs h).lastState, last,
    ?_, (e.procs h).lastState_ends, fun x hx => ?_, fun st' hst' => ?_⟩
  · rw [hevents]
    simp only [startedEvents, PexecSingle.lastEvents, List.append_assoc, List.cons_append,
      List.nil_append]
    rfl
  · rw [List.mem_singleton.mp hx]
    exact ⟨id, rfl⟩
  · obtain ⟨x, hx, htold⟩ := List.mem_filterMap.mp hst'
    rcases List.mem_append.mp hx with hx | hx
    · exact (hwatching x hx).told htold
    · rw [List.mem_singleton.mp hx] at htold
      cases htold

theorem SeenThrough.started {events before body : List Event} {st : State} {q r : ProcStatus}
    (hseen : SeenThrough h events before body st q r) : .started ∈ statesOf h events := by
  refine List.mem_filterMap.mpr ⟨.state h .started q, ?_, by simp [Event.told]⟩
  simp [hseen.split]

/-- The callbacks of a run are FAIL_STOPPED alone, or STARTED up to one of the two ends, with the
data in between; and STARTED tells of a fork. -/
theorem exec_callbacks (hrun : Run (BlockingStep h) (boot w) ls s) (ht : exec h line s = .ok () t) :
    (GivenUp h (newEvents s t) ∨
      ∃ before body st q r, SeenThrough h (newEvents s t) before body st q r) ∧
    (.started ∈ statesOf h (newEvents s t) ↔ t.forks = s.forks + 1) := by
  rcases exec_course (run_resting hrun) ht with ⟨st, _, ha⟩ | ⟨q, d, e, _, _, hc⟩
  · refine ⟨.inl ha.givenUp, iff_of_false ?_ ?_⟩
    · rw [ha.givenUp.states]
      simp
    · rw [ha.forks]
      exact (Nat.succ_ne_self _).symm
  · obtain ⟨before, body, st, r, hseen⟩ := hc.seenThrough
    exact ⟨.inr ⟨before, body, st, q, r, hseen⟩, iff_of_true hseen.started hc.forks⟩

theorem exec_callbacks_exited : (GivenUp 0 (newEvents exitingRun exitedRun) ∨
      ∃ before body st q r, SeenThrough 0 (newEvents exitingRun exitedRun) before body st q r) ∧
    (.started ∈ statesOf 0 (newEvents exitingRun exitedRun) ↔
      exitedRun.forks = exitingRun.forks + 1) :=
  exec_callbacks exitingRun_run exitedRun_ok

end Pexec
