import Pexec.Lib.Effect
import Pexec.Lib.Runs
import Pexec.PexecMulti

namespace Pexec

/-- What the kernel and the unordered map are free to choose during one callback. -/
structure Choices where
  readFaults : List (Option Errno) := []
  faults : List (Option Errno) := []
  pickChild : List Int → Int := fun _ => -1
  mapOrder : List (List Int) := []

def Sys.choose (s : Sys) (c : Choices) : Sys :=
  { s with
    readFaults := c.readFaults
    faults := c.faults
    pickChild := c.pickChild
    mapOrder := c.mapOrder }

/-- The steps in the life of a `pexec_multi`: `exec` and `stop` calls, what others do, the start
of a run, one callback of the event loop, and a failing `select`. -/
inductive Label
  | exec (args : List Char) (hasOnStop : Bool)
  | stop (flag : StopFlag) (signum : Int)
  | env (act : EnvAct)
  | run (type : LoopType) (c : Choices)
  | event (fd : Int) (c : Choices)
  | selectError

/-- `set_type`, for an external loop `register_event`, and `run` up to the loop. -/
def startRun (type : LoopType) : Prog Unit := do
  modify fun s => { s with loopType := type }
  if type = .external then modify fun s => { s with registerFn := some .user }
  let _ ← runSetup

/-- A descriptor is ready. In a DEFAULT run `select_event::loop` calls what it has for it; an
external loop calls `do_action`. -/
def dispatch (fd : Int) : Prog Unit := do
  let s ← get
  match s.loopType, s.loop with
  | .default, some e =>
    match e.cbs.find? (·.1 = fd) with
    | some (_, cb) => if (← loopCallback cb fd) = .stopLoop then runFinish
    | none => pure ()
  | .default, none => pure ()
  | .external, _ => doAction fd

/-- `select` fails: the error is reported and the loop ends. -/
def selectFails : Prog Unit := do
  multiProcessError .selectError
  runFinish

def Label.prog : Label → Prog Unit
  | .exec args hasOnStop => multiExec args hasOnStop
  | .stop flag signum => multiStop flag signum
  | .env act => modify act.apply
  | .run type c => do
    modify (Sys.choose · c)
    startRun type
  | .event fd c => do
    modify (Sys.choose · c)
    dispatch fd
  | .selectError => selectFails

/-- The loop only calls what is watched, and one run is active at a time. -/
def Label.enabled (s : Sys) : Label → Prop
  | .run _ _ => s.running = false
  | .event fd _ =>
    match s.loopType with
    | .default => s.running = true ∧ ∃ e, s.loop = some e ∧ fd ∈ e.keys
    | .external => fd ∈ s.registered
  | .selectError => s.running = true ∧ s.loopType = .default
  | _ => True

def Step (s : Sys) (l : Label) (t : Sys) : Prop := l.enabled s ∧ l.prog s = .ok () t

/-- The choices of the kernel are part of the label and of the state. -/
theorem step_unique (s : Sys) (l : Label) (t u : Sys) (ht : Step s l t) (hu : Step s l u) : t = u := by
  cases ht.2.symm.trans hu.2
  rfl

instance (s : Sys) : ∀ l : Label, Decidable (l.enabled s)
  | .exec .. | .stop .. | .env _ => isTrue trivial
  | .run .. => inferInstanceAs (Decidable (s.running = false))
  | .selectError => inferInstanceAs (Decidable (s.running = true ∧ s.loopType = .default))
  | .event fd _ =>
    match ht : s.loopType with
    | .default => decidable_of_iff
        (s.running = true ∧ fd ∈ (s.loop.map SelectEvent.keys).getD []) (by
          simp only [Label.enabled, ht]
          cases s.loop <;> simp)
    | .external => decidable_of_iff (fd ∈ s.registered) (by simp only [Label.enabled, ht])

/-- The constructor of `pexec_multi`. -/
def newMulti : Prog Unit := do
  match ← call (World.pipe2 · true) with
  | none => throw (.assertion .loopPipe)
  | some p => modify fun s => { s with controlPipe := p }

/-- The destructor of `pexec_multi`: its body, then the members in reverse order. -/
def destroyMulti : Prog Unit := do
  let s ← get
  onWorld (World.closePipe · s.controlPipe)
  modify fun s => { s with controlPipe := s.controlPipe.closed }
  match s.loop with
  | some e => onWorld (World.closePipe · e.controlPipe)
  | none => pure ()
  modify fun s => { s with loop := none }
  match s.sigchld with
  | some handler => destroySigchldHandler handler
  | none => pure ()
  modify fun s => { s with sigchld := none }

/-- A process that has not used the library yet, whatever it has done before. -/
def boot (w : World) : Sys where
  toWorld := { w with
    trace := []
    vigil := {}
    blockingPipe := {}
    sigchldPipe := {}
    sigchldSaPrev := .default
    sigchldActive := false }

/-- Where the given steps lead. -/
def Sys.after (s : Sys) (ls : List Label) : Sys :=
  ls.foldl (fun s l => Effect.final l.prog s) s

/-- The step comes back. -/
def Label.returns (l : Label) (s : Sys) : Bool :=
  match l.prog s with
  | .ok _ _ => true
  | .error _ _ => false

theorem step_after {s : Sys} {l : Label} (h : l.enabled s ∧ l.returns s = true) :
    Step s l (s.after [l]) := by
  refine ⟨h.1, ?_⟩
  have hret := h.2
  simp only [Label.returns, Sys.after, List.foldl_cons, List.foldl_nil, Effect.final] at hret ⊢
  split at hret
  next u t heq => rw [heq]
  next => cases hret

/-- Every step can be taken and comes back, and passes the given check. -/
def passes (check : Sys → Label → Bool) : List Label → Sys → Bool
  | [], _ => true
  | l :: ls, s => check s l && decide (l.enabled s) && l.returns s && passes check ls (s.after [l])

theorem run_after (check : Sys → Label → Bool) {C : Sys → Label → Prop}
    (hcheck : ∀ s l, check s l = true → C s l) (ls : List Label) :
    ∀ {s}, passes check ls s = true → Runs.Run (Runs.Under C Step) s ls (s.after ls) := by
  induction ls with
  | nil => exact fun _ => .nil
  | cons l ls ih =>
    intro s hp
    simp only [passes, Bool.and_eq_true, decide_eq_true_eq] at hp
    obtain ⟨⟨⟨hc, he⟩, hret⟩, hrest⟩ := hp
    exact Runs.Run.append (.snoc .nil ⟨hcheck s l hc, step_after ⟨he, hret⟩⟩) (ih hrest)

/-- A run without a condition on its steps. -/
theorem run_through (ls : List Label) {s : Sys} (hp : passes (fun _ _ => true) ls s = true) :
    Runs.Run Step s ls (s.after ls) :=
  (run_after (fun _ _ => true) (C := fun _ _ => True) (fun _ _ _ => trivial) ls hp).mono fun _ _ _ hstep => hstep.2

/-- A new object. -/
def freshMulti : Sys := Effect.final newMulti (boot {})

theorem freshMulti_ok : newMulti (boot {}) = .ok () freshMulti := rfl

/-- Two processes are started. -/
def pairStarts : List Label :=
  [.exec ['a'] false, .exec ['b'] true, .run .default {}, .event 0 {}, .event 0 {}]

/-- Both write, the first one twice, and what is there at the time is read. -/
def pairWrites : List Label :=
  [.env (.childOut 0 [97, 98]), .env (.childErr 1 [99]), .event 8 {}, .event 18 {}, .env (.childOut 0 [100])]

/-- The first one exits; the other one is killed by a stop, and the run comes to its end. -/
def pairEnds : List Label :=
  [.env (.exit 1 ⟨0, terminated_zero⟩), .env .sigchld, .event 4 {}, .stop .stopKill 9, .event 0 {},
    .env (.exit 2 ⟨9, terminated_killed⟩), .env .sigchld, .event 4 {}, .event 0 {}, .event 2 {}]

def pairLife : List Label := pairStarts ++ pairWrites ++ pairEnds

/-- The first steps of that life. -/
def pairAt (n : Nat) : Sys := freshMulti.after (pairLife.take n)

/-- The steps between two of its states. -/
def pairBetween (n m : Nat) : List Label := (pairLife.take m).drop n

theorem pairAt_between {n m : Nat} (h : n ≤ m) : (pairAt n).after (pairBetween n m) = pairAt m := by
  have htake : pairLife.take n = (pairLife.take m).take n := by
    rw [List.take_take, Nat.min_eq_left h]
  rw [pairAt, htake, Sys.after, Sys.after, ← List.foldl_append, pairBetween, List.take_append_drop]
  rfl

theorem pair_step {n : Nat} {l : Label} (hl : pairLife[n]? = some l)
    (h : l.enabled (pairAt n) ∧ l.returns (pairAt n) = true) : Step (pairAt n) l (pairAt (n + 1)) := by
  have hnext : pairAt (n + 1) = (pairAt n).after [l] := by
    unfold pairAt
    rw [List.take_add_one, hl, Sys.after, List.foldl_append]
    rfl
  rw [hnext]
  exact step_after h

theorem pair_segment {n m : Nat} {check : Sys → Label → Bool} {C : Sys → Label → Prop}
    (hcheck : ∀ s l, check s l = true → C s l) (h : n ≤ m)
    (hp : passes check (pairBetween n m) (pairAt n) = true) :
    Runs.Run (Runs.Under C Step) (pairAt n) (pairBetween n m) (pairAt m) :=
  pairAt_between h ▸ run_after check hcheck _ hp

theorem pair_run {n : Nat} (hp : passes (fun _ _ => true) (pairLife.take n) freshMulti = true) :
    Runs.Run Step freshMulti (pairLife.take n) (pairAt n) := run_through _ hp

end Pexec
