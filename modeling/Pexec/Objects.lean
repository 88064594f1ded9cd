import Pexec.ArgumentParser
import Pexec.SelectEvent
import Pexec.World

namespace Pexec

inductive ExecType
  | blocking
  | nonblocking
  deriving DecidableEq, Repr

inductive LoopType
  | default
  | external
  deriving DecidableEq, Repr

inductive StopFlag
  | stopWait
  | stopUser
  | stopKill
  deriving DecidableEq, Repr

/-- A `pexec` object (pexec_single.h), less its callbacks and its read buffer. -/
structure PexecSingle where
  type : ExecType := .blocking
  state_ : Error := .noError
  pipeStdin : PipeFds := {}
  pipeStdout : PipeFds := {}
  pipeStderr : PipeFds := {}
  pipeCloseWatch : PipeFds := {}
  args : List (List Char) := []
  argsC : List (Option (List Char)) := []
  saPrev : Disposition := .default
  proc : ProcStatus := {}
  procKilled : Bool := false
  userStopped : Bool := false
  status : WaitStatus := 0
  procPid : Int := 0
  spawnProcessArg : List Char := []

structure PexecFds where
  stdoutRead : Int := 0
  stderrRead : Int := 0
  stdinWrite : Int := 0
  watchCloseWrite : Int := 0
  deriving DecidableEq, Repr

/-- The part of a `pexec_multi_handle` outside its `pexec` object: the arguments and the results
of `ret_`, the descriptors for the loop, and the pid that the installed `on_proc_stopped`
callback has captured. -/
structure Handle where
  args : List Char
  hasOnStop : Bool
  fds : PexecFds := {}
  onProcStopped : Option Int := none
  retProc : ProcStatus := {}
  retState : State := .started

inductive Job
  | spawn (h : Nat)
  | stop (flag : StopFlag) (signum : Int)
  deriving DecidableEq, Repr

/-- The callbacks that `pexec_multi` keeps in `registered_fd_`. -/
inductive Source
  | sigchld
  | control
  | readClose (h : Nat)
  | readStdout (h : Nat)
  | readStderr (h : Nat)
  deriving DecidableEq, Repr

/-- The callbacks in the select loop of `pexec_multi`: its own, and `do_action`. -/
inductive LoopSource
  | interrupt
  | doAction
  deriving DecidableEq, Repr

/-- The callbacks in the select loop of a blocking `exec`. -/
inductive IoSource
  | interrupt
  | closeWatch
  | stdout
  | stderr
  | sigchld
  deriving DecidableEq, Repr

/-- `register_function_cb_`: the one `run` installs, or the user's. -/
inductive RegisterFn
  | loop
  | user
  deriving DecidableEq, Repr

structure SigchldHandler where
  err : Error := .noError
  /-- `error_cb_` and `cb_` have been set. -/
  callbacks : Bool := false

/-- What others do between two steps of the program. A child writes to the pipes that are its
descriptors 1 and 2, changes its process group, terminates; the application forks, waits for
children and opens files of its own; a user stops the watching of a process. -/
inductive EnvAct
  | childOut (h : Nat) (data : List UInt8)
  | childErr (h : Nat) (data : List UInt8)
  | userStop (h : Nat)
  | sigchld
  | exit (pid : Int) (status : { status : WaitStatus // Terminated status })
  | setpgid (pid pgid : Int)
  | fork (pid pgid : Int)
  | reap (pid : Int)
  | openFile (fd : Int)
  | closeFile (fd : Int)

/-- What one call of `select` answers. -/
inductive SelectAnswer
  | eintr
  | fail (e : Errno)
  | ready (acts : List EnvAct) (fds : List Int)

/-- The assertions of the source. -/
inductive Assertion
  | pidPositive
  | procAlive
  | notWatched
  | watched
  | userStopFd
  | controlRead
  | loopRead
  | loopPipe
  deriving DecidableEq, Repr

/-- Why the program does not go on: a failed assertion, a call that has not come back, a call of
an empty `std::function`, a null `loop` pointer. -/
inductive Halt
  | assertion (a : Assertion)
  | waiting
  | badFunctionCall
  | nullLoop
  deriving DecidableEq, Repr

/-- The whole process: the world, the `pexec` objects with the handles that own some of them,
the `select` answers and the loop of a blocking run, and one `pexec_multi` object. -/
structure Sys extends World where
  procs : Nat → PexecSingle := fun _ => {}
  handles : Nat → Option Handle := fun _ => none
  nextHandle : Nat := 0
  selects : List SelectAnswer := []
  ioLoop : SelectEvent IoSource := {}
  controlPipe : PipeFds := {}
  loopType : LoopType := .default
  sigchld : Option SigchldHandler := none
  loop : Option (SelectEvent LoopSource) := none
  /-- `buffer`; a null pointer is the sentinel that `send_job_nullptr_stop` adds. -/
  buffer : List (Option Job) := []
  /-- History: everything ever added to `buffer`. -/
  added : List (Option Job) := []
  active : AList (fun _ : Int => Nat) := ∅
  err_ : Error := .noError
  registered : AList (fun _ : Int => Source) := ∅
  registerFn : Option RegisterFn := none
  stopFlag : StopFlag := .stopWait
  stopSignum : Int := 0
  stopping : Bool := false
  /-- History: a run has been set up and not ended yet. -/
  running : Bool := false
  /-- History: `run` has registered its own two descriptors, and `handle_stop` has not removed
  them yet. -/
  watching : Bool := false

abbrev Prog := EStateM Halt Sys

def emit (e : Event) : Prog Unit := modify fun s => { s with toWorld := s.toWorld.emit e }

/-- A system call: a function of the world. -/
def call {α : Type} (f : World → α × World) : Prog α := do
  let s ← get
  let (a, w) := f s.toWorld
  set { s with toWorld := w }
  return a

def onWorld (f : World → World) : Prog Unit := modify fun s => { s with toWorld := f s.toWorld }

def modifyProc (h : Nat) (f : PexecSingle → PexecSingle) : Prog Unit :=
  modify fun s => { s with procs := Function.update s.procs h (f (s.procs h)) }

def assert (c : Bool) (a : Assertion) : Prog Unit := if c then pure () else throw (.assertion a)

@[simp] theorem emit_apply (e : Event) (s : Sys) :
    emit e s = .ok () { s with toWorld := s.toWorld.emit e } := rfl

@[simp] theorem call_apply {α : Type} (f : World → α × World) (s : Sys) :
    call f s = .ok (f s.toWorld).1 { s with toWorld := (f s.toWorld).2 } := rfl

@[simp] theorem onWorld_apply (f : World → World) (s : Sys) :
    onWorld f s = .ok () { s with toWorld := f s.toWorld } := rfl

@[simp] theorem modifyProc_apply (h : Nat) (f : PexecSingle → PexecSingle) (s : Sys) :
    modifyProc h f s = .ok () { s with procs := Function.update s.procs h (f (s.procs h)) } := rfl

@[simp] theorem assert_true (a : Assertion) (s : Sys) : assert true a s = .ok () s := rfl

@[simp] theorem assert_false (a : Assertion) (s : Sys) :
    assert false a s = .error (.assertion a) s := rfl

/-- `read` in a `do .. while (errno == EINTR)` loop. -/
def readRetry (fd : Int) (count : Nat) : Prog (Except Errno (List UInt8)) :=
  call fun w => World.readRetry fd count w.readFaults w

def nextOrder : Prog (List Int) :=
  call fun w => (w.mapOrder.headD [], { w with mapOrder := w.mapOrder.tail })

def EnvAct.apply : EnvAct → Sys → Sys
  | .childOut h data, s =>
    match (s.procs h).pipeStdout.pipe with
    | some pipe => { s with toWorld := s.toWorld.setPipe pipe ((s.pipes pipe).push data) }
    | none => s
  | .childErr h data, s =>
    match (s.procs h).pipeStderr.pipe with
    | some pipe => { s with toWorld := s.toWorld.setPipe pipe ((s.pipes pipe).push data) }
    | none => s
  | .userStop h, s => { s with toWorld := s.toWorld.write (s.procs h).pipeCloseWatch.wr [0] }
  | .sigchld, s => { s with toWorld := s.toWorld.deliverSigchld }
  | .exit pid status, s =>
    match s.children.lookup pid with
    | some child =>
      if child.status.isSome then s
      else { s with children := s.children.insert pid { child with status := some status } }
    | none => s
  | .setpgid pid pgid, s =>
    match s.children.lookup pid with
    | some child =>
      if child.status.isSome then s
      else { s with children := s.children.insert pid { child with pgid } }
    | none => s
  | .fork pid pgid, s =>
    if 0 < pid ∧ pid ∉ s.children then
      { s with children := s.children.insert pid { pgid, fds := s.fds } }
    else s
  | .reap pid, s =>
    if pid ∉ s.active ∧ ((s.children.lookup pid).bind Child.status).isSome then
      { s with children := s.children.erase pid }
    else s
  | .openFile fd, s =>
    if h : 0 ≤ fd ∧ s.fds.get fd = none then
      { s with fds := s.fds.insert fd ⟨.file, false⟩ h.1 (by simp [FdTarget.pipe?]) }
    else s
  | .closeFile fd, s =>
    if s.fds.target fd = some .file then { s with fds := s.fds.close fd } else s

end Pexec
