import Pexec.BlockingExec
import Pexec.SigchldHandler

namespace Pexec

/-- `pexec_multi_handle::exec` -/
def handleExec (h : Nat) : Prog Unit := do
  match (← get).handles h with
  | none => pure ()
  | some hd =>
    exec h hd.args
    modify fun s => { s with
      handles := Function.update s.handles h
        ((s.handles h).map fun hd => { hd with fds := (s.procs h).getFds }) }

/-- `proc_status::user_stop` -/
def userStop (proc : ProcStatus) : Prog Unit := do
  assert (proc.userStopFd ≠ -1) .userStopFd
  onWorld (World.write · proc.userStopFd [0])

def kill (pid signum : Int) : Prog Unit := emit (.kill pid signum)

def cleanupUser : List ((_ : Int) × Nat) → Prog Unit
  | [] => pure ()
  | p :: rest => do
    match (← get).handles p.2 with
    | some hd => userStop hd.retProc
    | none => pure ()
    cleanupUser rest

def cleanupKill (signum : Int) : List ((_ : Int) × Nat) → Prog Unit
  | [] => pure ()
  | p :: rest => do
    kill p.1 signum
    cleanupKill signum rest

def cleanup : Prog Unit := do
  modify fun s => { s with stopping := true }
  let s ← get
  match s.stopFlag with
  | .stopUser => cleanupUser s.active.entries
  | .stopKill => cleanupKill s.stopSignum s.active.entries
  | .stopWait => pure ()

def jobNullptrStop : Prog EventReturn := do
  let s ← get
  if s.stopping = false ∧ s.active.keys ≠ [] then
    cleanup
    return .nothing
  if s.active.keys = [] then return .stopLoop
  return .nothing

def jobStop (flag : StopFlag) (signum : Int) : Prog EventReturn := do
  if (← get).stopping then return .nothing
  modify fun s => { s with stopFlag := flag, stopSignum := signum }
  jobNullptrStop

def handlePid (s : Sys) (h : Nat) : Int := ((s.handles h).map fun hd => hd.retProc.pid).getD 0

def jobSpawnProc (h : Nat) : Prog EventReturn := do
  if (← get).stopping then return .nothing
  handleExec h
  let pid := handlePid (← get) h
  assert (0 < pid) .pidPositive
  modify fun s => { s with active := s.active.insert pid h }
  modify fun s => { s with
    handles := Function.update s.handles h
      ((s.handles h).map fun hd => { hd with onProcStopped := some pid }) }
  let fds := (((← get).handles h).map Handle.fds).getD {}
  addReadEvent fds.watchCloseWrite (.readClose h)
  addReadEvent fds.stdoutRead (.readStdout h)
  addReadEvent fds.stderrRead (.readStderr h)
  return .nothing

/-- `queue_buffer::remove`, which waits while the buffer is empty. -/
def bufferRemove : Prog (Option Job) := do
  match (← get).buffer with
  | [] => throw .waiting
  | job :: rest =>
    modify fun s => { s with buffer := rest }
    return job

def dispatchJob : Prog EventReturn := do
  match ← bufferRemove with
  | none => jobNullptrStop
  | some (.stop flag signum) => jobStop flag signum
  | some (.spawn h) => jobSpawnProc h

def handleStop : Prog Unit := do
  removeReadEvent (← get).sigchldPipe.rd
  removeReadEvent (← get).controlPipe.rd
  modify fun s => { s with
    stopFlag := .stopWait, stopSignum := -1, stopping := false, watching := false }
  let s ← get
  if s.loopType = .default then
    match s.loop with
    | some e => loopInterrupt e
    | none => throw .nullLoop
  else modify fun s => { s with running := false }

def onSigchldReady : Prog Unit := do
  if (← readSignal) = .stopLoop then handleStop

def onControlReady (fd : Int) : Prog Unit := do
  match ← readRetry fd 1 with
  | .error _ => throw (.assertion .controlRead)
  | .ok _ => if (← dispatchJob) = .stopLoop then handleStop

/-- The callbacks in `registered_fd_`. -/
def runSource (fd : Int) : Source → Prog Unit
  | .sigchld => onSigchldReady
  | .control => onControlReady fd
  | .readClose h => discard (readClose h)
  | .readStdout h => discard (readStdout h)
  | .readStderr h => discard (readStderr h)

/-- `registered_fd_[fd](fd)`: an unknown descriptor gets an empty function, which throws. -/
def doAction (fd : Int) : Prog Unit := do
  match (← get).registered.lookup fd with
  | some source => runSource fd source
  | none => throw .badFunctionCall

/-- `pexec_multi::exec`: a handle and its spawn job. -/
def multiExec (args : List Char) (hasOnStop : Bool) : Prog Unit := do
  let h := (← get).nextHandle
  modify fun s => { s with
    nextHandle := h + 1
    procs := Function.update s.procs h { type := .nonblocking }
    handles := Function.update s.handles h (some { args, hasOnStop }) }
  sendJob (some (.spawn h))

/-- `pexec_multi::stop` -/
def multiStop (flag : StopFlag) (signum : Int) : Prog Unit := sendJob (some (.stop flag signum))

/-- The `select_event` of a DEFAULT run; assigning it destroys one left by an earlier run. -/
def makeLoop : Prog Unit := do
  let e ← newSelectEvent LoopSource.interrupt
  let old := (← get).loop
  modify fun s => { s with loop := some e, registerFn := some .loop }
  match old with
  | some e => onWorld (World.closePipe · e.controlPipe)
  | none => pure ()

/-- `sigchld = std::unique_ptr<sigchld_handler>(new sigchld_handler)`: the new handler is
constructed before the old one is destroyed. -/
def replaceSigchld : Prog Unit := do
  let handler ← newSigchldHandler
  let old := (← get).sigchld
  modify fun s => { s with sigchld := some handler }
  match old with
  | some handler => destroySigchldHandler handler
  | none => pure ()

/-- What `run` does from the handler on, up to the event loop; `false` where it returns because the handler
is not valid. -/
def runHandler : Prog Bool := do
  replaceSigchld
  match (← get).sigchld with
  | some handler =>
    if handler.err ≠ .noError then
      multiProcessError handler.err
      return false
    modify fun s => { s with sigchld := some { handler with callbacks := true } }
    addReadEvent (← get).sigchldPipe.rd .sigchld
    addReadEvent (← get).controlPipe.rd .control
    modify fun s => { s with running := true, watching := true }
    return true
  | none => return false

/-- `run` up to the event loop. -/
def runSetup : Prog Bool := do
  if (← get).loopType = .default then makeLoop
  runHandler

/-- `run` after a DEFAULT loop has ended. -/
def runFinish : Prog Unit := do
  match (← get).loop with
  | some e => onWorld (World.closePipe · e.controlPipe)
  | none => pure ()
  modify fun s => { s with loop := none }
  match (← get).sigchld with
  | some handler => destroySigchldHandler handler
  | none => pure ()
  modify fun s => { s with sigchld := none, running := false }

/-- The callbacks in the select loop of a DEFAULT run. -/
def loopCallback : LoopSource → Int → Prog EventReturn
  | .interrupt, fd => loopControl (pure .stopLoop) fd
  | .doAction, fd => do
    doAction fd
    return .nothing

end Pexec
