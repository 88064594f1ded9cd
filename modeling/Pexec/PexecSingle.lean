import Pexec.Registration

namespace Pexec

/-- The default `BUFFER_SIZE`; the buffer keeps one byte for a terminator. -/
def bufferSize : Nat := 1024

def PexecSingle.pipesClosed (p : PexecSingle) : PexecSingle :=
  { p with
    pipeStdin := p.pipeStdin.closed
    pipeStdout := p.pipeStdout.closed
    pipeStderr := p.pipeStderr.closed
    pipeCloseWatch := p.pipeCloseWatch.closed }

def World.closeForkPipes (w : World) (p : PexecSingle) : World :=
  let w := ((w.closePipe p.pipeStdin).closePipe p.pipeStdout).closePipe p.pipeStderr
  let w := if p.type = .blocking then
      { w.closePipe w.blockingPipe with blockingPipe := w.blockingPipe.closed }
    else w
  w.closePipe p.pipeCloseWatch

def closeForkPipes (h : Nat) : Prog Unit :=
  modify fun s => { s with
    toWorld := s.toWorld.closeForkPipes (s.procs h)
    procs := Function.update s.procs h (s.procs h).pipesClosed }

def failStopped (h : Nat) : Prog Unit := do
  closeForkPipes h
  callState h .failStopped

def userStopped (h : Nat) : Prog Unit := do
  modifyProc h fun p => { p with userStopped := true, proc := { p.proc with userStopFd := -1 } }
  closeForkPipes h
  callState h .userStopped

/-- One `pipe2` of `prepare_fork_pipes`, with what follows when it fails. -/
def preparePipe (h : Nat) (cloexec : Bool) (store : PipeFds → Sys → Sys) (e : Error) :
    Prog Bool := do
  match ← call (World.pipe2 · cloexec) with
  | some p =>
    modify (store p)
    return true
  | none =>
    processError h e
    failStopped h
    return false

def storePipe (h : Nat) (f : PipeFds → PexecSingle → PexecSingle) (p : PipeFds) (s : Sys) : Sys :=
  { s with procs := Function.update s.procs h (f p (s.procs h)) }

def preparePipeStdin (h : Nat) : Prog Bool :=
  preparePipe h false (storePipe h fun p x => { x with pipeStdin := p }) .stdinPipeError

def preparePipeStdout (h : Nat) : Prog Bool :=
  preparePipe h false (storePipe h fun p x => { x with pipeStdout := p }) .stdoutPipeError

def preparePipeStderr (h : Nat) : Prog Bool :=
  preparePipe h false (storePipe h fun p x => { x with pipeStderr := p }) .stderrPipeError

def preparePipeSignal (h : Nat) : Prog Bool :=
  preparePipe h true (fun p s => { s with blockingPipe := p }) .signalPipeError

def preparePipeWatch (h : Nat) : Prog Bool :=
  preparePipe h true (storePipe h fun p x => { x with pipeCloseWatch := p }) .watchPipeError

def prepareForkPipes (h : Nat) : Prog Bool := do
  if !(← preparePipeStdin h) then return false
  if !(← preparePipeStdout h) then return false
  if !(← preparePipeStderr h) then return false
  if ((← get).procs h).type = .blocking then
    if !(← preparePipeSignal h) then return false
  preparePipeWatch h

def prepareArgs (h : Nat) : Prog Bool := do
  modifyProc h fun p => { p with args := str2arg p.spawnProcessArg }
  if ((← get).procs h).args.isEmpty then
    processError h .argParseError
    failStopped h
    return false
  modifyProc h fun p => { p with argsC := arg2argc p.args }
  if ((← get).procs h).argsC.length < 2 then
    processError h .argParseCError
    failStopped h
    return false
  return true

def setSigchldSignalHandler (h : Nat) : Prog Bool := do
  match ← call (World.sigaction · .sigchldBlockingSignalHandler) with
  | some prev =>
    modifyProc h fun p => { p with saPrev := prev }
    return true
  | none =>
    processError h .sigactionSetError
    failStopped h
    return false

def resetSigchldSignalHandler (h : Nat) : Prog Bool := do
  let prev := ((← get).procs h).saPrev
  match ← call (World.sigaction · prev) with
  | some _ => return true
  | none =>
    processError h .sigactionResetError
    return false

def blockSigchld (h : Nat) : Prog Unit := do
  if !(← call (World.sigprocmask · true)) then processError h .sigBlockError

def unblockSigchld (h : Nat) : Prog Unit := do
  if !(← call (World.sigprocmask · false)) then processError h .sigUnblockError

/-- The launch errors behind the exit codes of the child. -/
def launchError : Nat → Option Error
  | 100 => some .forkExecError
  | 101 => some .forkStdinNonblockError
  | 102 => some .forkStdoutNonblockError
  | 103 => some .forkStderrNonblockError
  | 104 => some .forkDup2StdinError
  | 105 => some .forkDup2StdoutError
  | 106 => some .forkDup2StderrError
  | _ => none

def handleProcReturnCode (h : Nat) : Prog Unit := do
  match launchError ((← get).procs h).proc.returnCode with
  | some e => processError h e
  | none => pure ()

/-- The drain of one pipe: a `do .. while (errno == EINTR || rc == 0)` loop, left with `break`
when the read fails. A read that returns data leaves `errno` and `rc` so that the loop ends. -/
def readStdRest (fd : Int) (h : Nat) (cb : List UInt8 → Event) (throwErr : Error) :
    Nat → Prog Unit
  | 0 => throw .waiting
  | fuel + 1 => do
    match ← call (World.read · fd (bufferSize - 1)) with
    | .error e =>
      if e ≠ .eintr ∧ e ≠ .eagain then processError h throwErr
    | .ok [] => readStdRest fd h cb throwErr fuel
    | .ok data => emit (cb data)

def loopRestIo (h : Nat) : Prog Unit := do
  let s ← get
  readStdRest (s.procs h).pipeStdout.rd h (.out h) .stdoutPipeReadRestError
    (s.readFaults.length + 1)
  let s ← get
  readStdRest (s.procs h).pipeStderr.rd h (.err h) .stderrPipeReadRestError
    (s.readFaults.length + 1)

def stopped (h : Nat) : Prog Unit := do
  loopRestIo h
  closeForkPipes h
  callState h .stopped

def updateStatus (h : Nat) (status : WaitStatus) : Prog Unit := do
  modifyProc h fun p => { p with status, proc := p.proc.updateStatus status }
  callState h .signaled
  if !((← get).procs h).proc.running then
    modifyProc h fun p => { p with proc := { p.proc with stdinFd := -1 }, procKilled := true }
    handleProcReturnCode h
    if ((← get).procs h).type = .nonblocking then stopped h

/-- One turn of the loop in `handle_sigchld`. -/
def waitpidOnce (h : Nat) : Prog WaitResult := do
  modifyProc h fun p => { p with status := 0 }
  let pid := ((← get).procs h).procPid
  let result ← call (World.waitpid · pid)
  emit (.waitpid pid result)
  match result with
  | .reaped _ status => modifyProc h fun p => { p with status }
  | _ => processError h .waitpidError
  return result

/-- `do { .. } while (errno == EINTR)`, one turn for each fault to come. -/
def waitpidRetry (h : Nat) : List (Option Errno) → Prog Unit
  | [] => do
    let _ ← waitpidOnce h
  | _ :: faults => do
    if (← waitpidOnce h) = .failed .eintr then waitpidRetry h faults

/-- `pexec::handle_sigchld`: the status is passed on whatever `waitpid` answered. -/
def singleHandleSigchld (h : Nat) : Prog Unit := do
  blockSigchld h
  waitpidRetry h (← get).faults
  unblockSigchld h
  updateStatus h ((← get).procs h).status

def readClose (h : Nat) : Prog EventReturn := do
  match ← readRetry ((← get).procs h).pipeCloseWatch.rd (bufferSize - 1) with
  | .error _ =>
    processError h .watchPipeReadError
    if ((← get).procs h).type = .nonblocking then
      failStopped h
      return .nothing
    return .stopLoop
  | .ok _ =>
    if ((← get).procs h).type = .nonblocking then userStopped h
    return .nothing

def readStd (fd : Int) (h : Nat) (cb : List UInt8 → Event) (throwErr : Error) :
    Prog EventReturn := do
  match ← readRetry fd (bufferSize - 1) with
  | .error _ =>
    processError h throwErr
    if ((← get).procs h).type = .nonblocking then
      failStopped h
      return .nothing
    return .stopLoop
  | .ok [] => return .skipOtherFd
  | .ok data =>
    emit (cb data)
    return .nothing

def readStdout (h : Nat) : Prog EventReturn := do
  readStd ((← get).procs h).pipeStdout.rd h (.out h) .stdoutPipeReadError

def readStderr (h : Nat) : Prog EventReturn := do
  readStd ((← get).procs h).pipeStderr.rd h (.err h) .stderrPipeReadError

/-- `get_fds`; the watch descriptor is the read end, whatever its field is called. -/
def PexecSingle.getFds (p : PexecSingle) : PexecFds where
  stderrRead := p.pipeStderr.rd
  stdoutRead := p.pipeStdout.rd
  stdinWrite := p.pipeStdin.wr
  watchCloseWrite := p.pipeCloseWatch.rd

/-- The parent's side of `spawn_proc`. -/
def spawnProc (h : Nat) : Prog Bool := do
  match ← call World.fork with
  | some pid =>
    modifyProc h fun p => { p with procPid := pid }
    return true
  | none =>
    modifyProc h fun p => { p with procPid := -1 }
    processError h .forkError
    failStopped h
    return false

/-- The child's side of `spawn_proc` up to `execvp`: the code it exits with, or its descriptors. -/
def PexecSingle.spawnChild (p : PexecSingle) (fds : FdTable) : Except Nat FdTable :=
  if fds.get p.pipeStdin.rd = none then throw 101
  else if fds.get p.pipeStdout.wr = none then throw 102
  else if fds.get p.pipeStderr.wr = none then throw 103
  else match fds.dup2 p.pipeStdin.rd 0 with
    | none => throw 104
    | some fds => match fds.dup2 p.pipeStdout.wr 1 with
      | none => throw 105
      | some fds => match fds.dup2 p.pipeStderr.wr 2 with
        | none => throw 106
        | some fds =>
          return ((fds.closePipe p.pipeStdout).closePipe p.pipeStderr).closePipe p.pipeStdin

/-- `exec` up to the fork: everything that can keep it from starting the process. -/
def execPrepare (h : Nat) (spawnArg : List Char) : Prog Bool := do
  modifyProc h fun p => { p with spawnProcessArg := spawnArg, state_ := .noError }
  if !(← prepareArgs h) then return false
  if !(← prepareForkPipes h) then return false
  if ((← get).procs h).type = .blocking then
    if !(← setSigchldSignalHandler h) then return false
  spawnProc h

/-- The `proc_` of a process that has just been started. -/
def PexecSingle.started (p : PexecSingle) : PexecSingle :=
  { p with proc := { p.proc with
    pid := p.procPid
    stdinFd := p.pipeStdin.wr
    running := true
    userStopFd := p.pipeCloseWatch.wr } }

def execStarted (h : Nat) : Prog Unit := do
  modifyProc h PexecSingle.started
  callState h .started

end Pexec
