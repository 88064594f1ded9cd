import Pexec.PexecSingle
import Pexec.SelectLoop

namespace Pexec

/-- The `select_event loop` of `loop_io`. -/
def ioRef : LoopRef IoSource where
  get s := s.ioLoop
  set e s := { s with ioLoop := e }

/-- The signal pipe is read until a whole `int` is there; any error ends the reading. -/
def ioReadSignal (h : Nat) : Nat → Nat → List UInt8 → Prog (Option (List UInt8))
  | 0, _, _ => throw .waiting
  | fuel + 1, want, got => do
    let fd := (← get).blockingPipe.rd
    match ← call (World.read · fd want) with
    | .error _ =>
      processError h .signalPipeReadError
      return none
    | .ok data =>
      if want - data.length = 0 then return some (got ++ data)
      else ioReadSignal h fuel (want - data.length) (got ++ data)

def ioSigchld (h : Nat) : Prog EventReturn := do
  match ← ioReadSignal h 4 4 [] with
  | none => return .stopLoop
  | some signal =>
    if signal = World.sigchldRecord then singleHandleSigchld h
    return if ((← get).procs h).procKilled then .stopLoop else .nothing

def ioCloseWatch (h : Nat) : Prog EventReturn := do
  let ret ← readClose h
  if ret = .nothing then loopInterrupt (← get).ioLoop
  return ret

def ioInterrupt (h : Nat) : Prog EventReturn := do
  modifyProc h fun p => { p with userStopped := true }
  return .stopLoop

/-- The callbacks that `loop_io` registers. -/
def ioCallback (h : Nat) : IoSource → Int → Prog EventReturn
  | .interrupt, fd => loopControl (ioInterrupt h) fd
  | .closeWatch, _ => ioCloseWatch h
  | .stdout, _ => readStdout h
  | .stderr, _ => readStderr h
  | .sigchld, _ => ioSigchld h

def ioAdd (fd : Int) (cb : IoSource) : Prog Unit := do
  let order ← nextOrder
  match (← get).ioLoop.addReadEvent order fd cb with
  | some e => modify fun s => { s with ioLoop := e }
  | none => throw (.assertion .notWatched)

/-- The registrations that `loop_io` makes before it enters the loop. -/
def ioRegister (h : Nat) : Prog Unit := do
  modifyProc h fun p => { p with procKilled := false, userStopped := false, status := 0 }
  let e ← newSelectEvent IoSource.interrupt
  modify fun s => { s with ioLoop := e }
  let s ← get
  ioAdd (s.procs h).pipeCloseWatch.rd .closeWatch
  ioAdd (s.procs h).pipeStdout.rd .stdout
  ioAdd (s.procs h).pipeStderr.rd .stderr
  ioAdd s.blockingPipe.rd .sigchld

/-- The destructor of the local `select_event`. -/
def ioDestroy : Prog Unit := do
  let e := (← get).ioLoop
  onWorld (World.closePipe · e.controlPipe)
  modify fun s => { s with ioLoop := {} }

def loopIo (h : Nat) : Prog Unit := do
  ioRegister h
  selectLoop ioRef (ioCallback h) (processError h .selectError) (← get).selects
  ioDestroy

/-- `exec` up to the point where a blocking run decides how the watching has ended; `false` where
it returns before. -/
def execWatch (h : Nat) (spawnArg : List Char) : Prog Bool := do
  if !(← execPrepare h spawnArg) then return false
  execStarted h
  if ((← get).procs h).type = .nonblocking then return false
  loopIo h
  let _ ← resetSigchldSignalHandler h
  return true

/-- `pexec::exec` -/
def exec (h : Nat) (spawnArg : List Char) : Prog Unit := do
  if ← execWatch h spawnArg then
    if ((← get).procs h).userStopped then userStopped h else stopped h

end Pexec
