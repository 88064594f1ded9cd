import Pexec.PexecSingle

namespace Pexec

def sigchldSetSignalHandler : Prog Bool := do
  match ← call (World.pipe2 · true) with
  | none => return false
  | some p =>
    modify fun s => { s with sigchldPipe := p }
    match ← call (World.sigaction · .sigchldSignalHandler) with
    | none =>
      onWorld fun w => { w.closePipe w.sigchldPipe with sigchldPipe := w.sigchldPipe.closed }
      return false
    | some prev =>
      modify fun s => { s with sigchldSaPrev := prev, sigchldActive := true }
      return true

def sigchldResetSignalHandler : Prog Bool := do
  if !(← get).sigchldActive then return false
  match ← call fun w => w.sigaction w.sigchldSaPrev with
  | none => return false
  | some _ =>
    onWorld fun w => { w.closePipe w.sigchldPipe with
      sigchldPipe := w.sigchldPipe.closed, sigchldActive := false }
    return true

/-- The constructor of `sigchld_handler`. -/
def newSigchldHandler : Prog SigchldHandler := do
  if ← sigchldSetSignalHandler then return {}
  else return { err := .sigactionSetError }

/-- The destructor of `sigchld_handler`. -/
def destroySigchldHandler (handler : SigchldHandler) : Prog Unit := do
  if !(← sigchldResetSignalHandler) then
    if handler.callbacks then multiProcessError .sigactionResetError

/-- `sigchld_handler::process_error`, with the error callback that `run` sets. -/
def handlerProcessError (e : Error) : Prog Unit := do
  match (← get).sigchld with
  | none => pure ()
  | some handler =>
    modify fun s => { s with sigchld := some { handler with err := e } }
    if handler.callbacks then multiProcessError e

/-- The callback that `run` passes to `sigchld->on_signal`. -/
def onSignal (pid : Int) (status : WaitStatus) : Prog Unit := do
  match (← get).active.lookup pid with
  | some h => updateStatus h status
  | none => pure ()

/-- What one `waitpid` answer means for the loop of `handle_sigchld`. -/
inductive WaitTurn
  | leave
  | fail
  | again
  | child (pid : Int) (status : WaitStatus)

def waitTurn : WaitResult → WaitTurn
  | .failed .echild => .leave
  | .failed .eintr => .again
  | .failed _ => .fail
  | .unavailable => .leave
  | .reaped pid status => .child pid status

/-- The loop of `handle_sigchld`; each turn uses up a fault or a child. -/
def sigchldLoop : Nat → Prog Unit
  | 0 => throw .waiting
  | fuel + 1 => do
    let result ← call (World.waitpid · 0)
    emit (.waitpid 0 result)
    match waitTurn result with
    | .leave => pure ()
    | .fail => handlerProcessError .waitpidError
    | .again => sigchldLoop fuel
    | .child pid status =>
      onSignal pid status
      sigchldLoop fuel

/-- `sigchld_handler::handle_sigchld` -/
def handleSigchld : Prog Unit := do
  if !(← call (World.sigprocmask · true)) then handlerProcessError .sigBlockError
  let s ← get
  sigchldLoop (s.faults.length + s.children.keys.length + 1)
  if !(← call (World.sigprocmask · false)) then handlerProcessError .sigUnblockError

/-- The reading loop of `read_signal`: EINTR is retried, any other error ends it. -/
def readSignalFrom (fd : Int) : Nat → Nat → List UInt8 → Prog (Option (List UInt8))
  | 0, _, _ => throw .waiting
  | fuel + 1, want, got => do
    match ← call (World.read · fd want) with
    | .error .eintr => readSignalFrom fd fuel want got
    | .error _ => return none
    | .ok data =>
      if want - data.length = 0 then return some (got ++ data)
      else readSignalFrom fd fuel (want - data.length) (got ++ data)

def readSignal : Prog EventReturn := do
  let s ← get
  match ← readSignalFrom s.sigchldPipe.rd (s.readFaults.length + 4) 4 [] with
  | none => return .stopLoop
  | some signal =>
    if signal = World.sigchldRecord then handleSigchld
    return .nothing

end Pexec
