import Pexec.Objects

namespace Pexec

/-- `pexec_multi::process_error` -/
def multiProcessError (e : Error) : Prog Unit := do
  modify fun s => { s with err_ := e }
  emit (.multiError e)

/-- `loop->add_read_event(fd, ..)` from the callback that `run` registers. -/
def loopAdd (fd : Int) : Prog Unit := do
  match (← get).loop with
  | none => throw .nullLoop
  | some e =>
    let order ← nextOrder
    match e.addReadEvent order fd .doAction with
    | some e' => modify fun s => { s with loop := some e', vigil := s.vigil.add s.fds fd }
    | none => throw (.assertion .notWatched)

/-- `loop->remove_read_event(fd)` from the callback that `run` registers. -/
def loopRemove (fd : Int) : Prog Unit := do
  match (← get).loop with
  | none => throw .nullLoop
  | some e =>
    match e.removeReadEvent fd with
    | some e' => modify fun s => { s with loop := some e', vigil := s.vigil.remove fd }
    | none => throw (.assertion .watched)

/-- `pexec_multi::add_read_event` -/
def addReadEvent (fd : Int) (cb : Source) : Prog Unit := do
  modify fun s => { s with registered := s.registered.insert fd cb }
  match (← get).registerFn with
  | none => pure ()
  | some .loop => loopAdd fd
  | some .user => emit (.register fd true)

/-- `pexec_multi::remove_read_event` -/
def removeReadEvent (fd : Int) : Prog Unit := do
  modify fun s => { s with registered := s.registered.erase fd }
  match (← get).registerFn with
  | none => pure ()
  | some .loop => loopRemove fd
  | some .user => emit (.register fd false)

/-- `queue_buffer::add` -/
def bufferAdd (job : Option Job) : Prog Unit :=
  modify fun s => { s with buffer := s.buffer ++ [job], added := s.added ++ [job] }

/-- `pexec_multi::interrupt` -/
def interrupt : Prog Unit := modify fun s => { s with toWorld := s.toWorld.write s.controlPipe.wr [0] }

def sendJob (job : Option Job) : Prog Unit := do
  bufferAdd job
  interrupt

def sendJobNullptrStop : Prog Unit := sendJob none

/-- A handle lives as long as one of its owners: `active_procs_`, or a closure in
`registered_fd_`. -/
def alive (s : Sys) (h : Nat) : Bool :=
  s.active.entries.any (fun e => e.2 == h) ||
  s.registered.entries.any fun e =>
    e.2 == .readClose h || e.2 == .readStdout h || e.2 == .readStderr h

/-- The callback that `job_spawn_proc` passes to `on_proc_stopped`. -/
def onProcStopped (h : Nat) (pid : Int) : Prog Unit := do
  assert (alive (← get) h) .procAlive
  match (← get).handles h with
  | none => pure ()
  | some hd =>
    removeReadEvent hd.fds.watchCloseWrite
    removeReadEvent hd.fds.stdoutRead
    removeReadEvent hd.fds.stderrRead
    modify fun s => { s with active := s.active.erase pid }
    let s ← get
    if s.stopping ∧ s.active.keys = [] then sendJobNullptrStop

/-- The state callback that the constructor of `pexec_multi_handle` sets. -/
def handleState (h : Nat) (hd : Handle) (st : State) (proc : ProcStatus) : Prog Unit := do
  modify fun s => { s with
    handles := Function.update s.handles h (some { hd with retProc := proc, retState := st }) }
  if st.terminal then
    if hd.hasOnStop then emit (.onStop h st)
    match hd.onProcStopped with
    | some pid => onProcStopped h pid
    | none => pure ()

/-- The number is unset, or that of an end of one of the object's own pipes that is still open. -/
def PexecSingle.offers (p : PexecSingle) (fds : FdTable) (fd : Int) : Bool :=
  fd == -1 || [p.pipeStdin, p.pipeStdout, p.pipeStderr, p.pipeCloseWatch].any fun array =>
    array.pipe.isSome && (fds.target fd).bind FdTarget.pipe? == array.pipe

/-- The callback of the user. -/
def announce (h : Nat) (st : State) : Prog Unit := do
  let s ← get
  let p := s.procs h
  emit (.handed h (p.offers s.fds p.proc.stdinFd) (p.offers s.fds p.proc.userStopFd))
  emit (.state h st p.proc)

/-- The world after the callback. -/
def World.announced (w : World) (h : Nat) (st : State) (p : PexecSingle) : World :=
  (w.emit (.handed h (p.offers w.fds p.proc.stdinFd) (p.offers w.fds p.proc.userStopFd))).emit
    (.state h st p.proc)

@[simp] theorem announce_apply (h : Nat) (st : State) (s : Sys) :
    announce h st s = .ok () { s with toWorld := s.toWorld.announced h st (s.procs h) } := rfl

/-- `call_state`: the callback of the user, and for an object inside a `pexec_multi_handle` what
the handle does besides. -/
def callState (h : Nat) (st : State) : Prog Unit := do
  let s ← get
  announce h st
  match s.handles h with
  | some hd => handleState h hd st (s.procs h).proc
  | none => pure ()

/-- `pexec::process_error` -/
def processError (h : Nat) (e : Error) : Prog Unit := do
  emit (.error h e)
  modifyProc h fun p => { p with state_ := e }

end Pexec
