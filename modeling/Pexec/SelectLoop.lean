import Pexec.Objects

namespace Pexec

/-- Where the process keeps a `select_event` object. -/
structure LoopRef (κ : Type) where
  get : Sys → SelectEvent κ
  set : SelectEvent κ → Sys → Sys

variable {κ : Type}

def LoopRef.update (ref : LoopRef κ) (f : SelectEvent κ → SelectEvent κ) (s : Sys) : Sys :=
  ref.set (f (ref.get s)) s

/-- The constructor of `select_event`: its own pipe, watched from the start. -/
def newSelectEvent (interrupt : κ) : Prog (SelectEvent κ) := do
  match ← call (World.pipe2 · true) with
  | none => throw (.assertion .loopPipe)
  | some p =>
    let _ ← nextOrder
    return { controlPipe := p, cbs := [(p.rd, interrupt)] }

/-- `select_event::interrupt` -/
def loopInterrupt (e : SelectEvent κ) : Prog Unit := onWorld (World.write · e.controlPipe.wr [0])

/-- The callback of the control pipe: a byte is read, then `on_interrupt_` decides. -/
def loopControl (onInterrupt : Prog EventReturn) (fd : Int) : Prog EventReturn := do
  match ← readRetry fd 1 with
  | .error _ => throw (.assertion .loopRead)
  | .ok _ => onInterrupt

/-- `FD_ISSET` and the callback. -/
def callReady (callback : κ → Int → Prog EventReturn) (ready : List Int) (fd : Int) (cb : κ) :
    Prog EventReturn :=
  if fd ∈ ready then callback cb fd else pure .nothing

/-- The dispatch pass: from the cursor to the end of the map, a callback for each descriptor that
`select` has reported. The result says whether the loop is to stop. -/
def selectPass (ref : LoopRef κ) (callback : κ → Int → Prog EventReturn) (ready : List Int) :
    Nat → Prog Bool
  | 0 => throw .waiting
  | fuel + 1 => do
    match (ref.get (← get)).current with
    | none => return false
    | some (fd, cb) =>
      match ← callReady callback ready fd cb with
      | .stopLoop => return true
      | .skipOtherFd => return false
      | .nothing =>
        modify (ref.update SelectEvent.advance)
        selectPass ref callback ready fuel

/-- `select_event::loop`, one turn for each answer of `select`. Without registrations the source
spins; without a further answer it is still waiting. -/
def selectLoop (ref : LoopRef κ) (callback : κ → Int → Prog EventReturn) (onError : Prog Unit) :
    List SelectAnswer → Prog Unit
  | [] => throw .waiting
  | answer :: answers => do
    modify fun s => { s with selects := answers }
    let watched := (ref.get (← get)).keys
    if watched = [] then throw .waiting
    else match answer with
      | .eintr => selectLoop ref callback onError answers
      | .fail _ => onError
      | .ready acts fds =>
        modify fun s => acts.foldl (fun s act => act.apply s) s
        modify (ref.update SelectEvent.begin)
        if ← selectPass ref callback (fds.filter (· ∈ watched)) (watched.length + 1) then pure ()
        else selectLoop ref callback onError answers

end Pexec
