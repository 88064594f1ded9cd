import Mathlib.Logic.Function.Basic
import Pexec.Lib.ByteStream
import Pexec.Descriptors
import Pexec.Event

namespace Pexec

/-- What `sigaction` has installed for SIGCHLD. -/
inductive Disposition
  | default
  | ignore
  | user (handler : Nat)
  | sigchldSignalHandler
  | sigchldBlockingSignalHandler
  deriving DecidableEq, Repr

/-- A child that has not been waited for, with the descriptors it has inherited; `status` is set
once it has terminated. -/
structure Child where
  pgid : Int
  fds : FdTable := {}
  status : Option { status : WaitStatus // Terminated status } := none

/-- History: the descriptors that the event loop has been told to watch, with what each referred
to then; and for every callback that was made, whether all of them still referred to it. -/
structure Vigil where
  added : AList (fun _ : Int => Option FdTarget) := ∅
  kept : List Bool := []

namespace Vigil

/-- ADD_EVENT -/
def add (v : Vigil) (fds : FdTable) (fd : Int) : Vigil :=
  { v with added := v.added.insert fd (fds.target fd) }

/-- REMOVE_EVENT -/
def remove (v : Vigil) (fd : Int) : Vigil := { v with added := v.added.erase fd }

/-- What is watched is open, and is what it was added for. -/
def intact (v : Vigil) (fds : FdTable) : Bool :=
  v.added.entries.all fun e => e.2.isSome && fds.target e.1 == e.2

def note (v : Vigil) (fds : FdTable) : Vigil := { v with kept := v.kept ++ [v.intact fds] }

/-- A descriptor counts as watched in the call that adds it, and still in the one that removes it. -/
def tell (v : Vigil) (fds : FdTable) : Event → Vigil
  | .register fd true => (v.add fds fd).note fds
  | .register fd false => (v.note fds).remove fd
  | .handed .. | .waitpid .. | .kill .. => v
  | _ => v.note fds

end Vigil

/-- The parent process: what the kernel keeps for it, and the global variables of the library.
The choices the kernel is free to make are given in advance: `faults` says which of the next
fallible calls fail (`readFaults` the same for `read`), `chunk` how many bytes a read of a pipe
returns, the hints which numbers are handed out, `pickChild` which terminated child a
`waitpid` reports. -/
structure World where
  fds : FdTable := {}
  pipes : Nat → ByteStream UInt8 := fun _ => {}
  capacity : Nat := 65536
  children : AList (fun _ : Int => Child) := ∅
  pgid : Int := 1
  disposition : Disposition := .default
  sigchldBlocked : Bool := false
  faults : List (Option Errno) := []
  readFaults : List (Option Errno) := []
  chunk : Nat → Nat → Nat := fun _ _ => 65536
  fdHint : Nat → Int × Int := fun _ => (-1, -1)
  pidHint : Nat → Int := fun _ => -1
  forks : Nat := 0
  pickChild : List Int → Int := fun _ => -1
  mapOrder : List (List Int) := []
  trace : List Event := []
  vigil : Vigil := {}
  /-- `sigchld_blocking_pipe_signal` -/
  blockingPipe : PipeFds := {}
  /-- `sigchld_pipe_signal` -/
  sigchldPipe : PipeFds := {}
  sigchldSaPrev : Disposition := .default
  sigchldActive : Bool := false

namespace World

def emit (w : World) (e : Event) : World :=
  { w with trace := w.trace ++ [e], vigil := w.vigil.tell w.fds e }

/-- The answer to the next fallible call: the error it fails with, if it does. -/
def nextFault (w : World) : Option Errno × World :=
  (w.faults.head?.join, { w with faults := w.faults.tail })

def setPipe (w : World) (pipe : Nat) (s : ByteStream UInt8) : World :=
  { w with pipes := Function.update w.pipes pipe s }

def pipe2 (w : World) (cloexec : Bool) : Option PipeFds × World :=
  match w.nextFault with
  | (some _, w) => (none, w)
  | (none, w) =>
    let (p, fds) := w.fds.openPipe (w.fdHint w.fds.nextPipe) cloexec
    (some p, { w with fds, pipes := Function.update w.pipes w.fds.nextPipe {} })

/-- `close_fd` -/
def closeFd (w : World) (fd : Int) : World :=
  if 0 ≤ fd then { w with fds := w.fds.close fd } else w

/-- `close_pipe` -/
def closePipe (w : World) (p : PipeFds) : World := (w.closeFd p.rd).closeFd p.wr

/-- How many bytes a read of at most `count` bytes takes from the pipe: at least one when there
is one, otherwise as many as the kernel likes. -/
def readLength (w : World) (pipe count : Nat) : Nat :=
  min (max 1 (w.chunk pipe (w.pipes pipe).taken)) (min count (w.pipes pipe).unread.length)

/-- A non-blocking `read`. An empty pipe answers EAGAIN while a write end of it is open. -/
def read (w : World) (fd : Int) (count : Nat) : Except Errno (List UInt8) × World :=
  let w' := { w with readFaults := w.readFaults.tail }
  match w.readFaults.head?.join with
  | some e => (.error e, w')
  | none =>
    match w.fds.target fd with
    | some (.readEnd pipe) =>
      if (w.pipes pipe).unread = [] then
        if w.fds.hasWriter pipe then (.error .eagain, w') else (.ok [], w')
      else
        let n := w.readLength pipe count
        (.ok ((w.pipes pipe).unread.take n), w'.setPipe pipe ((w.pipes pipe).drop n))
    | _ => (.error .ebadf, w')

/-- `do { errno = 0; rc = read(..); } while (errno == EINTR)`, one turn for each fault to come. -/
def readRetry (fd : Int) (count : Nat) : List (Option Errno) → World →
    Except Errno (List UInt8) × World
  | [], w => w.read fd count
  | _ :: faults, w =>
    match w.read fd count with
    | (.error .eintr, w') => readRetry fd count faults w'
    | answer => answer

/-- A non-blocking `write` of a few bytes: all of them or, when they do not fit, none. Every
caller ignores the result. -/
def write (w : World) (fd : Int) (data : List UInt8) : World :=
  match w.fds.target fd with
  | some (.writeEnd pipe) =>
    if (w.pipes pipe).unread.length + data.length ≤ w.capacity then
      w.setPipe pipe ((w.pipes pipe).push data)
    else w
  | _ => w

/-- The pid of a new child: any positive number that is not the pid of an unreaped child. -/
def freshPid (w : World) : Int :=
  let hint := w.pidHint w.forks
  if 0 < hint ∧ hint ∉ w.children then hint else w.children.keys.foldr max 0 + 1

def fork (w : World) : Option Int × World :=
  match w.nextFault with
  | (some _, w) => (none, w)
  | (none, w) =>
    let pid := w.freshPid
    (some pid, { w with
      children := w.children.insert pid { pgid := w.pgid, fds := w.fds }
      forks := w.forks + 1 })

/-- The children that the first argument of `waitpid` selects. -/
def selected (w : World) (pid : Int) : List ((_ : Int) × Child) :=
  w.children.entries.filter fun c =>
    if 0 < pid then c.1 == pid
    else if pid = 0 then c.2.pgid == w.pgid
    else pid == -1 || c.2.pgid == -pid

/-- The terminated ones among them. -/
def zombies (w : World) (pid : Int) : List Int :=
  ((w.selected pid).filter fun c => c.2.status.isSome).map Sigma.fst

/-- `waitpid(pid, &status, WNOHANG)` -/
def waitpid (w : World) (pid : Int) : WaitResult × World :=
  match w.nextFault with
  | (some e, w) => (.failed e, w)
  | (none, w) =>
    match w.zombies pid with
    | [] => (if w.selected pid = [] then .failed .echild else .unavailable, w)
    | z :: zs =>
      let child := if w.pickChild (z :: zs) ∈ z :: zs then w.pickChild (z :: zs) else z
      match (w.children.lookup child).bind Child.status with
      | some status => (.reaped child status, { w with children := w.children.erase child })
      | none => (.unavailable, w)

/-- `sigaction(SIGCHLD, ..)`: the disposition that was replaced. -/
def sigaction (w : World) (d : Disposition) : Option Disposition × World :=
  match w.nextFault with
  | (some _, w) => (none, w)
  | (none, w) => (some w.disposition, { w with disposition := d })

/-- `sigprocmask` on the set that holds SIGCHLD alone. -/
def sigprocmask (w : World) (block : Bool) : Bool × World :=
  match w.nextFault with
  | (some _, w) => (false, w)
  | (none, w) => (true, { w with sigchldBlocked := block })

/-- The `int` SIGCHLD as the signal handlers write it. -/
def sigchldRecord : List UInt8 := [17, 0, 0, 0]

/-- The handler that is installed runs for SIGCHLD: `sigchld_signal_handler` and
`sigchld_blocking_signal_handler` each write the signal number to their own pipe. -/
def deliverSigchld (w : World) : World :=
  match w.disposition with
  | .sigchldSignalHandler => w.write w.sigchldPipe.wr sigchldRecord
  | .sigchldBlockingSignalHandler => w.write w.blockingPipe.wr sigchldRecord
  | _ => w

end World

end Pexec
