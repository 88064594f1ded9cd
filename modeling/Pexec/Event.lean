import Pexec.ProcStatus

namespace Pexec

/-- The values of `errno` that the library tells apart, and all others. -/
inductive Errno
  | eintr
  | eagain
  | echild
  | ebadf
  | other (code : Nat)
  deriving DecidableEq, Repr

inductive Error
  | noError
  | sigactionSetError
  | sigactionResetError
  | stdinPipeError
  | stderrPipeError
  | stdoutPipeError
  | forkError
  | argParseError
  | argParseCError
  | signalPipeError
  | watchPipeError
  | sigBlockError
  | sigUnblockError
  | selectError
  | stdoutPipeReadError
  | stderrPipeReadError
  | stdoutPipeReadRestError
  | stderrPipeReadRestError
  | signalPipeReadError
  | watchPipeReadError
  | waitpidError
  | forkExecError
  | forkStdinNonblockError
  | forkStdoutNonblockError
  | forkStderrNonblockError
  | forkDup2StdinError
  | forkDup2StdoutError
  | forkDup2StderrError
  | execAllocationError
  deriving DecidableEq, Repr

/-- What one `waitpid(.., WNOHANG)` call answers. -/
inductive WaitResult
  | reaped (pid : Int) (status : WaitStatus)
  | unavailable
  | failed (e : Errno)
  deriving DecidableEq, Repr

/-- What can be seen of a run from outside: callbacks with the object that makes them,
and the system calls that concern other processes. `handed` is a history event: whether the two
descriptors in the status that the next callback gets can be used. -/
inductive Event
  | state (owner : Nat) (st : State) (proc : ProcStatus)
  | handed (owner : Nat) (stdin userStop : Bool)
  | error (owner : Nat) (e : Error)
  | out (owner : Nat) (data : List UInt8)
  | err (owner : Nat) (data : List UInt8)
  | onStop (owner : Nat) (st : State)
  | waitpid (pid : Int) (result : WaitResult)
  | kill (pid signum : Int)
  | multiError (e : Error)
  | register (fd : Int) (add : Bool)
  deriving DecidableEq, Repr

/-- The bytes that one event hands to the stdout callback of object `h`. -/
def Event.outData (h : Nat) : Event → List UInt8
  | .out owner data => if owner = h then data else []
  | _ => []

def Event.errData (h : Nat) : Event → List UInt8
  | .err owner data => if owner = h then data else []
  | _ => []

/-- The chunks passed to the stdout callback of object `h`, joined. -/
def outOf (h : Nat) (trace : List Event) : List UInt8 := trace.flatMap (Event.outData h)

def errOf (h : Nat) (trace : List Event) : List UInt8 := trace.flatMap (Event.errData h)

@[simp] theorem outOf_nil (h : Nat) : outOf h [] = [] := rfl

@[simp] theorem errOf_nil (h : Nat) : errOf h [] = [] := rfl

@[simp] theorem outOf_append (h : Nat) (xs ys : List Event) :
    outOf h (xs ++ ys) = outOf h xs ++ outOf h ys := List.flatMap_append

@[simp] theorem errOf_append (h : Nat) (xs ys : List Event) :
    errOf h (xs ++ ys) = errOf h xs ++ errOf h ys := List.flatMap_append

@[simp] theorem outOf_singleton (h : Nat) (e : Event) : outOf h [e] = e.outData h := by
  simp [outOf]

@[simp] theorem errOf_singleton (h : Nat) (e : Event) : errOf h [e] = e.errData h := by
  simp [errOf]

end Pexec
