import Mathlib.Tactic.Common

namespace Pexec

/-- The word that `waitpid` stores through its status pointer. -/
abbrev WaitStatus := BitVec 32

def wifexited (status : WaitStatus) : Bool := status &&& 0x7f#32 == 0#32

def wexitstatus (status : WaitStatus) : Nat := ((status >>> 8) &&& 0xff#32).toNat

/-- `((signed char) ((status & 0x7f) + 1) >> 1) > 0` -/
def wifsignaled (status : WaitStatus) : Bool :=
  0 < ((((status &&& 0x7f#32) + 1#32).truncate 8).sshiftRight 1).toInt

def wtermsig (status : WaitStatus) : Nat := (status &&& 0x7f#32).toNat

def wcoredump (status : WaitStatus) : Bool := status &&& 0x80#32 != 0#32

def wifstopped (status : WaitStatus) : Bool := status &&& 0xff#32 == 0x7f#32

def wstopsig (status : WaitStatus) : Nat := wexitstatus status

def wifcontinued (status : WaitStatus) : Bool := status == 0xffff#32

/-- `proc_status::state` -/
inductive State
  | started
  | signaled
  | stopped
  | userStopped
  | failStopped
  deriving DecidableEq, Repr

/-- The three states after which a process is no longer watched. -/
def State.terminal : State → Bool
  | .stopped | .userStopped | .failStopped => true
  | .started | .signaled => false

structure ProcStatus where
  userStopFd : Int := -1
  pid : Int := 0
  stdinFd : Int := -1
  running : Bool := false
  wstatus : WaitStatus := 0
  exited : Bool := false
  returnCode : Nat := 0
  signaled : Bool := false
  signaledSignal : Nat := 0
  generatedCoreDump : Bool := false
  stopped : Bool := false
  /-- A `bool` in the source, so the signal number is converted to "not zero". -/
  stoppedSignal : Bool := false
  continued : Bool := false
  deriving DecidableEq, Repr

def ProcStatus.updateStatus (p : ProcStatus) (status : WaitStatus) : ProcStatus :=
  let exited := wifexited status
  let signaled := wifsignaled status
  let stopped := wifstopped status
  { p with
    wstatus := status
    exited
    returnCode := if exited then wexitstatus status else p.returnCode
    signaled
    signaledSignal := if signaled then wtermsig status else p.signaledSignal
    generatedCoreDump := if signaled then wcoredump status else p.generatedCoreDump
    stopped
    stoppedSignal := if stopped then wstopsig status != 0 else p.stoppedSignal
    continued := wifcontinued status
    running := !(signaled || exited) }

/-- The status word of a child that has terminated. -/
def Terminated (status : WaitStatus) : Prop := wifexited status || wifsignaled status

instance (status : WaitStatus) : Decidable (Terminated status) := inferInstanceAs (Decidable (_ = true))

theorem terminated_zero : Terminated 0 := by decide

theorem terminated_killed : Terminated 9 := by decide

@[simp] theorem updateStatus_pid (p : ProcStatus) (status : WaitStatus) :
    (p.updateStatus status).pid = p.pid := rfl

@[simp] theorem updateStatus_userStopFd (p : ProcStatus) (status : WaitStatus) :
    (p.updateStatus status).userStopFd = p.userStopFd := rfl

@[simp] theorem updateStatus_stdinFd (p : ProcStatus) (status : WaitStatus) :
    (p.updateStatus status).stdinFd = p.stdinFd := rfl

@[simp] theorem updateStatus_wstatus (p : ProcStatus) (status : WaitStatus) :
    (p.updateStatus status).wstatus = status := rfl

theorem updateStatus_running_iff (p : ProcStatus) (status : WaitStatus) :
    (p.updateStatus status).running = false ↔ Terminated status := by
  simp only [ProcStatus.updateStatus, Terminated, Bool.not_eq_eq_eq_not, Bool.not_false]
  rw [Bool.or_comm]

end Pexec
