import Pexec.Lib.Attempts
import Pexec.ExitReports
import Pexec.Ledger
import Pexec.ObjectActs

namespace Pexec

open Attempts Effect

/-- What a blocking `exec` does before it watches: two checks and seven calls, each with an error of
its own. -/
inductive Stage
  | args
  | argsC
  | stdin
  | stdout
  | stderr
  | signal
  | watch
  | handler
  | fork
  deriving DecidableEq, Repr

namespace Stage

def all : List Stage := [.args, .argsC, .stdin, .stdout, .stderr, .signal, .watch, .handler, .fork]

def error : Stage → Error
  | .args => .argParseError
  | .argsC => .argParseCError
  | .stdin => .stdinPipeError
  | .stdout => .stdoutPipeError
  | .stderr => .stderrPipeError
  | .signal => .signalPipeError
  | .watch => .watchPipeError
  | .handler => .sigactionSetError
  | .fork => .forkError

/-- Whether the check fails, or the next fault to come hits the call. -/
def fails (line : List Char) : Stage → List (Option Errno) → Bool
  | .args, _ => (str2arg line).isEmpty
  | .argsC, _ => (arg2argc (str2arg line)).length < 2
  | _, faults => faults.head?.join.isSome

/-- The faults that are left after the stage. -/
def spend : Stage → List (Option Errno) → List (Option Errno)
  | .args, faults | .argsC, faults => faults
  | _, faults => faults.tail

end Stage

/-- The stage at which `exec` gives up, which the command and the faults decide. -/
def prepareFails (line : List Char) (faults : List (Option Errno)) : Option Stage :=
  (attempts (Stage.fails line) Stage.spend (fun _ => id) Stage.all faults).1

/-- A `pipe2` that succeeds. -/
def World.opened (w : World) (cloexec : Bool) : PipeFds × World :=
  ((w.fds.openPipe (w.fdHint w.fds.nextPipe) cloexec).1, { w with
    faults := w.faults.tail
    fds := (w.fds.openPipe (w.fdHint w.fds.nextPipe) cloexec).2
    pipes := Function.update w.pipes w.fds.nextPipe {} })

namespace Stage

/-- The stage on the kernel's side, where it succeeds. -/
def kernel : Stage → World → World
  | .args, w | .argsC, w => w
  | .stdin, w | .stdout, w | .stderr, w => (w.opened false).2
  | .signal, w => { (w.opened true).2 with blockingPipe := (w.opened true).1 }
  | .watch, w => (w.opened true).2
  | .handler, w => { w with faults := w.faults.tail, disposition := .sigchldBlockingSignalHandler }
  | .fork, w => { w with
      faults := w.faults.tail
      children := w.children.insert w.freshPid { pgid := w.pgid, fds := w.fds }
      forks := w.forks + 1 }

/-- What the stage stores in the object. -/
def object (line : List Char) : Stage → World → PexecSingle → PexecSingle
  | .args, _, p => { p with spawnProcessArg := line, state_ := .noError, args := str2arg line }
  | .argsC, _, p => { p with argsC := arg2argc p.args }
  | .stdin, w, p => { p with pipeStdin := (w.opened false).1 }
  | .stdout, w, p => { p with pipeStdout := (w.opened false).1 }
  | .stderr, w, p => { p with pipeStderr := (w.opened false).1 }
  | .signal, _, p => p
  | .watch, w, p => { p with pipeCloseWatch := (w.opened true).1 }
  | .handler, w, p => { p with saPrev := w.disposition }
  | .fork, w, p => { p with procPid := w.freshPid }

/-- What it has stored where it fails. -/
def refused (line : List Char) : Stage → World → PexecSingle → PexecSingle
  | .args, w, p => Stage.args.object line w p
  | .argsC, w, p => Stage.argsC.object line w p
  | .fork, _, p => { p with procPid := -1 }
  | _, _, p => p

/-- The stage, where it succeeds. -/
def run (h : Nat) (line : List Char) (st : Stage) (s : Sys) : Sys :=
  { s with
    toWorld := st.kernel s.toWorld
    procs := Function.update s.procs h (st.object line s.toWorld (s.procs h)) }

end Stage

/-- The pipes of an object that is not part of a handle are closed, and the callback made. -/
def Sys.closedCall (h : Nat) (st : State) (s : Sys) : Sys :=
  { s with
    toWorld := (s.toWorld.closeForkPipes (s.procs h)).announced h st (s.procs h).pipesClosed
    procs := Function.update s.procs h (s.procs h).pipesClosed }

/-- The object after `process_error`. -/
def Sys.processed (h : Nat) (e : Error) (s : Sys) : Sys :=
  { s with
    toWorld := s.toWorld.emit (.error h e)
    procs := Function.update s.procs h { s.procs h with state_ := e } }

/-- `process_error` and `fail_stopped`. -/
def Sys.failed (h : Nat) (e : Error) (s : Sys) : Sys := (s.processed h e).closedCall h .failStopped

/-- The stage, where it fails. -/
def Stage.undo (h : Nat) (line : List Char) (st : Stage) (s : Sys) : Sys :=
  Sys.failed h st.error { s with
    faults := st.spend s.faults
    procs := Function.update s.procs h (st.refused line s.toWorld (s.procs h)) }

/-- The stages of object `h` in turn. -/
def prepares (h : Nat) (line : List Char) (steps : List Stage) (s : Sys) : Option Stage × Sys :=
  attempts (fun st u => st.fails line u.faults) (Stage.run h line) (Stage.undo h line) steps s

variable {h : Nat} {line : List Char} {s t : Sys}

theorem closedCall_apply (halone : s.handles h = none) (st : State) :
    (do closeForkPipes h; callState h st : Prog Unit) s = .ok () (s.closedCall h st) := by
  unfold closeForkPipes
  rw [bind_of_ok (modify_apply ..)]
  refine (callState_apply _ h st ?_).trans ?_
  · exact halone
  · simp only [Function.update_self]
    rfl

theorem processError_apply (e : Error) : processError h e s = .ok () (s.processed h e) :=
  (bind_of_ok (emit_apply ..)).trans (modifyProc_apply ..)

theorem failWith_apply (halone : s.handles h = none) (e : Error) :
    (do processError h e; failStopped h; return false : Prog Bool) s =
      .ok false (s.failed h e) := by
  rw [bind_of_ok (processError_apply e)]
  exact bind_of_ok (closedCall_apply (s := s.processed h e) halone .failStopped)

theorem preparePipe_apply (halone : s.handles h = none) (cloexec : Bool)
    (store : PipeFds → Sys → Sys) (e : Error) : preparePipe h cloexec store e s =
      if s.faults.head?.join.isSome then
        .ok false (Sys.failed h e { s with faults := s.faults.tail })
      else .ok true (store (s.toWorld.opened cloexec).1
        { s with toWorld := (s.toWorld.opened cloexec).2 }) := by
  unfold preparePipe
  rw [bind_of_ok (call_apply ..)]
  cases hf : s.faults.head?.join with
  | some e' =>
    rw [World.pipe2_of_fault hf]
    exact failWith_apply (s := { s with faults := s.faults.tail }) halone e
  | none =>
    rw [World.pipe2_of_none hf]
    rfl

theorem prepares_of_fails {st : Stage} {rest : List Stage} (hf : st.fails line s.faults = true) :
    prepares h line (st :: rest) s = (some st, st.undo h line s) :=
  attempts_of_fails hf

theorem prepares_of_runs {st : Stage} {rest : List Stage} (hf : st.fails line s.faults = false) :
    prepares h line (st :: rest) s = prepares h line rest (st.run h line s) :=
  attempts_of_runs hf

theorem prepares_append (steps rest : List Stage) (s : Sys) : prepares h line (steps ++ rest) s =
    if (prepares h line steps s).1.isSome then prepares h line steps s
    else prepares h line rest (prepares h line steps s).2 :=
  attempts_append

/-- The program does what the stages do. -/
def Enacts (h : Nat) (line : List Char) (steps : List Stage) (x : Prog Bool) (s : Sys) : Prop :=
  x s = .ok (prepares h line steps s).1.isNone (prepares h line steps s).2

/-- What one stage answers. -/
def Stage.answer (h : Nat) (line : List Char) (st : Stage) (s : Sys) : EStateM.Result Halt Sys Bool :=
  if st.fails line s.faults then .ok false (st.undo h line s) else .ok true (st.run h line s)

theorem Stage.answer_of_fails {st : Stage} (hf : st.fails line s.faults = true) :
    st.answer h line s = .ok false (st.undo h line s) := if_pos hf

theorem Stage.answer_of_runs {st : Stage} (hf : st.fails line s.faults = false) :
    st.answer h line s = .ok true (st.run h line s) := if_neg (by rw [hf]; exact Bool.false_ne_true)

theorem Enacts.of_answer {st : Stage} {x : Prog Bool} (hx : x s = st.answer h line s) :
    Enacts h line [st] x s := by
  unfold Enacts
  cases hf : st.fails line s.faults with
  | true =>
    rw [prepares_of_fails hf]
    exact hx.trans (Stage.answer_of_fails hf)
  | false =>
    rw [prepares_of_runs hf]
    exact hx.trans (Stage.answer_of_runs hf)

theorem Enacts.guard {steps rest : List Stage} {x y : Prog Bool} (hx : Enacts h line steps x s)
    (hy : (prepares h line steps s).1 = none → Enacts h line rest y (prepares h line steps s).2) :
    Enacts h line (steps ++ rest) (x >>= fun b => if (!b) = true then pure false else y) s := by
  unfold Enacts at hx ⊢
  refine (bind_of_ok hx).trans ?_
  rw [prepares_append]
  cases hp : (prepares h line steps s).1 with
  | some st =>
    simp only [Option.isNone_some, Option.isSome_some, if_true, hp]
    rfl
  | none => exact hy hp

@[simp] theorem Stage.run_handles (st : Stage) : (st.run h line s).handles = s.handles := rfl

theorem Stage.object_type (st : Stage) (w : World) (p : PexecSingle) :
    (st.object line w p).type = p.type := by
  cases st <;> rfl

@[simp] theorem Stage.run_type (st : Stage) :
    ((st.run h line s).procs h).type = (s.procs h).type := by
  simp [Stage.run, Stage.object_type]

theorem preparePipe_answer (halone : s.handles h = none) (st : Stage) {cloexec : Bool}
    {store : PipeFds → Sys → Sys}
    (hfails : st.fails line s.faults = s.faults.head?.join.isSome)
    (hspend : st.spend s.faults = s.faults.tail)
    (hrefused : st.refused line s.toWorld (s.procs h) = s.procs h)
    (hstore : store (s.toWorld.opened cloexec).1 { s with toWorld := (s.toWorld.opened cloexec).2 } =
      st.run h line s) :
    preparePipe h cloexec store st.error s = st.answer h line s := by
  rw [preparePipe_apply halone, Stage.answer, hfails, hstore, Stage.undo, hspend, hrefused,
    Function.update_eq_self]

theorem preparePipeStdin_answer (halone : s.handles h = none) :
    preparePipeStdin h s = Stage.stdin.answer h line s :=
  preparePipe_answer halone .stdin rfl rfl rfl rfl

theorem preparePipeStdout_answer (halone : s.handles h = none) :
    preparePipeStdout h s = Stage.stdout.answer h line s :=
  preparePipe_answer halone .stdout rfl rfl rfl rfl

theorem preparePipeStderr_answer (halone : s.handles h = none) :
    preparePipeStderr h s = Stage.stderr.answer h line s :=
  preparePipe_answer halone .stderr rfl rfl rfl rfl

theorem preparePipeSignal_answer (halone : s.handles h = none) :
    preparePipeSignal h s = Stage.signal.answer h line s :=
  preparePipe_answer halone .signal rfl rfl rfl
    (by simp only [Stage.run, Stage.object, Function.update_eq_self]; rfl)

theorem preparePipeWatch_answer (halone : s.handles h = none) :
    preparePipeWatch h s = Stage.watch.answer h line s :=
  preparePipe_answer halone .watch rfl rfl rfl rfl

theorem setSigchldSignalHandler_answer (halone : s.handles h = none) :
    setSigchldSignalHandler h s = Stage.handler.answer h line s := by
  unfold setSigchldSignalHandler
  rw [bind_of_ok (call_apply ..)]
  cases hf : s.faults.head?.join with
  | some e =>
    rw [World.sigaction_of_fault hf, Stage.answer_of_fails (by simp [Stage.fails, hf])]
    refine (failWith_apply (s := { s with faults := s.faults.tail }) halone _).trans ?_
    simp only [Stage.undo, Stage.refused, Function.update_eq_self]
    rfl
  | none =>
    rw [World.sigaction_of_none hf, Stage.answer_of_runs (by simp [Stage.fails, hf])]
    rfl

theorem spawnProc_answer (halone : s.handles h = none) :
    spawnProc h s = Stage.fork.answer h line s := by
  unfold spawnProc
  rw [bind_of_ok (call_apply ..)]
  cases hf : s.faults.head?.join with
  | some e =>
    rw [World.fork_of_fault hf, Stage.answer_of_fails (by simp [Stage.fails, hf])]
    refine (bind_of_ok (modifyProc_apply ..)).trans ?_
    exact failWith_apply (s := { s with
      faults := s.faults.tail
      procs := Function.update s.procs h { s.procs h with procPid := -1 } }) halone _
  | none =>
    rw [World.fork_of_none hf, Stage.answer_of_runs (by simp [Stage.fails, hf])]
    rfl

/-- An object on its own that runs in the mode that waits. -/
structure Standalone (h : Nat) (s : Sys) : Prop where
  handles : s.handles h = none
  type : (s.procs h).type = .blocking

theorem prepares_standalone {steps : List Stage} (hs : Standalone h s)
    (hnone : (prepares h line steps s).1 = none) : Standalone h (prepares h line steps s).2 := by
  refine (attempts_rule (I := fun _ => Standalone h) (F := fun _ _ => True) ?_ ?_ hs).1 hnone
  · exact fun st _ s hs _ => ⟨hs.handles, (st.run_type).trans hs.type⟩
  · exact fun _ _ _ _ _ => trivial

theorem prepareForkPipes_enacts (hs : Standalone h s) :
    Enacts h line [.stdin, .stdout, .stderr, .signal, .watch] (prepareForkPipes h) s := by
  unfold prepareForkPipes
  refine Enacts.guard (.of_answer (preparePipeStdin_answer hs.handles))
    fun hnone => ?_
  replace hs := prepares_standalone hs hnone
  refine Enacts.guard (.of_answer (preparePipeStdout_answer hs.handles))
    fun hnone => ?_
  replace hs := prepares_standalone hs hnone
  refine Enacts.guard (.of_answer (preparePipeStderr_answer hs.handles))
    fun hnone => ?_
  replace hs := prepares_standalone hs hnone
  refine (bind_of_ok (get_apply _)).trans ?_
  rw [if_pos hs.type]
  refine Enacts.guard (.of_answer (preparePipeSignal_answer hs.handles))
    fun hnone => ?_
  replace hs := prepares_standalone hs hnone
  exact .of_answer (preparePipeWatch_answer hs.handles)

theorem failWith_checked (hs : Standalone h s) (st : Stage) (hspend : st.spend s.faults = s.faults)
    {e : Error} (he : e = st.error) {t : Sys} (ht : t = { s with
      procs := Function.update s.procs h (st.refused line s.toWorld (s.procs h)) }) :
    (do processError h e; failStopped h; return false : Prog Bool) t =
      .ok false (st.undo h line s) := by
  subst ht he
  refine (failWith_apply ?_ st.error).trans ?_
  · exact hs.handles
  · rw [Stage.undo, hspend]

theorem argsC_answer (hs : Standalone h s) (hargs : (s.procs h).args = str2arg line) : (do
      modifyProc h fun p => { p with argsC := arg2argc p.args }
      if ((← get).procs h).argsC.length < 2 then
        processError h .argParseCError
        failStopped h
        return false
      return true : Prog Bool) s = Stage.argsC.answer h line s := by
  rw [bind_of_ok (modifyProc_apply ..), bind_of_ok (get_apply _)]
  simp only [Function.update_self, hargs]
  cases hf : Stage.argsC.fails line s.faults with
  | true =>
    rw [if_pos (of_decide_eq_true hf), Stage.answer_of_fails hf]
    exact failWith_checked hs .argsC rfl rfl (by simp [Stage.refused, Stage.object, hargs])
  | false =>
    rw [if_neg (of_decide_eq_false hf), Stage.answer_of_runs hf]
    simp [Stage.run, Stage.object, Stage.kernel, hargs]

/-- The two checks, after `exec` has stored the command. -/
theorem prepareArgs_enacts (hs : Standalone h s) :
    Enacts h line [.args, .argsC] (do
      modifyProc h fun p => { p with spawnProcessArg := line, state_ := .noError }
      prepareArgs h) s := by
  unfold Enacts prepareArgs
  rw [bind_of_ok (modifyProc_apply ..), bind_of_ok (modifyProc_apply ..), bind_of_ok (get_apply _)]
  simp only [Function.update_self, Function.update_idem]
  cases hargs : Stage.args.fails line s.faults with
  | true =>
    rw [prepares_of_fails hargs, if_pos (show (str2arg line).isEmpty = true from hargs)]
    exact failWith_checked hs .args rfl rfl rfl
  | false =>
    have hne : ¬(str2arg line).isEmpty = true := by
      rw [show (str2arg line).isEmpty = false from hargs]
      exact Bool.false_ne_true
    rw [prepares_of_runs hargs, if_neg hne]
    refine Enacts.of_answer (s := Stage.args.run h line s) (argsC_answer ⟨hs.handles, ?_⟩ ?_)
    · exact (Stage.run_type _).trans hs.type
    · simp [Stage.run, Stage.object]

/-- The preparations of a blocking object that is not part of a handle. -/
theorem execPrepare_enacts (hs : Standalone h s) :
    Enacts h line Stage.all (execPrepare h line) s := by
  have hsplit : execPrepare h line = (do
      modifyProc h fun p => { p with spawnProcessArg := line, state_ := .noError }
      prepareArgs h) >>= fun b => if (!b) = true then pure false else (do
        if !(← prepareForkPipes h) then return false
        if ((← get).procs h).type = .blocking then
          if !(← setSigchldSignalHandler h) then return false
        spawnProc h : Prog Bool) := rfl
  rw [hsplit]
  refine Enacts.guard (prepareArgs_enacts hs) fun hnone => ?_
  replace hs := prepares_standalone hs hnone
  refine Enacts.guard
    (prepareForkPipes_enacts hs) fun hnone => ?_
  replace hs := prepares_standalone hs hnone
  refine (bind_of_ok (get_apply _)).trans ?_
  rw [if_pos hs.type]
  refine Enacts.guard (.of_answer (setSigchldSignalHandler_answer hs.handles))
    fun hnone => ?_
  replace hs := prepares_standalone hs hnone
  exact .of_answer (spawnProc_answer hs.handles)

end Pexec
