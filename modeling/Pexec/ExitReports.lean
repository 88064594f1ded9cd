import Pexec.SingleRules

namespace Pexec

open Effect

/-- What a `proc_status` says about the end of the child. -/
def ProcStatus.verdict (p : ProcStatus) : Bool × Bool × Nat × Bool :=
  (p.running, p.exited, p.returnCode, p.signaled)

/-- What is known after one more event: `started` begins with a process that runs and has not been
heard of, and only a `waitpid` for the process that returns the process itself moves it on. -/
def learn (h : Nat) (known : Option ProcStatus) : Event → Option ProcStatus
  | .state owner .started proc =>
    if owner = h then some { pid := proc.pid, running := true } else known
  | .waitpid pid (.reaped child status) =>
    known.map fun p => if pid = p.pid ∧ child = p.pid then p.updateStatus status else p
  | _ => known

def known (h : Nat) (events : List Event) : Option ProcStatus := events.foldl (learn h) none

/-- The states that tell of the end of the process. -/
def State.tellsEnd : State → Bool
  | .signaled | .stopped => true
  | _ => false

/-- The state callback of one event, if it is one, says what is known: whether the process runs,
and in SIGNALED and STOPPED how it has ended. -/
def Agrees (h : Nat) (known : Option ProcStatus) : Event → Prop
  | .state owner st proc => owner = h → st ≠ .started → ∀ p, known = some p →
      proc.running = p.running ∧ (st.tellsEnd = true → proc.verdict = p.verdict)
  | _ => True

/-- Every state callback after `started` reports what `waitpid` has told, and nothing else. -/
def ReportsWaitpid (h : Nat) (events : List Event) : Prop :=
  ∀ before e after, events = before ++ e :: after → Agrees h (known h before) e

/-- The answer is no news, or the process itself. -/
def WaitResult.IsReaped (pid : Int) : WaitResult → Prop
  | .reaped child _ => child = pid
  | .failed e => e = .eintr
  | .unavailable => False

/-- Every `waitpid` that is not interrupted returns the process itself. -/
def AlwaysReaped (events : List Event) : Prop :=
  ∀ pid result, .waitpid pid result ∈ events → result.IsReaped pid

/-- SIGNALED or STOPPED has been told. -/
def TellsEnd (h : Nat) (events : List Event) : Prop :=
  ∃ st proc, st.tellsEnd = true ∧ .state h st proc ∈ events

/-- What an earlier process has left in the `proc_status` does not show beside what is known:
nothing has been left as long as the child is not reaped, and then `update_status` writes every
field but the return code of a child that did not exit. -/
def ProcStatus.Unstained (old p : ProcStatus) : Prop :=
  if p.running then old.exited = false ∧ old.returnCode = 0 ∧ old.signaled = false
  else p.exited = true ∨ old.returnCode = 0

/-- Nothing of the earlier process shows where the end is told. -/
def NoneStained (old : ProcStatus) (h : Nat) (events : List Event) : Prop :=
  TellsEnd h events → ∀ p, known h events = some p → old.Unstained p

/-- Events that neither report a state nor ask for one. -/
def Silent : Event → Prop
  | .state .. | .waitpid .. => False
  | _ => True

variable {h : Nat}

theorem known_snoc (events : List Event) (e : Event) :
    known h (events ++ [e]) = learn h (known h events) e := by
  rw [known, List.foldl_append]
  rfl

theorem reportsWaitpid_nil : ReportsWaitpid h [] := fun before e after he => by simp at he

theorem reportsWaitpid_snoc {events : List Event} {e : Event} :
    ReportsWaitpid h (events ++ [e]) ↔ ReportsWaitpid h events ∧ Agrees h (known h events) e := by
  constructor
  · intro hr
    exact ⟨fun before x after he => hr before x (after ++ [e]) (by rw [he]; simp),
      hr events e [] rfl⟩
  · rintro ⟨hr, he⟩ before x after heq
    rcases List.eq_nil_or_concat after with rfl | ⟨rest, y, rfl⟩
    · obtain ⟨rfl, hx⟩ := List.append_inj' heq rfl
      cases hx
      exact he
    · have heq' : events ++ [e] = (before ++ x :: rest) ++ [y] := by rw [heq]; simp
      exact hr before x rest (List.append_inj' heq' rfl).1

theorem alwaysReaped_nil : AlwaysReaped [] := fun _ _ hm => by cases hm

theorem alwaysReaped_snoc {events : List Event} {e : Event} :
    AlwaysReaped (events ++ [e]) ↔ AlwaysReaped events ∧
      ∀ pid result, e = .waitpid pid result → result.IsReaped pid := by
  constructor
  · intro ha
    exact ⟨fun pid r hm => ha pid r (List.mem_append_left _ hm),
      fun pid r he => ha pid r (List.mem_append_right _ (he ▸ List.mem_singleton_self _))⟩
  · rintro ⟨ha, he⟩ pid r hm
    rcases List.mem_append.mp hm with hm | hm
    · exact ha pid r hm
    · exact he pid r (List.mem_singleton.mp hm).symm

theorem tellsEnd_snoc {events : List Event} {e : Event} :
    TellsEnd h (events ++ [e]) ↔
      TellsEnd h events ∨ ∃ st proc, st.tellsEnd = true ∧ e = .state h st proc := by
  constructor
  · rintro ⟨st, proc, hst, hm⟩
    rcases List.mem_append.mp hm with hm | hm
    · exact .inl ⟨st, proc, hst, hm⟩
    · exact .inr ⟨st, proc, hst, (List.mem_singleton.mp hm).symm⟩
  · rintro (⟨st, proc, hst, hm⟩ | ⟨st, proc, hst, rfl⟩)
    · exact ⟨st, proc, hst, List.mem_append_left _ hm⟩
    · exact ⟨st, proc, hst, List.mem_append_right _ (List.mem_singleton_self _)⟩

theorem silent_learn {e : Event} (he : Silent e) (k : Option ProcStatus) : learn h k e = k := by
  cases e <;> first | rfl | exact he.elim

theorem silent_agrees {e : Event} (he : Silent e) (k : Option ProcStatus) : Agrees h k e := by
  cases e <;> first | exact he.elim | trivial

theorem silent_not_state {e : Event} (he : Silent e) (st : State) (proc : ProcStatus) :
    e ≠ .state h st proc := by
  rintro rfl
  exact he

theorem silent_not_waitpid {e : Event} (he : Silent e) (pid : Int) (r : WaitResult) :
    e ≠ .waitpid pid r := by
  rintro rfl
  exact he

/-- What the events since the start of `exec` say: what is known, whether the callbacks have
followed it, whether `waitpid` has always returned the process, and whether the end was told. -/
structure Account (h : Nat) (events : List Event) (k : Option ProcStatus)
    (honest reaped told : Prop) : Prop where
  known : known h events = k
  honest : ReportsWaitpid h events ↔ honest
  reaped : AlwaysReaped events ↔ reaped
  told : TellsEnd h events ↔ told

section Account

variable {events : List Event} {k : Option ProcStatus} {honest reaped told : Prop}
  (ha : Account h events k honest reaped told)

include ha

theorem Account.silent {e : Event} (he : Silent e) : Account h (events ++ [e]) k honest reaped told where
  known := by rw [known_snoc, silent_learn he, ha.known]
  honest := by rw [reportsWaitpid_snoc, ha.honest, and_iff_left (silent_agrees he _)]
  reaped := by
    rw [alwaysReaped_snoc, ha.reaped, and_iff_left]
    exact fun pid r h => absurd h (silent_not_waitpid he pid r)
  told := by
    rw [tellsEnd_snoc, ha.told, or_iff_left]
    rintro ⟨st, proc, _, h⟩
    exact silent_not_state he st proc h

theorem Account.state {st : State} (hst : st ≠ .started) (proc : ProcStatus) :
    Account h (events ++ [.state h st proc]) k
      (honest ∧ ∀ p, k = some p →
        proc.running = p.running ∧ (st.tellsEnd = true → proc.verdict = p.verdict))
      reaped (told ∨ st.tellsEnd = true) where
  known := by
    rw [known_snoc, ha.known]
    cases st <;> first | rfl | exact absurd rfl hst
  honest := by
    rw [reportsWaitpid_snoc, ha.honest, ha.known]
    simp [Agrees, hst]
  reaped := by
    rw [alwaysReaped_snoc, ha.reaped]
    simp
  told := by
    rw [tellsEnd_snoc, ha.told]
    simp

theorem Account.waitpid (pid : Int) (r : WaitResult) :
    Account h (events ++ [.waitpid pid r]) (learn h k (.waitpid pid r)) honest
      (reaped ∧ r.IsReaped pid) told where
  known := by rw [known_snoc, ha.known]
  honest := by
    rw [reportsWaitpid_snoc, ha.honest]
    simp [Agrees]
  reaped := by
    rw [alwaysReaped_snoc, ha.reaped]
    simp
  told := by
    rw [tellsEnd_snoc, ha.told]
    simp

end Account

/-- The part of an object that the watching of its process is about. -/
def PexecSingle.watch (p : PexecSingle) : ExecType × ProcStatus × Int × WaitStatus × Bool :=
  (p.type, p.proc, p.procPid, p.status, p.procKilled)

/-- The trace has grown by silent events, and the object has kept its watched part. -/
structure Quiet (h : Nat) (s t : Sys) : Prop where
  events : ∃ new, t.trace = s.trace ++ new ∧ ∀ e ∈ new, Silent e
  watch : (t.procs h).watch = (s.procs h).watch
  handles : t.handles h = s.handles h

section Quiet

variable {s t : Sys} (hq : Quiet h s t)

include hq

theorem Quiet.type : (t.procs h).type = (s.procs h).type := (Prod.mk.inj hq.watch).1

theorem Quiet.proc : (t.procs h).proc = (s.procs h).proc :=
  (Prod.mk.inj (Prod.mk.inj hq.watch).2).1

theorem Quiet.pid : (t.procs h).procPid = (s.procs h).procPid :=
  (Prod.mk.inj (Prod.mk.inj (Prod.mk.inj hq.watch).2).2).1

theorem Quiet.status : (t.procs h).status = (s.procs h).status :=
  (Prod.mk.inj (Prod.mk.inj (Prod.mk.inj (Prod.mk.inj hq.watch).2).2).2).1

theorem Quiet.killed : (t.procs h).procKilled = (s.procs h).procKilled :=
  (Prod.mk.inj (Prod.mk.inj (Prod.mk.inj (Prod.mk.inj hq.watch).2).2).2).2

end Quiet

theorem Quiet.of_same {s t : Sys} (ht : t.trace = s.trace)
    (hp : (t.procs h).watch = (s.procs h).watch) (hh : t.handles h = s.handles h) : Quiet h s t :=
  ⟨⟨[], by simp [ht], fun _ he => (by cases he)⟩, hp, hh⟩

/-- A property of a blocking run that silent steps keep. -/
structure Insensitive (h : Nat) (I : Sys → Prop) : Prop where
  quiet : ∀ s t, Quiet h s t → I s → I t
  type : ∀ s, I s → (s.procs h).type = .blocking

section Insensitive

variable {I : Sys → Prop} (hI : Insensitive h I)

include hI

theorem emit_keeps {e : Event} (he : Silent e) : Keeps I (emit e) := by
  intro s hs
  refine hI.quiet s _ ⟨⟨[e], rfl, ?_⟩, rfl, rfl⟩ hs
  intro x hx
  rw [List.mem_singleton.mp hx]
  exact he

theorem call_keeps {α : Type} {f : World → α × World} (hf : ∀ w, (f w).2.trace = w.trace) :
    Keeps I (call f) :=
  fun s hs => hI.quiet s _ (.of_same (hf s.toWorld) rfl rfl) hs

theorem modifyProc_keeps {f : PexecSingle → PexecSingle} (hf : ∀ p, (f p).watch = p.watch) :
    Keeps I (modifyProc h f) := by
  intro s hs
  refine hI.quiet s _ (.of_same rfl ?_ rfl) hs
  simp [hf]

theorem modify_keeps {f : Sys → Sys} (hf : ∀ s, Quiet h s (f s)) :
    Keeps I (modify f : Prog Unit) :=
  fun s hs => hI.quiet s _ (hf s) hs

theorem processError_keeps (e : Error) : Keeps I (processError h e) :=
  (emit_keeps hI (by trivial)).bind fun _ =>
    modifyProc_keeps hI (by intro; rfl)

theorem read_keeps (fd : Int) (count : Nat) : Keeps I (call (World.read · fd count)) := by
  refine call_keeps hI fun w => ?_
  obtain ⟨_, _, h⟩ := w.read_frame fd count
  rw [h]

theorem readRetry_keeps (fd : Int) (count : Nat) : Keeps I (readRetry fd count) := by
  refine call_keeps hI fun w => ?_
  obtain ⟨_, _, h⟩ := World.readRetry_frame fd count w.readFaults w
  rw [h]

theorem onWorld_write_keeps (fd : Int) (data : List UInt8) :
    Keeps I (onWorld (World.write · fd data)) := by
  refine modify_keeps hI fun s => .of_same ?_ rfl rfl
  obtain ⟨_, h⟩ := s.toWorld.write_frame fd data
  simp only [h]

theorem closePipe_keeps (p : PipeFds) : Keeps I (onWorld (World.closePipe · p)) := by
  refine modify_keeps hI fun s => .of_same ?_ rfl rfl
  obtain ⟨_, h⟩ := s.toWorld.closePipe_frame p
  simp only [h]

theorem closeForkPipes_keeps : Keeps I (closeForkPipes h) := by
  refine modify_keeps hI fun s => .of_same ?_ ?_ rfl
  · obtain ⟨_, _, h⟩ := s.toWorld.closeForkPipes_frame (s.procs h)
    simp only [h]
  · simp only [Function.update_self]
    rfl

/-- A reader of a blocking object never gets to the callbacks of `fail_stopped`. -/
theorem ifNonblocking_keeps {α : Type} {x y : Prog α} (hy : Keeps I y) :
    Keeps I (do if ((← get).procs h).type = .nonblocking then x else y) := by
  refine Triple.get_bind fun s hs => ?_
  rw [if_neg (by rw [hI.type s hs]; decide)]
  exact fun t ht => hy t (ht ▸ hs)

theorem readStd_keeps (fd : Int) {cb : List UInt8 → Event} (hcb : ∀ data, Silent (cb data))
    (e : Error) : Keeps I (readStd fd h cb e) := by
  refine (readRetry_keeps hI fd _).bind fun answer => ?_
  split
  next => exact (processError_keeps hI e).bind fun _ => ifNonblocking_keeps hI (Triple.pure fun _ h => h)
  next => exact Triple.pure fun _ h => h
  next => exact (emit_keeps hI (hcb _)).bind fun _ => Triple.pure fun _ h => h

theorem readStdout_keeps : Keeps I (readStdout h) :=
  Triple.get_bind fun s hs t ht => readStd_keeps hI _ (fun _ => by trivial) _ t (ht ▸ hs)

theorem readStderr_keeps : Keeps I (readStderr h) :=
  Triple.get_bind fun s hs t ht => readStd_keeps hI _ (fun _ => by trivial) _ t (ht ▸ hs)

theorem readClose_keeps : Keeps I (readClose h) := by
  refine Triple.get_bind fun s hs => ?_
  refine Triple.bind (Q := fun _ => I) (fun t ht => readRetry_keeps hI _ _ t (ht ▸ hs)) fun answer => ?_
  split
  next => exact (processError_keeps hI _).bind fun _ => ifNonblocking_keeps hI (Triple.pure fun _ h => h)
  next => exact ifNonblocking_keeps hI (Triple.pure fun _ h => h)

theorem readStdRest_keeps (fd : Int) {cb : List UInt8 → Event} (hcb : ∀ data, Silent (cb data))
    (e : Error) (fuel : Nat) : Keeps I (readStdRest fd h cb e fuel) := by
  induction fuel with
  | zero => exact Triple.throw fun _ h => h
  | succ fuel ih =>
    refine (read_keeps hI fd _).bind fun answer => ?_
    split
    next =>
      split
      next => exact processError_keeps hI e
      next => exact Triple.pure fun _ h => h
    next => exact ih
    next => exact emit_keeps hI (hcb _)

theorem loopRestIo_keeps : Keeps I (loopRestIo h) := by
  refine Triple.get_bind fun s hs => ?_
  refine Triple.bind (Q := fun _ => I)
    (fun t ht => readStdRest_keeps hI _ (fun _ => by trivial) _ _ t (ht ▸ hs)) fun _ => ?_
  exact Triple.get_bind fun s hs t ht => readStdRest_keeps hI _ (fun _ => by trivial) _ _ t (ht ▸ hs)

theorem handleProcReturnCode_keeps : Keeps I (handleProcReturnCode h) := by
  refine Triple.get_bind fun s hs => ?_
  split
  next => exact fun t ht => processError_keeps hI _ t (ht ▸ hs)
  next => exact Triple.pure fun t ht => ht ▸ hs

theorem sigprocmask_keeps (block : Bool) : Keeps I (call (World.sigprocmask · block)) := by
  refine call_keeps hI fun w => ?_
  obtain ⟨_, _, h⟩ := w.sigprocmask_frame block
  rw [h]

theorem blockSigchld_keeps : Keeps I (blockSigchld h) := by
  refine (sigprocmask_keeps hI true).bind fun b => Triple.ite (fun _ => ?_) fun _ => ?_
  · exact processError_keeps hI _
  · exact Triple.pure fun _ h => h

theorem unblockSigchld_keeps : Keeps I (unblockSigchld h) := by
  refine (sigprocmask_keeps hI false).bind fun b => Triple.ite (fun _ => ?_) fun _ => ?_
  · exact processError_keeps hI _
  · exact Triple.pure fun _ h => h

theorem resetSigchldSignalHandler_keeps : Keeps I (resetSigchldSignalHandler h) := by
  refine Triple.get_bind fun s hs => ?_
  refine Triple.bind (Q := fun _ => I) (fun t ht => call_keeps hI (fun w => ?_) t (ht ▸ hs))
    fun answer => ?_
  · obtain ⟨_, _, h⟩ := w.sigaction_frame (s.procs h).saPrev
    rw [h]
  split
  next => exact Triple.pure fun _ h => h
  next => exact (processError_keeps hI _).bind fun _ => Triple.pure fun _ h => h

theorem nextOrder_keeps : Keeps I nextOrder := call_keeps hI fun _ => rfl

theorem ioAdd_keeps (fd : Int) (cb : IoSource) : Keeps I (ioAdd fd cb) := by
  refine (nextOrder_keeps hI).bind fun order => Triple.get_bind fun s hs => ?_
  split
  next e => exact Triple.modify fun t ht => hI.quiet t _ (.of_same rfl rfl rfl) (ht ▸ hs)
  next => exact Triple.throw fun t ht => ht ▸ hs

theorem pipe2_keeps (cloexec : Bool) : Keeps I (call (World.pipe2 · cloexec)) := by
  refine call_keeps hI fun w => ?_
  obtain ⟨_, _, _, h⟩ := w.pipe2_frame cloexec
  rw [h]

theorem newSelectEvent_keeps {κ : Type} (cb : κ) : Keeps I (newSelectEvent cb) := by
  refine (pipe2_keeps hI true).bind fun answer => ?_
  split
  next => exact Triple.throw fun _ h => h
  next => exact (nextOrder_keeps hI).bind fun _ => Triple.pure fun _ h => h

/-- The registrations of `loop_io`, once the flags of the object are reset. -/
theorem ioAdds_keeps : Keeps I (do
    let e ← newSelectEvent IoSource.interrupt
    modify fun s => { s with ioLoop := e }
    let s ← get
    ioAdd (s.procs h).pipeCloseWatch.rd .closeWatch
    ioAdd (s.procs h).pipeStdout.rd .stdout
    ioAdd (s.procs h).pipeStderr.rd .stderr
    ioAdd s.blockingPipe.rd .sigchld) := by
  refine (newSelectEvent_keeps hI _).bind fun e => ?_
  refine Keeps.bind (modify_keeps hI fun s => ?_) fun _ => ?_
  · exact .of_same rfl rfl rfl
  refine Triple.get_bind fun s hs => ?_
  suffices hk : ∀ a b c d, Keeps I (do
      ioAdd a .closeWatch
      ioAdd b .stdout
      ioAdd c .stderr
      ioAdd d .sigchld) from fun t ht => hk _ _ _ _ t (ht ▸ hs)
  exact fun a b c d => (ioAdd_keeps hI _ _).bind fun _ => (ioAdd_keeps hI _ _).bind fun _ =>
    (ioAdd_keeps hI _ _).bind fun _ => ioAdd_keeps hI _ _

theorem ioDestroy_keeps : Keeps I ioDestroy := by
  refine Triple.get_bind fun s hs => ?_
  refine Triple.bind (Q := fun _ => I) (fun t ht => closePipe_keeps hI _ t (ht ▸ hs)) fun _ => ?_
  exact modify_keeps hI fun s => .of_same rfl rfl rfl

theorem ioReadSignal_keeps (fuel want : Nat) (got : List UInt8) :
    Keeps I (ioReadSignal h fuel want got) := by
  induction fuel generalizing want got with
  | zero => exact Triple.throw fun _ h => h
  | succ fuel ih =>
    refine Triple.get_bind fun s hs => ?_
    refine Triple.bind (Q := fun _ => I) (fun t ht => read_keeps hI _ _ t (ht ▸ hs)) fun answer => ?_
    split
    next => exact (processError_keeps hI _).bind fun _ => Triple.pure fun _ h => h
    next => exact Triple.ite (fun _ => Triple.pure fun _ h => h) fun _ => ih _ _

theorem envAct_keeps (act : EnvAct) (s : Sys) (hs : I s) : I (act.apply s) := by
  obtain ⟨fds, pipes, children, h⟩ := act.frame s
  rw [h]
  exact hI.quiet s _ (.of_same rfl rfl rfl) hs

end Insensitive

/-- A blocking run whose new events, after `base`, have the account. -/
structure Watched (base : List Event) (h : Nat) (k : Option ProcStatus)
    (honest reaped told : Prop) (s : Sys) : Prop where
  trace : ∃ events, s.trace = base ++ events ∧ Account h events k honest reaped told
  type : (s.procs h).type = .blocking
  alone : s.handles h = none

variable {base : List Event} {old : ProcStatus} {k : Option ProcStatus} {honest reaped told : Prop}

theorem Account.silent_append {events new : List Event} (ha : Account h events k honest reaped told)
    (hnew : ∀ e ∈ new, Silent e) : Account h (events ++ new) k honest reaped told := by
  induction new generalizing events with
  | nil => simpa using ha
  | cons e new ih =>
    have := ih (ha.silent (hnew e List.mem_cons_self)) fun x hx => hnew x (List.mem_cons_of_mem _ hx)
    simpa using this

theorem Watched.quiet {s t : Sys} (hs : Watched base h k honest reaped told s) (hq : Quiet h s t) :
    Watched base h k honest reaped told t := by
  obtain ⟨events, htrace, hacc⟩ := hs.trace
  obtain ⟨new, hnew, hsilent⟩ := hq.events
  refine ⟨⟨events ++ new, ?_, hacc.silent_append hsilent⟩, hq.type.trans hs.type, hq.handles.trans hs.alone⟩
  rw [hnew, htrace, List.append_assoc]

/-- The `proc_` of a process that runs and has not been waited for: the rest is what an earlier one
has left. -/
structure Running (old : ProcStatus) (p : PexecSingle) : Prop where
  pid : p.proc.pid = p.procPid
  pos : 0 < p.procPid
  verdict : p.proc.verdict = (true, old.exited, old.returnCode, old.signaled)

/-- The process has been started and every answer of `waitpid` so far was an interruption. -/
structure Live (base : List Event) (old : ProcStatus) (h : Nat) (s : Sys) : Prop where
  watched : Watched base h (some { pid := (s.procs h).procPid, running := true }) True True False s
  running : Running old (s.procs h)

/-- The callbacks have followed `waitpid` so far exactly if it has always returned the process and
nothing of an earlier one has shown, and so will the callbacks that are still to come. -/
def Settled (base : List Event) (old : ProcStatus) (h : Nat) (s : Sys) : Prop :=
  ∃ p honest reaped told, Watched base h (some p) honest reaped told s ∧
    (honest ↔ reaped ∧ (told → old.Unstained p)) ∧
    (reaped → (s.procs h).proc.running = p.running ∧
      ((s.procs h).proc.verdict = p.verdict ↔ old.Unstained p))

theorem Running.unstained {p : PexecSingle} (hr : Running old p) (pid : Int) :
    p.proc.verdict = ({ pid, running := true } : ProcStatus).verdict ↔
      old.Unstained { pid, running := true } := by
  rw [hr.verdict]
  simp [ProcStatus.verdict, ProcStatus.Unstained]

theorem Live.settled {s : Sys} (hs : Live base old h s) : Settled base old h s :=
  ⟨_, _, _, _, hs.watched, iff_of_true trivial ⟨trivial, False.elim⟩, fun _ =>
    ⟨congrArg Prod.fst hs.running.verdict, hs.running.unstained _⟩⟩

theorem Running.quiet {s t : Sys} (hr : Running old (s.procs h)) (hq : Quiet h s t) :
    Running old (t.procs h) where
  pid := by rw [hq.proc, hq.pid]; exact hr.pid
  pos := by rw [hq.pid]; exact hr.pos
  verdict := by rw [hq.proc]; exact hr.verdict

theorem live_insensitive : Insensitive h (Live base old h) where
  quiet s t hq hs := by
    refine ⟨?_, hs.running.quiet hq⟩
    rw [hq.pid]
    exact hs.watched.quiet hq
  type s hs := hs.watched.type

theorem settled_insensitive : Insensitive h (Settled base old h) where
  quiet s t hq hs := by
    obtain ⟨p, honest, reaped, told, hw, hiff, hnext⟩ := hs
    exact ⟨p, honest, reaped, told, hw.quiet hq, hiff, by rw [hq.proc]; exact hnext⟩
  type s hs := by
    obtain ⟨_, _, _, _, hw, _⟩ := hs
    exact hw.type

/-- The status that `handle_sigchld` passes on. -/
def WaitResult.status : WaitResult → WaitStatus
  | .reaped _ status => status
  | _ => 0

/-- `handle_sigchld` has had its last answer and is about to pass the status on. -/
structure Answered (base : List Event) (old : ProcStatus) (h : Nat) (result : WaitResult)
    (s : Sys) : Prop where
  watched : Watched base h (learn h (some { pid := (s.procs h).procPid, running := true })
    (.waitpid (s.procs h).procPid result)) True (result.IsReaped (s.procs h).procPid) False s
  running : Running old (s.procs h)
  status : (s.procs h).status = result.status
  last : result ≠ .failed .eintr
  terminated : ∀ child status, result = .reaped child status →
    child = (s.procs h).procPid ∧ Terminated status

theorem answered_insensitive (result : WaitResult) : Insensitive h (Answered base old h result) where
  quiet s t hq hs := by
    refine ⟨?_, hs.running.quiet hq, ?_, hs.last, ?_⟩
    · rw [hq.pid]; exact hs.watched.quiet hq
    · rw [hq.status]; exact hs.status
    · rw [hq.pid]; exact hs.terminated
  type s hs := hs.watched.type

theorem Watched.congr {s : Sys} {honest' reaped' told' : Prop}
    (hs : Watched base h k honest reaped told s) (hh : honest ↔ honest') (hr : reaped ↔ reaped')
    (ht : told ↔ told') : Watched base h k honest' reaped' told' s := by
  obtain ⟨events, htrace, hacc⟩ := hs.trace
  exact ⟨⟨events, htrace, hacc.known, hacc.honest.trans hh, hacc.reaped.trans hr, hacc.told.trans ht⟩,
    hs.type, hs.alone⟩

/-- The state of the object after a `waitpid` and its event. -/
theorem Live.waitpid {s : Sys} (hs : Live base old h s) {result : WaitResult} {w : World}
    (hw : w.trace = s.trace ++ [.waitpid (s.procs h).procPid result]) (q : PexecSingle)
    (htype : q.type = (s.procs h).type) :
    Watched base h (learn h (some { pid := (s.procs h).procPid, running := true })
      (.waitpid (s.procs h).procPid result)) True (result.IsReaped (s.procs h).procPid) False
      { s with toWorld := w, procs := Function.update s.procs h q } := by
  obtain ⟨events, htrace, hacc⟩ := hs.watched.trace
  rw [← true_and (result.IsReaped (s.procs h).procPid)]
  refine ⟨⟨events ++ [_], ?_, hacc.waitpid _ result⟩, ?_, hs.watched.alone⟩
  · rw [← List.append_assoc, ← htrace]
    exact hw
  · simpa [htype] using hs.watched.type

theorem Live.answered {s : Sys} (hs : Live base old h s) {result : WaitResult} {w : World}
    (hw : w.trace = s.trace ++ [.waitpid (s.procs h).procPid result]) {q : PexecSingle}
    (hq : q = { s.procs h with status := result.status }) (hlast : result ≠ .failed .eintr)
    (hterm : ∀ child status, result = .reaped child status →
      child = (s.procs h).procPid ∧ Terminated status) :
    Answered base old h result { s with toWorld := w, procs := Function.update s.procs h q } := by
  subst hq
  refine ⟨?_, ?_, ?_, hlast, ?_⟩ <;> simp only [Function.update_self]
  · exact hs.waitpid hw { s.procs h with status := result.status } rfl
  · exact ⟨hs.running.pid, hs.running.pos, hs.running.verdict⟩
  · exact hterm

/-- A child that `waitpid` reports for a positive pid has that pid, and has terminated. -/
theorem World.WaitAnswer.own {w w' : World} {pid child : Int} {status : WaitStatus}
    (hpos : 0 < pid) (h : WaitAnswer w pid (.reaped child status) w') :
    child = pid ∧ Terminated status := by
  cases h with
  | @reaped _ _ status hmem =>
    obtain ⟨_, _, _, hsel⟩ := World.mem_zombies.mp hmem
    have := (List.mem_filter.mp hsel).2
    rw [if_pos hpos] at this
    exact ⟨by simpa using this, status.2⟩

/-- One `waitpid`: interrupted, or the last one. -/
theorem waitpidOnce_live {F : List (Option Errno)} :
    Triple (fun s => Live base old h s ∧ s.faults = F) (waitpidOnce h)
      (fun result t => (result = .failed .eintr → Live base old h t ∧ t.faults = F.tail ∧ F ≠ []) ∧
        (result ≠ .failed .eintr → Answered base old h result t))
      (fun _ _ => False) := by
  rintro s ⟨hs, hf⟩
  unfold waitpidOnce
  rw [bind_of_ok (modifyProc_apply ..), bind_of_ok (get_apply _), bind_of_ok (call_apply ..),
    bind_of_ok (emit_apply ..)]
  simp only [Function.update_self]
  have hans := s.toWorld.waitpid_answer (s.procs h).procPid
  revert hans
  generalize (s.toWorld.waitpid (s.procs h).procPid).2 = w
  generalize (s.toWorld.waitpid (s.procs h).procPid).1 = result
  intro hans
  obtain ⟨faults, children, hframe⟩ := hans.frame
  have hw : (w.emit (.waitpid (s.procs h).procPid result)).trace =
      s.trace ++ [.waitpid (s.procs h).procPid result] := by
    rw [hframe]
    rfl
  have hterm := fun child status (he : result = .reaped child status) =>
    (he ▸ hans).own hs.running.pos
  by_cases heintr : result = .failed .eintr
  · subst heintr
    cases hans with
    | failed fault =>
      have hlive : Live base old h { s with
          toWorld := World.emit { s.toWorld with faults := s.faults.tail }
            (.waitpid (s.procs h).procPid (.failed .eintr))
          procs := Function.update s.procs h { s.procs h with status := 0 } } := by
        refine ⟨?_, ?_⟩ <;> simp only [Function.update_self]
        · exact (hs.waitpid hw { s.procs h with status := 0 } rfl).congr Iff.rfl
            (iff_of_true rfl trivial) Iff.rfl
        · exact ⟨hs.running.pid, hs.running.pos, hs.running.verdict⟩
      refine ⟨fun _ => ⟨processError_keeps live_insensitive .waitpidError _ hlive, ?_, ?_⟩,
        fun hne => absurd rfl hne⟩
      · exact congrArg List.tail hf
      · rintro rfl
        rw [hf] at fault
        cases fault
  · have hanswered : ∀ q : PexecSingle, q = { s.procs h with status := result.status } →
        Answered base old h result { s with
          toWorld := w.emit (.waitpid (s.procs h).procPid result)
          procs := Function.update s.procs h q } :=
      fun q hq => hs.answered hw hq heintr hterm
    cases result with
    | reaped child status =>
      refine ⟨fun he => absurd he heintr, fun _ => ?_⟩
      simp only [Function.update_self, Function.update_idem]
      exact hanswered _ rfl
    | unavailable =>
      exact ⟨fun he => absurd he heintr, fun _ =>
        processError_keeps (answered_insensitive _) .waitpidError _ (hanswered _ rfl)⟩
    | failed e =>
      exact ⟨fun he => absurd he heintr, fun _ =>
        processError_keeps (answered_insensitive _) .waitpidError _ (hanswered _ rfl)⟩

theorem waitpidRetry_live {F : List (Option Errno)} :
    Triple (fun s => Live base old h s ∧ s.faults = F) (waitpidRetry h F)
      (fun _ t => ∃ result, Answered base old h result t) (fun _ _ => False) := by
  induction F with
  | nil =>
    refine waitpidOnce_live.bind fun result => Triple.pure fun t ht => ⟨result, ht.2 ?_⟩
    exact fun he => (ht.1 he).2.2 rfl
  | cons fault F ih =>
    refine waitpidOnce_live.bind fun result => Triple.ite (fun he => ?_) fun he => ?_
    · exact fun t ht => ih t ⟨(ht.1 he).1, (ht.1 he).2.1⟩
    · exact Triple.pure fun t ht => ⟨result, ht.2 he⟩

/-- The object of a blocking run has no handle, so a state callback is all that `call_state` does. -/
theorem callState_apply (s : Sys) (h : Nat) (st : State) (halone : s.handles h = none) :
    callState h st s = .ok () { s with toWorld := s.toWorld.announced h st (s.procs h) } := by
  simp only [callState, bind_apply, get_apply, announce_apply, halone, pure_apply]

theorem Watched.state {s : Sys} (hs : Watched base h k honest reaped told s) {st : State}
    (hst : st ≠ .started) (q : PexecSingle) :
    Watched base h k (honest ∧ ∀ p, k = some p →
        q.proc.running = p.running ∧ (st.tellsEnd = true → q.proc.verdict = p.verdict))
      reaped (told ∨ st.tellsEnd = true) { s with toWorld := s.toWorld.announced h st q } := by
  obtain ⟨events, htrace, hacc⟩ := hs.trace
  have hhanded := hacc.silent (e := .handed h (q.offers s.fds q.proc.stdinFd)
    (q.offers s.fds q.proc.userStopFd)) trivial
  refine ⟨⟨_, ?_, hhanded.state hst q.proc⟩, hs.type, hs.alone⟩
  rw [← List.append_assoc, ← List.append_assoc, ← htrace]
  rfl

/-- A callback with the state that is settled keeps it settled. -/
theorem callState_settled {st : State} (hst : st ≠ .started) :
    Keeps (Settled base old h) (callState h st) := by
  rintro s ⟨p, honest, reaped, told, hw, hiff, hnext⟩
  rw [callState_apply s h st hw.alone]
  refine ⟨p, _, _, _, hw.state hst _, ?_, hnext⟩
  constructor
  · rintro ⟨hh, hq⟩
    obtain ⟨hr, ht⟩ := hiff.mp hh
    exact ⟨hr, fun htold => htold.elim ht fun hst' => (hnext hr).2.mp ((hq p rfl).2 hst')⟩
  · rintro ⟨hr, ht⟩
    refine ⟨hiff.mpr ⟨hr, fun h => ht (.inl h)⟩, fun q hq => ?_⟩
    cases hq
    exact ⟨(hnext hr).1, fun hst' => (hnext hr).2.mpr (ht (.inr hst'))⟩

theorem Settled.congr {s t : Sys} (hs : Settled base old h s) (ht : t.trace = s.trace)
    (htype : (t.procs h).type = (s.procs h).type)
    (hproc : (t.procs h).proc.verdict = (s.procs h).proc.verdict)
    (hh : t.handles h = s.handles h) : Settled base old h t := by
  obtain ⟨p, honest, reaped, told, ⟨⟨events, htrace, hacc⟩, hty, halone⟩, hiff, hnext⟩ := hs
  refine ⟨p, honest, reaped, told,
    ⟨⟨events, ht.trans htrace, hacc⟩, htype.trans hty, hh.trans halone⟩, hiff, fun hr => ?_⟩
  rw [hproc]
  exact ⟨(congrArg Prod.fst hproc).trans (hnext hr).1, (hnext hr).2⟩

/-- The last answer is the process itself, or it is no news about it at all. -/
theorem Answered.cases {result : WaitResult} {s : Sys} (hs : Answered base old h result s) :
    (∃ status, result = .reaped (s.procs h).procPid status ∧ Terminated status) ∨
      ¬result.IsReaped (s.procs h).procPid ∧ result.status = 0 ∧
        ∀ k, learn h k (.waitpid (s.procs h).procPid result) = k := by
  cases hr : result with
  | reaped child status =>
    obtain ⟨rfl, hterm⟩ := hs.terminated child status hr
    exact .inl ⟨status, rfl, hterm⟩
  | unavailable => exact .inr ⟨id, rfl, fun _ => rfl⟩
  | failed e =>
    refine .inr ⟨fun he => hs.last ?_, rfl, fun _ => rfl⟩
    rw [hr, show e = .eintr from he]

/-- The zero status of an answer that is no news decodes as a death too. -/
theorem Answered.dead {result : WaitResult} {s : Sys} (hs : Answered base old h result s) :
    ((s.procs h).proc.updateStatus result.status).running = false := by
  rw [updateStatus_running_iff]
  rcases hs.cases with ⟨status, rfl, hterm⟩ | ⟨_, hzero, _⟩
  · exact hterm
  · rw [hzero]
    decide

/-- The status of a child that has terminated tells all there is to tell, but for the return code
of one that did not exit. -/
theorem Running.dead {p : PexecSingle} {status : WaitStatus} (hr : Running old p) (pid : Int)
    (hterm : Terminated status) :
    (p.proc.updateStatus status).verdict =
        (({ pid, running := true } : ProcStatus).updateStatus status).verdict ↔
      old.Unstained (({ pid, running := true } : ProcStatus).updateStatus status) := by
  have hcode : p.proc.returnCode = old.returnCode := congrArg (·.2.2.1) hr.verdict
  have hdead := (updateStatus_running_iff { pid, running := true } status).mpr hterm
  unfold ProcStatus.Unstained
  rw [hdead]
  simp only [ProcStatus.verdict, ProcStatus.updateStatus, Prod.mk.injEq, true_and, and_true, hcode,
    Bool.false_eq_true, if_false]
  cases wifexited status <;> simp

/-- The callback that follows the last answer is honest exactly if the process was returned and
nothing of an earlier one shows. -/
theorem Answered.settled {result : WaitResult} {s : Sys} (hs : Answered base old h result s)
    {q : PexecSingle} (htype : q.type = (s.procs h).type)
    (hproc : q.proc = (s.procs h).proc.updateStatus result.status) :
    Settled base old h { s with
      toWorld := s.toWorld.announced h .signaled q
      procs := Function.update s.procs h q } := by
  have hstate := hs.watched.state (by decide : State.signaled ≠ .started) q
  have htype' : (Function.update s.procs h q h).type = .blocking := by
    simpa [htype] using hs.watched.type
  have hdead : q.proc.running = false := hproc ▸ hs.dead
  rcases hs.cases with ⟨status, rfl, hterm⟩ | ⟨hnot, hzero, hlearn⟩
  · -- The process itself: what is left of an earlier one decides.
    have hlearn : learn h (some { pid := (s.procs h).procPid, running := true })
        (.waitpid (s.procs h).procPid (.reaped (s.procs h).procPid status)) =
        some (({ pid := (s.procs h).procPid, running := true } : ProcStatus).updateStatus status) := by
      simp only [learn, Option.map_some, and_self, if_true]
    rw [hlearn] at hstate
    have hknown := (updateStatus_running_iff
      { pid := (s.procs h).procPid, running := true } status).mpr hterm
    have hverdict := hs.running.dead (s.procs h).procPid hterm
    rw [show (s.procs h).proc.updateStatus status = q.proc from hproc.symm] at hverdict
    refine ⟨_, _, _, _, ⟨hstate.trace, htype', hstate.alone⟩, ?_, fun _ => ?_⟩
    · constructor
      · rintro ⟨_, hq⟩
        exact ⟨rfl, fun _ => hverdict.mp ((hq _ rfl).2 rfl)⟩
      · rintro ⟨_, hq⟩
        refine ⟨trivial, fun p hp => ?_⟩
        cases hp
        exact ⟨hdead.trans hknown.symm, fun _ => hverdict.mpr (hq (.inr rfl))⟩
    · simp only [Function.update_self]
      exact ⟨hdead.trans hknown.symm, hverdict⟩
  · -- No news: a process that is known to run is reported dead.
    rw [hlearn] at hstate
    refine ⟨_, _, _, _, ⟨hstate.trace, htype', hstate.alone⟩, iff_of_false ?_ fun hr => hnot hr.1,
      fun hr => absurd hr hnot⟩
    rintro ⟨_, hq⟩
    exact Bool.false_ne_true (hdead.symm.trans (hq _ rfl).1)

/-- The account is settled and the loop is about to end. -/
def Killed (base : List Event) (old : ProcStatus) (h : Nat) (s : Sys) : Prop :=
  Settled base old h s ∧ (s.procs h).procKilled = true

theorem killed_insensitive : Insensitive h (Killed base old h) where
  quiet s t hq hs := ⟨settled_insensitive.quiet s t hq hs.1, hq.killed.trans hs.2⟩
  type s hs := settled_insensitive.type s hs.1

/-- Passing on the last answer settles the account and ends the watching. -/
theorem updateStatus_answered {result : WaitResult} :
    Triple (Answered base old h result) (updateStatus h result.status)
      (fun _ => Killed base old h) (fun _ => Killed base old h) := by
  intro s hs
  have halone : s.handles h = none := hs.watched.alone
  have hsettled := hs.settled (q := { s.procs h with
    status := result.status, proc := (s.procs h).proc.updateStatus result.status }) rfl rfl
  have hdead := hs.dead
  unfold updateStatus
  rw [bind_of_ok (modifyProc_apply ..), bind_of_ok (callState_apply _ h _ ?_),
    bind_of_ok (get_apply _)]
  swap
  · exact halone
  simp only [Function.update_self, hdead, Bool.not_false, if_true]
  rw [bind_of_ok (modifyProc_apply ..)]
  refine Triple.bind (P := Killed base old h) (handleProcReturnCode_keeps killed_insensitive)
    (fun _ => ?_) _ ⟨hsettled.congr rfl ?_ ?_ rfl, ?_⟩
  · refine Triple.get_bind fun t ht => ?_
    rw [if_neg (by rw [killed_insensitive.type t ht]; decide)]
    exact Triple.pure fun u hu => hu ▸ ht
  · simp
  · simp [ProcStatus.verdict]
  · simp

theorem unblockSigchld_total (s : Sys) : ∃ t, unblockSigchld h s = .ok () t := by
  unfold unblockSigchld
  rw [bind_of_ok (call_apply ..)]
  split
  · exact ⟨_, rfl⟩
  · exact ⟨_, rfl⟩

/-- One SIGCHLD, whatever has caused it. -/
theorem singleHandleSigchld_live :
    Triple (Live base old h) (singleHandleSigchld h) (fun _ => Killed base old h)
      (fun _ => Settled base old h) := by
  unfold singleHandleSigchld
  refine Triple.bind ((blockSigchld_keeps live_insensitive).conseq (fun _ h => h) (fun _ _ h => h)
    fun _ _ h => h.settled) fun _ => ?_
  refine Triple.get_bind fun s hs => ?_
  refine Triple.bind (Q := fun _ t => ∃ result, Answered base old h result t)
    (fun t ht => ?_) fun _ => ?_
  · refine waitpidRetry_live.conseq (fun _ h => h) (fun _ _ h => h) (fun _ _ h => h.elim) t ?_
    subst ht
    exact ⟨hs, rfl⟩
  rintro t ⟨result, ht⟩
  obtain ⟨u, hu⟩ := unblockSigchld_total (h := h) t
  have hans := (unblockSigchld_keeps (answered_insensitive result)).ok ht hu
  rw [bind_of_ok hu, bind_of_ok (get_apply _), hans.status]
  exact updateStatus_answered.conseq (fun _ h => h) (fun _ _ h => h) (fun _ _ h => h.1) u hans

theorem loopControl_keeps {I : Sys → Prop} (hI : Insensitive h I) {onInterrupt : Prog EventReturn}
    (hint : Keeps I onInterrupt) (fd : Int) : Keeps I (loopControl onInterrupt fd) := by
  refine (readRetry_keeps hI fd 1).bind fun answer => ?_
  split
  · exact Triple.throw fun _ h => h
  · exact hint

/-- A callback that only keeps silent keeps the run live. -/
theorem Keeps.live {ret : Prog EventReturn} (hk : Keeps (Live base old h) ret) :
    Triple (Live base old h) ret (fun ret t => (ret = .stopLoop → Settled base old h t) ∧
      (ret ≠ .stopLoop → Live base old h t)) (fun _ => Settled base old h) :=
  Triple.conseq hk (fun _ h => h) (fun _ _ h => ⟨fun _ => h.settled, fun _ => h⟩)
    (fun _ _ h => h.settled)

theorem ioSigchld_live :
    Triple (Live base old h) (ioSigchld h) (fun ret t => (ret = .stopLoop → Settled base old h t) ∧
      (ret ≠ .stopLoop → Live base old h t)) (fun _ => Settled base old h) := by
  refine Triple.bind (Triple.conseq (ioReadSignal_keeps live_insensitive 4 4 []) (fun _ h => h)
    (fun _ _ h => h) (fun _ _ h => h.settled)) fun answer => ?_
  cases answer with
  | none => exact Triple.pure fun t ht => ⟨fun _ => ht.settled, fun hne => absurd rfl hne⟩
  | some signal =>
    refine Triple.ite (fun _ => ?_) fun _ => ?_
    · refine singleHandleSigchld_live.bind fun _ => Triple.get_bind fun s hs => ?_
      rw [if_pos hs.2]
      exact Triple.pure fun t ht => ⟨fun _ => ht ▸ hs.1, fun hne => absurd rfl hne⟩
    · refine Triple.get_bind fun s hs => Triple.pure fun t ht => ?_
      exact ⟨fun _ => ht ▸ hs.settled, fun _ => ht ▸ hs⟩

theorem ioCallback_live (cb : IoSource) (fd : Int) :
    Triple (Live base old h) (ioCallback h cb fd) (fun ret t => (ret = .stopLoop → Settled base old h t) ∧
      (ret ≠ .stopLoop → Live base old h t)) (fun _ => Settled base old h) := by
  have hI : Insensitive h (Live base old h) := live_insensitive
  cases cb with
  | interrupt =>
    refine Keeps.live (loopControl_keeps hI ?_ fd)
    exact (modifyProc_keeps hI (by intro; rfl)).bind fun _ => Triple.pure fun _ h => h
  | closeWatch =>
    refine Keeps.live ((readClose_keeps hI).bind fun ret => Triple.ite (fun _ => ?_) fun _ => ?_)
    · exact Triple.get_bind fun s hs => Triple.bind (Q := fun _ => Live base old h)
        (fun t ht => onWorld_write_keeps hI _ _ t (ht ▸ hs)) fun _ => Triple.pure fun _ h => h
    · exact Triple.pure fun _ h => h
  | stdout => exact Keeps.live (readStdout_keeps hI)
  | stderr => exact Keeps.live (readStderr_keeps hI)
  | sigchld => exact ioSigchld_live

/-- Before the fork there is nothing to report and nothing to wait for. -/
structure Before (base : List Event) (old : ProcStatus) (h : Nat) (s : Sys) : Prop where
  watched : Watched base h none True True False s
  proc : (s.procs h).proc = old

theorem before_insensitive : Insensitive h (Before base old h) :=
  ⟨fun _ _ hq hs => ⟨hs.watched.quiet hq, hq.proc.trans hs.proc⟩, fun _ hs => hs.watched.type⟩

theorem failStopped_before : Keeps (Before base old h) (failStopped h) := by
  refine Keeps.bind (closeForkPipes_keeps before_insensitive) fun _ s hs => ?_
  rw [callState_apply s h .failStopped hs.watched.alone]
  refine ⟨(hs.watched.state (by decide) _).congr (iff_of_true ⟨trivial, ?_⟩ trivial) Iff.rfl ?_, hs.proc⟩
  · exact fun p hp => (by cases hp)
  · simp [State.tellsEnd]

theorem failWith_false (e : Error) :
    Triple (Before base old h) (do processError h e; failStopped h; return false)
      (fun b t => Before base old h t ∧ b = false) (fun _ => Before base old h) :=
  Triple.bind (processError_keeps before_insensitive e) fun _ =>
    Triple.bind failStopped_before fun _ => Triple.pure fun _ h => ⟨h, rfl⟩

theorem failWith_before (e : Error) :
    Keeps (Before base old h) (do processError h e; failStopped h; return false) :=
  (failWith_false e).conseq (fun _ h => h) (fun _ _ h => h.1) (fun _ _ h => h)

theorem preparePipe_before {cloexec : Bool} {store : PipeFds → Sys → Sys} (e : Error)
    (hstore : ∀ p s, Quiet h s (store p s)) :
    Keeps (Before base old h) (preparePipe h cloexec store e) := by
  refine (pipe2_keeps before_insensitive cloexec).bind fun answer => ?_
  split
  · exact (modify_keeps before_insensitive (hstore _)).bind fun _ => Triple.pure fun _ h => h
  · exact failWith_before e

theorem storePipe_quiet {f : PipeFds → PexecSingle → PexecSingle}
    (hf : ∀ p x, (f p x).watch = x.watch) (p : PipeFds) (s : Sys) : Quiet h s (storePipe h f p s) := by
  refine .of_same rfl ?_ rfl
  simp [storePipe, hf]

theorem prepareForkPipes_before : Keeps (Before base old h) (prepareForkPipes h) := by
  unfold prepareForkPipes
  refine Triple.guard (Q := fun _ => Before base old h) ?_ (fun _ h => h) ?_
  · exact preparePipe_before _ (storePipe_quiet fun _ _ => rfl)
  refine Triple.guard (Q := fun _ => Before base old h) ?_ (fun _ h => h) ?_
  · exact preparePipe_before _ (storePipe_quiet fun _ _ => rfl)
  refine Triple.guard (Q := fun _ => Before base old h) ?_ (fun _ h => h) ?_
  · exact preparePipe_before _ (storePipe_quiet fun _ _ => rfl)
  have hwatch : Keeps (Before base old h) (preparePipeWatch h) :=
    preparePipe_before _ (storePipe_quiet fun _ _ => rfl)
  refine Triple.get_bind fun s hs => Triple.ite (fun _ => ?_) fun _ => ?_
  · refine Triple.guard (P := (· = s)) (Q := fun _ => Before base old h) ?_ (fun _ h => h) hwatch
    have hsignal : Keeps (Before base old h) (preparePipeSignal h) :=
      preparePipe_before _ fun p s => .of_same rfl rfl rfl
    exact fun t ht => hsignal t (ht ▸ hs)
  · exact fun t ht => hwatch t (ht ▸ hs)

theorem prepareArgs_before : Keeps (Before base old h) (prepareArgs h) := by
  have hI : Insensitive h (Before base old h) := before_insensitive
  refine (modifyProc_keeps hI (by intro; rfl)).bind fun _ => ?_
  refine Triple.get_bind fun s hs => Triple.ite (fun _ => ?_) fun _ => ?_
  · exact fun t ht => failWith_before _ t (ht ▸ hs)
  refine Triple.bind (Q := fun _ => Before base old h) ?_ fun _ => ?_
  · exact fun t ht => modifyProc_keeps hI (by intro; rfl) t (ht ▸ hs)
  refine Triple.get_bind fun s hs => Triple.ite (fun _ => ?_) fun _ => ?_
  · exact fun t ht => failWith_before _ t (ht ▸ hs)
  · exact Triple.pure fun t ht => ht ▸ hs

theorem setSigchldSignalHandler_before : Keeps (Before base old h) (setSigchldSignalHandler h) := by
  have hI : Insensitive h (Before base old h) := before_insensitive
  refine Keeps.bind (call_keeps hI fun w => ?_) fun answer => ?_
  · obtain ⟨_, _, hw⟩ := w.sigaction_frame .sigchldBlockingSignalHandler
    rw [hw]
  split
  · exact (modifyProc_keeps hI (by intro; rfl)).bind fun _ => Triple.pure fun _ h => h
  · exact failWith_before _

/-- After the fork the pid of the child is known. -/
theorem spawnProc_before :
    Triple (Before base old h) (spawnProc h)
      (fun b t => Before base old h t ∧ (b = true → 0 < (t.procs h).procPid))
      (fun _ => Before base old h) := by
  intro s hs
  unfold spawnProc
  rw [bind_of_ok (call_apply ..)]
  have hmove : ∀ pid w, w.trace = s.trace → Before base old h { s with
      toWorld := w
      procs := Function.update s.procs h { s.procs h with procPid := pid } } := by
    intro pid w hw
    obtain ⟨events, htrace, hacc⟩ := hs.watched.trace
    refine ⟨⟨⟨events, hw.trans htrace, hacc⟩, by simpa using hs.watched.type, hs.watched.alone⟩, ?_⟩
    simpa using hs.proc
  cases hf : s.faults.head?.join with
  | some e =>
    rw [World.fork_of_fault hf]
    exact (failWith_false .forkError).conseq (fun _ h => h)
      (fun b _ h => ⟨h.1, fun hb => absurd (h.2.symm.trans hb) (by decide)⟩) (fun _ _ h => h) _
      (hmove (-1) _ rfl)
  | none =>
    rw [World.fork_of_none hf]
    exact ⟨hmove _ _ rfl, fun _ => by simpa using s.toWorld.freshPid_pos⟩

theorem execPrepare_before (args : List Char) :
    Triple (Before base old h) (execPrepare h args)
      (fun b t => Before base old h t ∧ (b = true → 0 < (t.procs h).procPid))
      (fun _ => Before base old h) := by
  have hI : Insensitive h (Before base old h) := before_insensitive
  have hfalse : ∀ t : Sys, Before base old h t →
      Before base old h t ∧ (false = true → 0 < (t.procs h).procPid) :=
    fun t ht => ⟨ht, fun hb => (by cases hb)⟩
  unfold execPrepare
  refine Triple.bind (Q := fun _ => Before base old h) (modifyProc_keeps hI (by intro; rfl)) fun _ => ?_
  refine Triple.guard (Q := fun _ => Before base old h) prepareArgs_before hfalse ?_
  refine Triple.guard (Q := fun _ => Before base old h) prepareForkPipes_before hfalse ?_
  refine Triple.get_bind fun s hs => Triple.ite (fun _ => ?_) fun _ => ?_
  · refine Triple.guard (P := (· = s)) (Q := fun _ => Before base old h) ?_ hfalse spawnProc_before
    exact fun t ht => setSigchldSignalHandler_before t (ht ▸ hs)
  · exact fun t ht => spawnProc_before t (ht ▸ hs)

theorem Account.started {events : List Event} (ha : Account h events none True True False)
    (proc : ProcStatus) :
    Account h (events ++ [.state h .started proc]) (some { pid := proc.pid, running := true }) True True
      False where
  known := by
    rw [known_snoc]
    simp [learn]
  honest := by
    rw [reportsWaitpid_snoc, ha.honest]
    simp [Agrees]
  reaped := by
    rw [alwaysReaped_snoc, ha.reaped]
    simp
  told := by
    rw [tellsEnd_snoc, ha.told]
    simp [State.tellsEnd]

/-- The callback STARTED is where the reports begin. -/
theorem Before.started {s : Sys} (hs : Before base old h s) (q : PexecSingle)
    (htype : q.type = (s.procs h).type) (hrun : Running old q) :
    Live base old h { s with
      toWorld := s.toWorld.announced h .started q
      procs := Function.update s.procs h q } := by
  obtain ⟨events, htrace, hacc⟩ := hs.watched.trace
  have hhanded := hacc.silent (e := .handed h (q.offers s.fds q.proc.stdinFd)
    (q.offers s.fds q.proc.userStopFd)) trivial
  have hnew : (s.toWorld.announced h .started q).trace = base ++ (events ++
      [.handed h (q.offers s.fds q.proc.stdinFd) (q.offers s.fds q.proc.userStopFd)] ++
      [.state h .started q.proc]) := by
    rw [← List.append_assoc, ← List.append_assoc, ← htrace]
    rfl
  refine ⟨⟨⟨_, hnew, ?_⟩, ?_, hs.watched.alone⟩, ?_⟩ <;> simp only [Function.update_self]
  · exact hrun.pid ▸ hhanded.started q.proc
  · exact htype.trans hs.watched.type
  · exact hrun

theorem execStarted_before :
    Triple (fun s => Before base old h s ∧ 0 < (s.procs h).procPid) (execStarted h)
      (fun _ => Live base old h) (fun _ => Settled base old h) := by
  rintro s ⟨hs, hpos⟩
  unfold execStarted
  rw [bind_of_ok (modifyProc_apply ..), callState_apply _ h _ ?_]
  swap
  · exact hs.watched.alone
  simp only [Function.update_self]
  refine Before.started hs (s.procs h).started rfl ⟨rfl, hpos, ?_⟩
  rw [← hs.proc]
  rfl

/-- The callbacks have followed `waitpid` exactly if it has always returned the process and nothing
of an earlier one has shown. -/
def Fair (base : List Event) (old : ProcStatus) (h : Nat) (s : Sys) : Prop :=
  ∃ k honest reaped told, Watched base h k honest reaped told s ∧
    (honest ↔ reaped ∧ (told → ∀ p, k = some p → old.Unstained p))

theorem Settled.fair {s : Sys} (hs : Settled base old h s) : Fair base old h s := by
  obtain ⟨p, honest, reaped, told, hw, hiff, _⟩ := hs
  refine ⟨_, _, _, _, hw, hiff.trans (and_congr_right fun _ => forall_congr' fun _ => ?_)⟩
  simp

theorem Before.fair {s : Sys} (hs : Before base old h s) : Fair base old h s :=
  ⟨_, _, _, _, hs.watched, iff_of_true trivial ⟨trivial, False.elim⟩⟩

theorem Live.congr {s t : Sys} (hs : Live base old h s) (ht : t.trace = s.trace)
    (htype : (t.procs h).type = (s.procs h).type) (hproc : (t.procs h).proc = (s.procs h).proc)
    (hpid : (t.procs h).procPid = (s.procs h).procPid) (hh : t.handles h = s.handles h) :
    Live base old h t := by
  obtain ⟨⟨events, htrace, hacc⟩, hty, halone⟩ := hs.watched
  refine ⟨⟨⟨events, ht.trans htrace, hpid ▸ hacc⟩, htype.trans hty, hh.trans halone⟩, ?_, ?_, ?_⟩
  · rw [hproc, hpid]; exact hs.running.pid
  · rw [hpid]; exact hs.running.pos
  · rw [hproc]; exact hs.running.verdict

theorem loopIo_live : Triple (Live base old h) (loopIo h) (fun _ => Settled base old h)
    (fun _ => Settled base old h) := by
  have hI : Insensitive h (Live base old h) := live_insensitive
  have hregister : Keeps (Live base old h) (ioRegister h) := by
    refine Keeps.bind (fun s hs => ?_) fun _ => ioAdds_keeps hI
    exact hs.congr rfl (by simp) (by simp) (by simp) rfl
  unfold loopIo
  refine Triple.bind (hregister.conseq (fun _ h => h) (fun _ _ h => h) fun _ _ h => h.settled)
    fun _ => Triple.get_bind fun s hs => ?_
  refine Triple.bind (Q := fun _ => Settled base old h) (fun t ht => ?_) fun _ =>
    ioDestroy_keeps settled_insensitive
  refine selectLoop_triple (I := Live base old h) (J := Settled base old h)
    (E := fun _ => Settled base old h) (fun cb fd s hs => ioCallback_live cb fd s hs.1) ?_ ?_ ?_ ?_ (fun _ h => h.settled) _ ?_ t (ht ▸ hs)
  · exact fun s hs => hI.quiet s _ (.of_same rfl rfl rfl) hs
  · exact fun s hs => hI.quiet s _ (.of_same rfl rfl rfl) hs
  · exact fun answers s hs => hI.quiet s _ (.of_same rfl rfl rfl) hs
  · exact Triple.conseq (processError_keeps hI .selectError) (fun _ h => h)
      (fun _ _ h => h.settled) (fun _ _ h => h.settled)
  · exact fun _ _ _ act _ s hs => envAct_keeps hI act s hs

theorem execWatch_fair (args : List Char) :
    Triple (Before base old h) (execWatch h args)
      (fun b t => (b = false → Fair base old h t) ∧ (b = true → Settled base old h t))
      (fun _ => Fair base old h) := by
  unfold execWatch
  refine Triple.guard ((execPrepare_before args).conseq (fun _ h => h) (fun _ _ h => h)
    fun _ _ h => h.fair) (fun t ht => ⟨fun _ => ht.1.fair, fun hb => (by cases hb)⟩) ?_
  refine Triple.bind (P := fun s => Before base old h s ∧ (true = true → 0 < (s.procs h).procPid))
    (execStarted_before.conseq (fun _ h => ⟨h.1, h.2 rfl⟩) (fun _ _ h => h) fun _ _ h => h.fair)
    fun _ => Triple.get_bind fun s hs => ?_
  rw [if_neg (by rw [hs.watched.type]; decide)]
  refine Triple.bind (Q := fun _ => Settled base old h) (fun t ht => ?_) fun _ => ?_
  · exact loopIo_live.conseq (fun _ h => h) (fun _ _ h => h) (fun _ _ h => h.fair) t (ht ▸ hs)
  · refine Triple.bind ((resetSigchldSignalHandler_keeps settled_insensitive).conseq (fun _ h => h)
      (fun _ _ h => h) fun _ _ h => h.fair) fun _ => ?_
    exact Triple.pure fun t ht => ⟨fun hb => (by cases hb), fun _ => ht⟩

theorem userStopped_settled : Keeps (Settled base old h) (userStopped h) := by
  refine Keeps.bind (fun s hs => ?_) fun _ => ?_
  · exact hs.congr rfl (by simp) (by simp [ProcStatus.verdict]) rfl
  · exact (closeForkPipes_keeps settled_insensitive).bind fun _ => callState_settled (by decide)

theorem stopped_settled : Keeps (Settled base old h) (stopped h) :=
  (loopRestIo_keeps settled_insensitive).bind fun _ =>
    (closeForkPipes_keeps settled_insensitive).bind fun _ => callState_settled (by decide)

theorem exec_fair (args : List Char) :
    Triple (Before base old h) (exec h args) (fun _ => Fair base old h) (fun _ => Fair base old h) := by
  refine (execWatch_fair args).bind fun b => ?_
  cases b with
  | false => exact Triple.pure fun t ht => ht.1 rfl
  | true =>
    refine Triple.get_bind fun s hs => ?_
    have hs := hs.2 rfl
    split
    · exact fun t ht => (userStopped_settled.conseq (fun _ h => h) (fun _ _ h => h.fair)
        fun _ _ h => h.fair) t (ht ▸ hs)
    · exact fun t ht => (stopped_settled.conseq (fun _ h => h) (fun _ _ h => h.fair)
        fun _ _ h => h.fair) t (ht ▸ hs)

/-- The events of a run from `s` to `t`. -/
def newEvents (s t : Sys) : List Event := t.trace.drop s.trace.length

theorem Fair.reports_iff {s t : Sys} (hf : Fair s.trace old h t) :
    ReportsWaitpid h (newEvents s t) ↔
      AlwaysReaped (newEvents s t) ∧ NoneStained old h (newEvents s t) := by
  obtain ⟨k, honest, reaped, told, ⟨⟨events, htrace, hacc⟩, _, _⟩, hiff⟩ := hf
  rw [newEvents, htrace, List.drop_left, hacc.honest, hacc.reaped, NoneStained, hacc.told, hacc.known]
  exact hiff

theorem before_start {s : Sys} (htype : (s.procs h).type = .blocking)
    (halone : s.handles h = none) : Before s.trace (s.procs h).proc h s where
  watched := {
    trace := ⟨[], by simp, rfl, iff_of_true reportsWaitpid_nil trivial,
      iff_of_true alwaysReaped_nil trivial, iff_of_false (fun ⟨_, _, _, hm⟩ => by cases hm) id⟩
    type := htype
    alone := halone }
  proc := rfl

/-- In every blocking run, also one that has not come back yet, the callbacks report what
`waitpid` has told exactly if every `waitpid` that was not interrupted has returned the process, and
nothing shows that an earlier process has left in `proc_`. -/
theorem exec_reports_iff {s : Sys} (args : List Char) (htype : (s.procs h).type = .blocking)
    (halone : s.handles h = none) :
    ReportsWaitpid h (newEvents s (final (exec h args) s)) ↔
      AlwaysReaped (newEvents s (final (exec h args) s)) ∧
        NoneStained (s.procs h).proc h (newEvents s (final (exec h args) s)) :=
  ((exec_fair args).final (before_start htype halone)).reports_iff

/-- A process that gets a SIGCHLD while its child is alive. -/
def spuriousSigchld : Sys := { selects := [.ready [.sigchld] [6]] }

/-- The callbacks of `ls` then report a death that no `waitpid` has told. -/
theorem exec_reports_fails : ¬ReportsWaitpid 0
    (newEvents spuriousSigchld (final (exec 0 ['l', 's']) spuriousSigchld)) := by
  have hunavailable : (newEvents spuriousSigchld (final (exec 0 ['l', 's']) spuriousSigchld)).contains
      (.waitpid 1 .unavailable) = true := by decide +kernel
  have hfair := (exec_fair ['l', 's']).final (before_start rfl rfl : Before _ _ 0 spuriousSigchld)
  intro hr
  exact (hfair.reports_iff.mp hr).1 1 .unavailable (List.contains_iff_mem.mp hunavailable)

/-- An object whose first process has exited with 100. -/
def reusedObject : Sys := final (exec 0 ['l', 's'])
  { selects := [.ready [.exit 1 ⟨0x6400#32, by decide⟩, .sigchld] [6], .fail .ebadf] }

/-- The second run ends by a failing `select`: nothing is waited for, and STOPPED shows the exit of
the first process. -/
theorem exec_reports_iff_reused :
    ReportsWaitpid 0 (newEvents reusedObject (final (exec 0 ['l', 's']) reusedObject)) ↔
      AlwaysReaped (newEvents reusedObject (final (exec 0 ['l', 's']) reusedObject)) ∧
        NoneStained (reusedObject.procs 0).proc 0
          (newEvents reusedObject (final (exec 0 ['l', 's']) reusedObject)) :=
  exec_reports_iff ['l', 's'] (by decide +kernel) (by decide +kernel)

end Pexec
