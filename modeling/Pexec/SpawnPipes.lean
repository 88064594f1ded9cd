import Pexec.OpenPipes
import Pexec.Preparation
import Pexec.SpawnEmissions

namespace Pexec

open Effect

/-- The books are in order, and the arrays of `slots` can be filled for the process of `h`. -/
structure Fillable (base : FdTable) (lost : List PipeFds) (h : Nat) (slots : List Slot) (s : Sys) : Prop where
  books : Books base lost s.fds s.array
  closed : ∀ slot ∈ slots, (s.array slot).rd = -1
  type : (s.procs h).type = .nonblocking

variable {base : FdTable} {lost : List PipeFds} {h : Nat} {pid : Int} {slot : Slot} {slots slots' : List Slot}
  {s t u : Sys} {x y : Prog Bool}

theorem Fillable.same (hs : Fillable base lost h slots s) (hfds : t.fds = s.fds) (harray : t.array = s.array)
    (htype : (t.procs h).type = (s.procs h).type) : Fillable base lost h slots t := by
  refine ⟨?_, fun slot hm => ?_, htype.trans hs.type⟩
  · rw [hfds, harray]
    exact hs.books
  · rw [harray]
    exact hs.closed slot hm

theorem Fillable.sub (hs : Fillable base lost h slots s) (hsub : slots' ⊆ slots) : Fillable base lost h slots' s :=
  ⟨hs.books, fun slot hm => hs.closed slot (hsub hm), hs.type⟩

theorem Fillable.fill (hs : Fillable base lost h (slot :: slots) s) (hnew : slot ∉ slots) (hopen : OpenedInto slot s t)
    (htype : (t.procs h).type = (s.procs h).type) : Fillable base lost h slots t := by
  refine ⟨(hopen.books hs.books).1 (hs.closed slot List.mem_cons_self), fun y hm => ?_, htype.trans hs.type⟩
  rw [hopen.array_ne fun he => hnew (he ▸ hm)]
  exact hs.closed y (List.mem_cons_of_mem _ hm)

/-- Where the program succeeds it has filled the arrays that it does not leave. -/
@[reducible] def Fills (base : FdTable) (lost : List PipeFds) (h : Nat) (slots slots' : List Slot) (x : Prog Bool) : Prop :=
  Triple (Fillable base lost h slots) x (fun b t => b = true → Fillable base lost h slots' t) fun _ _ => True

theorem Fills.fails {x : Prog Unit} : Fills base lost h slots slots' (do x; return false) := by
  intro s _
  rw [bind_apply]
  cases x s with
  | ok a t => exact fun hb => nomatch hb
  | error e t => trivial

theorem Fills.guard {slots'' : List Slot} (hx : Fills base lost h slots slots' x) (hy : Fills base lost h slots' slots'' y) :
    Fills base lost h slots slots'' (x >>= fun b => if (!b) = true then pure false else y) :=
  Triple.guard hx (fun _ _ hb => nomatch hb) (hy.conseq (fun _ hs => hs rfl) (fun _ _ => id) fun _ _ => id)

theorem Fills.get {f : Sys → Prog Bool} (hf : ∀ s, (s.procs h).type = .nonblocking → Fills base lost h slots slots' (f s)) :
    Fills base lost h slots slots' (get >>= f) := Triple.get_bind fun s hs t ht => hf s hs.type t (ht ▸ hs)

theorem updated_type {p : PexecSingle} (hp : p.type = (s.procs h).type) :
    (Function.update s.procs h p h).type = (s.procs h).type := by
  rw [Function.update_self, hp]

theorem Fills.modifyProc {f : PexecSingle → PexecSingle} (hf : ∀ p, (f p).shell = p.shell)
    (hx : Fills base lost h slots slots' x) : Fills base lost h slots slots' (do Pexec.modifyProc h f; x) := fun s hs => by
  have htype : (f (s.procs h)).type = (s.procs h).type := by
    have := congrArg PexecSingle.type (hf (s.procs h))
    exact this
  exact hx _ (hs.same rfl (array_update s h (hf _)) (updated_type htype))

theorem preparePipe_fills {cloexec : Bool} {store : PipeFds → Sys → Sys} {e : Error} (hnew : slot ∉ slots)
    (hstore : ∀ p s, (store p s).fds = s.fds ∧ (store p s).pipes = s.pipes ∧
      (store p s).array = Function.update s.array slot p ∧ ((store p s).procs h).type = (s.procs h).type) :
    Fills base lost h (slot :: slots) slots (preparePipe h cloexec store e) := by
  intro s hs
  unfold preparePipe
  rw [bind_of_ok (call_apply ..)]
  obtain ⟨faults, fds, pipes, hframe⟩ := s.toWorld.pipe2_frame cloexec
  generalize hcall : s.toWorld.pipe2 cloexec = r at hframe ⊢
  obtain ⟨answer, w⟩ := r
  dsimp only at hframe
  cases answer with
  | none =>
    obtain ⟨faults, rfl⟩ := World.pipe2_eq_none hcall
    exact Fills.fails (x := do processError h e; failStopped h) _ (hs.same rfl rfl rfl)
  | some p =>
    obtain ⟨hfds, hpipes, harray, htype⟩ := hstore p { s with toWorld := w }
    refine fun _ => hs.fill hnew (openedInto_of_pipe2 hcall rfl hfds hpipes ?_) htype
    rw [harray, hframe]
    rfl

/-- What a process that is not blocking needs, and the pipe that it does not. -/
theorem prepareForkPipes_fills :
    Fills base lost h [.stdin h, .stdout h, .stderr h, .watch h, .blocking] [.blocking] (prepareForkPipes h) := by
  refine Fills.guard (preparePipe_fills (by simp) fun p s =>
    ⟨rfl, rfl, (storePipe_array p s).1, updated_type rfl⟩) ?_
  refine Fills.guard (preparePipe_fills (by simp) fun p s =>
    ⟨rfl, rfl, (storePipe_array p s).2.1, updated_type rfl⟩) ?_
  refine Fills.guard (preparePipe_fills (by simp) fun p s =>
    ⟨rfl, rfl, (storePipe_array p s).2.2.1, updated_type rfl⟩) ?_
  refine Fills.get fun s htype => ?_
  rw [if_neg (by rw [htype]; decide)]
  exact preparePipe_fills (by simp) fun p s =>
    ⟨rfl, rfl, (storePipe_array p s).2.2.2, updated_type rfl⟩

theorem prepareArgs_fills : Fills base lost h slots slots (prepareArgs h) := by
  have hfail : ∀ e, Fills base lost h slots slots (do processError h e; failStopped h; return false) := fun e =>
    Fills.fails (x := do processError h e; failStopped h)
  exact Fills.modifyProc (fun _ => rfl) (Fills.get fun _ _ => Triple.ite (fun _ => hfail _) fun _ =>
    Fills.modifyProc (fun _ => rfl) (Fills.get fun _ _ => Triple.ite (fun _ => hfail _) fun _ =>
      Triple.pure fun _ hs _ => hs))

theorem spawnProc_fills : Fills base lost h slots slots (spawnProc h) := by
  intro s hs
  unfold spawnProc
  rw [bind_of_ok (call_apply ..)]
  obtain ⟨faults, children, forks, hw⟩ := s.toWorld.fork_frame
  have hforked : Fillable base lost h slots { s with toWorld := s.toWorld.fork.2 } := by
    rw [hw]
    exact hs.same rfl rfl rfl
  generalize s.toWorld.fork = r at hforked ⊢
  obtain ⟨answer, w⟩ := r
  have hset : ∀ p : PexecSingle, p.pipeStdin = (s.procs h).pipeStdin → p.pipeStdout = (s.procs h).pipeStdout →
      p.pipeStderr = (s.procs h).pipeStderr → p.pipeCloseWatch = (s.procs h).pipeCloseWatch →
      p.type = (s.procs h).type → Fillable base lost h slots { s with toWorld := w, procs := Function.update s.procs h p } := by
    intro p hin hout herr hwatch htype
    exact hforked.same rfl (array_replace { s with toWorld := w } h hin hout herr hwatch) (updated_type htype)
  cases answer with
  | none => exact Fills.fails (x := do processError h .forkError; failStopped h) _ (hset _ rfl rfl rfl rfl rfl)
  | some pid => exact fun _ => hset _ rfl rfl rfl rfl rfl

theorem execPrepare_fills (args : List Char) :
    Fills base lost h [.stdin h, .stdout h, .stderr h, .watch h, .blocking] [.blocking] (execPrepare h args) := by
  refine Fills.modifyProc (fun _ => rfl) (prepareArgs_fills.guard (prepareForkPipes_fills.guard (Fills.get fun s htype => ?_)))
  rw [if_neg (by rw [htype]; decide)]
  exact spawnProc_fills

/-- The pipes of a process that was started are in its arrays. -/
theorem handleExec_fills {hd : Handle} (hh : s.handles h = some hd) (hu : Unspawned h s)
    (ht : handleExec h s = .ok () t) (hpid : handlePid t h ≠ 0)
    (hs : Fillable base lost h [.stdin h, .stdout h, .stderr h, .watch h, .blocking] s) :
    Books base lost t.fds t.array ∧ (t.array .blocking).rd = -1 := by
  obtain ⟨u, handles, hprep, rfl⟩ := handleExec_started hh hu ht hpid
  have hfilled := (execPrepare_fills hd.args).ok hs hprep rfl
  have hbooks := hfilled.books
  have hclosed := hfilled.closed .blocking List.mem_cons_self
  rw [← array_replace u h (p := (u.procs h).started) rfl rfl rfl rfl] at hbooks hclosed
  exact ⟨hbooks, hclosed⟩

end Pexec
