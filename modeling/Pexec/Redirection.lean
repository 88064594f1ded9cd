import Pexec.BlockingRuns
import Pexec.SiblingLeaks

namespace Pexec

open Effect Runs

/-- What the child of object `h` has to be connected to when it calls `execvp`. -/
def Redirected (s : Sys) (h : Nat) : Prop :=
  ∃ fds stdin stdout stderr, s.execFds (s.procs h).procPid h = some fds ∧
    (s.procs h).pipeStdin.pipe = some stdin ∧ (s.procs h).pipeStdout.pipe = some stdout ∧
    (s.procs h).pipeStderr.pipe = some stderr ∧ fds.target 0 = some (.readEnd stdin) ∧
    fds.target 1 = some (.writeEnd stdout) ∧ fds.target 2 = some (.writeEnd stderr)

/-- The lowest number that is not open, which is what a new descriptor gets. -/
def FdTable.Lowest (t : FdTable) (fd : Int) : Prop :=
  0 ≤ fd ∧ t.get fd = none ∧ ∀ x, 0 ≤ x → x < fd → t.get x ≠ none

/-- Both ends of a pipe at numbers that were free in `base`. -/
structure Fitted (base fds : FdTable) (p : PipeFds) : Prop where
  ends : ∃ pipe, p.pipe = some pipe ∧ fds.target p.rd = some (.readEnd pipe) ∧
    fds.target p.wr = some (.writeEnd pipe)
  new : base.get p.rd = none ∧ base.get p.wr = none

/-- What was open in `base` still is. -/
def Grown (base fds : FdTable) : Prop := ∀ x, base.get x ≠ none → fds.get x ≠ none

variable {h : Nat} {s t u : Sys} {base fds fds' : FdTable} {p : PipeFds}

namespace FdTable

variable {old new x : Int}

theorem dup2_target (hd : fds.dup2 old new = some fds') : fds'.target new = fds.target old := by
  unfold dup2 at hd
  split at hd
  next => cases hd
  next d hget =>
    have hold : fds.target old = some d.target := by rw [target, hget, Option.map_some]
    split at hd
    next heq =>
      cases hd
      rw [heq]
    next =>
      split at hd
      next =>
        cases hd
        rw [insert_target_self, hold]
      next => cases hd

theorem dup2_target_ne (hd : fds.dup2 old new = some fds') (hx : x ≠ new) :
    fds'.target x = fds.target x := by
  rw [target, dup2_get_ne hd hx, target]

theorem closePipe_target_ne {p : PipeFds} (hr : x ≠ p.rd) (hw : x ≠ p.wr) :
    (fds.closePipe p).target x = fds.target x := by
  rw [target, closePipe_get, if_neg (by tauto), target]

end FdTable

/-- `spawnChild` taken apart: three duplications, and the three pairs closed. -/
theorem spawnChild_steps {q : PexecSingle} (hok : q.spawnChild fds = .ok fds') : ∃ a b c,
    fds.dup2 q.pipeStdin.rd 0 = some a ∧ a.dup2 q.pipeStdout.wr 1 = some b ∧
      b.dup2 q.pipeStderr.wr 2 = some c ∧
      fds' = ((c.closePipe q.pipeStdout).closePipe q.pipeStderr).closePipe q.pipeStdin := by
  unfold PexecSingle.spawnChild at hok
  split at hok
  next => cases hok
  split at hok
  next => cases hok
  split at hok
  next => cases hok
  split at hok
  next => cases hok
  next a ha =>
    split at hok
    next => cases hok
    next b hb =>
      split at hok
      next => cases hok
      next c hc =>
        cases hok
        exact ⟨a, b, c, ha, hb, hc, rfl⟩

/-- The numbers that are closed at the end are not open then, whatever was duplicated to them. -/
theorem spawnChild_stdio {q : PexecSingle} (hok : q.spawnChild fds = .ok fds') {x : Int}
    (hx : x ∈ q.stdio) : fds'.target x = none := by
  obtain ⟨_, _, c, _, _, _, rfl⟩ := spawnChild_steps hok
  simp only [PexecSingle.stdio, List.mem_cons, List.not_mem_nil, or_false] at hx
  rw [FdTable.target, FdTable.closePipe_get, FdTable.closePipe_get, FdTable.closePipe_get]
  split_ifs <;> first | rfl | tauto

/-- With all six numbers above 2 the duplications do not disturb each other. -/
theorem spawnChild_target {q : PexecSingle} (hok : q.spawnChild fds = .ok fds')
    (hq : ∀ x ∈ q.stdio, x ∉ [0, 1, 2]) :
    fds'.target 0 = fds.target q.pipeStdin.rd ∧ fds'.target 1 = fds.target q.pipeStdout.wr ∧
      fds'.target 2 = fds.target q.pipeStderr.wr := by
  obtain ⟨a, b, c, ha, hb, hc, rfl⟩ := spawnChild_steps hok
  simp only [PexecSingle.stdio, List.mem_cons, List.not_mem_nil, or_false, forall_eq_or_imp,
    forall_eq, not_or] at hq
  obtain ⟨hor, how, her, hew, hir, hiw⟩ := hq
  have hclosed : ∀ x ∈ [(0 : Int), 1, 2],
      (((c.closePipe q.pipeStdout).closePipe q.pipeStderr).closePipe q.pipeStdin).target x =
        c.target x := by
    intro x hx
    simp only [List.mem_cons, List.not_mem_nil, or_false] at hx
    rcases hx with rfl | rfl | rfl <;>
      rw [FdTable.closePipe_target_ne (by tauto) (by tauto),
        FdTable.closePipe_target_ne (by tauto) (by tauto),
        FdTable.closePipe_target_ne (by tauto) (by tauto)]
  refine ⟨?_, ?_, ?_⟩
  · rw [hclosed 0 (by simp), FdTable.dup2_target_ne hc (by decide),
      FdTable.dup2_target_ne hb (by decide), FdTable.dup2_target ha]
  · rw [hclosed 1 (by simp), FdTable.dup2_target_ne hc (by decide), FdTable.dup2_target hb,
      FdTable.dup2_target_ne ha (by tauto)]
  · rw [hclosed 2 (by simp), FdTable.dup2_target hc, FdTable.dup2_target_ne hb (by tauto),
      FdTable.dup2_target_ne ha (by tauto)]

theorem Grown.openPipe (hg : Grown base fds) (hint : Int × Int) (cloexec : Bool) :
    Grown base (fds.openPipe hint cloexec).2 := by
  intro x hx
  rw [FdTable.openPipe_get_old _ _ _ (hg x hx)]
  exact hg x hx

theorem Grown.free (hg : Grown base fds) {x : Int} (hx : fds.target x = none) :
    base.get x = none := by
  by_contra hne
  exact hg x hne (by simpa [FdTable.target] using hx)

theorem Grown.fitted (hg : Grown base fds) (hint : Int × Int) (cloexec : Bool) :
    Fitted base (fds.openPipe hint cloexec).2 (fds.openPipe hint cloexec).1 where
  ends := ⟨_, fds.openPipe_pipe hint cloexec, fds.openPipe_target_rd hint cloexec,
    fds.openPipe_target_wr hint cloexec⟩
  new := ⟨hg.free (fds.openPipe_rd_fresh hint cloexec), hg.free (fds.openPipe_wr_fresh hint cloexec)⟩

theorem Fitted.openPipe (hp : Fitted base fds p) (hint : Int × Int) (cloexec : Bool) :
    Fitted base (fds.openPipe hint cloexec).2 p := by
  obtain ⟨pipe, hpipe, hr, hw⟩ := hp.ends
  have hold : ∀ {x target}, fds.target x = some target →
      (fds.openPipe hint cloexec).2.target x = some target := by
    intro x target hx
    obtain ⟨d, hd, _⟩ := FdTable.target_eq.mp hx
    rw [FdTable.target, FdTable.openPipe_get_old _ _ _ (by rw [hd]; simp), ← FdTable.target, hx]
  exact ⟨⟨pipe, hpipe, hold hr, hold hw⟩, hp.new⟩

theorem preparePipe_true {cloexec : Bool} {store : PipeFds → Sys → Sys} {e : Error}
    (ht : preparePipe h cloexec store e s = .ok true t) :
    t = store (s.toWorld.opened cloexec).1 { s with toWorld := (s.toWorld.opened cloexec).2 } := by
  unfold preparePipe at ht
  rw [bind_of_ok (call_apply ..)] at ht
  cases hf : s.faults.head?.join with
  | some e' =>
    rw [World.pipe2_of_fault hf] at ht
    obtain ⟨_, _, _, ht⟩ := bind_eq_ok.mp ht
    obtain ⟨_, _, _, ht⟩ := bind_eq_ok.mp ht
    cases ht
  | none =>
    rw [World.pipe2_of_none hf] at ht
    cases ht
    rfl

/-- The number of the next pipe decides what the kernel likes to hand out for it. -/
def Sys.nextOpened (s : Sys) (cloexec : Bool) : PipeFds × FdTable :=
  s.fds.openPipe (s.fdHint s.fds.nextPipe) cloexec

theorem storePipe_true {f : PipeFds → PexecSingle → PexecSingle} {cloexec : Bool} {e : Error}
    (ht : preparePipe h cloexec (storePipe h f) e s = .ok true t) :
    t.fds = (s.nextOpened cloexec).2 ∧ t.procs h = f (s.nextOpened cloexec).1 (s.procs h) := by
  rw [preparePipe_true ht]
  exact ⟨rfl, Function.update_self ..⟩

/-- The three pipes that the child is connected to are new, and stay while the rest is opened. -/
theorem prepareForkPipes_fitted (ht : prepareForkPipes h s = .ok true t) :
    (t.procs h).pipeStdin = (s.nextOpened false).1 ∧
      Fitted s.fds t.fds (t.procs h).pipeStdin ∧ Fitted s.fds t.fds (t.procs h).pipeStdout ∧
      Fitted s.fds t.fds (t.procs h).pipeStderr := by
  have hgrown : Grown s.fds s.fds := fun _ hx => hx
  obtain ⟨a, ha, ht⟩ := guard_eq_true ht
  obtain ⟨b, hb, ht⟩ := guard_eq_true ht
  obtain ⟨c, hc, ht⟩ := guard_eq_true ht
  obtain ⟨hafds, hap⟩ := storePipe_true ha
  obtain ⟨hbfds, hbp⟩ := storePipe_true hb
  obtain ⟨hcfds, hcp⟩ := storePipe_true hc
  have hin : Fitted s.fds a.fds (a.procs h).pipeStdin := by
    rw [hafds, hap]
    exact hgrown.fitted _ _
  replace hgrown : Grown s.fds a.fds := hafds ▸ hgrown.openPipe _ _
  have hout : Fitted s.fds b.fds (b.procs h).pipeStdout := by
    rw [hbfds, hbp]
    exact hgrown.fitted _ _
  replace hgrown : Grown s.fds b.fds := hbfds ▸ hgrown.openPipe _ _
  have herr : Fitted s.fds c.fds (c.procs h).pipeStderr := by
    rw [hcfds, hcp]
    exact hgrown.fitted _ _
  -- the last one or two pipes are not the child's
  have hrest : ∀ {d : Sys}, preparePipeWatch h d = .ok true t → (d.procs h).pipeStdin =
        (a.procs h).pipeStdin ∧ (d.procs h).pipeStdout = (b.procs h).pipeStdout ∧
        (d.procs h).pipeStderr = (c.procs h).pipeStderr →
      (∀ {p}, Fitted s.fds c.fds p → Fitted s.fds d.fds p) →
      (t.procs h).pipeStdin = (s.nextOpened false).1 ∧
        Fitted s.fds t.fds (t.procs h).pipeStdin ∧ Fitted s.fds t.fds (t.procs h).pipeStdout ∧
        Fitted s.fds t.fds (t.procs h).pipeStderr := by
    rintro d hd ⟨hdin, hdout, hderr⟩ hkeep
    obtain ⟨htfds, htp⟩ := storePipe_true hd
    simp only [htp, htfds, hdin, hdout, hderr]
    refine ⟨by rw [hap], ?_, ?_, ?_⟩
    · refine (hkeep ?_).openPipe _ _
      rw [hcfds]
      refine Fitted.openPipe ?_ _ _
      rw [hbfds]
      exact hin.openPipe _ _
    · refine (hkeep ?_).openPipe _ _
      rw [hcfds]
      exact hout.openPipe _ _
    · exact (hkeep herr).openPipe _ _
  have hsame : (c.procs h).pipeStdin = (a.procs h).pipeStdin ∧
      (c.procs h).pipeStdout = (b.procs h).pipeStdout := by
    rw [hcp, hbp]
    exact ⟨rfl, rfl⟩
  rw [bind_of_ok (get_apply _)] at ht
  split at ht
  next =>
    obtain ⟨d, hd, ht⟩ := guard_eq_true ht
    have hd' := preparePipe_true hd
    refine hrest ht ?_ fun hp => ?_
    · rw [hd']
      exact ⟨hsame.1, hsame.2, rfl⟩
    · rw [hd']
      exact hp.openPipe _ _
  next => exact hrest ht ⟨hsame.1, hsame.2, rfl⟩ id

theorem prepareArgs_true (ht : prepareArgs h s = .ok true t) : t.toWorld = s.toWorld := by
  unfold prepareArgs at ht
  rw [bind_of_ok (modifyProc_apply ..), bind_of_ok (get_apply _)] at ht
  split at ht
  next =>
    obtain ⟨_, _, _, ht⟩ := bind_eq_ok.mp ht
    obtain ⟨_, _, _, ht⟩ := bind_eq_ok.mp ht
    cases ht
  next =>
    rw [bind_of_ok (modifyProc_apply ..), bind_of_ok (get_apply _)] at ht
    split at ht
    next =>
      obtain ⟨_, _, _, ht⟩ := bind_eq_ok.mp ht
      obtain ⟨_, _, _, ht⟩ := bind_eq_ok.mp ht
      cases ht
    next =>
      cases ht
      rfl

/-- The descriptors and the arrays of the object are what they were. -/
structure SamePlumbing (h : Nat) (s t : Sys) : Prop where
  fds : t.fds = s.fds
  stdin : (t.procs h).pipeStdin = (s.procs h).pipeStdin
  stdout : (t.procs h).pipeStdout = (s.procs h).pipeStdout
  stderr : (t.procs h).pipeStderr = (s.procs h).pipeStderr

theorem SamePlumbing.trans (hst : SamePlumbing h s t) (htu : SamePlumbing h t u) :
    SamePlumbing h s u :=
  ⟨htu.fds.trans hst.fds, htu.stdin.trans hst.stdin, htu.stdout.trans hst.stdout,
    htu.stderr.trans hst.stderr⟩

theorem setSigchldSignalHandler_true (ht : setSigchldSignalHandler h s = .ok true t) :
    SamePlumbing h s t := by
  unfold setSigchldSignalHandler at ht
  rw [bind_of_ok (call_apply ..)] at ht
  cases hf : s.faults.head?.join with
  | some e =>
    rw [World.sigaction_of_fault hf] at ht
    obtain ⟨_, _, _, ht⟩ := bind_eq_ok.mp ht
    obtain ⟨_, _, _, ht⟩ := bind_eq_ok.mp ht
    cases ht
  | none =>
    rw [World.sigaction_of_none hf] at ht
    cases ht
    constructor <;> simp

/-- The child inherits the descriptors that there are at the fork. -/
theorem spawnProc_true (ht : spawnProc h s = .ok true t) : SamePlumbing h s t ∧
    ∃ child, t.children.lookup (t.procs h).procPid = some child ∧ child.fds = t.fds := by
  unfold spawnProc at ht
  rw [bind_of_ok (call_apply ..)] at ht
  cases hf : s.faults.head?.join with
  | some e =>
    rw [World.fork_of_fault hf] at ht
    obtain ⟨_, _, _, ht⟩ := bind_eq_ok.mp ht
    obtain ⟨_, _, _, ht⟩ := bind_eq_ok.mp ht
    obtain ⟨_, _, _, ht⟩ := bind_eq_ok.mp ht
    cases ht
  | none =>
    rw [World.fork_of_none hf] at ht
    cases ht
    refine ⟨by constructor <;> simp, { pgid := s.pgid, fds := s.fds }, ?_, rfl⟩
    dsimp only
    rw [Function.update_self]
    exact AList.lookup_insert _

/-- A process was forked: its three pipes are new, the first of them at the numbers that the
kernel had for it, and it has inherited them. -/
structure Connected (h : Nat) (s t : Sys) : Prop where
  first : (t.procs h).pipeStdin = (s.nextOpened false).1
  stdin : Fitted s.fds t.fds (t.procs h).pipeStdin
  stdout : Fitted s.fds t.fds (t.procs h).pipeStdout
  stderr : Fitted s.fds t.fds (t.procs h).pipeStderr
  child : t.execFds (t.procs h).procPid h = ((t.procs h).spawnChild t.fds).toOption

theorem execPrepare_connected {line : List Char} (ht : execPrepare h line s = .ok true t) :
    Connected h s t := by
  unfold execPrepare at ht
  rw [bind_of_ok (modifyProc_apply ..)] at ht
  obtain ⟨a, ha, ht⟩ := guard_eq_true ht
  obtain ⟨b, hb, ht⟩ := guard_eq_true ht
  have hworld := prepareArgs_true ha
  obtain ⟨hfirst, hin, hout, herr⟩ := prepareForkPipes_fitted hb
  simp only [Sys.nextOpened, hworld] at hfirst hin hout herr
  have hforked : ∀ {c : Sys}, SamePlumbing h b c → spawnProc h c = .ok true t → Connected h s t := by
    intro c hc hspawn
    obtain ⟨hsame, child, hchild, hfds⟩ := spawnProc_true hspawn
    replace hsame := hc.trans hsame
    refine ⟨by rw [hsame.stdin, hfirst]; rfl, ?_, ?_, ?_, ?_⟩
    · rw [hsame.fds, hsame.stdin]
      exact hin
    · rw [hsame.fds, hsame.stdout]
      exact hout
    · rw [hsame.fds, hsame.stderr]
      exact herr
    · rw [Sys.execFds, hchild, Option.bind_some, hfds]
  rw [bind_of_ok (get_apply _)] at ht
  split at ht
  next =>
    obtain ⟨c, hc, ht⟩ := guard_eq_true ht
    exact hforked (setSigchldSignalHandler_true hc) ht
  next => exact hforked ⟨rfl, rfl, rfl, rfl⟩ ht

theorem Connected.stdio_free (hc : Connected h s t) {x : Int} (hx : x ∈ (t.procs h).stdio) :
    s.fds.get x = none := by
  simp only [PexecSingle.stdio, List.mem_cons, List.not_mem_nil, or_false] at hx
  rcases hx with rfl | rfl | rfl | rfl | rfl | rfl
  · exact hc.stdout.new.1
  · exact hc.stdout.new.2
  · exact hc.stderr.new.1
  · exact hc.stderr.new.2
  · exact hc.stdin.new.1
  · exact hc.stdin.new.2

/-- The child is connected to its pipes when it calls `execvp` exactly when none of the pipes has
got one of the numbers 0, 1 and 2. -/
theorem Connected.connects_iff (hc : Connected h s t) :
    Redirected t h ↔ ∀ x ∈ (t.procs h).stdio, x ∉ [0, 1, 2] := by
  obtain ⟨stdin, hstdin, hir, _⟩ := hc.stdin.ends
  obtain ⟨stdout, hstdout, _, how⟩ := hc.stdout.ends
  obtain ⟨stderr, hstderr, _, hew⟩ := hc.stderr.ends
  have hopen : ∀ {x target}, t.fds.target x = some target → t.fds.get x ≠ none := by
    intro x target hx
    obtain ⟨d, hd, _⟩ := FdTable.target_eq.mp hx
    rw [hd]
    exact Option.some_ne_none d
  obtain ⟨fds, hok⟩ := spawnChild_ok (hopen hir) (hopen how) (hopen hew)
  have hexec : t.execFds (t.procs h).procPid h = some fds := by
    rw [hc.child, hok]
    rfl
  constructor
  · rintro ⟨fds', _, _, _, hexec', -, -, -, h₀, h₁, h₂⟩ x hx hmem
    rw [hexec] at hexec'
    cases hexec'
    have hclosed := spawnChild_stdio hok hx
    simp only [List.mem_cons, List.not_mem_nil, or_false] at hmem
    rcases hmem with rfl | rfl | rfl
    · rw [h₀] at hclosed
      cases hclosed
    · rw [h₁] at hclosed
      cases hclosed
    · rw [h₂] at hclosed
      cases hclosed
  · intro hall
    obtain ⟨h₀, h₁, h₂⟩ := spawnChild_target hok hall
    exact ⟨fds, stdin, stdout, stderr, hexec, hstdin, hstdout, hstderr, h₀.trans hir, h₁.trans how,
      h₂.trans hew⟩

/-- With the lowest numbers handed out, that is when 0, 1 and 2 were all open before the call. -/
theorem redirected_iff {line : List Char} (ht : execPrepare h line s = .ok true t)
    (hlow : s.fds.Lowest (s.fdHint s.fds.nextPipe).1) :
    Redirected t h ↔ ∀ fd ∈ [0, 1, 2], s.fds.get fd ≠ none := by
  have hc := execPrepare_connected ht
  obtain ⟨hnonneg, hfree, hleast⟩ := hlow
  have hrd : (t.procs h).pipeStdin.rd = (s.fdHint s.fds.nextPipe).1 := by
    rw [hc.first]
    exact if_pos ⟨hnonneg, AList.lookup_eq_none.mp hfree⟩
  rw [hc.connects_iff]
  constructor
  · intro hall fd hfd hclosed
    -- the read end of the stdin pipe takes the lowest of the three that is closed, or one below it
    refine hall (t.procs h).pipeStdin.rd (by simp [PexecSingle.stdio]) ?_
    rw [hrd]
    simp only [List.mem_cons, List.not_mem_nil, or_false] at hfd ⊢
    have hle : (s.fdHint s.fds.nextPipe).1 ≤ fd :=
      not_lt.mp fun hlt => hleast fd (by omega) hlt hclosed
    omega
  · intro hall x hx hmem
    exact hall x hmem (hc.stdio_free hx)

/-- A process with the given descriptors open, whose kernel hands out the lowest free numbers. -/
def startedWith (numbers : List Int) (first : Int × Int) : Sys :=
  ((numbers.foldl (fun s fd => (EnvAct.openFile fd).apply s)
    (boot { fdHint := fun n => if n = 0 then first else (-1, -1) })).choose {})

theorem redirected_open :
    Redirected (final (execPrepare 0 ['a']) (startedWith [0, 1, 2] (3, 4))) 0 ↔
      ∀ fd ∈ [0, 1, 2], (startedWith [0, 1, 2] (3, 4)).fds.get fd ≠ none :=
  redirected_iff (ok_answer (by decide +kernel)) (by
    refine ⟨by decide, by decide, fun x hx hlt => ?_⟩
    have hthree : x = 0 ∨ x = 1 ∨ x = 2 := by
      have : (startedWith [0, 1, 2] (3, 4)).fdHint 0 = (3, 4) := rfl
      simp only [show (startedWith [0, 1, 2] (3, 4)).fds.nextPipe = 0 from rfl, this] at hlt
      omega
    rcases hthree with rfl | rfl | rfl <;> decide)

/-- Descriptor 0 is closed when `exec` is called: the stdin pipe gets the numbers 0 and 3, and the
child calls `execvp` without a descriptor 0. -/
theorem closedStdin_unredirected :
    (startedWith [1, 2] (0, 3)).fds.Lowest
        ((startedWith [1, 2] (0, 3)).fdHint (startedWith [1, 2] (0, 3)).fds.nextPipe).1 ∧
      ¬Redirected (final (execPrepare 0 ['a']) (startedWith [1, 2] (0, 3))) 0 := by
  constructor
  · refine ⟨by decide, by decide, fun x hx hlt => ?_⟩
    exact absurd hlt (not_lt.mpr hx)
  · rintro ⟨fds, stdin, -, -, hexec, -, -, -, h₀, -, -⟩
    have hnone : ((final (execPrepare 0 ['a']) (startedWith [1, 2] (0, 3))).execFds
        ((final (execPrepare 0 ['a']) (startedWith [1, 2] (0, 3))).procs 0).procPid 0).map
          (fun fds => fds.target 0) = some none := by decide +kernel
    rw [hexec, Option.map_some, h₀] at hnone
    cases hnone

end Pexec
