import Pexec.Rerunning

namespace Pexec

open Effect Runs

/-- An end of a pipe that the library has opened for an active process. -/
def Sys.PipeEnd (s : Sys) (target : FdTarget) : Prop :=
  ∃ pid h slot pipe, s.active.lookup pid = some h ∧ slot ∈ objectSlots h ∧
    (s.array slot).pipe = some pipe ∧ target.pipe? = some pipe

/-- The descriptors with which the child of object `h` calls `execvp`, if it gets there. -/
def Sys.execFds (s : Sys) (pid : Int) (h : Nat) : Option FdTable :=
  (s.children.lookup pid).bind fun child => ((s.procs h).spawnChild child.fds).toOption

/-- The program that the child becomes has no end of the pipes of the active processes but what
are its descriptors 0, 1 and 2. -/
def Unleaked (s : Sys) (pid : Int) (h : Nat) : Prop :=
  ∀ fds, s.execFds pid h = some fds →
    ∀ fd target, fds.afterExec fd = some target → s.PipeEnd target → fd ∈ [0, 1, 2]

/-- The numbers that the child closes by hand. -/
def PexecSingle.stdio (p : PexecSingle) : List Int :=
  [p.pipeStdout.rd, p.pipeStdout.wr, p.pipeStderr.rd, p.pipeStderr.wr, p.pipeStdin.rd,
    p.pipeStdin.wr]

variable {h : Nat} {pid : Int} {s t u : Sys}

namespace FdTable

variable {fds fds' : FdTable} {old new x : Int}

theorem dup2_cases (hd : fds.dup2 old new = some fds') :
    fds' = fds ∨ ∃ d h₁ h₂, fds' = fds.insert new d h₁ h₂ := by
  unfold dup2 at hd
  split at hd
  next => cases hd
  next d _ =>
    split at hd
    next => exact .inl (Option.some.inj hd).symm
    next =>
      split at hd
      next hn => exact .inr ⟨⟨d.target, false⟩, hn, _, (Option.some.inj hd).symm⟩
      next => cases hd

theorem dup2_get_ne (hd : fds.dup2 old new = some fds') (hx : x ≠ new) : fds'.get x = fds.get x := by
  rcases dup2_cases hd with rfl | ⟨d, h₁, h₂, rfl⟩
  · rfl
  · exact insert_get_ne _ _ hx

/-- What was open is still open. -/
theorem dup2_open (hd : fds.dup2 old new = some fds') (hx : fds.get x ≠ none) :
    fds'.get x ≠ none := by
  by_cases hn : x = new
  · subst x
    rcases dup2_cases hd with rfl | ⟨d, h₁, h₂, rfl⟩
    · exact hx
    · rw [insert_get_self]
      exact Option.some_ne_none d
  · rwa [dup2_get_ne hd hn]

theorem dup2_some (ho : fds.get old ≠ none) (hn : 0 ≤ new) : ∃ fds', fds.dup2 old new = some fds' := by
  unfold dup2
  split
  next hnone => exact absurd hnone ho
  next =>
    split
    next => exact ⟨_, rfl⟩
    next => simp

theorem afterExec_eq {target : FdTarget} :
    fds.afterExec x = some target ↔ fds.get x = some ⟨target, false⟩ := by
  unfold afterExec
  constructor
  · intro hx
    obtain ⟨d, hd, hc⟩ := Option.bind_eq_some_iff.mp hx
    rw [hd]
    split at hc
    next => cases hc
    next hflag =>
      cases hc
      rw [Bool.not_eq_true] at hflag
      rw [← hflag]
  · intro hx
    rw [hx]
    rfl

end FdTable

/-- Above the first three descriptors the child has what it has inherited, less what it closes. -/
theorem spawnChild_get {p : PexecSingle} {fds fds' : FdTable} (hok : p.spawnChild fds = .ok fds')
    {x : Int} (hx : x ∉ [0, 1, 2]) : fds'.get x = if x ∈ p.stdio then none else fds.get x := by
  simp only [List.mem_cons, List.not_mem_nil, or_false, not_or] at hx
  unfold PexecSingle.spawnChild at hok
  split at hok
  next => cases hok
  split at hok
  next => cases hok
  split at hok
  next => cases hok
  split at hok
  next => cases hok
  next fds₀ h₀ =>
    split at hok
    next => cases hok
    next fds₁ h₁ =>
      split at hok
      next => cases hok
      next fds₂ h₂ =>
        have hget : fds₂.get x = fds.get x := by
          rw [FdTable.dup2_get_ne h₂ hx.2.2, FdTable.dup2_get_ne h₁ hx.2.1,
            FdTable.dup2_get_ne h₀ hx.1]
        cases hok
        rw [FdTable.closePipe_get, FdTable.closePipe_get, FdTable.closePipe_get, hget]
        simp only [PexecSingle.stdio, List.mem_cons, List.not_mem_nil, or_false]
        split_ifs <;> first | rfl | tauto

/-- A child that has its own ends of the three pipes gets to `execvp`. -/
theorem spawnChild_ok {p : PexecSingle} {fds : FdTable} (hin : fds.get p.pipeStdin.rd ≠ none)
    (hout : fds.get p.pipeStdout.wr ≠ none) (herr : fds.get p.pipeStderr.wr ≠ none) :
    ∃ fds', p.spawnChild fds = .ok fds' := by
  unfold PexecSingle.spawnChild
  rw [if_neg hin, if_neg hout, if_neg herr]
  obtain ⟨fds₀, h₀⟩ := FdTable.dup2_some hin (show (0 : Int) ≤ 0 by decide)
  obtain ⟨fds₁, h₁⟩ := FdTable.dup2_some (FdTable.dup2_open h₀ hout) (show (0 : Int) ≤ 1 by decide)
  obtain ⟨fds₂, h₂⟩ := FdTable.dup2_some (FdTable.dup2_open h₁ (FdTable.dup2_open h₀ herr))
    (show (0 : Int) ≤ 2 by decide)
  simp only [h₀, h₁, h₂]
  exact ⟨_, rfl⟩

/-- The arrays of another object hold none of the numbers that the child closes. -/
theorem Sys.Owns.stdio_ne (ho : s.Owns) {x : Nat} (hx : x ≠ h) {slot : Slot}
    (hslot : slot.owner = some x) (hopen : (s.array slot).rd ≠ -1) :
    (s.array slot).rd ∉ (s.procs h).stdio ∧ (s.array slot).wr ∉ (s.procs h).stdio := by
  have hne : ∀ y ∈ objectSlots h, slot ≠ y := by
    rintro y hy rfl
    refine hx (Option.some.inj (hslot.symm.trans ?_))
    simp only [objectSlots, List.mem_cons, List.not_mem_nil, or_false] at hy
    rcases hy with rfl | rfl | rfl | rfl <;> rfl
  have hin := hne (.stdin h) (by simp [objectSlots])
  have hout := hne (.stdout h) (by simp [objectSlots])
  have herr := hne (.stderr h) (by simp [objectSlots])
  simp only [PexecSingle.stdio, List.mem_cons, List.not_mem_nil, or_false, not_or]
  exact ⟨⟨(Owned.rd_ne ho hout hopen).1, (Owned.rd_ne ho hout hopen).2, (Owned.rd_ne ho herr hopen).1,
      (Owned.rd_ne ho herr hopen).2, (Owned.rd_ne ho hin hopen).1, (Owned.rd_ne ho hin hopen).2⟩,
    ⟨(Owned.wr_ne ho hout hopen).1, (Owned.wr_ne ho hout hopen).2, (Owned.wr_ne ho herr hopen).1,
      (Owned.wr_ne ho herr hopen).2, (Owned.wr_ne ho hin hopen).1, (Owned.wr_ne ho hin hopen).2⟩⟩

/-- A child that was forked with the descriptors there are: it has none of the other processes
exactly if there is no other process. -/
theorem Sound.unleaked_iff {child : Child} (hs : Sound s) (hl : s.active.lookup pid = some h)
    (hc : s.children.lookup pid = some child) (hf : child.fds = s.fds) :
    Unleaked s pid h ↔ ∀ p x, s.active.lookup p = some x → p = pid := by
  have ho := hs.isolated.owns
  have hserved := hs.on.served pid h hl
  constructor
  · intro hu p x hx
    by_contra hne
    have hxh : x ≠ h := by
      rintro rfl
      exact hne (hs.on.desk.active_inj hl hx)
    have hready := hserved.ready
    have hopened : ∀ slot ∈ objectSlots h, s.fds.get (s.array slot).rd ≠ none ∧
        s.fds.get (s.array slot).wr ≠ none := by
      intro slot hslot
      obtain ⟨pipe, _, hr, hw⟩ := (Owned.ends ho slot).held (hready slot hslot)
      exact ⟨by rw [hr]; exact Option.some_ne_none _, by rw [hw]; exact Option.some_ne_none _⟩
    obtain ⟨fds, hok⟩ := spawnChild_ok (p := s.procs h)
      (hf ▸ (hopened (.stdin h) (by simp [objectSlots])).1)
      (hf ▸ (hopened (.stdout h) (by simp [objectSlots])).2)
      (hf ▸ (hopened (.stderr h) (by simp [objectSlots])).2)
    have hexec : s.execFds pid h = some fds := by
      rw [Sys.execFds, hc, Option.bind_some, hok, Except.toOption]
    -- the streams of the other process are inherited at their numbers, unless these are taken
    have hother := hs.on.served p x hx
    have hkept : ∀ fd pipe target slot, slot ∈ objectSlots x → (s.array slot).pipe = some pipe →
        target.pipe? = some pipe → fd ∉ (s.procs h).stdio → s.fds.get fd = some ⟨target, false⟩ →
        fd ∈ [0, 1, 2] := by
      intro fd pipe target slot hslot hp ht hfd hget
      by_contra hstd
      have : fds.get fd = some ⟨target, false⟩ := by
        rw [spawnChild_get hok hstd, if_neg hfd, hf, hget]
      exact hstd (hu fds hexec fd target (FdTable.afterExec_eq.mpr this)
        ⟨p, x, slot, pipe, hx, hslot, hp, ht⟩)
    have hboth : ∀ slot ∈ objectSlots x, slot.owner = some x → slot.cloexec = false →
        (s.array slot).rd ∈ [0, 1, 2] ∧ (s.array slot).wr ∈ [0, 1, 2] := by
      intro slot hslot howner hflag
      have hopen := hother.ready slot hslot
      obtain ⟨pipe, hp, hr, hw⟩ := (Owned.ends ho slot).held hopen
      rw [hother.flags slot hslot, hflag] at hr hw
      have hne := ho.stdio_ne hxh howner hopen
      exact ⟨hkept _ pipe _ slot hslot hp rfl hne.1 hr, hkept _ pipe _ slot hslot hp rfl hne.2 hw⟩
    have hin := hboth (.stdin x) (by simp [objectSlots]) rfl rfl
    have hout := hboth (.stdout x) (by simp [objectSlots]) rfl rfl
    have hopenIn := hother.ready (.stdin x) (by simp [objectSlots])
    have hopenOut := hother.ready (.stdout x) (by simp [objectSlots])
    have h₁ := (Owned.ends ho (.stdin x)).rd_ne_wr hopenIn
    have h₂ := (Owned.ends ho (.stdout x)).rd_ne_wr hopenOut
    have h₃ := Owned.rd_ne ho (i := .stdin x) (j := .stdout x) (by simp) hopenIn
    have h₄ := Owned.wr_ne ho (i := .stdin x) (j := .stdout x) (by simp) hopenIn
    simp only [List.mem_cons, List.not_mem_nil, or_false] at hin hout
    omega
  · intro honly fds hexec fd target hkept hend
    rw [Sys.execFds, hc, Option.bind_some] at hexec
    have hok : (s.procs h).spawnChild child.fds = .ok fds := by
      cases hspawn : (s.procs h).spawnChild child.fds with
      | ok fds' =>
        rw [hspawn] at hexec
        exact congrArg Except.ok (Option.some.inj hexec)
      | error e =>
        rw [hspawn] at hexec
        cases hexec
    obtain ⟨p, x, slot, pipe, hx, hslot, hp, ht⟩ := hend
    obtain rfl := honly p x hx
    rw [hl] at hx
    cases hx
    by_contra hstd
    have hget := FdTable.afterExec_eq.mp hkept
    rw [spawnChild_get hok hstd] at hget
    by_cases hfd : fd ∈ (s.procs h).stdio
    · rw [if_pos hfd] at hget
      cases hget
    · rw [if_neg hfd, hf] at hget
      have hmine := Owned.only ho slot pipe fd target hp (FdTable.target_eq.mpr ⟨_, hget, rfl⟩) ht
      simp only [objectSlots, List.mem_cons, List.not_mem_nil, or_false] at hslot
      rcases hslot with rfl | hslot
      · obtain ⟨pipe', _, hr, hw⟩ := (Owned.ends ho (.watch h)).held
          (hserved.ready (.watch h) (by simp [objectSlots]))
        rw [hserved.flags (.watch h) (by simp [objectSlots])] at hr hw
        rcases hmine with rfl | rfl
        · rw [hr] at hget
          cases hget
        · rw [hw] at hget
          cases hget
      · refine hfd ?_
        simp only [PexecSingle.stdio, List.mem_cons, List.not_mem_nil, or_false]
        rcases hslot with rfl | rfl | rfl <;> rcases hmine with rfl | rfl <;> simp [Sys.array]

/-- The step in which a process becomes active. -/
theorem Life.spawned {l : Label} (hs : Life s) (hstep : Under PreviousFinished Step s l t)
    (hold : s.active.lookup pid = none) (hnew : t.active.lookup pid = some h) :
    Sound t ∧ t.active = s.active.insert pid h ∧
      ∃ child, t.children.lookup pid = some child ∧ child.fds = t.fds := by
  have hcontra : ∀ u : Sys, u.active = s.active → u.active.lookup pid ≠ some h := by
    intro u hu hl
    rw [hu, hold] at hl
    cases hl
  obtain ⟨hp, he, ht⟩ := hstep
  have hlife : Life t := by
    have := life_step hs he hp
    rwa [ht] at this
  cases l with
  | exec args hasOnStop =>
    obtain ⟨t', ht', hsent⟩ := multiExec_ok hs.isolated args hasOnStop
    cases (show multiExec args hasOnStop s = .ok () t from ht).symm.trans ht'
    exact absurd hnew (hcontra t (hsent.field Sys.active fun _ _ _ _ => rfl))
  | stop flag signum =>
    obtain ⟨t', ht', hsent⟩ := sendJob_ok hs.isolated.owns (some (.stop flag signum))
    cases (show sendJob (some (.stop flag signum)) s = .ok () t from ht).symm.trans ht'
    exact absurd hnew (hcontra t (hsent.field Sys.active fun _ _ _ _ => rfl))
  | env act =>
    cases ht
    exact absurd hnew (hcontra _ ((envAct_elsewhere act s).field Sys.active fun _ _ _ _ => rfl))
  | run type c =>
    rcases hs.run_cases hp with ⟨e, t', ht', _⟩ | ⟨t', ht', hstart | hrefuse⟩
    · cases ht.symm.trans ht'
    · cases ht.symm.trans ht'
      exact absurd hnew (hcontra t (hstart.field Sys.active fun _ => rfl))
    · cases ht.symm.trans ht'
      exact absurd hnew (hcontra t (hrefuse.field Sys.active fun _ => rfl))
  | selectError =>
    obtain ⟨t', ht', hend⟩ := selectFails_ok s
    cases (show selectFails s = .ok () t from ht).symm.trans ht'
    exact absurd hnew (hcontra t hend.quiet.2)
  | event fd c =>
    have hcases := hs.event_cases he
    rw [ht] at hcases
    rcases hcases with ⟨hon, hev⟩ | hint
    · cases hev with
      | serves _ hr =>
        have := (hr.active pid h hnew).symm.trans hold
        cases this
      | @jobbed u _ hw hread hjob =>
        obtain ⟨hc, ha, _⟩ := hread.quiet
        rcases hjob.hires with ⟨_, ha'⟩ | ⟨p, x, child, _, hp, _, hc', hf, ha'⟩
        · exact absurd hnew (hcontra t (ha'.trans ha))
        · rw [ha'] at hnew
          rcases (lookup_insert_fresh hp).mp hnew with ⟨rfl, rfl⟩ | hnew
          · refine ⟨⟨hlife.isolated, hon⟩, ?_, child, ?_, hf⟩
            · rw [ha', ha]
              rfl
            · rw [hc', AList.lookup_insert]
          · rw [ha] at hnew
            exact absurd (hnew.symm.trans hold) (by simp)
      | @emptied u v _ hw hread hempty hhalted =>
        have hv : v.active = u.active := by rw [hempty.frame]
        exact absurd hnew (hcontra t (hhalted.quiet.2.trans (hv.trans hread.quiet.2.1)))
      | @broken u _ rs hw _ _ hserves hr hhalted =>
        rw [hhalted.quiet.2] at hnew
        have := (hr.active pid h hnew).symm.trans hold
        cases this
    · obtain ⟨u, hd, hend⟩ := hint.ended
      exact absurd hnew (hcontra t (hend.quiet.2.trans hd.quiet.2.1))

/-- In every run of the object, a child gets no pipe end of a sibling exactly if it has none. -/
theorem unleaked_iff_alone {w : World} {ls : List Label} {l : Label}
    (hnew : newMulti (boot w) = .ok () s) (hrun : Run (Under PreviousFinished Step) s ls t)
    (hstep : Under PreviousFinished Step t l u) (hold : t.active.lookup pid = none)
    (hspawn : u.active.lookup pid = some h) : Unleaked u pid h ↔ t.active = ∅ := by
  obtain ⟨hsound, hactive, child, hc, hf⟩ := (run_life hnew hrun).spawned hstep hold hspawn
  rw [hsound.unleaked_iff hspawn hc hf]
  constructor
  · intro honly
    refine AList.ext (List.eq_nil_iff_forall_not_mem.mpr fun e he => ?_)
    have hl : t.active.lookup e.1 = some e.2 := AList.mem_lookup_iff.mpr he
    have hpid : pid ∉ t.active := AList.lookup_eq_none.mp hold
    have hkey := honly e.1 e.2 (hactive ▸ (lookup_insert_fresh hpid).mpr (.inr hl))
    rw [hkey, hold] at hl
    cases hl
  · intro hempty p x hx
    rw [hactive, hempty, lookup_insert_fresh (AList.notMem_empty _)] at hx
    rcases hx with ⟨rfl, _⟩ | hx
    · rfl
    · cases hx

/-- Jobs for two processes, and a run. -/
def jobsMulti : Sys := freshMulti.after [.exec ['a'] false, .exec ['b'] false]

def runningMulti : Sys := jobsMulti.after [.run .default {}]

/-- The first of the two has been spawned. -/
def pairedMulti : Sys := runningMulti.after [.event 0 {}]

/-- Then the second one is. -/
def siblingMulti : Sys := pairedMulti.after [.event 0 {}]

theorem pairedMulti_run : Run (Under PreviousFinished Step) freshMulti
    ([] ++ [.exec ['a'] false] ++ [.exec ['b'] false] ++ [.run .default {}] ++ [.event 0 {}])
    pairedMulti := by
  refine .snoc (.snoc (.snoc (.snoc .nil ⟨trivial, step_after ?_⟩) ⟨trivial, step_after ?_⟩)
    ⟨⟨?_, ?_⟩, step_after (s := jobsMulti) ?_⟩) ⟨trivial, step_after (s := runningMulti) ?_⟩
  · decide +kernel
  · decide +kernel
  · exact (rfl : jobsMulti.active = ∅)
  · exact (rfl : jobsMulti.registered = ∅)
  · decide +kernel
  · decide +kernel

theorem siblingMulti_step : Under PreviousFinished Step pairedMulti (.event 0 {}) siblingMulti :=
  ⟨trivial, step_after (by decide +kernel)⟩

/-- The second program has the write end of the first one's standard input. -/
theorem sibling_stdin_leaks : newMulti (boot {}) = .ok () freshMulti ∧
    Run (Under PreviousFinished Step) freshMulti
      ([] ++ [.exec ['a'] false] ++ [.exec ['b'] false] ++ [.run .default {}] ++ [.event 0 {}])
      pairedMulti ∧
    Under PreviousFinished Step pairedMulti (.event 0 {}) siblingMulti ∧
    pairedMulti.active.lookup 1 = some 0 ∧ pairedMulti.active.lookup 2 = none ∧
    siblingMulti.active.lookup 2 = some 1 ∧
    (siblingMulti.procs 0).proc.stdinFd = 7 ∧ ¬Unleaked siblingMulti 2 1 := by
  have hactive : siblingMulti.active.lookup 1 = some 0 := by decide +kernel
  have hpipe : (siblingMulti.array (.stdin 0)).pipe = some 3 := by decide +kernel
  have hexec : ((siblingMulti.execFds 2 1).bind fun fds => fds.afterExec 7) = some (.writeEnd 3) := by
    decide +kernel
  refine ⟨rfl, pairedMulti_run, siblingMulti_step, ?_, ?_, ?_, ?_, fun hu => ?_⟩
  · decide +kernel
  · decide +kernel
  · decide +kernel
  · decide +kernel
  · obtain ⟨fds, hfds, hkept⟩ := Option.bind_eq_some_iff.mp hexec
    have := hu fds hfds 7 (.writeEnd 3) hkept
      ⟨1, 0, .stdin 0, 3, hactive, by simp [objectSlots], hpipe, rfl⟩
    simp at this

theorem unleaked_iff_alone_sibling : Unleaked siblingMulti 2 1 ↔ pairedMulti.active = ∅ :=
  unleaked_iff_alone freshMulti_ok pairedMulti_run siblingMulti_step (by decide +kernel)
    (by decide +kernel)

end Pexec
