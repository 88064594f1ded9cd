import Pexec.MultiLife

namespace Pexec

open Effect Runs

variable {h : Nat} {pid : Int} {s t u : Sys}

/-- The keys of `active_procs_` are the pids of children that have not been waited for, each with
the handle that has forked it. -/
structure PidsOwned (s : Sys) : Prop where
  child : ∀ pid h, s.active.lookup pid = some h → pid ∈ s.children
  forked : ∀ pid h, s.active.lookup pid = some h →
    (s.procs h).procPid = pid ∧ (s.procs h).proc.pid = pid ∧
      ∃ hd, s.handles h = some hd ∧ hd.onProcStopped = some pid ∧ hd.retProc.pid = pid
  apart : ∀ pid pid' h, s.active.lookup pid = some h → s.active.lookup pid' = some h → pid' = pid

theorem On.pidsOwned (hs : On s) : PidsOwned s := by
  refine ⟨fun pid h hl => (hs.served pid h hl).child, fun pid h hl => ?_,
    fun pid pid' h hl hl' => hs.desk.active_inj hl hl'⟩
  have hserved := hs.served pid h hl
  obtain ⟨hd, hh, hcb⟩ := hs.desk.linked pid h hl
  obtain ⟨hd', hh', hret⟩ := hserved.handle
  cases hh.symm.trans hh'
  have hpid : (s.procs h).proc.pid = pid := by rw [hserved.proc]
  exact ⟨hserved.procPid, hpid, hd, hh, hcb, hret ▸ hpid⟩

/-- What a step may do with pids: a pid that becomes active is that of a child forked in the step;
only active children are signalled; the statuses that are taken are those of the children that are
gone, and each is reported to the process with that pid, or to none. -/
structure PidStep (s : Sys) (l : Label) (t : Sys) : Prop where
  hires : ∀ pid h, t.active.lookup pid = some h → s.active.lookup pid = some h ∨
    pid ∉ s.active ∧ (∀ p, s.active.lookup p ≠ some h) ∧ pid ∉ s.children ∧ pid ∈ t.children
  kills : ∃ pids, t.kills = s.kills ++ pids ∧ ∀ pid ∈ pids, pid ∈ s.active ∧ pid ∈ s.children
  reaps : ∃ rs : List (Int × WaitStatus), (rs.map Prod.fst).Nodup ∧
    (∀ r ∈ rs, ∃ child, s.children.lookup r.1 = some child ∧
      child.status.map Subtype.val = some r.2) ∧
    reports t.calls = reports s.calls ++ rs.flatMap s.verdict ∧
    ∀ pid ∈ s.children, pid ∉ t.children → pid ∈ rs.map Prod.fst ∨ ∃ act, l = .env act

theorem mem_foldl_erase {β γ : Type} {rs : List (Int × γ)} : ∀ {m : AList (fun _ : Int => β)},
    pid ∈ m → pid ∉ rs.foldl (fun m r => m.erase r.1) m → pid ∈ rs.map Prod.fst := by
  induction rs with
  | nil => exact fun hm hn => absurd hm hn
  | cons r rs ih =>
    intro m hm hn
    rw [List.map_cons, List.mem_cons]
    by_cases he : pid = r.1
    · exact .inl he
    · exact .inr (ih (AList.mem_erase.mpr ⟨he, hm⟩) hn)

/-- A step that reaps nothing, signals nothing and starts nothing. -/
theorem PidStep.quiet {l : Label} (ha : t.active = s.active)
    (hc : ∀ pid ∈ s.children, pid ∉ t.children → ∃ act, l = .env act) (hq : Uncalled s t) :
    PidStep s l t := by
  refine ⟨fun pid h hl => .inl (ha ▸ hl), ⟨[], ?_, by simp⟩, [], List.nodup_nil, by simp, ?_,
    fun pid hm hn => .inr (hc pid hm hn)⟩
  · exact hq.kills.trans (List.append_nil _).symm
  · rw [hq.calls, reports_append]
    rfl

theorem Harvested.pidStep {rs : List (Int × WaitStatus)} {l : Label} (hr : Harvested rs s t)
    (hk : t.kills = s.kills) : PidStep s l t := by
  refine ⟨fun pid h hl => .inl (hr.active pid h hl), ⟨[], hk.trans (List.append_nil _).symm, by simp⟩,
    rs, hr.nodup, hr.ended, hr.reports, fun pid hm hn => .inl ?_⟩
  rw [hr.children] at hn
  exact mem_foldl_erase hm hn

theorem Jobbed.pidStep {l : Label} (hs : On s) (hj : Jobbed s t) : PidStep s l t := by
  obtain ⟨pids, hkills, hactive⟩ := hj.kills
  have hkills' : ∀ pid ∈ pids, pid ∈ s.active ∧ pid ∈ s.children := by
    intro pid hm
    obtain ⟨h, hl⟩ := Option.isSome_iff_exists.mp (AList.lookup_isSome.mpr (hactive pid hm))
    exact ⟨hactive pid hm, (hs.served pid h hl).child⟩
  rcases hj.hires with ⟨hc, ha⟩ | ⟨pid, h, child, hfresh, hinactive, hnew, hc, _, ha⟩
  · refine ⟨fun p x hl => .inl (ha ▸ hl), ⟨pids, hkills, hkills'⟩, [], List.nodup_nil, by simp,
      by simpa using hj.reports, fun p hm hn => absurd (hc ▸ hm) hn⟩
  · refine ⟨fun p x hl => ?_, ⟨pids, hkills, hkills'⟩, [], List.nodup_nil, by simp,
      by simpa using hj.reports, fun p hm hn => ?_⟩
    · rw [ha] at hl
      rcases (lookup_insert_fresh hinactive).mp hl with ⟨rfl, rfl⟩ | hl
      · exact .inr ⟨hinactive, hnew, hfresh, hc ▸ (AList.mem_insert _).mpr (.inl rfl)⟩
      · exact .inl hl
    · exact absurd (hc ▸ (AList.mem_insert _).mpr (.inr hm)) hn

theorem Halted.quiet (hh : Halted s t) : t.children = s.children ∧ t.active = s.active := by
  obtain ⟨registered, loop, mapOrder, trace, vigil, pipes, hframe⟩ := hh.frame
  rw [hframe]
  exact ⟨rfl, rfl⟩

theorem Drained.quiet {slot : Slot} (hd : Drained slot s t) :
    t.children = s.children ∧ t.active = s.active ∧ Uncalled s t :=
  ⟨hd.field (·.children) fun _ _ _ => rfl, hd.field Sys.active fun _ _ _ => rfl,
    Uncalled.same (hd.field (·.trace) fun _ _ _ => rfl)⟩

theorem Evented.pidStep {fd : Int} {l : Label} (hs : Sound s) (he : Evented s fd t) :
    PidStep s l t := by
  cases he with
  | serves hserves hr => exact hr.pidStep hserves.kills
  | @jobbed u _ hw hread hjob =>
    obtain ⟨hc, ha, hq⟩ := hread.quiet
    have hstep : PidStep u l t := hjob.pidStep (hread.on hs.on)
    have hkills : u.kills = s.kills := hq.kills
    have hcalls : u.calls = s.calls := hq.calls.trans (List.append_nil _)
    have hverdict : u.verdict = s.verdict := by
      funext r
      exact Sys.verdict_congr (by rw [ha]) fun h _ => congrFun (hread.field Sys.procs fun _ _ _ => rfl) h
    obtain ⟨hhires, hk, hrs⟩ := hstep
    rw [ha, hc] at hhires
    rw [hkills, ha, hc] at hk
    rw [hcalls, hc, hverdict] at hrs
    exact ⟨hhires, hk, hrs⟩
  | @emptied u v _ hw hread hempty hhalted =>
    obtain ⟨hc, ha, hq⟩ := hread.quiet
    obtain ⟨hc', ha'⟩ := hhalted.quiet
    have hcv : v.children = u.children := by rw [hempty.frame]
    have hav : v.active = u.active := by rw [hempty.frame]
    have hqv : Uncalled u v := Uncalled.same (by rw [hempty.frame])
    refine .quiet (ha'.trans (hav.trans ha)) (fun p hm hn => absurd ?_ hn)
      (IsTrans.trans _ _ _ hq (IsTrans.trans _ _ _ hqv hhalted.uncalled))
    rw [hc', hcv, hc]
    exact hm
  | @broken u _ rs hw _ _ hserves hr hhalted =>
    obtain ⟨hc', ha'⟩ := hhalted.quiet
    exact (hr.after hc' ha' hhalted.uncalled).pidStep (hhalted.uncalled.kills.trans hserves.kills)

theorem Ended.quiet (he : Ended s t) : t.children = s.children ∧ t.active = s.active :=
  ⟨he.field (·.children) fun _ => rfl, he.field Sys.active fun _ => rfl⟩

/-- Nothing is to be finished before a step of a run that goes on. -/
theorem previousFinished_of_running {l : Label} (hr : s.running = true) (he : l.enabled s) :
    PreviousFinished s l := by
  cases l with
  | run type c => exact absurd (hr.symm.trans he) (by decide)
  | exec | stop | env | event | selectError => trivial

/-- A step in which no descriptor is ready tells nobody anything, and no child is waited for but by
others. -/
theorem Life.quiet_step {l : Label} (hs : Life s) (hp : PreviousFinished s l) (hstep : Step s l t)
    (hl : ∀ fd c, l ≠ .event fd c) : t.active = s.active ∧
      (∀ pid ∈ s.children, pid ∉ t.children → ∃ act, l = .env act) ∧ Uncalled s t := by
  obtain ⟨he, ht⟩ := hstep
  cases l with
  | exec args hasOnStop =>
    obtain ⟨t', ht', hsent⟩ := multiExec_ok hs.isolated args hasOnStop
    cases (show multiExec args hasOnStop s = .ok () t from ht).symm.trans ht'
    have hc : t.children = s.children := hsent.field (·.children) fun _ _ _ _ => rfl
    have htrace : t.trace = s.trace := hsent.field (·.trace) fun _ _ _ _ => rfl
    exact ⟨hsent.field Sys.active fun _ _ _ _ => rfl, fun p hm hn => absurd (hc ▸ hm) hn,
      Uncalled.same htrace⟩
  | stop flag signum =>
    obtain ⟨t', ht', hsent⟩ := sendJob_ok hs.isolated.owns (some (.stop flag signum))
    cases (show sendJob (some (.stop flag signum)) s = .ok () t from ht).symm.trans ht'
    have hc : t.children = s.children := hsent.field (·.children) fun _ _ _ _ => rfl
    have htrace : t.trace = s.trace := hsent.field (·.trace) fun _ _ _ _ => rfl
    exact ⟨hsent.field Sys.active fun _ _ _ _ => rfl, fun p hm hn => absurd (hc ▸ hm) hn,
      Uncalled.same htrace⟩
  | env act =>
    cases ht
    have hact := envAct_elsewhere act s
    exact ⟨hact.field Sys.active fun _ _ _ _ => rfl, fun _ _ _ => ⟨act, rfl⟩,
      Uncalled.same (hact.field (·.trace) fun _ _ _ _ => rfl)⟩
  | run type c =>
    rcases hs.run_cases hp with ⟨e, t', ht', _⟩ | ⟨t', ht', hrun⟩
    · cases ht.symm.trans ht'
    · cases ht.symm.trans ht'
      obtain ⟨ha, hc, hq⟩ : t.active = s.active ∧ t.children = s.children ∧ Uncalled s t := by
        rcases hrun with hst | href
        · exact ⟨hst.field Sys.active fun _ => rfl, hst.field (·.children) fun _ => rfl,
            hst.uncalled.calls, hst.uncalled.kills⟩
        · exact ⟨href.field Sys.active fun _ => rfl, href.field (·.children) fun _ => rfl,
            href.uncalled.calls, href.uncalled.kills⟩
      exact ⟨ha, fun p hm hn => absurd (hc ▸ hm) hn, hq⟩
  | event fd c => exact absurd rfl (hl fd c)
  | selectError =>
    obtain ⟨t', ht', hend⟩ := selectFails_ok s
    cases (show selectFails s = .ok () t from ht).symm.trans ht'
    obtain ⟨hc, ha⟩ := hend.quiet
    exact ⟨ha, fun p hm hn => absurd (hc ▸ hm) hn, hend.uncalled⟩

theorem Interrupted.quiet (hi : Interrupted s t) :
    t.children = s.children ∧ t.active = s.active ∧ Uncalled s t := by
  obtain ⟨u, hd, hend⟩ := hi.ended
  obtain ⟨hc, ha, hq⟩ := hd.quiet
  obtain ⟨hc', ha'⟩ := hend.quiet
  exact ⟨hc'.trans hc, ha'.trans ha, IsTrans.trans _ _ _ hq hend.uncalled⟩

theorem Life.pidStep {l : Label} (hs : Life s) (hp : PreviousFinished s l) (hstep : Step s l t) :
    PidStep s l t := by
  by_cases hl : ∃ fd c, l = .event fd c
  · obtain ⟨fd, c, rfl⟩ := hl
    obtain ⟨he, ht⟩ := hstep
    have hcases := hs.event_cases he
    rw [ht] at hcases
    rcases hcases with ⟨_, hev⟩ | hint
    · have hev' : PidStep (s.choose c) (.event fd c) t :=
        hev.pidStep (Sound.choose ⟨hs.isolated, (hs.due he).1⟩ c)
      exact ⟨hev'.hires, hev'.kills, hev'.reaps⟩
    · obtain ⟨hc, ha, hq⟩ := hint.quiet
      have hc' : t.children = s.children := hc
      exact .quiet ha (fun p hm hn => absurd (hc' ▸ hm) hn) ⟨hq.calls, hq.kills⟩
  · obtain ⟨ha, hc, hq⟩ := hs.quiet_step hp hstep fun fd c he => hl ⟨fd, c, he⟩
    exact .quiet ha hc hq

end Pexec
