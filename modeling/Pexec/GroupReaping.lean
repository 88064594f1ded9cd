import Pexec.PidSafety
import Pexec.Rerunning

namespace Pexec

open Effect Runs

variable {h : Nat} {pid : Int} {s t u : Sys} {rs : List (Int × WaitStatus)}

theorem lookup_foldl_erase {β γ : Type} (rs : List (Int × γ)) : ∀ m : AList (fun _ : Int => β),
    (rs.foldl (fun m r => m.erase r.1) m).lookup pid =
      if pid ∈ rs.map Prod.fst then none else m.lookup pid := by
  induction rs with
  | nil => simp
  | cons r rs ih =>
    intro m
    rw [List.foldl_cons, ih, List.map_cons]
    by_cases he : pid = r.1
    · subst he
      simp [AList.lookup_erase]
    · simp only [AList.lookup_erase_ne he, List.mem_cons, he, false_or]

/-- A child that has been waited for is none of the terminated ones any more. -/
theorem mem_zombies_erased (hc : t.children = s.children.erase pid) (hg : t.pgid = s.pgid) {p : Int} :
    p ∈ t.zombies 0 ↔ p ≠ pid ∧ p ∈ s.zombies 0 := by
  rw [World.mem_zombies_group, World.mem_zombies_group, hc, hg]
  by_cases he : p = pid
  · subst he
    simp [AList.lookup_erase]
  · simp [he, AList.lookup_erase_ne he]

theorem Turn.zombies {o : Option (Int × WaitStatus)} (ht : Turn s o t) :
    (∀ p, p ∈ s.zombies 0 ↔ p ∈ o.toList.map Prod.fst ∨ p ∈ t.zombies 0) ∧ t.faults = s.faults.tail := by
  have htaken : ∀ pid, pid ∈ s.zombies 0 → t.children = s.children.erase pid → t.pgid = s.pgid →
      ∀ p, p ∈ s.zombies 0 ↔ p = pid ∨ p ∈ t.zombies 0 := by
    intro pid hm hc hg p
    rw [mem_zombies_erased hc hg]
    by_cases he : p = pid
    · exact iff_of_true (he ▸ hm) (.inl he)
    · simp [he]
  cases ht with
  | again => exact ⟨fun p => by simp; rfl, rfl⟩
  | foreign hm => exact ⟨fun p => by simpa using htaken _ hm rfl rfl p, rfl⟩
  | own hm _ _ _ hf =>
    have hc := hf.acts.field (·.children) fun _ => rfl
    have hg := hf.acts.field (·.pgid) fun _ => rfl
    exact ⟨fun p => by simpa using htaken _ hm hc hg p, hf.acts.field (·.faults) fun _ => rfl⟩

theorem Reaps.zombies (hr : Reaps s rs t) :
    (∀ p, p ∈ s.zombies 0 ↔ p ∈ rs.map Prod.fst ∨ p ∈ t.zombies 0) ∧ ∀ f ∈ t.faults, f ∈ s.faults := by
  induction hr with
  | nil => exact ⟨fun p => by simp, fun _ => id⟩
  | cons ht _ ih =>
    obtain ⟨hturn, hfaults⟩ := ht.zombies
    refine ⟨fun p => ?_, fun f hf => List.mem_of_mem_tail (hfaults ▸ ih.2 f hf)⟩
    rw [hturn, ih.1, List.map_append, List.mem_append, or_assoc]

/-- Where `waitpid` fails with EINTR at most, the statuses that one call takes are those of the
terminated children in the process group of the caller, whoever has forked them. -/
theorem handleSigchld_zombies (hs : Sound s) (hfaults : ∀ f ∈ s.faults, f = none ∨ f = some .eintr) :
    ∃ rs t, handleSigchld s = .ok () t ∧ Harvested rs s t ∧
      ∀ p, p ∈ rs.map Prod.fst ↔ p ∈ s.zombies 0 := by
  obtain ⟨a, rs, b, c, t, ht, ⟨haside, hf⟩, ⟨hr, _⟩, hlast, haside', _⟩ := handleSigchld_reaps hs
  obtain ⟨hzombies, hleft⟩ := hr.zombies
  have hb : b.zombies 0 = [] :=
    hlast.none_left fun f hm => hfaults f (List.mem_of_mem_tail (hf ▸ hleft f hm))
  have hc : a.children = s.children := haside.field (·.children) fun _ => rfl
  have hg : a.pgid = s.pgid := haside.field (·.pgid) fun _ => rfl
  refine ⟨rs, t, ht, hr.harvested_call hs.on haside (IsTrans.trans _ _ _ hlast.aside haside'), fun p => ?_⟩
  have hp := hzombies p
  rw [hb, World.mem_zombies_group, hc, hg, ← World.mem_zombies_group] at hp
  simpa using hp.symm

/-- The callbacks that are worth a status, of those in a step. -/
def newReports (s t : Sys) : List (Nat × State × ProcStatus) :=
  (reports t.calls).drop (reports s.calls).length

/-- Of the terminated children, those of the active processes are reported to them, each once and
with its own status, and the others are left to those who have forked them. -/
structure ReapsOwn (s t : Sys) : Prop where
  own : ∀ pid h child status, s.active.lookup pid = some h → s.children.lookup pid = some child →
    child.status = some status → (newReports s t).filter (·.1 = h) = s.verdict (pid, status)
  others : ∀ pid, pid ∉ s.active → t.children.lookup pid = s.children.lookup pid

/-- The terminated children in the process group of the caller are those of the active processes. -/
def OwnGroup (s : Sys) : Prop :=
  ∀ pid child, s.children.lookup pid = some child → child.status.isSome = true →
    (child.pgid = s.pgid ↔ pid ∈ s.active)

theorem verdict_owner {r : Int × WaitStatus} {call : Nat × State × ProcStatus}
    (hm : call ∈ s.verdict r) : s.active.lookup r.1 = some call.1 := by
  unfold Sys.verdict at hm
  cases hl : s.active.lookup r.1 with
  | none =>
    rw [hl] at hm
    cases hm
  | some h =>
    rw [hl] at hm
    simp only [List.mem_cons, List.not_mem_nil, or_false] at hm
    rcases hm with rfl | rfl <;> rfl

theorem Desk.verdict_filter (hs : Desk s) (hl : s.active.lookup pid = some h) (r : Int × WaitStatus) :
    (s.verdict r).filter (·.1 = h) = if r.1 = pid then s.verdict r else [] := by
  split
  next he =>
    refine List.filter_eq_self.mpr fun call hm => decide_eq_true ?_
    exact Option.some.inj ((verdict_owner hm).symm.trans (he ▸ hl))
  next hne =>
    refine List.filter_eq_nil_iff.mpr fun call hm hx => hne ?_
    have howner := verdict_owner hm
    rw [of_decide_eq_true hx] at howner
    exact hs.active_inj hl howner

/-- Of the statuses with different pids, one at most is worth a callback for a process. -/
theorem Desk.verdicts_none (hs : Desk s) (hl : s.active.lookup pid = some h)
    (hm : pid ∉ rs.map Prod.fst) : (rs.flatMap s.verdict).filter (·.1 = h) = [] := by
  refine List.filter_eq_nil_iff.mpr fun call hcall => ?_
  obtain ⟨r, hr, hv⟩ := List.mem_flatMap.mp hcall
  have hne : r.1 ≠ pid := fun he => hm (List.mem_map.mpr ⟨r, hr, he⟩)
  have hnil := hs.verdict_filter hl r
  rw [if_neg hne] at hnil
  exact List.filter_eq_nil_iff.mp hnil call hv

theorem Desk.verdicts_one (hs : Desk s) (hl : s.active.lookup pid = some h) {status : WaitStatus} :
    ∀ rs : List (Int × WaitStatus), (rs.map Prod.fst).Nodup → (pid, status) ∈ rs →
      (rs.flatMap s.verdict).filter (·.1 = h) = s.verdict (pid, status)
  | r :: rs, hn, hm => by
    rw [List.map_cons, List.nodup_cons] at hn
    rw [List.flatMap_cons, List.filter_append, hs.verdict_filter hl]
    rcases List.mem_cons.mp hm with rfl | hm
    · rw [if_pos rfl, hs.verdicts_none hl hn.1, List.append_nil]
    · have hne : r.1 ≠ pid := fun he => hn.1 (he ▸ List.mem_map_of_mem hm)
      rw [if_neg hne, List.nil_append]
      exact hs.verdicts_one hl rs hn.2 hm

theorem Harvested.newReports (hr : Harvested rs s t) : Pexec.newReports s t = rs.flatMap s.verdict := by
  rw [Pexec.newReports, hr.reports, List.drop_left]

/-- One call of `handle_sigchld` reaps the library's own children if and only if it finds them in
the process group of the caller, and no other child there. -/
theorem Harvested.reapsOwn_iff (hr : Harvested rs s t) (hs : Desk s)
    (hz : ∀ p, p ∈ rs.map Prod.fst ↔ p ∈ s.zombies 0) : ReapsOwn s t ↔ OwnGroup s := by
  have hkept : ∀ p, t.children.lookup p =
      if p ∈ rs.map Prod.fst then Option.none else s.children.lookup p :=
    fun p => by rw [hr.children, lookup_foldl_erase]
  constructor
  · intro hown pid child hc hended
    obtain ⟨status, hstatus⟩ := Option.isSome_iff_exists.mp hended
    constructor
    · intro hg
      by_contra hm
      have hmem : pid ∈ rs.map Prod.fst := (hz pid).mpr (World.mem_zombies_group.mpr ⟨child, hc, hended, hg⟩)
      have hlost := hown.others pid hm
      rw [hkept, if_pos hmem, hc] at hlost
      cases hlost
    · intro hm
      obtain ⟨h, hl⟩ := Option.isSome_iff_exists.mp (AList.lookup_isSome.mpr hm)
      by_contra hg
      have hmem : pid ∉ rs.map Prod.fst := by
        rw [hz, World.mem_zombies_group]
        rintro ⟨child', hc', _, hg'⟩
        cases hc.symm.trans hc'
        exact hg hg'
      have htold := hown.own pid h child status hl hc hstatus
      rw [hr.newReports, hs.verdicts_none hl hmem] at htold
      simp [Sys.verdict, hl] at htold
  · intro hown
    refine ⟨fun pid h child status hl hc hstatus => ?_, fun pid hm => ?_⟩
    · have hended : child.status.isSome = true := by rw [hstatus]; rfl
      have hg := (hown pid child hc hended).mpr (AList.lookup_isSome.mp (by rw [hl]; rfl))
      obtain ⟨r, hmem, rfl⟩ := List.mem_map.mp
        ((hz pid).mpr (World.mem_zombies_group.mpr ⟨child, hc, hended, hg⟩))
      obtain ⟨child', hc', hval⟩ := hr.ended r hmem
      cases hc.symm.trans hc'
      rw [hstatus] at hval
      have hown : (r.1, (status : WaitStatus)) ∈ rs := by
        rw [Option.some.inj hval]
        exact hmem
      rw [hr.newReports]
      exact hs.verdicts_one hl rs hr.nodup hown
    · rw [hkept, if_neg fun hmem => ?_]
      obtain ⟨child, hc, hended, hg⟩ := World.mem_zombies_group.mp ((hz pid).mp hmem)
      exact hm ((hown pid child hc hended).mp hg)

theorem readSignal_sound {src : Source} {c : Choices} {fd : Int} (hs : Life s)
    (he : (Label.event fd c).enabled s) (hl : s.registered.lookup fd = some src)
    (hread : readSignalFrom s.sigchldPipe.rd (c.readFaults.length + 4) 4 [] (s.choose c) =
      .ok (some World.sigchldRecord) u) : Sound u ∧ u.faults = c.faults := by
  have hsound := (hs.event_source he hl).1
  have hdrained := readSignalFrom_drained (c.readFaults.length + 4) 4 [] _ hsound.isolated.owns
  have hiso := readSignalFrom_isolated (c.readFaults.length + 4) s.sigchldPipe.rd 4 [] (s.choose c)
    ⟨hsound.isolated, rfl⟩
  have harray : (s.choose c).sigchldPipe.rd = s.sigchldPipe.rd := rfl
  rw [harray, hread] at hdrained
  rw [hread] at hiso
  exact ⟨⟨hiso, hdrained.on hsound.on⟩, hdrained.field (·.faults) fun _ _ _ => rfl⟩

/-- A read of the output has failed and the process is detached; then it ends. -/
def detachedMulti : Sys := spawnedMulti.after
  [.event 8 { readFaults := [some (.other 5)] }, .env (.exit 1 ⟨0, terminated_zero⟩), .env .sigchld]

theorem detachedMulti_run : Run (Under PreviousFinished Step) freshMulti
    ([] ++ [.exec ['a'] false] ++ [.run .default {}] ++ [.event 0 {}] ++
      [.event 8 { readFaults := [some (.other 5)] }] ++ [.env (.exit 1 ⟨0, terminated_zero⟩)] ++
      [.env .sigchld]) detachedMulti :=
  .snoc (.snoc (.snoc spawnedMulti_run ⟨trivial, step_after (by decide +kernel)⟩)
    ⟨trivial, trivial, rfl⟩) ⟨trivial, trivial, rfl⟩

/-- The signal has been read. -/
def detachedRead : Sys := final (readSignalFrom 4 4 4 []) (detachedMulti.choose {})

theorem detachedRead_ok : readSignalFrom 4 4 4 [] (detachedMulti.choose {}) =
    .ok (some World.sigchldRecord) detachedRead :=
  ok_answer (by decide +kernel)

theorem detachedMulti_enabled : (Label.event 4 {}).enabled detachedMulti := by decide +kernel

end Pexec
