import Pexec.Enrolling
import Pexec.Lib.GracefulStop

namespace Pexec

open Effect

/-- The ticket that a job is for the stop protocol. -/
def ticket : Option Job → GracefulStop.Ticket Nat (StopFlag × Int)
  | none => .sentinel
  | some (.spawn h) => .start h
  | some (.stop flag signum) => .stop (flag, signum)

def startedBy : Nat × State × ProcStatus → Option Nat
  | (h, .started, _) => some h
  | _ => none

def endedBy (call : Nat × State × ProcStatus) : Option Nat :=
  if call.2.1.terminal then some call.1 else none

/-- What a `pexec_multi` is for: a service that starts processes and stops. -/
def Sys.service (s : Sys) : GracefulStop.Service Nat (StopFlag × Int) where
  queue := s.buffer.map ticket
  sentinels := s.added.count none
  running := {h | ∃ pid, s.active.lookup pid = some h}
  issued := {h | h < s.nextHandle}
  stopping := s.stopping
  flag := (s.stopFlag, s.stopSignum)
  isOpen := s.watching
  started := s.calls.filterMap startedBy
  ended := s.calls.filterMap endedBy

/-- What the callbacks of the loop leave as it is. -/
def Sys.core (s : Sys) : PipeFds × LoopType × Bool × Bool × Nat × PipeFds × Option Int :=
  (s.controlPipe, s.loopType, s.running, s.watching, s.nextHandle, s.sigchldPipe,
    s.loop.map fun e => e.controlPipe.rd)

/-- A part of a callback as the stop protocol sees it. -/
structure Serves (s t : Sys) : Prop where
  moves : GracefulStop.Moves s.service t.service
  core : t.core = s.core
  kills : t.kills = s.kills
  loop : s.Owns → t.Owns ∧ t.stream .loop = s.stream .loop

instance : IsPreorder Sys Serves where
  refl _ := ⟨.refl, rfl, rfl, fun hs => ⟨hs, rfl⟩⟩
  trans _ _ _ hst htu := ⟨hst.moves.trans htu.moves, htu.core.trans hst.core,
    htu.kills.trans hst.kills, fun hs => ⟨(htu.loop (hst.loop hs).1).1,
      (htu.loop (hst.loop hs).1).2.trans (hst.loop hs).2⟩⟩

variable {h : Nat} {pid : Int} {s t u : Sys}

theorem AList.keys_eq_nil {β : Type} {m : AList (fun _ : Int => β)} :
    m.keys = [] ↔ ∀ k, m.lookup k = none := by
  rw [List.eq_nil_iff_forall_not_mem]
  exact forall_congr' fun k => by rw [AList.lookup_eq_none, AList.mem_keys]

theorem Sys.running_empty : s.service.running = ∅ ↔ s.active.keys = [] := by
  rw [AList.keys_eq_nil, Set.eq_empty_iff_forall_notMem]
  constructor
  · intro he k
    cases hk : s.active.lookup k with
    | none => rfl
    | some h => exact absurd ⟨k, hk⟩ (he h)
  · rintro he h ⟨k, hk⟩
    rw [he k] at hk
    cases hk

/-- Nothing that the stop protocol sees has changed. -/
theorem Sys.service_eq (hb : t.buffer = s.buffer) (ha : t.added = s.added)
    (hact : t.active = s.active) (hn : t.nextHandle = s.nextHandle) (hs : t.stopping = s.stopping)
    (hf : t.stopFlag = s.stopFlag) (hg : t.stopSignum = s.stopSignum) (hw : t.watching = s.watching)
    (hc : Uncalled s t) : t.service = s.service := by
  have hcalls : t.calls = s.calls := hc.calls.trans (List.append_nil _)
  simp only [Sys.service, hb, ha, hact, hn, hs, hf, hg, hw, hcalls]

theorem Aside.serves (ha : Aside s t) : Serves s t := by
  have hservice : t.service = s.service :=
    Sys.service_eq (ha.field Sys.buffer fun _ => rfl) (ha.field Sys.added fun _ => rfl)
      (ha.field Sys.active fun _ => rfl) (ha.field Sys.nextHandle fun _ => rfl)
      (ha.field Sys.stopping fun _ => rfl) (ha.field Sys.stopFlag fun _ => rfl)
      (ha.field Sys.stopSignum fun _ => rfl) (ha.field Sys.watching fun _ => rfl) ha.uncalled
  refine ⟨by rw [hservice], ha.field Sys.core fun _ => rfl, ha.uncalled.kills, fun hs => ?_⟩
  exact ⟨hs.congr (ha.field (·.fds) fun _ => rfl) (ha.field Sys.array fun _ => rfl),
    ha.field (Sys.stream · .loop) fun _ => rfl⟩

theorem Acts.core (ha : Acts h s t) : t.core = s.core := by
  refine ha.field Sys.core fun u => ?_
  simp only [Sys.core, Sys.off, Option.map_map]
  rfl

/-- The processes that run once one of them has ended. -/
theorem Desk.running_erase (hs : Desk s) (hl : s.active.lookup pid = some h)
    (hactive : t.active = s.active.erase pid) : t.service.running = s.service.running \ {h} := by
  ext x
  simp only [Sys.service, Set.mem_ofPred_eq, Set.mem_sdiff, Set.mem_singleton_iff, hactive]
  constructor
  · rintro ⟨p, hp⟩
    refine ⟨⟨p, lookup_of_erase hp⟩, ?_⟩
    rintro rfl
    exact hs.active_erase hl p hp
  · rintro ⟨⟨p, hp⟩, hx⟩
    refine ⟨p, ?_⟩
    have hne : p ≠ pid := by
      rintro rfl
      exact hx (Option.some.inj (hp.symm.trans hl))
    rwa [AList.lookup_erase_ne hne]

/-- The end of a process is one move of the stop protocol. -/
theorem Finished.move {new : List (Nat × State × ProcStatus)} (hs : Desk s)
    (hl : s.active.lookup pid = some h) (hf : Finished pid h new s t)
    (hstart : new.filterMap startedBy = []) (hend : new.filterMap endedBy = [h]) :
    GracefulStop.Move s.service t.service := by
  have hmem : h ∈ s.service.running := ⟨pid, hl⟩
  have hrun := hs.running_erase hl hf.gone.active
  have hidle : s.service.running \ {h} = ∅ ↔ (s.active.erase pid).keys = [] := by
    rw [← hrun, Sys.running_empty, hf.gone.active]
  have hservice : t.service = { s.service with
      running := s.service.running \ {h}
      ended := s.service.ended ++ [h]
      queue := s.service.queue ++ (s.sentinel pid).map ticket
      sentinels := s.service.sentinels + (s.sentinel pid).count none } := by
    rw [← hrun]
    have hn : t.nextHandle = s.nextHandle := hf.acts.field Sys.nextHandle fun _ => rfl
    have hs' : t.stopping = s.stopping := hf.acts.field Sys.stopping fun _ => rfl
    have hflag : t.stopFlag = s.stopFlag := hf.acts.field Sys.stopFlag fun _ => rfl
    have hsig : t.stopSignum = s.stopSignum := hf.acts.field Sys.stopSignum fun _ => rfl
    have hw : t.watching = s.watching := hf.acts.field Sys.watching fun _ => rfl
    simp only [Sys.service, hf.gone.buffer, hf.gone.added, hn, hs', hflag, hsig, hw,
      hf.called.calls, List.filterMap_append, hstart, hend, List.append_nil, List.map_append,
      List.count_append]
  rw [hservice]
  unfold Sys.sentinel
  split
  next hlast => exact .finishLast hmem hlast.1 (hidle.mpr hlast.2)
  next hmore =>
    simp only [List.map_nil, List.append_nil, List.count_nil, Nat.add_zero]
    exact .finish hmem fun hc => hmore ⟨hc.1, hidle.mp hc.2⟩

theorem Finished.serves {new : List (Nat × State × ProcStatus)} (hs : Desk s)
    (hl : s.active.lookup pid = some h) (hf : Finished pid h new s t)
    (hstart : new.filterMap startedBy = []) (hend : new.filterMap endedBy = [h]) : Serves s t := by
  refine ⟨.single (hf.move hs hl hstart hend), hf.acts.core, hf.called.kills, fun ho => ?_⟩
  exact ⟨(hf.acts.carries ho).1, hf.acts.streams ho .loop (by simp [Slot.owner]) (by simp) (by simp)⟩

theorem reaped_serves (s : Sys) (pid : Int) (status : WaitStatus) : Serves s (s.reaped pid status) := by
  have hservice : (s.reaped pid status).service = s.service :=
    Sys.service_eq rfl rfl rfl rfl rfl rfl rfl rfl (reaped_uncalled s pid status)
  exact ⟨by rw [hservice], rfl, (reaped_uncalled s pid status).kills,
    fun hs => ⟨hs.congr rfl rfl, rfl⟩⟩

theorem Turn.serves {o : Option (Int × WaitStatus)} (hs : On s) (ht : Turn s o t) : Serves s t := by
  cases ht with
  | again => exact (waited_aside s _).serves
  | foreign => exact reaped_serves s _ _
  | own _ _ _ ha hf =>
    exact IsTrans.trans _ _ _ (reaped_serves s _ _)
      (hf.serves (reaped_desk hs.desk _ _) ha rfl rfl)

theorem Reaps.serves {rs : List (Int × WaitStatus)} (hr : Reaps s rs t) (hs : On s) :
    Serves s t ∧ On t := by
  induction hr with
  | nil => exact ⟨Std.Refl.refl _, hs⟩
  | cons ht _ ih =>
    obtain ⟨hserves, hon⟩ := ih (ht.on hs)
    exact ⟨IsTrans.trans _ _ _ (ht.serves hs) hserves, hon⟩

/-- The SIGNALED and STOPPED callbacks. -/
def reports (calls : List (Nat × State × ProcStatus)) : List (Nat × State × ProcStatus) :=
  calls.filter fun call => call.2.1 = .signaled ∨ call.2.1 = .stopped

@[simp] theorem reports_append (xs ys : List (Nat × State × ProcStatus)) :
    reports (xs ++ ys) = reports xs ++ reports ys := List.filter_append ..

/-- The callbacks that a status is worth: those of the process with that pid, if it is active. -/
def Sys.verdict (s : Sys) (r : Int × WaitStatus) : List (Nat × State × ProcStatus) :=
  match s.active.lookup r.1 with
  | none => []
  | some h =>
    [(h, .signaled, (s.procs h).proc.updateStatus r.2),
      (h, .stopped, { (s.procs h).proc.updateStatus r.2 with stdinFd := -1 })]

theorem Sys.verdict_congr {r : Int × WaitStatus} (ha : t.active.lookup r.1 = s.active.lookup r.1)
    (hp : ∀ h, s.active.lookup r.1 = some h → t.procs h = s.procs h) : t.verdict r = s.verdict r := by
  unfold Sys.verdict
  rw [ha]
  cases hl : s.active.lookup r.1 with
  | none => rfl
  | some h =>
    dsimp only
    rw [hp h hl]

/-- A step in which the statuses `rs` are taken from terminated children, and reported. -/
structure Harvested (rs : List (Int × WaitStatus)) (s t : Sys) : Prop where
  nodup : (rs.map Prod.fst).Nodup
  ended : ∀ r ∈ rs, ∃ child, s.children.lookup r.1 = some child ∧
    child.status.map Subtype.val = some r.2
  children : t.children = rs.foldl (fun children r => children.erase r.1) s.children
  active : ∀ pid h, t.active.lookup pid = some h → s.active.lookup pid = some h
  reports : reports t.calls = reports s.calls ++ rs.flatMap s.verdict

/-- Nothing is taken and nothing reported. -/
theorem Harvested.none (hc : t.children = s.children)
    (ha : ∀ pid h, t.active.lookup pid = some h → s.active.lookup pid = some h)
    (hr : Pexec.reports t.calls = Pexec.reports s.calls) : Harvested [] s t :=
  ⟨List.nodup_nil, by simp, hc, ha, by simpa using hr⟩

theorem Harvested.before {rs : List (Int × WaitStatus)} (hs : Harvested rs t u)
    (hc : t.children = s.children) (ha : t.active = s.active) (hp : t.procs = s.procs)
    (hr : Uncalled s t) : Harvested rs s u := by
  have hverdict : t.verdict = s.verdict := by
    funext r
    simp only [Sys.verdict, ha, hp]
  have hcalls : t.calls = s.calls := hr.calls.trans (List.append_nil _)
  refine ⟨hs.nodup, hc ▸ hs.ended, hc ▸ hs.children, ha ▸ hs.active, ?_⟩
  rw [hs.reports, hverdict, hcalls]

theorem Harvested.after {rs : List (Int × WaitStatus)} (hs : Harvested rs s t)
    (hc : u.children = t.children) (ha : u.active = t.active) (hr : Uncalled t u) :
    Harvested rs s u := by
  have hcalls : u.calls = t.calls := hr.calls.trans (List.append_nil _)
  exact ⟨hs.nodup, hs.ended, hc ▸ hs.children, ha ▸ hs.active, hcalls ▸ hs.reports⟩

/-- A status that is taken, and those that are taken after it. -/
theorem Harvested.cons {rs : List (Int × WaitStatus)} {child : Child}
    {status : { status : WaitStatus // Terminated status }} (hl : s.children.lookup pid = some child)
    (hst : child.status = some status) (hs : Harvested rs t u)
    (hc : t.children = s.children.erase pid)
    (ha : ∀ p x, t.active.lookup p = some x → s.active.lookup p = some x)
    (hv : ∀ r, r.1 ≠ pid → t.verdict r = s.verdict r)
    (hr : Pexec.reports t.calls = Pexec.reports s.calls ++ s.verdict (pid, status)) :
    Harvested ((pid, (status : WaitStatus)) :: rs) s u := by
  have hne : ∀ r ∈ rs, r.1 ≠ pid := by
    rintro r hm rfl
    obtain ⟨child, hchild, _⟩ := hs.ended r hm
    rw [hc, AList.lookup_erase] at hchild
    cases hchild
  refine ⟨?_, fun r hr => ?_, ?_, fun p x hp => ha p x (hs.active p x hp), ?_⟩
  · rw [List.map_cons, List.nodup_cons]
    refine ⟨fun hm => ?_, hs.nodup⟩
    obtain ⟨r, hr, he⟩ := List.mem_map.mp hm
    exact hne r hr he
  · rcases List.mem_cons.mp hr with rfl | hr
    · exact ⟨child, hl, by rw [hst]; rfl⟩
    · obtain ⟨child', hchild, he⟩ := hs.ended r hr
      exact ⟨child', lookup_of_erase (hc ▸ hchild), he⟩
  · rw [List.foldl_cons, ← hc]
    exact hs.children
  · have hmap : rs.flatMap t.verdict = rs.flatMap s.verdict := by
      rw [List.flatMap_def, List.flatMap_def]
      exact congrArg List.flatten (List.map_congr_left fun r hr => hv r (hne r hr))
    rw [hs.reports, hr, hmap, List.flatMap_cons, List.append_assoc]

theorem Reaps.harvested {rs : List (Int × WaitStatus)} (hr : Reaps s rs t) (hs : On s) :
    Harvested rs s t := by
  induction hr with
  | nil => exact .none rfl (fun _ _ => id) rfl
  | @cons s t u o rs ht _ ih =>
    have hrest := ih (ht.on hs)
    cases ht with
    | again => exact hrest.before rfl rfl rfl (waited_aside _ _).uncalled
    | @foreign pid _ status _ hl hst ha =>
      have hcalls := (reaped_uncalled s pid status).calls
      refine Harvested.cons hl hst hrest rfl (fun _ _ => id) (fun _ _ => rfl) ?_
      rw [hcalls, List.append_nil]
      simp [Sys.verdict, ha]
    | @own pid h _ status _ _ hl hst ha hf =>
      have hcalls := (reaped_uncalled s pid status).calls
      refine Harvested.cons hl hst hrest (hf.acts.field (·.children) fun _ => rfl) (fun p x hp => ?_)
        (fun r hne => ?_) ?_
      · rw [hf.gone.active] at hp
        exact lookup_of_erase hp
      · refine Sys.verdict_congr (by rw [hf.gone.active]; exact AList.lookup_erase_ne hne) fun x hx => ?_
        have hne' : x ≠ h := by
          rintro rfl
          exact hne (hs.desk.active_inj ha hx)
        exact (Sys.off_objects hf.acts.off hne').1
      · rw [hf.called.calls, hcalls, List.append_nil, reports_append]
        simp [Sys.verdict, ha, Pexec.reports]

theorem Reaps.harvested_call {a b : Sys} {rs : List (Int × WaitStatus)} (hr : Reaps a rs b) (hs : On s)
    (hsa : Aside s a) (hbt : Aside b t) : Harvested rs s t :=
  Harvested.before (Harvested.after (hr.harvested (hsa.on hs)) (hbt.field (·.children) fun _ => rfl)
    (hbt.field Sys.active fun _ => rfl) hbt.uncalled)
    (hsa.field (·.children) fun _ => rfl) (hsa.field Sys.active fun _ => rfl)
    (hsa.field Sys.procs fun _ => rfl) hsa.uncalled

/-- What one call of `handle_sigchld` comes to. -/
theorem handleSigchld_serves (hs : Sound s) : ∃ rs t, handleSigchld s = .ok () t ∧ Serves s t ∧
    Harvested rs s t ∧ Sound t := by
  obtain ⟨a, rs, b, c, t, ht, ⟨haside, _⟩, ⟨hr, _⟩, hlast, haside', hsound⟩ := handleSigchld_reaps hs
  obtain ⟨hserves, _⟩ := hr.serves (haside.on hs.on)
  have hrest : Aside b t := IsTrans.trans _ _ _ hlast.aside haside'
  refine ⟨rs, t, ht, ?_, hr.harvested_call hs.on haside hrest, hsound⟩
  exact IsTrans.trans _ _ _ haside.serves (IsTrans.trans _ _ _ hserves hrest.serves)

end Pexec
