import Pexec.MultiEmissions
import Pexec.MultiLife
import Pexec.SigchldRules

namespace Pexec

open Effect

variable {J K : Sys → Prop} {h : Nat} {pid fd : Int} {s t : Sys}

/-- The callbacks that a loop makes lead from `J` to `K` in a process that is in order. -/
structure CallbacksKeep (J K : Sys → Prop) : Prop where
  sigchld : ∀ {s t : Sys}, Sound s → s.watching = true → J s → onSigchldReady s = .ok () t → K t
  control : ∀ {s t : Sys}, Sound s → s.watching = true → J s →
    onControlReady (s.array .control).rd s = .ok () t → K t
  close : ∀ {s t : Sys} {h pid ret}, Sound s → s.active.lookup pid = some h → J s →
    readClose h s = .ok ret t → K t
  output : ∀ {s t : Sys} {h pid slot cb err ret}, Sound s → s.active.lookup pid = some h →
    StdSlot h slot cb → J s → readStd (s.array slot).rd h cb err s = .ok ret t → K t
  interrupt : ∀ {s t : Sys} {fd}, Sound s → s.loopType = .default → J s →
    (do if (← loopCallback .interrupt fd) = .stopLoop then runFinish : Prog Unit) s = .ok () t → K t

theorem CallbacksKeep.source_keeps (hJ : CallbacksKeep J K) {src : Source} (hs : Sound s)
    (hsrc : s.registered.lookup fd = some src) (hj : J s) (ht : runSource fd src s = .ok () t) : K t := by
  obtain ⟨hexp, hkey⟩ := (hs.on.desk.keys fd src).mp hsrc
  cases src with
  | sigchld => exact hJ.sigchld hs hexp hj ht
  | control =>
    obtain rfl : s.controlPipe.rd = fd := hkey
    exact hJ.control hs hexp hj ht
  | readClose h =>
    obtain ⟨pid, hl⟩ := hexp
    obtain ⟨ret, u, hu, hlast⟩ := bind_eq_ok.mp (show (readClose h >>= fun _ => pure ()) s = _ from ht)
    cases hlast
    exact hJ.close hs hl hj hu
  | readStdout h =>
    obtain ⟨pid, hl⟩ := hexp
    obtain ⟨ret, u, hu, hlast⟩ := bind_eq_ok.mp (show (readStdout h >>= fun _ => pure ()) s = _ from ht)
    cases hlast
    exact hJ.output hs hl .stdout hj hu
  | readStderr h =>
    obtain ⟨pid, hl⟩ := hexp
    obtain ⟨ret, u, hu, hlast⟩ := bind_eq_ok.mp (show (readStderr h >>= fun _ => pure ()) s = _ from ht)
    cases hlast
    exact hJ.output hs hl .stderr hj hu

/-- The whole step of an event. -/
theorem CallbacksKeep.event_keeps (hJ : CallbacksKeep J K) {c : Choices} (hs : Life s)
    (he : (Label.event fd c).enabled s) (hj : J (s.choose c)) (ht : (Label.event fd c).prog s = .ok () t) :
    K t := by
  obtain ⟨hon, hdue, _⟩ := hs.due he
  have hsound := Sound.choose ⟨hs.isolated, hon⟩ c
  rcases dispatch_split hsound hdue with ⟨hreg, _⟩ | ⟨hdefault, _, hint⟩
  · obtain ⟨src, hsrc⟩ := Option.isSome_iff_exists.mp (AList.lookup_isSome.mpr hreg)
    obtain ⟨_, hprog⟩ := hs.event_source he hsrc
    exact hJ.source_keeps hsound hsrc hj (hprog.symm.trans ht)
  · exact hJ.interrupt hsound hdefault hj (hint.symm.trans ht)

/-- The parts of the dispatch of a job keep `J` in a process that is in order. -/
structure JobsKeep (J : Sys → Prop) : Prop where
  read : ∀ {s t : Sys}, J s → Drained .control s t → J t
  take : ∀ {s : Sys} (buffer : List (Option Job)), J s → J { s with buffer }
  order : ∀ {s : Sys} (stopFlag : StopFlag) (stopSignum : Int), J s → J { s with stopFlag, stopSignum }
  told : ∀ {s t : Sys}, On s → J s → Told s t → Tells (fun e => ∃ pid signum, e = .kill pid signum) s t → J t
  spawn : ∀ {s t : Sys} {h hd pid}, Sound s → s.procs h = { type := .nonblocking } → s.handles h = some hd →
    Unspawned h s → (∀ p, s.active.lookup p ≠ some h) → s.stopping = false → J s →
    jobSpawnProc h s = .ok .nothing t → Enrolled h pid s t → J t
  stop : ∀ {s t : Sys}, On s → s.watching = true → J s → handleStop s = .ok () t → J t

theorem JobsKeep.nullptr_keeps (hJ : JobsKeep J) (hs : On s) (ho : s.Owns) (hj : J s) {ret : EventReturn}
    (ht : jobNullptrStop s = .ok ret t) : J t := by
  have htells := (jobNullptrStop_tells (P := fun e => ∃ pid signum, e = .kill pid signum)
    fun pid signum => ⟨pid, signum, rfl⟩).ok ht
  rcases jobNullptrStop_cases hs ho with ⟨_, hrun⟩ | ⟨_, _, hrun⟩ | ⟨_, _, u, hrun, htold⟩
  · cases ht.symm.trans hrun
    exact hj
  · cases ht.symm.trans hrun
    exact hj
  · cases ht.symm.trans hrun
    exact hJ.told hs hj htold htells

theorem JobsKeep.dispatch_keeps (hJ : JobsKeep J) (hs : Sound s) (hj : J s) {ret : EventReturn}
    (ht : dispatchJob s = .ok ret t) : J t := by
  obtain ⟨job, u, hu, ht⟩ := bind_eq_ok.mp ht
  have hisou : Isolated u := (bufferRemove_isolated.ok hs.isolated hu).1
  cases hb : s.buffer with
  | nil =>
    unfold bufferRemove at hu
    rw [bind_of_ok (get_apply _), hb] at hu
    cases hu
  | cons job' rest =>
    unfold bufferRemove at hu
    rw [bind_of_ok (get_apply _), hb] at hu
    cases hu
    have hon : On { s with buffer := rest } := hs.on.queue ..
    have hju : J { s with buffer := rest } := hJ.take rest hj
    rcases job with _ | h | ⟨flag, signum⟩
    · exact hJ.nullptr_keeps hon hisou.owns hju ht
    · have hmem : some (Job.spawn h) ∈ s.buffer := hb ▸ List.mem_cons_self
      obtain ⟨_, hp, args, hasOnStop, hh⟩ := hs.isolated.fresh h hmem
      have hunspawned : Unspawned h { s with buffer := rest } :=
        ⟨⟨_, hh, rfl, rfl⟩, by show (s.procs h).proc.pid = 0; rw [hp],
          by show (s.procs h).type = .nonblocking; rw [hp]⟩
      have hnew : ∀ p, s.active.lookup p ≠ some h := fun p hl => (hs.isolated.active p h hl).2 hmem
      rcases jobSpawnProc_cases ⟨hisou, hon⟩ hp hh hunspawned hnew with ⟨_, ht'⟩ | ⟨_, ht'⟩ | ⟨hgoing, pid, v, ht', hen⟩
      · cases ht.symm.trans ht'
        exact hju
      · cases ht.symm.trans ht'
      · cases ht.symm.trans ht'
        exact hJ.spawn ⟨hisou, hon⟩ hp hh hunspawned hnew hgoing hju ht' hen
    · have hstop : jobStop flag signum { s with buffer := rest } = .ok ret t := ht
      unfold jobStop at hstop
      rw [bind_of_ok (get_apply _)] at hstop
      split at hstop
      next =>
        cases hstop
        exact hju
      next =>
        have hjo : J { s with buffer := rest, stopFlag := flag, stopSignum := signum } := hJ.order flag signum hju
        exact hJ.nullptr_keeps (hs.on.queue rest flag signum) (hisou.owns.congr rfl rfl) hjo
          ((bind_of_ok (modify_apply ..)).symm.trans hstop)

theorem JobsKeep.ready_keeps (hJ : JobsKeep J) (hs : Sound s) (hw : s.watching = true) (hj : J s)
    (ht : onControlReady (s.array .control).rd s = .ok () t) : J t := by
  obtain ⟨answer, u, hu, hd⟩ := readRetry_drained .control hs.isolated.owns 1
  have hsound : Sound u := ⟨(readRetry_isolated .control (fun x => ⟨by simp, by simp⟩) (s.array .control).rd 1).ok
    ⟨hs.isolated, rfl⟩ hu, hd.on hs.on⟩
  have hju := hJ.read hj hd
  have hwu : u.watching = true := (hd.field Sys.watching fun _ _ _ => rfl).trans hw
  unfold onControlReady at ht
  rw [bind_of_ok hu] at ht
  cases answer with
  | error e => cases ht
  | ok data =>
    obtain ⟨ret, v, hv, ht⟩ := bind_eq_ok.mp ht
    have hjv := hJ.dispatch_keeps hsound hju hv
    rcases dispatchJob_cases hsound hwu with ⟨_, x, hx, _⟩ | ⟨ret', x, hx, hcases⟩
    · cases hv.symm.trans hx
    · cases hv.symm.trans hx
      rcases hcases with ⟨rfl, _⟩ | ⟨rfl, hempty⟩
      · cases ht
        exact hjv
      · refine hJ.stop ?_ ?_ hjv ht
        · rw [hempty.frame]
          exact hsound.on.queue ..
        · rw [hempty.frame]
          exact hwu

end Pexec
