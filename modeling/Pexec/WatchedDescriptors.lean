import Pexec.HandlerLife
import Pexec.Vigilance

namespace Pexec

open Effect Runs

variable {h : Nat} {pid fd : Int} {s₀ s t u : Sys}

theorem sigchldResetSignalHandler_vigil {done : Bool} (ht : sigchldResetSignalHandler s = .ok done t) :
    t.vigil = s.vigil ∧ (done = false → t.fds = s.fds) := by
  unfold sigchldResetSignalHandler at ht
  rw [bind_of_ok (get_apply _)] at ht
  split at ht
  · cases ht
    exact ⟨rfl, fun _ => rfl⟩
  · rw [bind_of_ok (call_apply ..)] at ht
    obtain ⟨faults, disposition, hw⟩ := s.toWorld.sigaction_frame s.sigchldSaPrev
    generalize s.toWorld.sigaction s.sigchldSaPrev = r at ht hw
    obtain ⟨answer, w⟩ := r
    cases answer with
    | none =>
      cases ht
      cases hw
      exact ⟨rfl, fun _ => rfl⟩
    | some prev =>
      cases ht
      cases hw
      obtain ⟨fds, hclose⟩ := World.closePipe_frame { s.toWorld with faults, disposition } s.sigchldPipe
      refine ⟨?_, nofun⟩
      have := congrArg World.vigil hclose
      exact this

/-- The destructor of the handler closes its pipe, or it reports that it could not. -/
theorem destroySigchldHandler_vigil {handler : SigchldHandler} (ht : destroySigchldHandler handler s = .ok () t) :
    t.vigil.added = s.vigil.added ∧ ∃ n, t.vigil.kept = s.vigil.kept ++ List.replicate n (s.vigil.intact s.fds) := by
  obtain ⟨done, u, hu, ht⟩ := bind_eq_ok.mp ht
  obtain ⟨hvigil, hfds⟩ := sigchldResetSignalHandler_vigil hu
  have hsame : u.vigil.added = s.vigil.added ∧
      ∃ n, u.vigil.kept = s.vigil.kept ++ List.replicate n (s.vigil.intact s.fds) := by
    rw [hvigil]
    exact ⟨rfl, 0, (List.append_nil _).symm⟩
  cases done with
  | true =>
    cases ht
    exact hsame
  | false =>
    rw [if_pos (by decide)] at ht
    split at ht
    next =>
      have hn := (multiProcessError_notes _).ok ht
      obtain ⟨n, hk⟩ := hn.vigil
      rw [hvigil, hfds rfl] at hk
      rw [hk]
      exact ⟨rfl, n, rfl⟩
    next =>
      cases ht
      exact hsame

/-- Before the loop of a run is destroyed, what it watches is not its own pipe. -/
def Apart (s : Sys) : Prop := ∀ fd ∈ s.vigil.added, fd ≠ (s.array .loop).rd ∧ fd ≠ (s.array .loop).wr

theorem Vigilant.apart (hs : Vigilant s) (hon : On s) (ho : s.Owns) : Apart s := fun fd hm => by
  have hreg := (hs.keys fd).mp hm
  obtain ⟨src, hsrc⟩ := Option.isSome_iff_exists.mp (AList.lookup_isSome.mpr hreg)
  obtain ⟨x, _, htarget⟩ := hs.open hreg
  have hrd := hon.registered_key hsrc
  rw [← hrd]
  refine Owned.rd_ne ho (by cases src <;> exact nofun) ?_
  rw [hrd]
  have := FdTable.target_nonneg htarget
  omega

theorem finishHandler_vigil (hs : Vigilant s) (ht : (do
      match (← get).sigchld with
      | some handler => destroySigchldHandler handler
      | none => pure ()
      modify fun s => { s with sigchld := none, running := false } : Prog Unit) s = .ok () t) :
    t.vigil.added = s.vigil.added ∧ Untroubled s t := by
  rw [bind_of_ok (get_apply _)] at ht
  cases hl : s.sigchld with
  | none =>
    rw [hl] at ht
    cases ht
    exact ⟨rfl, 0, (List.append_nil _).symm⟩
  | some handler =>
    rw [hl] at ht
    obtain ⟨_, u, hu, ht⟩ := bind_eq_ok.mp ht
    cases ht
    obtain ⟨hadded, n, hkept⟩ := destroySigchldHandler_vigil hu
    exact ⟨hadded, n, by rw [← hs.intact]; exact hkept⟩

/-- The end of a DEFAULT run. -/
theorem runFinish_vigil (hs : Vigilant s) (hapart : Apart s) (ht : runFinish s = .ok () t) :
    t.vigil.added = s.vigil.added ∧ Untroubled s t := by
  unfold runFinish at ht
  rw [bind_of_ok (get_apply _)] at ht
  cases hl : s.loop with
  | none =>
    rw [hl] at ht
    dsimp only at ht
    rw [bind_of_ok (modify_apply ..)] at ht
    exact finishHandler_vigil (s := { s with loop := none }) (hs.held rfl rfl fun _ _ => id) ht
  | some e =>
    rw [hl] at ht
    dsimp only at ht
    rw [bind_of_ok (onWorld_apply ..), bind_of_ok (modify_apply ..)] at ht
    have harray : s.array .loop = e.controlPipe := by simp [Sys.array, hl]
    have hheld : ∀ fd x, s.vigil.added.lookup fd = some x → s.fds.target fd = x →
        (s.toWorld.closePipe e.controlPipe).fds.target fd = x := fun fd x hx htarget => by
      obtain ⟨hrd, hwr⟩ := hapart fd (AList.lookup_isSome.mp (by rw [hx]; rfl))
      rw [harray] at hrd hwr
      rw [FdTable.target, World.closePipe_get_ne _ _ hrd hwr]
      exact htarget
    obtain ⟨fds, hw⟩ := s.toWorld.closePipe_frame e.controlPipe
    rw [hw] at ht hheld
    refine finishHandler_vigil (s := { s with fds, loop := none }) ⟨hs.keys, fun fd x hx => ?_⟩ ht
    obtain ⟨pipe, rfl, htarget⟩ := hs.ends fd x hx
    exact ⟨pipe, rfl, hheld fd _ hx htarget⟩

theorem Vigilant.empty (hkeys : ∀ fd, fd ∈ s.vigil.added ↔ fd ∈ s.registered) (hr : s.registered = ∅) : Vigilant s := by
  refine ⟨hkeys, fun fd x hx => ?_⟩
  have hm := (hkeys fd).mp (AList.lookup_isSome.mp (by rw [hx]; rfl))
  rw [hr] at hm
  exact absurd hm (AList.notMem_empty _)

theorem runPrelude_vigil {type : LoopType} (ht : runPrelude type s = .ok () t) : t.vigil = s.vigil := by
  cases type with
  | external =>
    cases ht
    rfl
  | default =>
    rcases makeLoop_cases { s with loopType := .default } with ⟨u, hu⟩ | ⟨u, hu, hl⟩
    · cases (show makeLoop { s with loopType := .default } = .ok () t from ht).symm.trans hu
    · cases (show makeLoop { s with loopType := .default } = .ok () t from ht).symm.trans hu
      obtain ⟨fds, pipes, faults, mapOrder, loop, hframe⟩ := hl.frame
      rw [hframe]

theorem newSigchldHandler_vigil {handler : SigchldHandler} (ht : newSigchldHandler s = .ok handler t) :
    t.vigil = s.vigil := by
  obtain ⟨done, u, hu, hlast⟩ := bind_eq_ok.mp ht
  have htu : t = u := by
    cases done <;> cases hlast <;> rfl
  rw [htu]
  cases hfault : s.faults.head?.join with
  | some e =>
    unfold sigchldSetSignalHandler at hu
    rw [bind_of_ok (call_apply ..), World.pipe2_of_fault hfault] at hu
    cases hu
    rfl
  | none =>
    rw [sigchldSetSignalHandler_piped hfault, bind_of_ok (call_apply ..)] at hu
    obtain ⟨v, hv⟩ : ∃ v : Sys, v = { s with
      faults := s.faults.tail
      fds := (s.fds.openPipe (s.fdHint s.fds.nextPipe) true).2
      pipes := Function.update s.pipes s.fds.nextPipe {}
      sigchldPipe := (s.fds.openPipe (s.fdHint s.fds.nextPipe) true).1 } := ⟨_, rfl⟩
    have hsame : v.vigil = s.vigil := by rw [hv]
    rw [← hv] at hu
    obtain ⟨faults, disposition, hw⟩ := v.toWorld.sigaction_frame .sigchldSignalHandler
    generalize v.toWorld.sigaction .sigchldSignalHandler = r at hu hw
    obtain ⟨answer, w⟩ := r
    have hkept : w.vigil = v.vigil := by
      have := congrArg World.vigil hw
      exact this
    cases answer with
    | none =>
      cases hu
      obtain ⟨fds, hclose⟩ := w.closePipe_frame w.sigchldPipe
      have := congrArg World.vigil hclose
      exact this.trans (hkept.trans hsame)
    | some prev =>
      cases hu
      exact hkept.trans hsame

/-- A handler is made where there is none. -/
theorem replaceSigchld_vigil (hn : s.sigchld = none) (ht : replaceSigchld s = .ok () t) : t.vigil = s.vigil := by
  obtain ⟨handler, u, hu, ht⟩ := bind_eq_ok.mp ht
  obtain ⟨handler', u', hu', hsig, _⟩ := newSigchldHandler_cases s
  cases hu.symm.trans hu'
  rw [bind_of_ok (get_apply _), bind_of_ok (modify_apply ..), hsig, hn] at ht
  cases ht
  have := newSigchldHandler_vigil hu
  exact this

/-- A run that makes its own handler: whatever it tells, what it watches is open. -/
theorem startRun_vigilant {type : LoopType} (hiso : Isolated s) (hc : s.controlPipe.rd ≠ -1) (hr : s.registered = ∅)
    (hn : s.sigchld = none) (hkeys : ∀ fd, fd ∈ s.vigil.added ↔ fd ∈ s.registered) (ht : startRun type s = .ok () t) :
    Vigilant t ∧ Untroubled s t := by
  rcases runPrelude_cases type hiso with ⟨u, hu⟩ | ⟨u, hu, hready⟩
  · cases (startRun_of_error hu).symm.trans ht
  have hvu := runPrelude_vigil hu
  have hregu : u.registered = ∅ := hready.registered.trans hr
  have hctrlu : u.controlPipe = s.controlPipe := by
    have := congrArg Sys.controlPipe hready.frame
    exact this
  have hnu : u.sigchld = none := by
    have := (runPrelude_readied hu).sigchld
    rw [this, hn]
  rw [startRun_of_prelude hu] at ht
  obtain ⟨_, v, hv, ht⟩ := bind_eq_ok.mp ht
  cases ht
  obtain ⟨_, w, hw, hv⟩ := bind_eq_ok.mp hv
  obtain ⟨_, w', hw', hre⟩ := replaceSigchld_rehandled u
  cases hw.symm.trans hw'
  have hisow := replaceSigchld_isolated.ok hready.isolated hw
  have hvw := replaceSigchld_vigil hnu hw
  have hregw : w.registered = ∅ := (hre.field Sys.registered fun _ => rfl).trans hregu
  have hvigilant : Vigilant w := Vigilant.empty (by rw [hvw, hvu, hregw, ← hr]; exact hkeys) hregw
  have hquiet : Untroubled s w := ⟨0, by rw [hvw, hvu]; exact (List.append_nil _).symm⟩
  have hctrl : w.controlPipe.rd ≠ -1 := by
    rw [show w.controlPipe = u.controlPipe from hre.field Sys.controlPipe fun _ => rfl, hctrlu]
    exact hc
  have hfnw : w.registerFn = u.registerFn := hre.field Sys.registerFn fun _ => rfl
  have hfn : w.registerFn ≠ none := hfnw ▸ (hready.mirrored hr).registerFn
  obtain ⟨handler, w', hw', hsig, _, _, hcases⟩ := replaceSigchld_cases hnu
  cases hw.symm.trans hw'
  rw [bind_of_ok (get_apply _), hsig] at hv
  dsimp only at hv
  rcases hcases with ⟨rfl, p, hp, hhandler⟩ | ⟨herr, _⟩
  · rw [if_neg (by decide), bind_of_ok (modify_apply ..), bind_of_ok (get_apply _)] at hv
    obtain ⟨_, x, hx, hv⟩ := bind_eq_ok.mp hv
    rw [bind_of_ok (get_apply _)] at hv
    obtain ⟨_, y, hy, hv⟩ := bind_eq_ok.mp hv
    rw [bind_of_ok (modify_apply ..)] at hv
    cases hv
    have hrd : w.sigchldPipe.rd ≠ -1 := by
      rw [show w.sigchldPipe = p from congrArg (·.1) hhandler]
      exact hp
    have hopen : ∀ slot, (w.array slot).rd ≠ -1 → ∃ pipe, w.fds.target (w.array slot).rd = some (.readEnd pipe) :=
      fun slot hne => by
        obtain ⟨pipe, _, htarget, _⟩ := (Owned.ends hisow.owns slot).opened hne
        exact ⟨pipe, htarget⟩
    have hvc : Vigilant { w with sigchld := some { ({} : SigchldHandler) with callbacks := true } } :=
      hvigilant.held rfl rfl fun _ _ => id
    have hcx : x.controlPipe = w.controlPipe := by
      rw [addReadEvent_apply] at hx
      exact ((registerAdd_acts (h := 0) _).ok hx).field Sys.controlPipe fun _ => rfl
    obtain ⟨hvx, hqx, hfx, _, hfnx⟩ := addReadEvent_vigilant hvc hfn (hopen .sigchld hrd) hx
    rw [hcx] at hy
    obtain ⟨hvy, hqy, _⟩ := addReadEvent_vigilant hvx (hfnx ▸ hfn) (by rw [hfx]; exact hopen .control hctrl) hy
    refine ⟨hvy.held rfl rfl fun _ _ => id, IsTrans.trans _ _ _ hquiet (IsTrans.trans _ _ _ hqx hqy)⟩
  · rw [if_pos herr] at hv
    obtain ⟨_, x, hx, hv⟩ := bind_eq_ok.mp hv
    cases hv
    obtain ⟨hvx, hqx⟩ := hvigilant.notes ((multiProcessError_notes _).ok hx)
      ((multiProcessError_unlisted _).ok hx).registered
    exact ⟨hvx, IsTrans.trans _ _ _ hquiet hqx⟩

/-- Between two steps: what is watched is open, as long as there is a loop that can make a callback. -/
structure Guarded (s : Sys) : Prop where
  keys : ∀ fd, fd ∈ s.vigil.added ↔ fd ∈ s.registered
  vigilant : (s.loopType = .default → s.running = true) → Vigilant s

theorem Vigilant.guarded (hs : Vigilant s) : Guarded s := ⟨hs.keys, fun _ => hs⟩

/-- The end of a run, of one that failed too. -/
theorem Judged.finish (hj : Judged s₀ s) (hapart : Apart s) (hd : s.loopType = .default) (ht : runFinish s = .ok () t) :
    Guarded t ∧ Vouched s₀ t ∧ t.active = s.active := by
  obtain ⟨hadded, hq⟩ := runFinish_vigil hj.toVigilant hapart ht
  obtain ⟨t', ht', hend⟩ := runFinish_ok s
  cases ht.symm.trans ht'
  have hactive : t.active = s.active := hend.field Sys.active fun _ => rfl
  have htype : t.loopType = s.loopType := hend.field Sys.loopType fun _ => rfl
  have hreg : t.registered = s.registered := hend.field Sys.registered fun _ => rfl
  refine ⟨⟨fun fd => by rw [hadded, hreg]; exact hj.keys fd, fun hrun => ?_⟩,
    hj.vouched.onward hq fun p _ => by rw [hactive], hactive⟩
  exact absurd ((hrun (htype.trans hd)).symm.trans hend.running) (by decide)

theorem Judged.guarded (hj : Judged s₀ s) : Guarded s ∧ Vouched s₀ s := ⟨hj.toVigilant.guarded, hj.vouched⟩

/-- From a state with the same processes as at the start, a callback of the loop. -/
theorem callbacksKeep_judged (s₀ : Sys) : CallbacksKeep (fun s => Judged s₀ s ∧ ∀ p, p ∈ s.active ↔ p ∈ s₀.active)
    fun s => Guarded s ∧ Vouched s₀ s where
  sigchld {s t} hs hw hj ht := by
    have hlast := (sigchldKeeps_judged s₀).ready_keeps hs ⟨hj.1, fun p => (hj.2 p).mp⟩ ht
      fun u hsound hwu hju hstop => by
        obtain ⟨hjt, hactive⟩ := hju.1.stop hsound.on (hwu.trans hw) hstop
        exact ⟨hjt, hactive ▸ hju.2⟩
    exact hlast.1.guarded
  control hs hw hj ht := ((jobsKeep_judged s₀).ready_keeps hs hw ⟨hj.1, fun p => (hj.2 p).mpr⟩ ht).1.guarded
  close hs hl hj ht := (hj.1.leaves hs.on.desk hs.isolated.owns (fun _ _ => hs.on.registered_key) hl
    (fun p => (hj.2 p).mp) (readClose_leaves (hs.on.served _ _ hl).type ht)).1.guarded
  output hs hl hstd hj ht := by
    rcases readStd_leaves hstd _ (hs.on.served _ _ hl).type ht with ⟨hsaid, hnotes⟩ | hleft
    · exact (hj.1.notes hnotes hsaid.registered hsaid.idle.active).guarded
    · exact (hj.1.leaves hs.on.desk hs.isolated.owns (fun _ _ => hs.on.registered_key) hl
        (fun p => (hj.2 p).mp) hleft).1.guarded
  interrupt {s t fd} hs hd hj ht := by
    obtain ⟨ret, u, hu, ht⟩ := bind_eq_ok.mp ht
    obtain ⟨answer, v, hv, hu⟩ := bind_eq_ok.mp (show loopControl (pure .stopLoop) fd s = _ from hu)
    obtain ⟨readFaults, pipes, hw⟩ := World.readRetry_frame fd 1 s.readFaults s.toWorld
    have hcall := call_apply (fun w => World.readRetry fd 1 w.readFaults w) s
    rw [hw] at hcall
    have hread : v = { s with readFaults, pipes } := by
      injection hv.symm.trans hcall
    subst hread
    have hapart := hj.1.apart hs.on hs.isolated.owns
    have hjv := hj.1.notes (t := { s with readFaults, pipes }) (.same rfl rfl) rfl rfl
    cases answer with
    | error => cases hu
    | ok =>
      cases hu
      obtain ⟨hg, hvouched, _⟩ := hjv.finish hapart hd ht
      exact ⟨hg, hvouched⟩

/-- What others open and close are their own files. -/
theorem EnvAct.reads (act : EnvAct) {pipe : Nat} (hfd : s.fds.target fd = some (.readEnd pipe)) :
    (act.apply s).fds.target fd = some (.readEnd pipe) := by
  have hopen : s.fds.get fd ≠ none := fun hnone => by
    rw [FdTable.target, hnone] at hfd
    cases hfd
  cases act with
  | openFile x =>
    simp only [EnvAct.apply]
    split
    next hx =>
      have hne : fd ≠ x := fun he => hopen (he ▸ hx.2)
      exact (congrArg (Option.map Descriptor.target) (FdTable.insert_get_ne hx.1 (by simp [FdTarget.pipe?]) hne)).trans hfd
    next => exact hfd
  | closeFile x =>
    simp only [EnvAct.apply]
    split
    next hx =>
      have hne : fd ≠ x := by
        rintro rfl
        rw [hfd] at hx
        cases hx
      rw [FdTable.close_target_ne _ hne]
      exact hfd
    next => exact hfd
  | childOut | childErr | userStop | sigchld | exit | setpgid | fork | reap =>
    rw [EnvAct.fds_of_kept rfl]
    exact hfd

theorem Turn.active {o : Option (Int × WaitStatus)} (ht : Turn s o t) (p : Int) :
    p ∈ t.active ↔ p ∈ s.active ∧ p ∉ o.toList.map Prod.fst := by
  cases ht with
  | again => exact (and_iff_left List.not_mem_nil).symm
  | foreign _ _ _ hnone =>
    refine (and_iff_left_of_imp fun hp hm => ?_).symm
    obtain rfl := List.mem_singleton.mp hm
    have hlook := AList.lookup_isSome.mpr (show _ ∈ s.active from hp)
    rw [hnone] at hlook
    cases hlook
  | own _ _ _ _ hf =>
    rw [hf.gone.active, AList.mem_erase, and_comm]
    simp [Sys.reaped]

/-- The processes whose children have been reaped are gone, and no others. -/
theorem Reaps.active (hr : Reaps s rs t) (p : Int) : p ∈ t.active ↔ p ∈ s.active ∧ p ∉ rs.map Prod.fst := by
  induction hr with
  | nil => exact (and_iff_left List.not_mem_nil).symm
  | cons ht _ ih => rw [ih, ht.active, List.map_append, List.mem_append, not_or, and_assoc]

theorem handleSigchld_active (hs : Sound s) (ht : handleSigchld s = .ok () t) (p : Int) :
    p ∈ t.active ↔ p ∈ s.active ∧ p ∉ (s.toWorld.sigprocmask true).2.reaps := by
  obtain ⟨a, rs, b, c, t', ht', ⟨haside, _⟩, ⟨hr, hpids⟩, hlast, haside', _⟩ := handleSigchld_reaps hs
  cases ht.symm.trans ht'
  have hca : a.active = s.active := haside.field Sys.active fun _ => rfl
  have hcb : c.active = b.active := hlast.aside.field Sys.active fun _ => rfl
  have hct : t.active = c.active := haside'.field Sys.active fun _ => rfl
  rw [hct, hcb, hr.active, hca, hpids]

/-- A process that is waited for is gone. -/
theorem readSignal_active {ret : EventReturn} (hs : Sound s) (ht : readSignal s = .ok ret t) :
    (∀ p ∈ s.active, p ∈ t.active) ↔ Source.GoesOn s .sigchld := by
  have hread := readSignalFrom_drained (s.readFaults.length + 4) 4 [] s hs.isolated.owns
  have hiso := readSignalFrom_isolated (s.readFaults.length + 4) s.sigchldPipe.rd 4 [] s ⟨hs.isolated, rfl⟩
  unfold readSignal at ht
  rw [bind_of_ok (get_apply _)] at ht
  obtain ⟨signal, u, hr, ht⟩ := bind_eq_ok.mp ht
  rw [hr] at hread hiso
  have hactive : u.active = s.active := hread.quiet.2.1
  have hother : signal ≠ some World.sigchldRecord → t = u →
      ((∀ p ∈ s.active, p ∈ t.active) ↔ Source.GoesOn s .sigchld) := fun hne htu => by
    refine iff_of_true (fun p hp => htu ▸ hactive ▸ hp) fun v hv => ?_
    cases hr.symm.trans hv
    exact absurd rfl hne
  cases signal with
  | none =>
    cases ht
    exact hother nofun rfl
  | some signal =>
    dsimp only at ht
    split at ht
    next hrecord =>
      subst hrecord
      obtain ⟨_, v, hv, hlast⟩ := bind_eq_ok.mp ht
      cases hlast
      have hgone := handleSigchld_active ⟨hiso, hread.on hs.on⟩ hv
      simp only [hactive] at hgone
      constructor
      · intro hall w hw p hm hp
        cases hr.symm.trans hw
        exact ((hgone p).mp (hall p hp)).2 hm
      · exact fun hgo p hp => (hgone p).mpr ⟨hp, fun hm => hgo u hr p hm hp⟩
    next hrecord =>
      cases ht
      exact hother (fun he => hrecord (Option.some.inj he)) rfl

theorem readStd_active {slot : Slot} {cb : List UInt8 → Event} (hstd : StdSlot h slot cb) {e : Error} (hs : Sound s)
    (hl : s.active.lookup pid = some h) {ret : EventReturn} (ht : readStd (s.array slot).rd h cb e s = .ok ret t) :
    (∀ p ∈ s.active, p ∈ t.active) ↔ ¬Unreadable (s.array slot).rd s := by
  obtain ⟨ret', t', ht', _, ⟨hread, hlocal, _⟩ | ⟨hfail, hgone⟩⟩ := readStd_ends hstd e hs.on.desk hl
    (hs.on.served pid h hl).type
  · cases ht.symm.trans ht'
    refine iff_of_true (fun p hp => ?_) hread
    rwa [hlocal.field Sys.active fun _ => rfl]
  · cases ht.symm.trans ht'
    refine iff_of_false (fun hall => ?_) fun hread => hread hfail
    have hp := hall pid (AList.lookup_isSome.mp (by rw [hl]; rfl))
    rw [hgone.gone.active, AList.mem_erase] at hp
    exact hp.1 rfl

/-- A callback keeps the processes there are exactly if it ends the watching of none. -/
theorem runSource_active {src : Source} (hs : Sound s) (hv : Vigilant s) (hsrc : s.registered.lookup fd = some src)
    (ht : runSource fd src s = .ok () t) : (∀ p ∈ s.active, p ∈ t.active) ↔ src.GoesOn s := by
  obtain ⟨hexp, hkey⟩ := (hs.on.desk.keys fd src).mp hsrc
  cases src with
  | sigchld =>
    obtain ⟨ret, u, hr, hactive, _⟩ := onSigchldReady_reads hs hexp ht
    rw [hactive]
    exact readSignal_active hs hr
  | control =>
    obtain rfl : s.controlPipe.rd = fd := hkey
    exact iff_of_true ((jobsKeep_judged s).ready_keeps hs hexp ⟨hv.judged, fun _ => id⟩ ht).2 trivial
  | readClose h =>
    obtain ⟨pid, hl⟩ := hexp
    obtain ⟨ret, u, hu, hlast⟩ := bind_eq_ok.mp (show (readClose h >>= fun _ => pure ()) s = _ from ht)
    cases hlast
    have hleft := readClose_leaves (hs.on.served _ _ hl).type hu
    obtain ⟨_, hactive, _⟩ := hleft.vigil hs.on.desk hs.isolated.owns (fun _ _ => hs.on.registered_key) hl hv
    refine iff_of_false (fun hall => ?_) id
    have hp := hall pid (AList.lookup_isSome.mp (by rw [hl]; rfl))
    rw [hactive, AList.mem_erase] at hp
    exact hp.1 rfl
  | readStdout h =>
    obtain ⟨pid, hl⟩ := hexp
    obtain ⟨ret, u, hu, hlast⟩ := bind_eq_ok.mp (show (readStdout h >>= fun _ => pure ()) s = _ from ht)
    cases hlast
    exact readStd_active .stdout hs hl hu
  | readStderr h =>
    obtain ⟨pid, hl⟩ := hexp
    obtain ⟨ret, u, hu, hlast⟩ := bind_eq_ok.mp (show (readStderr h >>= fun _ => pure ()) s = _ from ht)
    cases hlast
    exact readStd_active .stderr hs hl hu

theorem Guarded.due (hg : Guarded s) (hs : Life s) {c : Choices} (he : (Label.event fd c).enabled s) :
    Vigilant (s.choose c) := by
  obtain ⟨_, _, hrun⟩ := hs.due he
  have hv := hg.vigilant hrun
  exact ⟨hv.keys, hv.ends⟩

/-- A step keeps the processes there are exactly if it ends the watching of none. -/
theorem Life.step_active {l : Label} (hs : Life s) (hg : Guarded s) (hp : PreviousFinished s l)
    (hstep : Step s l t) : (∀ p ∈ s.active, p ∈ t.active) ↔ WatchGoesOn s l := by
  rcases hs.step_split hp hstep with ⟨fd, c, src, rfl, hsrc, hsound, ht⟩ | ⟨hno, hactive, _⟩
  · refine (runSource_active hsound (hg.due hs hstep.1) hsrc ht).trans ⟨fun hgo src' hsrc' => ?_, fun hw => hw src hsrc⟩
    cases hsrc.symm.trans hsrc'
    exact hgo
  · refine iff_of_true (fun p hp => hactive ▸ hp) ?_
    cases l with
    | event fd c => exact fun src hsrc => absurd hsrc (hno fd c src rfl)
    | exec | stop | env | run | selectError => trivial

/-- What a step of others leaves as it is. -/
def Sys.posts (s : Sys) : Vigil × AList (fun _ : Int => Source) × AList (fun _ : Int => Nat) × LoopType × Bool :=
  (s.vigil, s.registered, s.active, s.loopType, s.running)

theorem Guarded.held (hg : Guarded s) (hposts : t.posts = s.posts)
    (hfds : ∀ fd pipe, s.fds.target fd = some (.readEnd pipe) → t.fds.target fd = some (.readEnd pipe)) :
    Guarded t ∧ Vouched s t := by
  simp only [Sys.posts, Prod.mk.injEq] at hposts
  obtain ⟨hvigil, hreg, hactive, htype, hrun⟩ := hposts
  refine ⟨⟨fun fd => by rw [hvigil, hreg]; exact hg.keys fd, fun h => ?_⟩, .same hvigil hactive⟩
  exact (hg.vigilant fun hd => hrun.symm.trans (h (htype.trans hd))).held (congrArg Vigil.added hvigil) hreg hfds

/-- A step of a life in which every run makes its own handler: all that it tells is told while what
is watched is open, unless it takes a process away. -/
theorem Life.guarded_step {l : Label} (hs : Life s) (hg : Guarded s) (hp : PreviousFinished s l) (hr : Relieved s l)
    (hstep : Step s l t) : Guarded t ∧ Vouched s t := by
  obtain ⟨he, ht⟩ := hstep
  cases l with
  | exec args hasOnStop =>
    obtain ⟨t', ht', hsent⟩ := multiExec_ok hs.isolated args hasOnStop
    cases (show multiExec args hasOnStop s = .ok () t from ht).symm.trans ht'
    have hfds : t.fds = s.fds := hsent.field (·.fds) fun _ _ _ _ => rfl
    exact hg.held (hsent.field Sys.posts fun _ _ _ _ => rfl) fun _ _ hx => hfds ▸ hx
  | stop flag signum =>
    obtain ⟨t', ht', hsent⟩ := sendJob_ok hs.isolated.owns (some (.stop flag signum))
    cases (show sendJob (some (.stop flag signum)) s = .ok () t from ht).symm.trans ht'
    have hfds : t.fds = s.fds := hsent.field (·.fds) fun _ _ _ _ => rfl
    exact hg.held (hsent.field Sys.posts fun _ _ _ _ => rfl) fun _ _ hx => hfds ▸ hx
  | env act =>
    cases ht
    exact hg.held ((envAct_elsewhere act s).field Sys.posts fun _ _ _ _ => rfl) fun _ _ => act.reads
  | run type c =>
    obtain ⟨hv, hq⟩ := startRun_vigilant (hs.choose c).isolated hs.control hp.2 hr hg.keys ht
    have hnone : ∀ p, p ∉ s.active := fun p hm => by
      rw [hp.1] at hm
      exact absurd hm (AList.notMem_empty _)
    exact ⟨hv.guarded, (Vouched.same rfl rfl).onward hq fun p hm => absurd hm (hnone p)⟩
  | event fd c =>
    exact (callbacksKeep_judged (s.choose c)).event_keeps hs he ⟨(hg.due hs he).judged, fun _ => Iff.rfl⟩ ht
  | selectError =>
    have hon := hs.running_on he.1
    have hv := hg.vigilant fun _ => he.1
    have hapart := hv.apart hon hs.isolated.owns
    obtain ⟨_, u, hu, hfin⟩ := bind_eq_ok.mp (show selectFails s = .ok () t from ht)
    have hj := hv.judged.notes ((multiProcessError_notes _).ok hu) ((multiProcessError_unlisted _).ok hu).registered
      (by cases hu; rfl)
    cases hu
    obtain ⟨hgt, hvouched, _⟩ := hj.finish hapart he.2 hfin
    exact ⟨hgt, hvouched⟩

/-- A run is started when the one before it has left nothing, its handler neither. -/
def Cleared (s : Sys) (l : Label) : Prop := PreviousFinished s l ∧ Relieved s l

theorem newMulti_guarded {w : World} (hnew : newMulti (boot w) = .ok () s) : Guarded s ∧ s.vigil.kept = [] := by
  rw [newMulti_ok hnew]
  exact ⟨(Vigilant.empty (fun _ => Iff.rfl) rfl).guarded, rfl⟩

/-- While a callback is made all that the event loop watches is open, and is what it was added for,
exactly as long as no step ends the watching of a process. -/
theorem watched_open_iff {w : World} {ls : List Label} (hnew : newMulti (boot w) = .ok () s)
    (hrun : Run (Under Cleared Step) s ls t) : (∀ b ∈ t.vigil.kept, b = true) ↔
      Run (Under (fun s l => Cleared s l ∧ WatchGoesOn s l) Step) s ls t := by
  suffices hall : (Life t ∧ Guarded t) ∧ ((∀ b ∈ t.vigil.kept, b = true) ↔
      Run (Under (fun s l => Cleared s l ∧ WatchGoesOn s l) Step) s ls t) from hall.2
  induction hrun with
  | nil =>
    obtain ⟨hg, hkept⟩ := newMulti_guarded hnew
    refine ⟨⟨newMulti_life hnew, hg⟩, iff_of_true (fun b hm => ?_) .nil⟩
    rw [hkept] at hm
    exact absurd hm List.not_mem_nil
  | @snoc a b ls l hprev hlast ih =>
    obtain ⟨⟨hlife, hg⟩, hiff⟩ := ih
    obtain ⟨⟨hp, hr⟩, hstep⟩ := hlast
    obtain ⟨hgb, new, hkept, htold⟩ := hlife.guarded_step hg hp hr hstep
    have hnext := life_step hlife hstep.1 hp
    rw [hstep.2] at hnext
    refine ⟨⟨hnext, hgb⟩, ?_⟩
    rw [hkept, List.forall_mem_append, hiff, htold, hlife.step_active hg hp hstep]
    constructor
    · rintro ⟨hbefore, hw⟩
      exact .snoc hbefore ⟨⟨⟨hp, hr⟩, hw⟩, hstep⟩
    · intro hgoes
      obtain ⟨v, hbefore, ⟨_, hw⟩, _⟩ := hgoes.last
      have hv : Run Step s ls v := hbefore.mono fun _ _ _ hst => hst.2
      obtain rfl := hv.unique step_unique (hprev.mono fun _ _ _ hst => hst.2)
      exact ⟨hbefore, hw⟩

theorem cleared_sound (s : Sys) (l : Label) (hc : handlerRun s l = true) : Cleared s l :=
  ⟨(handlerRun_sound s l hc).finished, (handlerRun_sound s l hc).relieved⟩

/-- Two processes that write and are read, and one in an external loop that has exited. -/
theorem watched_open_iff_pair : (pairAt 10).active.keys.length = 2 ∧
    (pairAt 10).vigil.added.keys.length = 8 ∧ (pairAt 10).vigil.kept = [true, true, true, true] ∧
    ((∀ b ∈ (pairAt 10).vigil.kept, b = true) ↔ Run (Under (fun s l => Cleared s l ∧ WatchGoesOn s l) Step)
      freshMulti (pairLife.take 10) (pairAt 10)) ∧
    ¬Run (Under (fun s l => Cleared s l ∧ WatchGoesOn s l) Step) freshMulti enlistedLife enlistedMulti := by
  refine ⟨by decide +kernel, by decide +kernel, by decide +kernel, watched_open_iff freshMulti_ok
    (run_after _ cleared_sound _ (by decide +kernel)), fun hgoes => ?_⟩
  have hopen := (watched_open_iff freshMulti_ok (run_after _ cleared_sound enlistedLife (by decide +kernel))).mpr hgoes
  exact absurd (hopen false (by decide +kernel)) (by decide)

/-- In every life that has come to a loop of the type, all that is watched is open at every callback. -/
def AlwaysOpen (type : LoopType) : Prop := ∀ (w : World) (ls : List Label) (s t : Sys),
  newMulti (boot w) = .ok () s → Run Step s ls t → t.loopType = type → ∀ b ∈ t.vigil.kept, b = true

/-- STOPPED of a process that has exited is told, and its callbacks are removed, after its pipes have
been closed, whichever the loop. -/
theorem watched_closed : ¬AlwaysOpen .default ∧ ¬AlwaysOpen .external := by
  constructor
  · intro hall
    have htold := hall {} pairLife freshMulti (pairAt 20) freshMulti_ok (pair_run (n := 20) (by decide +kernel))
      (by decide +kernel)
    exact absurd (htold false (by decide +kernel)) (by decide)
  · intro hall
    have htold := hall {} enlistedLife freshMulti enlistedMulti freshMulti_ok (run_through _ (by decide +kernel))
      (by decide +kernel)
    exact absurd (htold false (by decide +kernel)) (by decide)

end Pexec
