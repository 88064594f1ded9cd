import Pexec.HandedDescriptors
import Pexec.RegisterCalls

namespace Pexec

open Effect Runs

/-- The loop watches what is registered, and all of it is open: the read ends that it was told of. -/
structure Vigilant (s : Sys) : Prop where
  keys : ∀ fd, fd ∈ s.vigil.added ↔ fd ∈ s.registered
  ends : ∀ fd x, s.vigil.added.lookup fd = some x → ∃ pipe, x = some (.readEnd pipe) ∧ s.fds.target fd = x

/-- Whatever has been told in between was told while all that is watched was open. -/
def Untroubled (s t : Sys) : Prop := ∃ n, t.vigil.kept = s.vigil.kept ++ List.replicate n true

/-- One registration less. -/
structure Forgets (fd : Int) (s t : Sys) : Prop where
  fds : t.fds = s.fds
  registered : t.registered = s.registered.erase fd
  added : t.vigil.added = s.vigil.added.erase fd
  kept : ∃ n, t.vigil.kept = s.vigil.kept ++ List.replicate n (s.vigil.intact s.fds)
  registerFn : t.registerFn = s.registerFn

/-- The three registrations of a process are gone. -/
structure Retires (h : Nat) (s t : Sys) : Prop where
  fds : t.fds = s.fds
  keys : (∀ fd, fd ∈ s.vigil.added ↔ fd ∈ s.registered) → ∀ fd, fd ∈ t.vigil.added ↔ fd ∈ t.registered
  others : ∀ fd x, t.vigil.added.lookup fd = some x → s.vigil.added.lookup fd = some x ∧
    ∀ src, s.registered.lookup fd = some src → src.owner ≠ some h
  kept : ∃ new, t.vigil.kept = s.vigil.kept ++ new

variable {h : Nat} {pid fd : Int} {cb : Source} {s t u : Sys}

instance : IsPreorder Sys Untroubled where
  refl s := ⟨0, (List.append_nil _).symm⟩
  trans s t u hst htu := by
    obtain ⟨n, ht⟩ := hst
    obtain ⟨m, hu⟩ := htu
    exact ⟨n + m, by rw [hu, ht, List.append_assoc, List.replicate_append_replicate]⟩

theorem Vigilant.intact (hs : Vigilant s) : s.vigil.intact s.fds = true :=
  Vigil.intact_iff.mpr fun fd x hx => by
    obtain ⟨pipe, rfl, ht⟩ := hs.ends fd x hx
    exact ⟨Option.some_ne_none _, ht⟩

theorem Vigilant.held (hs : Vigilant s) (hadded : t.vigil.added = s.vigil.added) (hreg : t.registered = s.registered)
    (hfds : ∀ fd pipe, s.fds.target fd = some (.readEnd pipe) → t.fds.target fd = some (.readEnd pipe)) :
    Vigilant t := by
  refine ⟨fun fd => by rw [hadded, hreg]; exact hs.keys fd, fun fd x hx => ?_⟩
  rw [hadded] at hx
  obtain ⟨pipe, rfl, ht⟩ := hs.ends fd x hx
  exact ⟨pipe, rfl, hfds fd pipe ht⟩

theorem Vigilant.notes (hs : Vigilant s) (hn : Notes s t) (hreg : t.registered = s.registered) :
    Vigilant t ∧ Untroubled s t := by
  obtain ⟨n, hv⟩ := hn.vigil
  refine ⟨hs.held hn.added hreg fun _ _ hx => hn.fds ▸ hx, n, ?_⟩
  rw [hv, hs.intact]

theorem removeReadEvent_forgets (hfn : s.registerFn ≠ none) (ht : removeReadEvent fd s = .ok () t) : Forgets fd s t := by
  obtain ⟨loop, trace, n, rfl⟩ := removeReadEvent_vigil hfn ht
  exact ⟨rfl, rfl, rfl, ⟨n, rfl⟩, rfl⟩

theorem Forgets.keys (hf : Forgets fd s t) (hs : ∀ x, x ∈ s.vigil.added ↔ x ∈ s.registered) (x : Int) :
    x ∈ t.vigil.added ↔ x ∈ t.registered := by
  rw [hf.added, hf.registered, AList.mem_erase, AList.mem_erase, hs]

theorem Forgets.lookup (hf : Forgets fd s t) {x : Int} {target : Option FdTarget}
    (hl : t.vigil.added.lookup x = some target) : s.vigil.added.lookup x = some target ∧ x ≠ fd := by
  rw [hf.added] at hl
  have hx : x ≠ fd := by
    rintro rfl
    rw [AList.lookup_erase] at hl
    cases hl
  exact ⟨by rwa [AList.lookup_erase_ne hx] at hl, hx⟩

theorem Vigilant.forgets (hs : Vigilant s) (hf : Forgets fd s t) : Vigilant t ∧ Untroubled s t := by
  obtain ⟨n, hkept⟩ := hf.kept
  refine ⟨⟨hf.keys hs.keys, fun x target hl => ?_⟩, n, by rw [hkept, hs.intact]⟩
  obtain ⟨pipe, hx, ht⟩ := hs.ends x target (hf.lookup hl).1
  exact ⟨pipe, hx, hf.fds ▸ ht⟩

/-- A descriptor that is added is open then. -/
theorem addReadEvent_vigilant (hs : Vigilant s) (hfn : s.registerFn ≠ none)
    (hopen : ∃ pipe, s.fds.target fd = some (.readEnd pipe)) (ht : addReadEvent fd cb s = .ok () t) :
    Vigilant t ∧ Untroubled s t ∧ t.fds = s.fds ∧ t.active = s.active ∧ t.registerFn = s.registerFn := by
  obtain ⟨loop, mapOrder, trace, n, rfl⟩ := addReadEvent_vigil hfn ht
  obtain ⟨pipe, hfd⟩ := hopen
  refine ⟨⟨fun x => ?_, fun x target hl => ?_⟩, ⟨n, ?_⟩, rfl, rfl, rfl⟩
  · simp only [Vigil.add, AList.mem_insert, hs.keys]
  · by_cases hx : x = fd
    · rw [hx]
      rw [hx, Vigil.add, AList.lookup_insert] at hl
      obtain rfl : s.fds.target fd = target := Option.some.inj hl
      exact ⟨pipe, hfd, rfl⟩
    · rw [Vigil.add, AList.lookup_insert_ne hx] at hl
      exact hs.ends x target hl
  · simp only [Vigil.intact_add hs.intact hfd]

theorem Sys.Mirrored.registerFn (hm : s.Mirrored) : s.registerFn ≠ none := by
  rcases hm with ⟨_, hfn⟩ | ⟨_, hfn, _⟩
  · rw [hfn]
    exact Option.some_ne_none _
  · rw [hfn]
    exact Option.some_ne_none _

theorem onProcStopped_retires (hs : Desk s) (hl : s.active.lookup pid = some h) (ht : onProcStopped h pid s = .ok () t) :
    Retires h s t := by
  obtain ⟨u, v, w, hu, hv, hw, hlast, hrest⟩ := onProcStopped_removes hs hl ht
  have hfn := hs.mirrored.registerFn
  have hwatch := removeReadEvent_forgets hfn hu
  have hout := removeReadEvent_forgets (hwatch.registerFn ▸ hfn) hv
  have herr := removeReadEvent_forgets (hout.registerFn ▸ hwatch.registerFn ▸ hfn) hw
  refine ⟨?_, fun hkeys fd => ?_, fun fd x hx => ?_, ?_⟩
  · rw [hrest.fds, herr.fds, hout.fds, hwatch.fds]
  · rw [hrest.added, hlast.registered]
    exact herr.keys (hout.keys (hwatch.keys hkeys)) fd
  · rw [hrest.added] at hx
    obtain ⟨hx, hne⟩ := herr.lookup hx
    obtain ⟨hx, hno⟩ := hout.lookup hx
    obtain ⟨hx, hnw⟩ := hwatch.lookup hx
    refine ⟨hx, fun src hsrc ho => ?_⟩
    obtain ⟨_, hkey⟩ := (hs.keys fd src).mp hsrc
    cases src <;> cases ho
    · exact hnw hkey.symm
    · exact hno hkey.symm
    · exact hne hkey.symm
  · obtain ⟨a, hka⟩ := hwatch.kept
    obtain ⟨b, hkb⟩ := hout.kept
    obtain ⟨c, hkc⟩ := herr.kept
    obtain ⟨d, hkd⟩ := hrest.vigil
    exact ⟨_, by rw [hkd, hkc, hkb, hka, List.append_assoc, List.append_assoc, List.append_assoc]⟩

theorem On.registered_key (hs : On s) {src : Source} (hl : s.registered.lookup fd = some src) :
    (s.array src.slot).rd = fd := by
  obtain ⟨hexp, hkey⟩ := (hs.desk.keys fd src).mp hl
  rw [← hs.keyOf_eq hexp, hkey]

theorem Vigilant.open (hs : Vigilant s) (hm : fd ∈ s.registered) : ∃ x, s.vigil.added.lookup fd = some (some x) ∧
    s.fds.target fd = some x := by
  obtain ⟨x, hx⟩ := Option.isSome_iff_exists.mp (AList.lookup_isSome.mpr ((hs.keys fd).mpr hm))
  obtain ⟨pipe, rfl, ht⟩ := hs.ends fd x hx
  exact ⟨_, hx, ht⟩

/-- The descriptors of the other objects stay as they are when those of one are closed. -/
theorem closeForkPipes_spares (ho : s.Owns) (ht : closeForkPipes h s = .ok () t) (slot : Slot)
    (hslot : slot.owner ≠ some h) (hb : slot ≠ .blocking) (hopen : (s.array slot).rd ≠ -1) :
    t.fds.target (s.array slot).rd = s.fds.target (s.array slot).rd := by
  have hot : t.Owns := ((closeForkPipes_acts (h := h)).ok ht).carries ho |>.1
  have harray : t.array slot = s.array slot := by
    cases ht
    rw [closeForkPipes_array]
    exact if_neg (not_or.mpr ⟨hslot, fun hx => hb hx.1⟩)
  obtain ⟨pipe, hpipe, hrd, _⟩ := (Owned.ends ho slot).opened hopen
  obtain ⟨pipe', hpipe', hrd', _⟩ := (Owned.ends hot slot).opened (by rwa [harray])
  rw [harray] at hpipe' hrd'
  rw [hrd, hrd']
  cases hpipe.symm.trans hpipe'
  rfl

/-- Its own descriptors do not refer to its pipes any more. -/
theorem closeForkPipes_cuts (ho : s.Owns) (ht : closeForkPipes h s = .ok () t) (slot : Slot)
    (hslot : slot.owner = some h) (hopen : (s.array slot).rd ≠ -1) :
    t.fds.target (s.array slot).rd ≠ s.fds.target (s.array slot).rd := by
  intro he
  have hot : t.Owns := ((closeForkPipes_acts (h := h)).ok ht).carries ho |>.1
  have harray : t.array slot = (s.array slot).closed := by
    cases ht
    rw [closeForkPipes_array]
    exact if_pos (.inl hslot)
  obtain ⟨pipe, hpipe, hrd, _⟩ := (Owned.ends ho slot).opened hopen
  rw [hrd] at he
  have hfd := FdTable.target_nonneg he
  rcases Owned.only hot slot pipe _ _ (by rw [harray]; exact hpipe) he rfl with hx | hx
  · rw [harray, closed_rd] at hx
    omega
  · rw [harray, closed_wr] at hx
    omega

/-- Where the watching of a process ends, its last callback is told with its pipes closed and still watched. -/
theorem Leaves.vigil (hs : Desk s) (ho : s.Owns) (hkeys : ∀ fd src, s.registered.lookup fd = some src →
      (s.array src.slot).rd = fd) (hl : s.active.lookup pid = some h) (hv : Vigilant s) (hleft : Leaves h s t) :
    Vigilant t ∧ t.active = s.active.erase pid ∧ ∃ new, t.vigil.kept = s.vigil.kept ++ new ∧ false ∈ new := by
  obtain ⟨u, st, hsaid, hnotes, harray, hst, ht⟩ := hleft
  obtain ⟨hvu, n, hn⟩ := hv.notes hnotes hsaid.registered
  have hou : u.Owns := ho.congr hnotes.fds harray
  obtain ⟨_, v, hclose, ht⟩ := bind_eq_ok.mp ht
  have hshut := closeForkPipes_speaks.ok hclose
  have hvigil : v.vigil = u.vigil := by
    cases hclose
    obtain ⟨fds, blockingPipe, hw⟩ := u.toWorld.closeForkPipes_frame (u.procs h)
    have := congrArg World.vigil hw
    exact this
  have hv' := IsTrans.trans _ _ _ hsaid hshut
  obtain ⟨x, y, hann, hx, hy, hny, hlast⟩ := callState_stops (hv'.idle.desk hs) (hv'.idle.active ▸ hl) hst ht
  have hnx := (announce_notes st).ok hann
  have hall : Says h s y := IsTrans.trans _ _ _ hv' (IsTrans.trans _ _ _ hx hy)
  have hadded : y.vigil.added = s.vigil.added := by
    rw [hny.added, hnx.added, hvigil, hnotes.added]
  have hfds : y.fds = v.fds := hny.fds.trans hnx.fds
  have hretired := onProcStopped_retires (hall.idle.desk hs) (hall.idle.active ▸ hl) hlast
  obtain ⟨t', ht', hgone⟩ := onProcStopped_ok (hall.idle.desk hs) (hall.idle.active ▸ hl)
  cases hlast.symm.trans ht'
  refine ⟨⟨hretired.keys fun fd => by rw [hadded, hall.registered]; exact hv.keys fd, fun fd target hx => ?_⟩,
    by rw [hgone.active, hall.idle.active], ?_⟩
  · -- what is still watched belongs to others
    obtain ⟨hx, howner⟩ := hretired.others fd target hx
    rw [hadded] at hx
    obtain ⟨pipe, rfl, htarget⟩ := hv.ends fd target hx
    obtain ⟨src, hsrc⟩ := Option.isSome_iff_exists.mp (AList.lookup_isSome.mpr
      ((hv.keys fd).mp (AList.lookup_isSome.mp (by rw [hx]; rfl))))
    have hfd := hkeys fd src hsrc
    have hspared := closeForkPipes_spares hou hclose src.slot
      (by rw [Source.slot_owner]; exact howner src (hall.registered ▸ hsrc)) (by cases src <;> exact nofun) (by
        rw [harray, hfd]
        have := FdTable.target_nonneg htarget
        omega)
    rw [harray, hfd, hnotes.fds, htarget] at hspared
    exact ⟨pipe, rfl, by rw [hretired.fds, hfds, hspared]⟩
  · obtain ⟨fd, hfd⟩ : ∃ fd, fd = s.keyOf (.readStdout h) := ⟨_, rfl⟩
    have hreg : s.registered.lookup fd = some (.readStdout h) := (hs.keys _ _).mpr ⟨⟨pid, hl⟩, hfd.symm⟩
    obtain ⟨target, hlook, htarget⟩ := hv.open (AList.lookup_isSome.mp (by rw [hreg]; rfl))
    have hrd : (u.array (.stdout h)).rd = fd := by
      rw [harray]
      exact hkeys fd _ hreg
    have hcut := closeForkPipes_cuts hou hclose (.stdout h) rfl (by
      rw [hrd]
      have := FdTable.target_nonneg htarget
      omega)
    rw [hrd, hnotes.fds, htarget] at hcut
    have hbroken : v.vigil.intact v.fds = false :=
      Vigil.not_intact (by rw [hvigil, hnotes.added]; exact hlook) hcut
    have htold : x.vigil.kept = v.vigil.kept ++ List.replicate 1 false := by
      rw [← hbroken]
      cases hann
      exact congrArg Vigil.kept (v.toWorld.announced_vigil ..)
    obtain ⟨_, hky⟩ := hny.vigil
    obtain ⟨new, hnew⟩ := hretired.kept
    refine ⟨_, by rw [hnew, hky, htold, hvigil, hn, List.append_assoc, List.append_assoc, List.append_assoc], ?_⟩
    simp

/-- Since `s₀`, all was told while what is watched was open, unless a process has gone. -/
def Vouched (s₀ s : Sys) : Prop := ∃ new, s.vigil.kept = s₀.vigil.kept ++ new ∧
  ((∀ b ∈ new, b = true) ↔ ∀ pid ∈ s₀.active, pid ∈ s.active)

structure Judged (s₀ s : Sys) : Prop extends Vigilant s where
  vouched : Vouched s₀ s

variable {s₀ : Sys}

theorem Vouched.onward (hs : Vouched s₀ s) (hq : Untroubled s t)
    (ha : ∀ p ∈ s₀.active, p ∈ t.active ↔ p ∈ s.active) : Vouched s₀ t := by
  obtain ⟨new, hkept, hiff⟩ := hs
  obtain ⟨n, hn⟩ := hq
  refine ⟨new ++ List.replicate n true, by rw [hn, hkept, List.append_assoc], ?_⟩
  rw [List.forall_mem_append, forall₂_congr ha, ← hiff]
  exact and_iff_left fun b hb => List.eq_of_mem_replicate hb

theorem Vouched.same (hvigil : t.vigil = s.vigil) (hactive : t.active = s.active) : Vouched s t :=
  ⟨[], by rw [hvigil, List.append_nil], iff_of_true (fun _ hm => absurd hm List.not_mem_nil) fun p hp => hactive ▸ hp⟩

theorem Vigilant.judged (hs : Vigilant s) : Judged s s := ⟨hs, .same rfl rfl⟩

theorem Judged.onward (hj : Judged s₀ s) (hv : Vigilant t) (hq : Untroubled s t)
    (ha : ∀ p ∈ s₀.active, p ∈ t.active ↔ p ∈ s.active) : Judged s₀ t := ⟨hv, hj.vouched.onward hq ha⟩

theorem Judged.notes (hj : Judged s₀ s) (hn : Notes s t) (hreg : t.registered = s.registered)
    (ha : t.active = s.active) : Judged s₀ t := by
  obtain ⟨hv, hq⟩ := hj.toVigilant.notes hn hreg
  exact hj.onward hv hq fun p _ => by rw [ha]

theorem Judged.leaves (hs : Desk s) (ho : s.Owns) (hkeys : ∀ fd src, s.registered.lookup fd = some src →
      (s.array src.slot).rd = fd) (hl : s.active.lookup pid = some h) (hsub : ∀ p ∈ s.active, p ∈ s₀.active)
    (hj : Judged s₀ s) (hleft : Leaves h s t) : Judged s₀ t ∧ ∀ p ∈ t.active, p ∈ s₀.active := by
  obtain ⟨hv, hactive, new, hnew, hfalse⟩ := hleft.vigil hs ho hkeys hl hj.toVigilant
  obtain ⟨old, hold, _⟩ := hj.vouched
  refine ⟨⟨hv, old ++ new, by rw [hnew, hold, List.append_assoc], iff_of_false (fun hall => ?_) fun hall => ?_⟩,
    fun p hp => hsub p ?_⟩
  · exact absurd (hall false (List.mem_append_right old hfalse)) (by decide)
  · have := hall pid (hsub pid (AList.lookup_isSome.mp (by rw [hl]; rfl)))
    rw [hactive, AList.mem_erase] at this
    exact this.1 rfl
  · rw [hactive, AList.mem_erase] at hp
    exact hp.2

theorem handleStop_vigilant (hon : On s) (hw : s.watching = true) (hs : Vigilant s) (ht : handleStop s = .ok () t) :
    Vigilant t ∧ Untroubled s t := by
  obtain ⟨u, v, hu, hv, hlast, hrest⟩ := handleStop_removes hon hw ht
  have hfn := hon.desk.mirrored.registerFn
  have hsig := removeReadEvent_forgets hfn hu
  obtain ⟨hvu, hqu⟩ := hs.forgets hsig
  obtain ⟨hvv, hqv⟩ := hvu.forgets (removeReadEvent_forgets (hsig.registerFn ▸ hfn) hv)
  obtain ⟨hvt, hqt⟩ := hvv.notes hrest hlast.registered
  exact ⟨hvt, IsTrans.trans _ _ _ hqu (IsTrans.trans _ _ _ hqv hqt)⟩

theorem Judged.stop (hj : Judged s₀ s) (hon : On s) (hw : s.watching = true) (ht : handleStop s = .ok () t) :
    Judged s₀ t ∧ t.active = s.active := by
  obtain ⟨hv, hq⟩ := handleStop_vigilant hon hw hj.toVigilant ht
  obtain ⟨t', ht', hhalted⟩ := handleStop_ok hon hw
  cases ht.symm.trans ht'
  obtain ⟨_, _, _, _, _, _, hframe⟩ := hhalted.frame
  have hactive : t.active = s.active := by rw [hframe]
  exact ⟨hj.onward hv hq fun p _ => by rw [hactive], hactive⟩

theorem Drained.judged {slot : Slot} (hd : Drained slot s t) (hj : Judged s₀ s) :
    Judged s₀ t ∧ t.active = s.active := by
  have hactive : t.active = s.active := hd.field Sys.active fun _ _ _ => rfl
  refine ⟨hj.notes (.same ?_ ?_) ?_ hactive, hactive⟩
  · exact hd.field (·.fds) fun _ _ _ => rfl
  · exact hd.field (·.vigil) fun _ _ _ => rfl
  · exact hd.field Sys.registered fun _ _ _ => rfl

/-- While signals are handled, processes only go. -/
theorem sigchldKeeps_judged (s₀ : Sys) : SigchldKeeps fun s => Judged s₀ s ∧ ∀ p ∈ s.active, p ∈ s₀.active where
  read {s _ _} hs hj hr := by
    have hd := readSignalFrom_drained (s.readFaults.length + 4) 4 [] s hs.isolated.owns
    rw [hr] at hd
    obtain ⟨hjt, hactive⟩ := Drained.judged hd hj.1
    exact ⟨hjt, hactive ▸ hj.2⟩
  mask {s} block _ hj := by
    obtain ⟨faults, sigchldBlocked, hw⟩ := s.toWorld.sigprocmask_frame block
    rw [hw]
    exact ⟨hj.1.notes (.same rfl rfl) rfl rfl, hj.2⟩
  error _ hj ht := by
    have haside := (handlerProcessError_aside _).ok ht
    have hactive := haside.field Sys.active fun _ => rfl
    exact ⟨hj.1.notes ((handlerProcessError_notes _).ok ht) (haside.field Sys.registered fun _ => rfl) hactive,
      hactive ▸ hj.2⟩
  waited _ _ hj := ⟨hj.1.notes (.same rfl rfl) rfl rfl, hj.2⟩
  signal {s t pid status} hs hj ht := by
    have hreaped : Judged s₀ (s.reaped pid status) := hj.1.notes (.same rfl rfl) rfl rfl
    unfold onSignal at ht
    rw [bind_of_ok (get_apply _), show (s.reaped pid status).active = s.active from rfl] at ht
    cases ha : s.active.lookup pid with
    | none =>
      rw [ha] at ht
      cases ht
      exact ⟨hreaped, hj.2⟩
    | some h =>
      rw [ha] at ht
      have hdesk : Desk (s.reaped pid status) := reaped_desk hs.on.desk pid status
      have hleft := updateStatus_leaves (s := s.reaped pid status) (hs.on.served pid h ha).type status.2 ht
      exact hreaped.leaves hdesk (hs.isolated.owns.congr rfl rfl) (fun fd src hl => hs.on.registered_key hl) ha hj.2 hleft

/-- The preparations of a process close nothing, and STARTED is told before it is watched. -/
theorem handleExec_vigilant {hd : Handle} (hh : s.handles h = some hd) (hu : Unspawned h s) (hs : Vigilant s)
    (ht : handleExec h s = .ok () t) (hpid : handlePid t h ≠ 0) (hreg : t.registered = s.registered) :
    Vigilant t ∧ Untroubled s t := by
  obtain ⟨u, handles, hprep, rfl⟩ := handleExec_started hh hu ht hpid
  have hexp := execPrepare_tacit hd.args s u hprep
  have hvu : Vigilant u := hs.held (congrArg Vigil.added hexp.vigil) hreg fun fd pipe => hexp.held fd (.readEnd pipe)
  have hall : Notes u { u with
      toWorld := u.toWorld.announced h .started (u.procs h).started
      procs := Function.update u.procs h (u.procs h).started
      handles } := ⟨rfl, 1, u.toWorld.announced_vigil ..⟩
  obtain ⟨hvt, n, hn⟩ := hvu.notes hall rfl
  exact ⟨hvt, n, by rw [hn, hexp.vigil]⟩

theorem jobSpawnProc_vigilant {hd : Handle} (hs : Sound s) (hp : s.procs h = { type := .nonblocking })
    (hh : s.handles h = some hd) (hu : Unspawned h s) (hgoing : s.stopping = false) (hv : Vigilant s)
    {ret : EventReturn} (ht : jobSpawnProc h s = .ok ret t) : Vigilant t ∧ Untroubled s t := by
  obtain ⟨pid, u, v, w, hexec, hsp, hwatch, hout, herr⟩ := jobSpawnProc_adds hp hh hu hgoing ht
  obtain ⟨hvu, hqu⟩ := handleExec_vigilant hh hu hv hexec (by rw [hsp.handlePid]; exact Int.ne_of_gt hsp.pos)
    (hsp.field Sys.registered fun _ => rfl)
  obtain ⟨hva, hqa⟩ := hvu.notes (t := u.activated h pid) (.same rfl rfl) rfl
  have hfn : (u.activated h pid).registerFn ≠ none := by
    rw [show (u.activated h pid).registerFn = s.registerFn from hsp.field Sys.registerFn fun _ => rfl]
    exact hs.on.desk.mirrored.registerFn
  have hopen : ∀ slot ∈ objectSlots h, ∃ pipe, u.fds.target (u.array slot).rd = some (.readEnd pipe) := fun slot hslot => by
    obtain ⟨pipe, _, hrd, _⟩ := (Owned.ends (hsp.opens.owns hs.isolated.owns) slot).opened (hsp.served.ready slot hslot)
    exact ⟨pipe, hrd⟩
  obtain ⟨hvv, hqv, hfv, _, hfnv⟩ := addReadEvent_vigilant hva hfn (hopen (.watch h) (by simp [objectSlots])) hwatch
  obtain ⟨hvw, hqw, hfw, _, hfnw⟩ := addReadEvent_vigilant hvv (hfnv ▸ hfn)
    (by rw [hfv]; exact hopen (.stdout h) (by simp [objectSlots])) hout
  obtain ⟨hvt, hqt, _⟩ := addReadEvent_vigilant hvw (hfnw ▸ hfnv ▸ hfn)
    (by rw [hfw, hfv]; exact hopen (.stderr h) (by simp [objectSlots])) herr
  exact ⟨hvt, IsTrans.trans _ _ _ hqu (IsTrans.trans _ _ _ hqa (IsTrans.trans _ _ _ hqv (IsTrans.trans _ _ _ hqw hqt)))⟩

/-- While a job is dispatched, no process goes. -/
theorem jobsKeep_judged (s₀ : Sys) : JobsKeep fun s => Judged s₀ s ∧ ∀ p ∈ s₀.active, p ∈ s.active where
  read hj hd := by
    obtain ⟨hjt, hactive⟩ := Drained.judged hd hj.1
    exact ⟨hjt, hactive ▸ hj.2⟩
  take _ hj := ⟨hj.1.notes (.same rfl rfl) rfl rfl, hj.2⟩
  order _ _ hj := ⟨hj.1.notes (.same rfl rfl) rfl rfl, hj.2⟩
  told _ hj htold _ := by
    have hactive := htold.field Sys.active fun _ _ _ _ => rfl
    exact ⟨hj.1.notes htold.notes (htold.field Sys.registered fun _ _ _ _ => rfl) hactive, hactive ▸ hj.2⟩
  spawn {s t _ _ _} hs hp hh hu _ hgoing hj ht hen := by
    obtain ⟨hv, hq⟩ := jobSpawnProc_vigilant hs hp hh hu hgoing hj.1.toVigilant ht
    have hin : ∀ p ∈ s₀.active, p ∈ t.active := fun p hm => by
      rw [hen.active, AList.mem_insert]
      exact .inr (hj.2 p hm)
    exact ⟨hj.1.onward hv hq fun p hm => iff_of_true (hin p hm) (hj.2 p hm), hin⟩
  stop hon hw hj ht := by
    obtain ⟨hjt, hactive⟩ := hj.1.stop hon hw ht
    exact ⟨hjt, hactive ▸ hj.2⟩

end Pexec
