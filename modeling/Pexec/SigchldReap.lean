import Pexec.Registry

namespace Pexec

open Effect

/-- The children that `waitpid(0, ..)` returns when it is called until there is none left or it
fails; an interrupted call is made again. -/
def World.reapsFrom : Nat → World → List Int
  | 0, _ => []
  | fuel + 1, w =>
    match w.waitpid 0 with
    | (.reaped pid _, w) => pid :: reapsFrom fuel w
    | (.failed .eintr, w) => reapsFrom fuel w
    | _ => []

def World.reaps (w : World) : List Int := w.reapsFrom (w.faults.length + w.children.keys.length + 1)

/-- `waitpid(0, ..)` has returned child `pid`. -/
def Sys.reaped (s : Sys) (pid : Int) (status : WaitStatus) : Sys :=
  { s with
    faults := s.faults.tail
    children := s.children.erase pid
    trace := s.trace ++ [.waitpid 0 (.reaped pid status)] }

/-- `waitpid(0, ..)` has returned without a child. -/
def Sys.waited (s : Sys) (r : WaitResult) : Sys :=
  { s with
    faults := s.faults.tail
    trace := s.trace ++ [.waitpid 0 r] }

/-- A turn of the loop in `handle_sigchld` after which it goes on. -/
inductive Turn (s : Sys) : Option (Int × WaitStatus) → Sys → Prop
  | again (fault : s.faults.head?.join = some .eintr) : Turn s none (s.waited (.failed .eintr))
  | foreign {pid : Int} {child : Child} {status : { status : WaitStatus // Terminated status }}
      (mem : pid ∈ s.zombies 0) (lookup : s.children.lookup pid = some child)
      (ended : child.status = some status) (active : s.active.lookup pid = none) :
      Turn s (some (pid, status)) (s.reaped pid status)
  | own {pid : Int} {h : Nat} {child : Child} {status : { status : WaitStatus // Terminated status }}
      {t : Sys}
      (mem : pid ∈ s.zombies 0) (lookup : s.children.lookup pid = some child)
      (ended : child.status = some status) (active : s.active.lookup pid = some h)
      (finished : Finished pid h [(h, .signaled, (s.procs h).proc.updateStatus status),
        (h, .stopped, { (s.procs h).proc.updateStatus status with stdinFd := -1 })]
          (s.reaped pid status) t) :
      Turn s (some (pid, status)) t

/-- The turns of the loop, with the children that they reap. -/
inductive Reaps : Sys → List (Int × WaitStatus) → Sys → Prop
  | nil {s} : Reaps s [] s
  | cons {s t u o rs} : Turn s o t → Reaps t rs u → Reaps s (o.toList ++ rs) u

/-- The process without what the error handling of `sigchld_handler` and its signal mask change. -/
def Sys.aside (s : Sys) : Sys :=
  { s with
    faults := []
    sigchldBlocked := false
    trace := []
    vigil := {}
    sigchld := none
    err_ := .noError }

/-- A part of `handle_sigchld` that is about no process. -/
structure Aside (s t : Sys) : Prop where
  aside : t.aside = s.aside
  uncalled : Uncalled s t

variable {h : Nat} {pid : Int} {s t u : Sys} {rs : List (Int × WaitStatus)}

instance : IsPreorder Sys Aside where
  refl s := ⟨rfl, Std.Refl.refl s⟩
  trans _ _ _ hst htu := ⟨htu.aside.trans hst.aside, IsTrans.trans _ _ _ hst.uncalled htu.uncalled⟩

theorem Aside.field {α : Type} (ha : Aside s t) (f : Sys → α) (hf : ∀ u, f u.aside = f u) :
    f t = f s := by
  rw [← hf t, ha.aside, hf]

theorem Aside.on (ha : Aside s t) (hs : On s) : On t := by
  have hchildren : t.children = s.children := ha.field (·.children) fun _ => rfl
  refine hs.congr (ha.field Sys.registered fun _ => rfl) (ha.field Sys.active fun _ => rfl)
    (ha.field Sys.watching fun _ => rfl) (ha.field (·.sigchldPipe) fun _ => rfl)
    (ha.field Sys.controlPipe fun _ => rfl) (ha.field Sys.handles fun _ => rfl)
    (ha.field Sys.procs fun _ => rfl) (fun hm => ?_) fun pid _ hc => hchildren ▸ hc
  exact hm.congr (ha.field Sys.loopType fun _ => rfl) (ha.field Sys.registerFn fun _ => rfl)
    (ha.field Sys.loop fun _ => rfl) (ha.field Sys.registered fun _ => rfl)

theorem multiProcessError_aside (e : Error) : Moves Aside (multiProcessError e) := by
  refine Moves.bind (Moves.modify fun s => ⟨rfl, Uncalled.same rfl⟩) fun _ s => ?_
  exact ⟨rfl, (emit_uncalled (e := .multiError e) rfl rfl).ok rfl⟩

theorem handlerProcessError_aside (e : Error) : Moves Aside (handlerProcessError e) := by
  refine Moves.bind Moves.get fun s => ?_
  cases s.sigchld with
  | none => exact Moves.pure _
  | some handler =>
    refine Moves.bind (Moves.modify fun s => ⟨rfl, Uncalled.same rfl⟩) fun _ => ?_
    exact Moves.ite (fun _ => multiProcessError_aside e) fun _ => Moves.pure _

theorem handlerProcessError_ok (e : Error) (s : Sys) :
    ∃ t, handlerProcessError e s = .ok () t ∧ t.faults = s.faults := by
  unfold handlerProcessError
  rw [bind_of_ok (get_apply _)]
  cases s.sigchld with
  | none => exact ⟨s, rfl, rfl⟩
  | some handler =>
    dsimp only
    rw [bind_of_ok (modify_apply ..)]
    split
    next => exact ⟨_, rfl, rfl⟩
    next => exact ⟨_, rfl, rfl⟩

theorem sigprocmask_aside (block : Bool) : Moves Aside (call (World.sigprocmask · block)) := by
  intro s
  obtain ⟨faults, sigchldBlocked, hw⟩ := s.toWorld.sigprocmask_frame block
  rw [call_apply, hw]
  exact ⟨rfl, Uncalled.same rfl⟩

theorem waited_aside (s : Sys) (r : WaitResult) : Aside s (s.waited r) :=
  ⟨rfl, Uncalled.snoc (e := .waitpid 0 r) rfl rfl rfl⟩

theorem reaped_uncalled (s : Sys) (pid : Int) (status : WaitStatus) :
    Uncalled s (s.reaped pid status) :=
  Uncalled.snoc (e := .waitpid 0 (.reaped pid status)) rfl rfl rfl

/-- The last turn of the loop: there is no child, or the call fails. -/
structure LastTurn (s t : Sys) : Prop where
  aside : Aside s t
  none_left : (∀ e ∈ s.faults, e = none ∨ e = some .eintr) → s.zombies 0 = []

theorem Isolated.waited (hs : Isolated s) (r : WaitResult) : Isolated (s.waited r) :=
  (emit_isolated (e := .waitpid 0 r) fun _ => ⟨rfl, rfl⟩).ok (s := { s with faults := s.faults.tail })
    (hs.same (Carries.same rfl rfl rfl rfl) rfl rfl rfl rfl rfl rfl rfl rfl) rfl

theorem Isolated.reaped (hs : Isolated s) (pid : Int) (status : WaitStatus) :
    Isolated (s.reaped pid status) :=
  (emit_isolated (e := .waitpid 0 (.reaped pid status)) fun _ => ⟨rfl, rfl⟩).ok
    (s := { s with faults := s.faults.tail, children := s.children.erase pid })
    (hs.same (Carries.same rfl rfl rfl rfl) rfl rfl rfl rfl rfl rfl rfl rfl) rfl

theorem reaped_desk (hs : Desk s) (pid : Int) (status : WaitStatus) : Desk (s.reaped pid status) :=
  hs.congr rfl rfl rfl rfl rfl (fun _ => rfl) fun hm => hm.congr rfl rfl rfl rfl

/-- Where the child that was reaped is not the one of `pid'`, that process is served as before. -/
theorem Served.reaped {pid' : Int} (hs : Served s pid' h) (hne : pid' ≠ pid) (status : WaitStatus) :
    Served (s.reaped pid status) pid' h :=
  hs.congr rfl rfl (AList.mem_erase.mpr ⟨hne, hs.child⟩)

/-- Between two callbacks, in a process that is in order. -/
structure Sound (s : Sys) : Prop where
  isolated : Isolated s
  on : On s

/-- The handles of two active processes differ. -/
theorem Desk.active_inj (hs : Desk s) {pid' : Int} (hl : s.active.lookup pid = some h)
    (hl' : s.active.lookup pid' = some h) : pid' = pid := by
  obtain ⟨hd, h₁, h₂⟩ := hs.linked pid h hl
  obtain ⟨hd', h₁', h₂'⟩ := hs.linked pid' h hl'
  rw [h₁] at h₁'
  cases h₁'
  rw [h₂] at h₂'
  exact (Option.some.inj h₂').symm

/-- No other entry is left of a process whose entry is erased. -/
theorem Desk.active_erase (hs : Desk s) (hl : s.active.lookup pid = some h) (p : Int) :
    (s.active.erase pid).lookup p ≠ some h := by
  intro hp
  rw [hs.active_inj hl (lookup_of_erase hp), AList.lookup_erase] at hp
  cases hp

/-- A child that is not the one of an active process can go. -/
theorem On.reaped (hs : On s) (ha : s.active.lookup pid = none) (status : WaitStatus) :
    On (s.reaped pid status) := by
  refine ⟨reaped_desk hs.desk _ _, fun p x hp => (hs.served p x hp).reaped ?_ status⟩
  rintro rfl
  exact absurd (hp.symm.trans ha) (by simp)

/-- Nor is another process touched by the end of the one whose child was reaped. -/
theorem On.finished {status : WaitStatus} {new : List (Nat × State × ProcStatus)} (hs : On s)
    (ha : s.active.lookup pid = some h) (hf : Finished pid h new (s.reaped pid status) t) : On t := by
  refine hf.on (reaped_desk hs.desk _ _) (fun p x hp hx => ?_) ha
  refine (hs.served p x hp).reaped ?_ status
  rintro rfl
  exact hx (Option.some.inj (hp.symm.trans ha))

theorem Turn.on {o : Option (Int × WaitStatus)} (hs : On s) (ht : Turn s o t) : On t := by
  cases ht with
  | again => exact (waited_aside s _).on hs
  | foreign _ _ _ ha => exact hs.reaped ha _
  | own _ _ _ ha hf => exact hs.finished ha hf

/-- One turn in which a child is reaped. -/
theorem onSignal_turn (hs : Sound s) {child : Child} {status : { status : WaitStatus // Terminated status }}
    (hm : pid ∈ s.zombies 0) (hl : s.children.lookup pid = some child) (hst : child.status = some status) :
    ∃ t, onSignal pid status (s.reaped pid status) = .ok () t ∧ Turn s (some (pid, status)) t ∧
      Sound t := by
  have hiso := hs.isolated.reaped pid status
  have hactive : (s.reaped pid status).active = s.active := rfl
  unfold onSignal
  rw [bind_of_ok (get_apply _), hactive]
  cases ha : s.active.lookup pid with
  | none => exact ⟨_, rfl, .foreign hm hl hst ha, hiso, hs.on.reaped ha status⟩
  | some h =>
    obtain ⟨t, ht, hf⟩ := updateStatus_ends (reaped_desk hs.on.desk pid status) hiso.owns ha
      (hs.on.served pid h ha).type status.2
    refine ⟨t, ht, .own hm hl hst ha hf, hiso.acts ?_ hf.acts, hs.on.finished ha hf⟩
    exact hs.isolated.active pid h ha

theorem Turn.reaped {status : WaitStatus} (ht : Turn s (some (pid, status)) t) :
    t.children = s.children.erase pid ∧ t.faults = s.faults.tail ∧ t.pgid = s.pgid ∧
      t.pickChild = s.pickChild := by
  cases ht with
  | foreign => exact ⟨rfl, rfl, rfl, rfl⟩
  | own _ _ _ _ hf =>
    exact ⟨hf.acts.field (·.children) fun _ => rfl, hf.acts.field (·.faults) fun _ => rfl,
      hf.acts.field (·.pgid) fun _ => rfl, hf.acts.field (·.pickChild) fun _ => rfl⟩

/-- What `waitpid` answers depends on the children and on the kernel's choices only. -/
theorem World.waitpid_congr {w w' : World} (hf : w'.faults = w.faults) (hc : w'.children = w.children)
    (hg : w'.pgid = w.pgid) (hp : w'.pickChild = w.pickChild) (pid : Int) :
    (w'.waitpid pid).1 = (w.waitpid pid).1 ∧ (w'.waitpid pid).2.faults = (w.waitpid pid).2.faults ∧
      (w'.waitpid pid).2.children = (w.waitpid pid).2.children ∧
      (w'.waitpid pid).2.pgid = (w.waitpid pid).2.pgid ∧
      (w'.waitpid pid).2.pickChild = (w.waitpid pid).2.pickChild := by
  cases hfault : w.faults.head?.join with
  | some e =>
    have hfault' : w'.faults.head?.join = some e := hf ▸ hfault
    simp only [World.waitpid, World.nextFault, hfault, hfault']
    exact ⟨trivial, congrArg _ hf, hc, hg, hp⟩
  | none =>
    have hfault' : w'.faults.head?.join = none := hf ▸ hfault
    have hsel : World.selected { w' with faults := w'.faults.tail } pid =
        World.selected { w with faults := w.faults.tail } pid := by
      simp only [World.selected, hc, hg]
    have hz : World.zombies { w' with faults := w'.faults.tail } pid =
        World.zombies { w with faults := w.faults.tail } pid := by
      simp only [World.zombies, hsel]
    have htail : w'.faults.tail = w.faults.tail := by rw [hf]
    simp only [World.waitpid, World.nextFault, hfault, hfault', hz, hsel]
    split
    next => exact ⟨rfl, htail, hc, hg, hp⟩
    next z zs _ =>
      rw [hp, hc]
      generalize (if w.pickChild (z :: zs) ∈ z :: zs then w.pickChild (z :: zs) else z) = x
      cases (w.children.lookup x).bind Child.status with
      | some status => exact ⟨rfl, htail, rfl, hg, rfl⟩
      | none => exact ⟨rfl, htail, rfl, hg, rfl⟩

theorem World.reapsFrom_congr (fuel : Nat) : ∀ {w w' : World}, w'.faults = w.faults →
    w'.children = w.children → w'.pgid = w.pgid → w'.pickChild = w.pickChild →
    w'.reapsFrom fuel = w.reapsFrom fuel := by
  induction fuel with
  | zero => exact fun _ _ _ _ => rfl
  | succ fuel ih =>
    intro w w' hf hc hg hp
    obtain ⟨hr, hf', hc', hg', hp'⟩ := World.waitpid_congr hf hc hg hp 0
    have hrest := ih hf' hc' hg' hp'
    unfold World.reapsFrom
    generalize w.waitpid 0 = r at hr hrest ⊢
    generalize w'.waitpid 0 = r' at hr hrest ⊢
    obtain ⟨result, v⟩ := r
    obtain ⟨result', v'⟩ := r'
    cases hr
    split <;> simp_all

/-- The loop of `handle_sigchld` comes to its end: each turn uses up a fault or a child. -/
theorem sigchldLoop_reaps (fuel : Nat) : ∀ s, Sound s →
    s.faults.length + s.children.keys.length < fuel →
    ∃ rs u t, sigchldLoop fuel s = .ok () t ∧
      (Reaps s rs u ∧ rs.map Prod.fst = s.toWorld.reapsFrom fuel) ∧ LastTurn u t ∧ Sound t := by
  induction fuel with
  | zero => exact fun s _ hf => absurd hf (Nat.not_lt_zero _)
  | succ fuel ih =>
    intro s hs hfuel
    have ha := s.toWorld.waitpid_answer 0
    unfold sigchldLoop World.reapsFrom
    rw [bind_of_ok (call_apply ..)]
    generalize s.toWorld.waitpid 0 = r at ha ⊢
    obtain ⟨result, w⟩ := r
    dsimp only at ha ⊢
    rw [bind_of_ok (emit_apply ..)]
    -- an answer that ends the loop
    have hleave : ∀ r, LastTurn s (s.waited r) → ∃ rs u t,
        (pure () : Prog Unit) (s.waited r) = .ok () t ∧ (Reaps s rs u ∧ rs.map Prod.fst = []) ∧
          LastTurn u t ∧ Sound t :=
      fun r hlast => ⟨[], s, _, rfl, ⟨.nil, rfl⟩, hlast, hs.isolated.waited r, hlast.aside.on hs.on⟩
    cases ha with
    | @failed e hfault =>
      have hmem : some e ∈ s.faults := by
        cases hl : s.faults with
        | nil =>
          rw [hl] at hfault
          cases hfault
        | cons f fs =>
          rw [hl] at hfault
          have : f = some e := hfault
          rw [this]
          exact List.mem_cons_self
      have hother : e ≠ .eintr →
          (∀ f ∈ s.faults, f = none ∨ f = some .eintr) → s.zombies 0 = [] := by
        intro hne hall
        rcases hall _ hmem with he | he
        · cases he
        · exact absurd (Option.some.inj he) hne
      have hfail : e ≠ .eintr → ∃ rs u t, handlerProcessError .waitpidError (s.waited (.failed e)) =
          .ok () t ∧ (Reaps s rs u ∧ rs.map Prod.fst = []) ∧ LastTurn u t ∧ Sound t := by
        intro hne
        obtain ⟨t, ht, _⟩ := handlerProcessError_ok .waitpidError (s.waited (.failed e))
        have haside := IsTrans.trans _ _ _ (waited_aside s (.failed e))
          ((handlerProcessError_aside _).ok ht)
        refine ⟨[], s, t, ht, ⟨.nil, rfl⟩, ⟨haside, hother hne⟩,
          (handlerProcessError_isolated _).ok (hs.isolated.waited _) ht, haside.on hs.on⟩
      cases e with
      | echild => exact hleave _ ⟨waited_aside s _, hother (by decide)⟩
      | eintr =>
        have hlen : (s.waited (.failed .eintr)).faults.length +
            (s.waited (.failed .eintr)).children.keys.length < fuel := by
          have hpos := List.length_pos_of_mem hmem
          have htail : (s.waited (.failed .eintr)).faults.length = s.faults.length - 1 :=
            List.length_tail
          have hchildren : (s.waited (.failed .eintr)).children = s.children := rfl
          rw [hchildren]
          omega
        obtain ⟨rs, u, t, ht, ⟨hr, hpids⟩, hlast, hsound⟩ := ih _
          ⟨hs.isolated.waited _, (waited_aside s _).on hs.on⟩ hlen
        refine ⟨_, u, t, ht, ⟨.cons (.again hfault) hr, ?_⟩, hlast, hsound⟩
        exact hpids.trans (World.reapsFrom_congr fuel rfl rfl rfl rfl)
      | eagain => exact hfail (by decide)
      | ebadf => exact hfail (by decide)
      | other code => exact hfail (by simp)
    | echild hz => exact hleave _ ⟨waited_aside s _, fun _ => hz⟩
    | unavailable hz => exact hleave _ ⟨waited_aside s _, fun _ => hz⟩
    | @reaped x child status hm hl hst =>
      obtain ⟨v, hv, hturn, hsv⟩ := onSignal_turn hs hm hl hst
      have hlen : v.faults.length + v.children.keys.length < fuel := by
        have hchildren := hturn.reaped
        have hmem : x ∈ s.children.keys :=
          AList.mem_keys.mp (AList.lookup_isSome.mp (by rw [hl]; rfl))
        have hpos := List.length_pos_of_mem hmem
        have hkeys : (s.children.erase x).keys.length = s.children.keys.length - 1 := by
          rw [AList.keys_erase, List.length_erase_of_mem hmem]
        have htail : s.faults.tail.length = s.faults.length - 1 := List.length_tail
        rw [hchildren.1, hchildren.2.1, hkeys, htail]
        omega
      obtain ⟨rs, u, t, ht, ⟨hr, hpids⟩, hlast, hsound⟩ := ih v hsv hlen
      refine ⟨_, u, t, (bind_of_ok hv).trans ht, ⟨.cons hturn hr, ?_⟩, hlast, hsound⟩
      have hkept := hturn.reaped
      rw [Option.toList_some, List.singleton_append, List.map_cons, hpids]
      exact congrArg _ (World.reapsFrom_congr fuel hkept.2.1 hkept.1 hkept.2.2.1 hkept.2.2.2)

/-- The calls of `sigprocmask` stand around the loop. -/
theorem handleSigchld_split : handleSigchld = (do
    (do if !(← call (World.sigprocmask · true)) then handlerProcessError .sigBlockError : Prog Unit)
    let s ← get
    sigchldLoop (s.faults.length + s.children.keys.length + 1)
    (do if !(← call (World.sigprocmask · false)) then handlerProcessError .sigUnblockError
      : Prog Unit)) := by
  unfold handleSigchld
  funext s
  simp only [bind_apply]
  cases hcall : call (World.sigprocmask · true) s with
  | error e u => rfl
  | ok b u =>
    cases b with
    | true => rfl
    | false =>
      simp only [Bool.not_false, if_true, bind_apply]

/-- `handle_sigchld` comes back. -/
theorem handleSigchld_reaps (hs : Sound s) : ∃ a rs b c t, handleSigchld s = .ok () t ∧
    (Aside s a ∧ a.faults = s.faults.tail) ∧
      (Reaps a rs b ∧ rs.map Prod.fst = (s.toWorld.sigprocmask true).2.reaps) ∧
      LastTurn b c ∧ Aside c t ∧ Sound t := by
  have hmask : ∀ (block : Bool) (e : Error) (s : Sys), Sound s → ∃ t,
      (do if !(← call (World.sigprocmask · block)) then handlerProcessError e : Prog Unit) s = .ok () t ∧
        (Aside s t ∧ t.faults = s.faults.tail) ∧ Sound t := by
    intro block e s hs
    obtain ⟨b, u, hu⟩ : ∃ b u, call (World.sigprocmask · block) s = .ok b u := ⟨_, _, rfl⟩
    have hau := (sigprocmask_aside block).ok hu
    have hfaults : u.faults = s.faults.tail := by
      rw [call_apply] at hu
      cases hu
      exact World.sigprocmask_faults s.toWorld block
    have hiu := (sigprocmask_isolated block).ok hs.isolated hu
    cases b with
    | true =>
      refine ⟨u, ?_, ⟨hau, hfaults⟩, hiu, hau.on hs.on⟩
      rw [bind_of_ok hu]
      rfl
    | false =>
      obtain ⟨t, ht, hkept⟩ := handlerProcessError_ok e u
      have hat := IsTrans.trans _ _ _ hau ((handlerProcessError_aside e).ok ht)
      refine ⟨t, ?_, ⟨hat, hkept.trans hfaults⟩, (handlerProcessError_isolated e).ok hiu ht,
        hat.on hs.on⟩
      rw [bind_of_ok hu]
      exact ht
  obtain ⟨a, ha, haside, hsa⟩ := hmask true .sigBlockError s hs
  obtain ⟨rs, b, c, hc, ⟨hr, hpids⟩, hlast, hsc⟩ := sigchldLoop_reaps _ a hsa (Nat.lt_succ_self _)
  obtain ⟨t, ht, haside', hst⟩ := hmask false .sigUnblockError c hsc
  have hreaps : rs.map Prod.fst = (s.toWorld.sigprocmask true).2.reaps := by
    have hfaults : a.faults = (s.toWorld.sigprocmask true).2.faults := by
      rw [haside.2, World.sigprocmask_faults]
    obtain ⟨faults, sigchldBlocked, hw⟩ := s.toWorld.sigprocmask_frame true
    rw [hw] at hfaults ⊢
    have hchildren : a.children = s.children := haside.1.field (·.children) fun _ => rfl
    rw [hpids, World.reaps, hfaults, hchildren]
    exact World.reapsFrom_congr _ hfaults hchildren (haside.1.field (·.pgid) fun _ => rfl)
      (haside.1.field (·.pickChild) fun _ => rfl)
  refine ⟨a, rs, b, c, t, ?_, haside, ⟨hr, hreaps⟩, hlast, haside'.1, hst⟩
  rw [handleSigchld_split, bind_of_ok ha, bind_of_ok (get_apply _), bind_of_ok hc]
  exact ht

end Pexec
