import Mathlib.Logic.Equiv.Basic
import Mathlib.Data.Sum.Basic
import Pexec.Ledger

namespace Pexec

/-- The ends of pipes alone: others open and close files as they like. -/
def FdTable.bare (t : FdTable) : FdTable where
  entries := ⟨t.entries.entries.filter (·.2.target ≠ .file), t.entries.nodupKeys.sublist List.filter_sublist⟩
  nextPipe := t.nextPipe
  closings := t.closings.filter (· ≠ some .file)
  nonneg fd h := by
    obtain ⟨d, hd⟩ := Option.isSome_iff_exists.mp (AList.lookup_isSome.mpr h)
    exact t.nonneg fd (AList.lookup_isSome.mp (Option.isSome_iff_exists.mpr
      ⟨d, AList.mem_lookup_iff.mpr (List.mem_filter.mp (AList.mem_lookup_iff.mp hd)).1⟩))
  pipe_lt fd d h := t.pipe_lt fd d (AList.mem_lookup_iff.mpr (List.mem_filter.mp (AList.mem_lookup_iff.mp h)).1)

variable {t t' base : FdTable} {p : PipeFds} {fd : Int} {d : Descriptor}

theorem FdTable.bare_get_eq : t.bare.get fd = some d ↔ t.get fd = some d ∧ d.target ≠ .file := by
  unfold FdTable.get
  rw [← Option.mem_def, ← Option.mem_def, AList.mem_lookup_iff, AList.mem_lookup_iff]
  exact List.mem_filter.trans (and_congr_right fun _ => decide_eq_true_iff)

theorem FdTable.bare_get_none (h : t.get fd = none) : t.bare.get fd = none := by
  cases hb : t.bare.get fd with
  | none => rfl
  | some d =>
    rw [(FdTable.bare_get_eq.mp hb).1] at h
    cases h

theorem FdTable.bare_get_same (h : t'.get fd = t.get fd) : t'.bare.get fd = t.bare.get fd :=
  Option.ext fun d => by
    rw [FdTable.bare_get_eq, FdTable.bare_get_eq, h]

/-- A number is handed out again where it is free. -/
theorem freshFd_hint {entries : FdEntries} {hint : Int} (h : 0 ≤ hint) (hn : hint ∉ entries) :
    freshFd entries hint = hint := if_pos ⟨h, hn⟩

theorem FdTable.not_mem (h : t.target fd = none) : fd ∉ t.entries := fun hm => by
  obtain ⟨d, hd⟩ := Option.isSome_iff_exists.mp (AList.lookup_isSome.mpr hm)
  rw [FdTable.target, FdTable.get, hd] at h
  cases h

theorem FdTable.bare_fresh (h : t.target fd = none) : t.bare.target fd = none := by
  rw [FdTable.target, FdTable.bare_get_none (by simpa [FdTable.target] using h)]
  rfl

/-- Without the files, the kernel could have handed out the same two numbers. -/
theorem FdTable.bare_openPipe (hint : Int × Int) (cloexec : Bool) {p : PipeFds}
    (hp : p = (t.openPipe hint cloexec).1) : (t.bare.openPipe (p.rd, p.wr) cloexec).1 = p ∧
      ∀ x, (t.openPipe hint cloexec).2.bare.get x = (t.bare.openPipe (p.rd, p.wr) cloexec).2.get x := by
  have hrd : 0 ≤ p.rd := hp ▸ freshFd_nonneg _ _
  have hwr : 0 ≤ p.wr := hp ▸ freshFd_nonneg _ _
  have hne : p.wr ≠ p.rd := hp ▸ (FdTable.openPipe_wr_not_mem t hint cloexec).1
  have hread : freshFd t.bare.entries p.rd = p.rd :=
    freshFd_hint hrd (FdTable.not_mem (FdTable.bare_fresh (hp ▸ FdTable.openPipe_rd_fresh t hint cloexec)))
  have hsame : (t.bare.openPipe (p.rd, p.wr) cloexec).1 = p := by
    have hwrite : freshFd (t.bare.entries.insert (freshFd t.bare.entries p.rd) ⟨.readEnd t.bare.nextPipe, cloexec⟩) p.wr =
        p.wr := by
      refine freshFd_hint hwr ?_
      rw [AList.mem_insert, hread, not_or]
      exact ⟨hne, FdTable.not_mem (FdTable.bare_fresh (hp ▸ FdTable.openPipe_wr_fresh t hint cloexec))⟩
    show (⟨freshFd t.bare.entries p.rd, freshFd (t.bare.entries.insert (freshFd t.bare.entries p.rd) _) p.wr,
      some t.nextPipe, cloexec⟩ : PipeFds) = p
    rw [hwrite, hread, hp]
    rfl
  refine ⟨hsame, fun x => ?_⟩
  have hgetr := FdTable.openPipe_get_rd t.bare (p.rd, p.wr) cloexec
  have hgetw := FdTable.openPipe_get_wr t.bare (p.rd, p.wr) cloexec
  rw [hsame] at hgetr hgetw
  by_cases hxr : x = p.rd
  · rw [hxr, hgetr]
    exact FdTable.bare_get_eq.mpr ⟨hp ▸ FdTable.openPipe_get_rd t hint cloexec, by simp⟩
  · by_cases hxw : x = p.wr
    · rw [hxw, hgetw]
      exact FdTable.bare_get_eq.mpr ⟨hp ▸ FdTable.openPipe_get_wr t hint cloexec, by simp⟩
    · rw [FdTable.openPipe_get_ne t.bare _ cloexec (by rwa [hsame]) (by rwa [hsame])]
      exact FdTable.bare_get_same (FdTable.openPipe_get_ne t hint cloexec (hp ▸ hxr) (hp ▸ hxw))

theorem PipeFds.Ends.bare (h : p.Ends t) : p.Ends t.bare :=
  h.mono fun _ _ hd hx => FdTable.bare_get_eq.mpr ⟨hx, hd⟩

theorem FdTable.bare_closePipe (x : Int) : (t.closePipe p).bare.get x = (t.bare.closePipe p).get x := by
  rw [FdTable.closePipe_get]
  split
  next h => exact FdTable.bare_get_none (by rw [FdTable.closePipe_get, if_pos h])
  next h => exact FdTable.bare_get_same (by rw [FdTable.closePipe_get, if_neg h])

theorem FdTable.bare_closings (h : p.Ends t) : (t.closePipe p).bare.closings = (t.bare.closePipe p).closings := by
  by_cases hp : p.rd = -1
  · rw [FdTable.closePipe_closed hp (h.closed_wr hp), FdTable.closePipe_closed hp (h.closed_wr hp)]
  · obtain ⟨pipe, hpipe, _⟩ := h.held hp
    rw [FdTable.closePipe_closings h.bare hp hpipe]
    show ((t.closePipe p).closings).filter _ = _
    rw [FdTable.closePipe_closings h hp hpipe, List.filter_append]
    rfl

variable {ι : Type} {array : ι → PipeFds} {H : ι → Prop}

theorem Owned.bare (h : Owned t array) : Owned t.bare array :=
  h.mono (fun _ _ hd => ⟨fun hx => FdTable.bare_get_eq.mpr ⟨hx, hd⟩, fun hx => (FdTable.bare_get_eq.mp hx).1⟩) rfl

theorem Ledger.table (hl : Ledger base t array H) (hget : ∀ x, t'.get x = t.get x) (hnext : t'.nextPipe = t.nextPipe)
    (hclosings : t'.closings = t.closings) : Ledger base t' array H where
  same x hx := (hget x).trans (hl.same x hx)
  fresh := hl.fresh
  recent := hl.recent
  next := hnext ▸ hl.next
  closings := by
    obtain ⟨new, hown, hcount⟩ := hl.closings
    exact ⟨new, hown.mono hclosings (Nat.le_of_eq hnext.symm), fun target pipe ht h₁ h₂ => hcount target pipe ht h₁ (hnext ▸ h₂)⟩

variable {κ : Type}

theorem Owned.renamed (h : Owned t array) (e : κ ≃ ι) : Owned t (array ∘ e) where
  ends i := h.ends (e i)
  apart _ _ pipe hi hj := e.injective (h.apart _ _ pipe hi hj)
  below i := h.below (e i)
  only i := h.only (e i)

theorem Ledger.renamed (hl : Ledger base t array fun _ => True) (e : κ ≃ ι) :
    Ledger base t (array ∘ e) fun _ => True where
  same x hx := hl.same x fun i _ => by
    have := hx (e.symm i) trivial
    rwa [Function.comp_apply, Equiv.apply_symm_apply] at this
  fresh i := hl.fresh (e i)
  recent i := hl.recent (e i)
  next := hl.next
  closings := by
    obtain ⟨new, hown, hcount⟩ := hl.closings
    have hholds : ∀ pipe, Holds (array ∘ e) (fun _ => True) pipe ↔ Holds array (fun _ => True) pipe := fun pipe =>
      ⟨fun ⟨i, hi⟩ => ⟨e i, hi⟩, fun ⟨i, hi⟩ => ⟨e.symm i, by rwa [Function.comp_apply, Equiv.apply_symm_apply]⟩⟩
    exact ⟨new, hown, fun target pipe ht h₁ h₂ => by
      rw [hholds]
      exact hcount target pipe ht h₁ h₂⟩

variable [DecidableEq ι]

theorem forget_pipe {i j : ι} {pipe : Nat} (h : (Function.update array i {} j).pipe = some pipe) :
    j ≠ i ∧ (array j).pipe = some pipe := by
  have hji : j ≠ i := by
    rintro rfl
    rw [Function.update_self] at h
    cases h
  exact ⟨hji, by rwa [Function.update_of_ne hji] at h⟩

/-- The pipe of an array is forgotten. -/
theorem Owned.forget (h : Owned t array) (i : ι) : Owned t (Function.update array i {}) where
  ends j := by
    by_cases hji : j = i
    · subst j
      rw [Function.update_self]
      exact .inl ⟨rfl, rfl⟩
    · rw [Function.update_of_ne hji]
      exact h.ends j
  apart j k pipe hj hk := h.apart j k pipe (forget_pipe hj).2 (forget_pipe hk).2
  below j pipe hj := h.below j pipe (forget_pipe hj).2
  only j pipe x target hj hx ht := by
    rw [Function.update_of_ne (forget_pipe hj).1]
    exact h.only j pipe x target (forget_pipe hj).2 hx ht

theorem Ledger.forget (hl : Ledger base t array H) (h : Owned t array) {i : ι} (hc : (array i).rd = -1) :
    Ledger base t (Function.update array i {}) H := by
  refine hl.congr fun j _ => ?_
  by_cases hji : j = i
  · rw [hji, Function.update_self]
    exact ⟨hc.symm, ((h.ends i).closed_wr hc).symm, fun ho => absurd hc ho⟩
  · rw [Function.update_of_ne hji]
    exact ⟨rfl, rfl, fun _ => rfl⟩

/-- The arrays of the process, and the pipes that were in one when another was put there. -/
def held (array : Slot → PipeFds) (lost : List PipeFds) : Slot ⊕ Nat → PipeFds :=
  Sum.elim array fun n => lost.getD n {}

/-- Whatever pipe was created since `base` is in an array, or lost, or both its ends were closed once. -/
structure Books (base : FdTable) (lost : List PipeFds) (fds : FdTable) (array : Slot → PipeFds) : Prop where
  owned : Owned fds (held array lost)
  ledger : Ledger base.bare fds.bare (held array lost) fun _ => True

variable {lost : List PipeFds} {arrays : Slot → PipeFds} {slot : Slot} {w : World} {s u : Sys}

theorem held_update : held (Function.update arrays slot p) lost = Function.update (held arrays lost) (.inl slot) p :=
  Sum.update_elim_inl.symm

theorem Books.close_at {i : Slot ⊕ Nat} (hb : Books base lost w.fds arrays) (hp : held arrays lost i = p) :
    Owned (w.closePipe p).fds (Function.update (held arrays lost) i p.closed) ∧
      Ledger base.bare (w.closePipe p).fds.bare (Function.update (held arrays lost) i p.closed) fun _ => True := by
  refine ⟨hb.owned.closeArray i hp, ?_⟩
  rw [World.closePipe_table]
  refine (hb.ledger.close hb.owned.bare trivial hp).table FdTable.bare_closePipe ?_ (FdTable.bare_closings (hp ▸ hb.owned.ends i))
  exact (FdTable.closePipe_nextPipe w.fds p).trans (FdTable.closePipe_nextPipe w.fds.bare p).symm

theorem Books.close (hb : Books base lost w.fds arrays) (hp : arrays slot = p) :
    Books base lost (w.closePipe p).fds (Function.update arrays slot p.closed) := by
  obtain ⟨ho, hl⟩ := hb.close_at (i := .inl slot) hp
  rw [← held_update] at ho hl
  exact ⟨ho, hl⟩

/-- A pipe is opened into an array that is closed. -/
theorem Books.openPipe (hb : Books base lost t arrays) (hc : (arrays slot).rd = -1) (hint : Int × Int) (cloexec : Bool) :
    Books base lost (t.openPipe hint cloexec).2 (Function.update arrays slot (t.openPipe hint cloexec).1) := by
  obtain ⟨p, hp⟩ : ∃ p, p = (t.openPipe hint cloexec).1 := ⟨_, rfl⟩
  obtain ⟨hsame, hget⟩ := FdTable.bare_openPipe hint cloexec hp
  have hl := hb.ledger.openPipe hb.owned.bare (i := .inl slot) trivial hc (p.rd, p.wr) cloexec
  rw [hsame] at hl
  refine ⟨?_, ?_⟩
  · rw [held_update]
    exact hb.owned.openPipe _ hint cloexec
  · rw [held_update, ← hp]
    exact hl.table hget rfl rfl

/-- The pipe of an array that is closed is forgotten. -/
theorem Books.forget (hb : Books base lost t arrays) (hc : (arrays slot).rd = -1) :
    Books base lost t (Function.update arrays slot {}) := by
  refine ⟨?_, ?_⟩
  · rw [held_update]
    exact hb.owned.forget _
  · rw [held_update]
    exact hb.ledger.forget hb.owned.bare hc

/-- Others open a file. -/
theorem Books.insertFile {cloexec : Bool} (hb : Books base lost t arrays) (hfd : 0 ≤ fd)
    (hd : ∀ pipe, FdTarget.file.pipe? = some pipe → pipe < t.nextPipe) (hn : t.get fd = none) :
    Books base lost (t.insert fd ⟨.file, cloexec⟩ hfd hd) arrays := by
  refine ⟨hb.owned.insertFile hfd hd hn, hb.ledger.table (fun x => ?_) rfl rfl⟩
  by_cases hx : x = fd
  · rw [hx, FdTable.bare_get_none hn]
    refine Option.eq_none_iff_forall_ne_some.mpr fun d hsome => ?_
    obtain ⟨hget, hfile⟩ := FdTable.bare_get_eq.mp hsome
    rw [FdTable.insert_get_self] at hget
    cases hget
    exact hfile rfl
  · exact FdTable.bare_get_same (FdTable.insert_get_ne _ _ hx)

/-- Others close a file. -/
theorem Books.closeFile (hb : Books base lost t arrays) (hf : t.target fd = some .file) :
    Books base lost (t.close fd) arrays := by
  refine ⟨hb.owned.closeFile hf, hb.ledger.table (fun x => ?_) rfl ?_⟩
  · by_cases hx : x = fd
    · rw [hx, FdTable.bare_get_none (FdTable.close_get_self ..)]
      refine (Option.eq_none_iff_forall_ne_some.mpr fun d hsome => ?_).symm
      obtain ⟨hget, hfile⟩ := FdTable.bare_get_eq.mp hsome
      rw [FdTable.target, hget] at hf
      exact hfile (Option.some.inj hf)
    · exact FdTable.bare_get_same (FdTable.close_get_ne _ hx)
  · show (t.closings ++ [t.target fd]).filter _ = t.closings.filter _
    rw [List.filter_append, hf]
    exact List.append_nil _

theorem getD_snoc {n : Nat} (hn : n ≠ lost.length) : (lost ++ [p]).getD n {} = lost.getD n {} := by
  rw [List.getD_eq_getElem?_getD, List.getD_eq_getElem?_getD]
  rcases Nat.lt_or_gt_of_ne hn with hlt | hgt
  · rw [List.getElem?_append_left hlt]
  · rw [List.getElem?_eq_none (Nat.le_of_lt hgt), List.getElem?_eq_none]
    rw [List.length_append]
    exact hgt

/-- An array is given up without being closed. -/
theorem Books.lose (hb : Books base lost t arrays) (slot : Slot) :
    Books base (lost ++ [arrays slot]) t (Function.update arrays slot {}) := by
  have hswap : held (Function.update arrays slot {}) (lost ++ [arrays slot]) =
      held arrays lost ∘ Equiv.swap (.inl slot) (.inr lost.length) := by
    funext i
    rw [Function.comp_apply]
    rcases i with x | n
    · by_cases hx : x = slot
      · rw [hx, Equiv.swap_apply_left]
        simp [held]
      · rw [Equiv.swap_apply_of_ne_of_ne (by simpa using hx) (by simp)]
        simp [held, hx]
    · by_cases hn : n = lost.length
      · rw [hn, Equiv.swap_apply_right]
        simp [held]
      · rw [Equiv.swap_apply_of_ne_of_ne (by simp) (by simpa using hn)]
        exact getD_snoc hn
  refine ⟨?_, ?_⟩
  · rw [hswap]
    exact hb.owned.renamed _
  · rw [hswap]
    exact hb.ledger.renamed _

/-- The last pipe that was lost is closed after all. -/
theorem Books.recover (hb : Books base (lost ++ [p]) w.fds arrays) : Books base lost (w.closePipe p).fds arrays := by
  have hlast : held arrays (lost ++ [p]) (.inr lost.length) = p := by simp [held]
  obtain ⟨ho, hl⟩ := hb.close_at hlast
  have hheld : Function.update (Function.update (held arrays (lost ++ [p])) (.inr lost.length) p.closed)
      (.inr lost.length) {} = held arrays lost := by
    rw [Function.update_idem]
    funext i
    rcases i with x | n
    · rfl
    · by_cases hn : n = lost.length
      · rw [hn, Function.update_self]
        simp [held]
      · rw [Function.update_of_ne (by simpa using hn)]
        exact getD_snoc hn
  have hclosed : (Function.update (held arrays (lost ++ [p])) (.inr lost.length) p.closed (.inr lost.length)).rd = -1 := by
    rw [Function.update_self]
    rfl
  exact ⟨hheld ▸ ho.forget _, hheld ▸ hl.forget ho.bare hclosed⟩

/-- A new pipe goes into an array; if that is open, what was in it is lost. -/
theorem OpenedInto.books (hopen : OpenedInto slot s u) (hb : Books base lost s.fds s.array) :
    ((s.array slot).rd = -1 → Books base lost u.fds u.array) ∧ Books base (lost ++ [s.array slot]) u.fds u.array := by
  obtain ⟨hint, cloexec, hfds, harray⟩ := hopen.opened
  rw [hfds, harray]
  refine ⟨fun hc => hb.openPipe hc hint cloexec, ?_⟩
  have hgiven : (Function.update s.array slot {} slot).rd = -1 := by rw [Function.update_self]
  have hl := (hb.lose slot).openPipe hgiven hint cloexec
  rwa [Function.update_idem] at hl

/-- A part of a step that opens no pipe, and closes only those in the arrays. -/
structure Closes (s t : Sys) : Prop where
  books : ∀ base lost, Books base lost s.fds s.array → Books base lost t.fds t.array
  shut : ∀ slot, (s.array slot).rd = -1 → (t.array slot).rd = -1
  signal : t.sigchldPipe = s.sigchldPipe ∧ t.sigchldActive = s.sigchldActive ∨ t.sigchldPipe = s.sigchldPipe.closed

instance : IsPreorder Sys Closes where
  refl _ := ⟨fun _ _ => id, fun _ => id, .inl ⟨rfl, rfl⟩⟩
  trans _ _ _ hst htu := by
    refine ⟨fun base lost hb => htu.books base lost (hst.books base lost hb), fun slot hc => htu.shut slot (hst.shut slot hc), ?_⟩
    rcases htu.signal with ⟨hpipe, hactive⟩ | hclosed
    · rw [hpipe, hactive]
      exact hst.signal
    · rw [hclosed]
      rcases hst.signal with ⟨hpipe, _⟩ | hclosed
      · exact .inr (congrArg _ hpipe)
      · exact .inr ((congrArg PipeFds.closed hclosed).trans rfl)

theorem Closes.same (hfds : u.fds = s.fds) (harray : u.array = s.array) (hactive : u.sigchldActive = s.sigchldActive) :
    Closes s u :=
  ⟨fun _ _ hb => by rwa [hfds, harray], fun _ hc => by rwa [harray], .inl ⟨congrArg (· .sigchld) harray, hactive⟩⟩

end Pexec
