import Pexec.Arrays

namespace Pexec

/-- One of the arrays in `H` is open for the pipe. -/
def Holds {ι : Type} (array : ι → PipeFds) (H : ι → Prop) (pipe : Nat) : Prop :=
  ∃ i, H i ∧ (array i).rd ≠ -1 ∧ (array i).pipe = some pipe

/-- What was closed since `base` are ends of pipes that were created since. -/
def OwnClosings (base t : FdTable) (new : List (Option FdTarget)) : Prop :=
  t.closings = base.closings ++ new ∧ ∀ c ∈ new, ∃ target pipe, c = some target ∧
    target.pipe? = some pipe ∧ base.nextPipe ≤ pipe ∧ pipe < t.nextPipe

/-- The arrays in `H` hold all the descriptors that were opened since `base` and are not closed,
and whatever was closed was closed once. -/
structure Ledger {ι : Type} (base t : FdTable) (array : ι → PipeFds) (H : ι → Prop) : Prop where
  same : ∀ x, (∀ i, H i → x ≠ (array i).rd ∧ x ≠ (array i).wr) → t.get x = base.get x
  fresh : ∀ i, H i → (array i).rd ≠ -1 →
    base.get (array i).rd = none ∧ base.get (array i).wr = none
  recent : ∀ i pipe, H i → (array i).rd ≠ -1 → (array i).pipe = some pipe → base.nextPipe ≤ pipe
  next : base.nextPipe ≤ t.nextPipe
  closings : ∃ new, OwnClosings base t new ∧ ∀ target pipe, target.pipe? = some pipe →
    base.nextPipe ≤ pipe → pipe < t.nextPipe →
      (Holds array H pipe → new.count (some target) = 0) ∧
      (¬Holds array H pipe → new.count (some target) = 1)

/-- The descriptors are what they were, and each one that was opened since was closed once. -/
structure Neutral (base t : FdTable) : Prop where
  same : ∀ fd, t.get fd = base.get fd
  next : base.nextPipe ≤ t.nextPipe
  closings : ∃ new, OwnClosings base t new ∧ ∀ target pipe, target.pipe? = some pipe →
    base.nextPipe ≤ pipe → pipe < t.nextPipe → new.count (some target) = 1

variable {ι : Type} {base t t' : FdTable} {array : ι → PipeFds} {H : ι → Prop}

theorem FdTable.get_neg (t : FdTable) {x : Int} (hx : x < 0) : t.get x = none := by
  cases hd : t.get x with
  | none => rfl
  | some d =>
    have := FdTable.get_nonneg hd
    omega

theorem Ledger.start (hc : ∀ i, H i → (array i).rd = -1) : Ledger base base array H where
  same _ _ := rfl
  fresh i hi ho := absurd (hc i hi) ho
  recent i _ hi ho := absurd (hc i hi) ho
  next := Nat.le_refl _
  closings := by
    refine ⟨[], ⟨(List.append_nil _).symm, fun _ hc => absurd hc List.not_mem_nil⟩, ?_⟩
    intro target pipe _ h₁ h₂
    omega

/-- Only the numbers in the arrays matter, and the pipes of those that are open. -/
theorem Ledger.congr (hl : Ledger base t array H) {array' : ι → PipeFds}
    (ha : ∀ i, H i → (array' i).rd = (array i).rd ∧ (array' i).wr = (array i).wr ∧
      ((array i).rd ≠ -1 → (array' i).pipe = (array i).pipe)) : Ledger base t array' H := by
  have hholds : ∀ pipe, Holds array' H pipe ↔ Holds array H pipe := by
    refine fun pipe => exists_congr fun i => and_congr_right fun hi => ?_
    rw [(ha i hi).1]
    exact and_congr_right fun ho => by rw [(ha i hi).2.2 ho]
  constructor
  · intro x hx
    refine hl.same x fun i hi => ?_
    have := hx i hi
    rwa [(ha i hi).1, (ha i hi).2.1] at this
  · intro i hi ho
    rw [(ha i hi).1] at ho ⊢
    rw [(ha i hi).2.1]
    exact hl.fresh i hi ho
  · intro i pipe hi ho hp
    rw [(ha i hi).1] at ho
    rw [(ha i hi).2.2 ho] at hp
    exact hl.recent i pipe hi ho hp
  · exact hl.next
  · obtain ⟨new, hown, hcount⟩ := hl.closings
    exact ⟨new, hown, fun target pipe ht h₁ h₂ => by
      rw [hholds]
      exact hcount target pipe ht h₁ h₂⟩

theorem OwnClosings.mono {new : List (Option FdTarget)} (ho : OwnClosings base t new)
    (hc : t'.closings = t.closings) (hn : t.nextPipe ≤ t'.nextPipe) : OwnClosings base t' new :=
  ⟨hc.trans ho.1, fun c hm => by
    obtain ⟨target, pipe, he, ht, h₁, h₂⟩ := ho.2 c hm
    exact ⟨target, pipe, he, ht, h₁, Nat.lt_of_lt_of_le h₂ hn⟩⟩

/-- An end of a pipe that does not exist yet was not closed. -/
theorem OwnClosings.count_new {new : List (Option FdTarget)} (ho : OwnClosings base t new)
    {target : FdTarget} {pipe : Nat} (ht : target.pipe? = some pipe) (hp : t.nextPipe ≤ pipe) :
    new.count (some target) = 0 := by
  refine List.count_eq_zero.mpr fun hm => ?_
  obtain ⟨target', pipe', he, ht', _, hlt⟩ := ho.2 _ hm
  cases he
  rw [ht] at ht'
  cases ht'
  omega

theorem PipeFds.Ends.closed_wr {p : PipeFds} (h : p.Ends t) (hp : p.rd = -1) : p.wr = -1 := by
  rcases h with hc | ⟨_, _, hr, _⟩
  · exact hc.2
  · have := FdTable.get_nonneg hr
    omega

theorem PipeFds.Ends.closed_eq {p : PipeFds} (h : p.Ends t) (hp : p.rd = -1) : p.closed = p := by
  obtain ⟨rd, wr, pipe, cloexec⟩ := p
  have hwr : wr = -1 := h.closed_wr hp
  have hrd : rd = -1 := hp
  rw [hrd, hwr]
  rfl

theorem FdTable.closePipe_closed {p : PipeFds} (hr : p.rd = -1) (hw : p.wr = -1) :
    t.closePipe p = t := by
  simp [FdTable.closePipe, FdTable.closeFd, hr, hw]

theorem FdTable.closePipe_nextPipe (t : FdTable) (p : PipeFds) :
    (t.closePipe p).nextPipe = t.nextPipe := by
  unfold FdTable.closePipe FdTable.closeFd
  split <;> split <;> rfl

/-- Closing an array that is open closes the two ends of its pipe. -/
theorem FdTable.closePipe_closings {p : PipeFds} {pipe : Nat} (h : p.Ends t) (hopen : p.rd ≠ -1)
    (hp : p.pipe = some pipe) : (t.closePipe p).closings =
      t.closings ++ [some (.readEnd pipe), some (.writeEnd pipe)] := by
  obtain ⟨pipe', hp', hr, hw⟩ := h.held hopen
  rw [hp] at hp'
  cases hp'
  have hrd : 0 ≤ p.rd := FdTable.get_nonneg hr
  have hwd : 0 ≤ p.wr := FdTable.get_nonneg hw
  have h₁ : t.target p.rd = some (.readEnd pipe) := FdTable.target_eq.mpr ⟨_, hr, rfl⟩
  have h₂ : (t.close p.rd).target p.wr = some (.writeEnd pipe) := by
    rw [FdTable.close_target_ne t (h.rd_ne_wr hopen).symm]
    exact FdTable.target_eq.mpr ⟨_, hw, rfl⟩
  have hlist : t.closings ++ [t.target p.rd] ++ [(t.close p.rd).target p.wr] =
      t.closings ++ [some (.readEnd pipe), some (.writeEnd pipe)] := by
    rw [h₁, h₂, List.append_assoc]
    rfl
  simp only [FdTable.closePipe, FdTable.closeFd, if_pos hrd, if_pos hwd]
  exact hlist

/-- A number that is not open now and is not held was not open before either. -/
theorem Ledger.unused (hl : Ledger base t array H) (ho : Owned t array) {x : Int} (hx : 0 ≤ x)
    (ht : t.target x = none) : base.get x = none := by
  have hget : t.get x = none := by simpa [FdTable.target] using ht
  rw [← hl.same x fun j hj => ?_, hget]
  rcases ho.ends j with ⟨hr, hw⟩ | ⟨pipe, _, hr, hw⟩
  · exact ⟨by omega, by omega⟩
  · constructor
    · rintro rfl
      rw [hget] at hr
      cases hr
    · rintro rfl
      rw [hget] at hw
      cases hw

variable [DecidableEq ι]

theorem holds_opened {i : ι} (hi : H i) (hclosed : (array i).rd = -1) {p : PipeFds} {k : Nat}
    (hopen : p.rd ≠ -1) (hp : p.pipe = some k) {pipe : Nat} :
    Holds (Function.update array i p) H pipe ↔ pipe = k ∨ Holds array H pipe := by
  constructor
  · rintro ⟨j, hj, ho, hpj⟩
    by_cases hji : j = i
    · subst j
      rw [Function.update_self, hp] at hpj
      exact .inl (Option.some.inj hpj).symm
    · rw [Function.update_of_ne hji] at ho hpj
      exact .inr ⟨j, hj, ho, hpj⟩
  · rintro (rfl | ⟨j, hj, ho, hpj⟩)
    · exact ⟨i, hi, by rwa [Function.update_self], by rw [Function.update_self, hp]⟩
    · have hji : j ≠ i := by
        rintro rfl
        exact ho hclosed
      exact ⟨j, hj, by rwa [Function.update_of_ne hji], by rwa [Function.update_of_ne hji]⟩

theorem holds_closed (ho : Owned t array) {i : ι} {k : Nat} (hk : (array i).pipe = some k)
    {pipe : Nat} : Holds (Function.update array i (array i).closed) H pipe ↔
      pipe ≠ k ∧ Holds array H pipe := by
  constructor
  · rintro ⟨j, hj, hopen, hpj⟩
    have hji : j ≠ i := by
      rintro rfl
      rw [Function.update_self] at hopen
      exact hopen rfl
    rw [Function.update_of_ne hji] at hopen hpj
    refine ⟨?_, j, hj, hopen, hpj⟩
    rintro rfl
    exact hji (ho.apart j i _ hpj hk)
  · rintro ⟨hpk, j, hj, hopen, hpj⟩
    have hji : j ≠ i := by
      rintro rfl
      rw [hk] at hpj
      exact hpk (Option.some.inj hpj).symm
    exact ⟨j, hj, by rwa [Function.update_of_ne hji], by rwa [Function.update_of_ne hji]⟩

/-- A pipe is opened into an array that was closed. -/
theorem Ledger.openPipe (hl : Ledger base t array H) (ho : Owned t array) {i : ι} (hi : H i)
    (hclosed : (array i).rd = -1) (hint : Int × Int) (cloexec : Bool) :
    Ledger base (t.openPipe hint cloexec).2
      (Function.update array i (t.openPipe hint cloexec).1) H := by
  set p := (t.openPipe hint cloexec).1 with hp
  have hpipe : p.pipe = some t.nextPipe := FdTable.openPipe_pipe t hint cloexec
  have hrd : 0 ≤ p.rd := freshFd_nonneg _ _
  have hwr := (ho.ends i).closed_wr hclosed
  constructor
  · intro x hx
    rcases lt_or_ge x 0 with hneg | hpos
    · rw [FdTable.get_neg _ hneg, FdTable.get_neg _ hneg]
    · have hmine := hx i hi
      rw [Function.update_self] at hmine
      rw [FdTable.openPipe_get_ne t hint cloexec hmine.1 hmine.2]
      refine hl.same x fun j hj => ?_
      by_cases hji : j = i
      · subst j
        exact ⟨by omega, by omega⟩
      · have := hx j hj
        rwa [Function.update_of_ne hji] at this
  · intro j hj hopen
    by_cases hji : j = i
    · subst j
      rw [Function.update_self]
      exact ⟨hl.unused ho hrd (FdTable.openPipe_rd_fresh t hint cloexec),
        hl.unused ho (freshFd_nonneg _ _) (FdTable.openPipe_wr_fresh t hint cloexec)⟩
    · rw [Function.update_of_ne hji] at hopen ⊢
      exact hl.fresh j hj hopen
  · intro j pipe hj hopen hpj
    by_cases hji : j = i
    · subst j
      rw [Function.update_self, hpipe] at hpj
      have := hl.next
      have := Option.some.inj hpj
      omega
    · rw [Function.update_of_ne hji] at hopen hpj
      exact hl.recent j pipe hj hopen hpj
  · exact Nat.le_succ_of_le hl.next
  · obtain ⟨new, hown, hcount⟩ := hl.closings
    refine ⟨new, hown.mono rfl (Nat.le_succ _), fun target pipe ht h₁ h₂ => ?_⟩
    rw [holds_opened hi hclosed (by omega) hpipe]
    rcases Nat.lt_succ_iff_lt_or_eq.mp h₂ with hlt | rfl
    · have := hcount target pipe ht h₁ hlt
      exact ⟨fun h => this.1 (h.resolve_left (Nat.ne_of_lt hlt)), fun h => this.2 (not_or.mp h).2⟩
    · exact ⟨fun _ => hown.count_new ht (Nat.le_refl _), fun h => absurd (.inl rfl) h⟩

/-- An array that is open is closed. -/
theorem Ledger.closeOpen (hl : Ledger base t array H) (ho : Owned t array) {i : ι} (hi : H i)
    (hopen : (array i).rd ≠ -1) :
    Ledger base (t.closePipe (array i)) (Function.update array i (array i).closed) H := by
  obtain ⟨k, hk, hr, hw⟩ := (ho.ends i).held hopen
  have hnext := FdTable.closePipe_nextPipe t (array i)
  have hklt := ho.below i k hk
  have hkge := hl.recent i k hi hopen hk
  have hstill : ∀ j, (Function.update array i (array i).closed j).rd ≠ -1 → j ≠ i := by
    rintro j hj rfl
    rw [Function.update_self] at hj
    exact hj rfl
  constructor
  · intro x hx
    rw [FdTable.closePipe_get]
    by_cases hend : x = (array i).rd ∨ x = (array i).wr
    · rw [if_pos hend]
      have hfresh := hl.fresh i hi hopen
      rcases hend with rfl | rfl
      · exact hfresh.1.symm
      · exact hfresh.2.symm
    · rw [if_neg hend]
      refine hl.same x fun j hj => ?_
      by_cases hji : j = i
      · subst j
        exact not_or.mp hend
      · have := hx j hj
        rwa [Function.update_of_ne hji] at this
  · intro j hj hopen'
    have hji := hstill j hopen'
    rw [Function.update_of_ne hji] at hopen' ⊢
    exact hl.fresh j hj hopen'
  · intro j pipe hj hopen' hpj
    have hji := hstill j hopen'
    rw [Function.update_of_ne hji] at hopen' hpj
    exact hl.recent j pipe hj hopen' hpj
  · rw [hnext]
    exact hl.next
  · obtain ⟨new, ⟨hcl, hown⟩, hcount⟩ := hl.closings
    refine ⟨new ++ [some (.readEnd k), some (.writeEnd k)], ⟨?_, fun c hc => ?_⟩, ?_⟩
    · rw [FdTable.closePipe_closings (ho.ends i) hopen hk, hcl, List.append_assoc]
    · rw [hnext]
      rcases List.mem_append.mp hc with hc | hc
      · exact hown c hc
      · simp only [List.mem_cons, List.not_mem_nil, or_false] at hc
        rcases hc with rfl | rfl
        · exact ⟨_, k, rfl, rfl, hkge, hklt⟩
        · exact ⟨_, k, rfl, rfl, hkge, hklt⟩
    · intro target pipe htp h₁ h₂
      rw [hnext] at h₂
      rw [holds_closed ho hk, List.count_append]
      have hold := hcount target pipe htp h₁ h₂
      by_cases hpk : pipe = k
      · subst pipe
        refine ⟨fun h => absurd rfl h.1, fun _ => ?_⟩
        rw [hold.1 ⟨i, hi, hopen, hk⟩]
        cases target with
        | readEnd x | writeEnd x =>
          cases htp
          simp
        | file => cases htp
      · have hother : List.count (some target) [some (.readEnd k), some (.writeEnd k)] = 0 := by
          refine List.count_eq_zero.mpr fun hm => ?_
          simp only [List.mem_cons, List.not_mem_nil, or_false, Option.some.injEq] at hm
          rcases hm with rfl | rfl
          · exact hpk (Option.some.inj htp).symm
          · exact hpk (Option.some.inj htp).symm
        rw [hother, Nat.add_zero]
        exact ⟨fun h => hold.1 h.2, fun h => hold.2 fun hh => h ⟨hpk, hh⟩⟩

/-- `close_pipe` on an array, open or not. -/
theorem Ledger.close (hl : Ledger base t array H) (ho : Owned t array) {i : ι} (hi : H i)
    {q : PipeFds} (hq : array i = q) :
    Ledger base (t.closePipe q) (Function.update array i q.closed) H := by
  subst hq
  by_cases hopen : (array i).rd = -1
  · rw [FdTable.closePipe_closed hopen ((ho.ends i).closed_wr hopen), (ho.ends i).closed_eq hopen,
      Function.update_eq_self]
    exact hl
  · exact hl.closeOpen ho hi hopen

omit [DecidableEq ι] in
/-- Where all arrays are closed, everything is as before. -/
theorem Ledger.neutral (hl : Ledger base t array H) (hc : ∀ i, H i → (array i).rd = -1 ∧ (array i).wr = -1) :
    Neutral base t := by
  refine ⟨fun x => ?_, hl.next, ?_⟩
  · rcases lt_or_ge x 0 with hneg | hpos
    · rw [FdTable.get_neg _ hneg, FdTable.get_neg _ hneg]
    · refine hl.same x fun i hi => ?_
      have := hc i hi
      exact ⟨by omega, by omega⟩
  · obtain ⟨new, hown, hcount⟩ := hl.closings
    refine ⟨new, hown, fun target pipe ht h₁ h₂ => (hcount target pipe ht h₁ h₂).2 ?_⟩
    rintro ⟨i, hi, hopen, _⟩
    exact hopen (hc i hi).1

end Pexec
