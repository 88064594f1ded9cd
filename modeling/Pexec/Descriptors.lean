import Mathlib.Data.List.AList

namespace Pexec

/-- The open file behind a descriptor: an end of a pipe, or something the application opened. -/
inductive FdTarget
  | readEnd (pipe : Nat)
  | writeEnd (pipe : Nat)
  | file
  deriving DecidableEq, Repr

def FdTarget.pipe? : FdTarget → Option Nat
  | .readEnd pipe | .writeEnd pipe => some pipe
  | .file => none

structure Descriptor where
  target : FdTarget
  cloexec : Bool
  deriving DecidableEq, Repr

/-- An `int[2]` that receives the two ends of a pipe; `pipe` and `cloexec` are history variables,
the pipe that was last opened through the array and the flag it was opened with. -/
structure PipeFds where
  rd : Int := -1
  wr : Int := -1
  pipe : Option Nat := none
  cloexec : Bool := false
  deriving DecidableEq, Repr

/-- The array after `close_pipe`. -/
def PipeFds.closed (p : PipeFds) : PipeFds := { p with rd := -1, wr := -1 }

@[simp] theorem closed_rd (p : PipeFds) : p.closed.rd = -1 := rfl

@[simp] theorem closed_wr (p : PipeFds) : p.closed.wr = -1 := rfl

@[simp] theorem closed_pipe (p : PipeFds) : p.closed.pipe = p.pipe := rfl

abbrev FdEntries := AList (fun _ : Int => Descriptor)

/-- The descriptor number that the kernel hands out: any it likes as long as it is not open. -/
def freshFd (entries : FdEntries) (hint : Int) : Int :=
  if 0 ≤ hint ∧ hint ∉ entries then hint else entries.keys.foldr max (-1) + 1

theorem le_foldr_max {x : Int} {xs : List Int} (h : x ∈ xs) : x ≤ xs.foldr max (-1) := by
  induction xs with
  | nil => simp at h
  | cons y ys ih =>
    rcases List.mem_cons.mp h with rfl | h
    · exact Int.le_max_left _ _
    · exact Int.le_trans (ih h) (Int.le_max_right _ _)

theorem neg_one_le_foldr_max (xs : List Int) : -1 ≤ xs.foldr max (-1) := by
  induction xs with
  | nil => exact Int.le_refl _
  | cons y ys ih => exact Int.le_trans ih (Int.le_max_right _ _)

theorem freshFd_nonneg (entries : FdEntries) (hint : Int) : 0 ≤ freshFd entries hint := by
  unfold freshFd
  split
  next h => exact h.1
  next =>
    have := neg_one_le_foldr_max entries.keys
    omega

theorem freshFd_not_mem (entries : FdEntries) (hint : Int) : freshFd entries hint ∉ entries := by
  unfold freshFd
  split
  next h => exact h.2
  next =>
    intro h
    have := le_foldr_max (AList.mem_keys.mp h)
    omega

theorem FdEntries.empty_nonneg : ∀ fd ∈ (∅ : FdEntries), 0 ≤ fd := by decide

theorem FdEntries.empty_pipe_lt : ∀ fd d, AList.lookup fd (∅ : FdEntries) = some d →
    ∀ pipe, d.target.pipe? = some pipe → pipe < 0 := by
  intro fd d h
  cases h

/-- The open descriptors of the process. Pipes are numbered in the order they are created, so
a descriptor only ever refers to a pipe below `nextPipe`. -/
structure FdTable where
  entries : FdEntries := ∅
  nextPipe : Nat := 0
  /-- History: what each `close` has closed, `none` where the descriptor was not open. -/
  closings : List (Option FdTarget) := []
  nonneg : ∀ fd ∈ entries, 0 ≤ fd := by exact FdEntries.empty_nonneg
  pipe_lt : ∀ fd d, entries.lookup fd = some d → ∀ pipe, d.target.pipe? = some pipe →
    pipe < nextPipe := by exact FdEntries.empty_pipe_lt

namespace FdTable

def get (t : FdTable) (fd : Int) : Option Descriptor := t.entries.lookup fd

def target (t : FdTable) (fd : Int) : Option FdTarget := (t.get fd).map Descriptor.target

/-- The process itself still holds a write end of the pipe. -/
def hasWriter (t : FdTable) (pipe : Nat) : Bool :=
  t.entries.entries.any fun e => e.2.target == .writeEnd pipe

def insert (t : FdTable) (fd : Int) (d : Descriptor) (hfd : 0 ≤ fd)
    (hd : ∀ pipe, d.target.pipe? = some pipe → pipe < t.nextPipe) : FdTable where
  entries := t.entries.insert fd d
  nextPipe := t.nextPipe
  closings := t.closings
  nonneg := by
    intro x hx
    rcases (AList.mem_insert _).mp hx with rfl | hx
    · exact hfd
    · exact t.nonneg x hx
  pipe_lt := by
    intro x d' h pipe hpipe
    by_cases he : x = fd
    · subst x
      rw [AList.lookup_insert] at h
      cases h
      exact hd pipe hpipe
    · rw [AList.lookup_insert_ne he] at h
      exact t.pipe_lt x d' h pipe hpipe

def close (t : FdTable) (fd : Int) : FdTable where
  entries := t.entries.erase fd
  nextPipe := t.nextPipe
  closings := t.closings ++ [t.target fd]
  nonneg := fun x hx => t.nonneg x (AList.mem_erase.mp hx).2
  pipe_lt := by
    intro x d h pipe hpipe
    by_cases he : x = fd
    · subst x
      simp at h
    · rw [AList.lookup_erase_ne he] at h
      exact t.pipe_lt x d h pipe hpipe

/-- The table with one more pipe in existence. -/
def bump (t : FdTable) : FdTable where
  entries := t.entries
  nextPipe := t.nextPipe + 1
  closings := t.closings
  nonneg := t.nonneg
  pipe_lt := fun fd d h pipe hpipe => Nat.lt_succ_of_lt (t.pipe_lt fd d h pipe hpipe)

/-- `pipe2`: a new pipe, its read end and its write end at two numbers that are not open. -/
def openPipe (t : FdTable) (hint : Int × Int) (cloexec : Bool) : PipeFds × FdTable :=
  let rd := freshFd t.entries hint.1
  let t₁ := t.bump.insert rd ⟨.readEnd t.nextPipe, cloexec⟩ (freshFd_nonneg _ _)
    (by intro pipe h; cases h; exact Nat.lt_succ_self _)
  let wr := freshFd t₁.entries hint.2
  let t₂ := t₁.insert wr ⟨.writeEnd t.nextPipe, cloexec⟩ (freshFd_nonneg _ _)
    (by intro pipe h; cases h; exact Nat.lt_succ_self _)
  (⟨rd, wr, some t.nextPipe, cloexec⟩, t₂)

/-- `close_fd` -/
def closeFd (t : FdTable) (fd : Int) : FdTable := if 0 ≤ fd then t.close fd else t

/-- `close_pipe` -/
def closePipe (t : FdTable) (p : PipeFds) : FdTable := (t.closeFd p.rd).closeFd p.wr

/-- `dup2`: the new number stays open across `execve`. -/
def dup2 (t : FdTable) (old new : Int) : Option FdTable :=
  match h : t.get old with
  | none => none
  | some d =>
    if old = new then some t
    else if hn : 0 ≤ new then some (t.insert new ⟨d.target, false⟩ hn (t.pipe_lt old d h))
    else none

/-- What a number refers to after a successful `execve`. -/
def afterExec (t : FdTable) (fd : Int) : Option FdTarget :=
  (t.get fd).bind fun d => if d.cloexec then none else some d.target

theorem get_nonneg {t : FdTable} {fd : Int} {d : Descriptor} (h : t.get fd = some d) : 0 ≤ fd :=
  t.nonneg fd (AList.lookup_isSome.mp (by rw [get] at h; simp [h]))

theorem target_eq {t : FdTable} {fd : Int} {x : FdTarget} :
    t.target fd = some x ↔ ∃ d, t.get fd = some d ∧ d.target = x := by
  simp [target]

theorem target_nonneg {t : FdTable} {fd : Int} {x : FdTarget} (h : t.target fd = some x) : 0 ≤ fd := by
  obtain ⟨d, hd, _⟩ := target_eq.mp h
  exact get_nonneg hd

theorem target_pipe_lt {t : FdTable} {fd : Int} {x : FdTarget} {pipe : Nat}
    (h : t.target fd = some x) (hp : x.pipe? = some pipe) : pipe < t.nextPipe := by
  obtain ⟨d, hd, rfl⟩ := target_eq.mp h
  exact t.pipe_lt fd d hd pipe hp

@[simp] theorem close_get_self (t : FdTable) (fd : Int) : (t.close fd).get fd = none := by
  simp [get, close]

theorem close_get_ne (t : FdTable) {fd x : Int} (h : x ≠ fd) : (t.close fd).get x = t.get x := by
  simp only [get, close, AList.lookup_erase_ne h]

@[simp] theorem close_target_self (t : FdTable) (fd : Int) : (t.close fd).target fd = none := by
  simp [target]

theorem close_target_ne (t : FdTable) {fd x : Int} (h : x ≠ fd) :
    (t.close fd).target x = t.target x := by
  rw [target, close_get_ne t h, target]

@[simp] theorem close_nextPipe (t : FdTable) (fd : Int) : (t.close fd).nextPipe = t.nextPipe := rfl

@[simp] theorem insert_get_self (t : FdTable) (fd : Int) (d : Descriptor) (hfd : 0 ≤ fd)
    (hd : ∀ pipe, d.target.pipe? = some pipe → pipe < t.nextPipe) :
    (t.insert fd d hfd hd).get fd = some d := by
  simp [get, insert]

theorem insert_get_ne {t : FdTable} {fd x : Int} {d : Descriptor} (hfd : 0 ≤ fd)
    (hd : ∀ pipe, d.target.pipe? = some pipe → pipe < t.nextPipe) (h : x ≠ fd) :
    (t.insert fd d hfd hd).get x = t.get x := by
  simp only [get, insert, AList.lookup_insert_ne h]

@[simp] theorem insert_target_self (t : FdTable) (fd : Int) (d : Descriptor) (hfd : 0 ≤ fd)
    (hd : ∀ pipe, d.target.pipe? = some pipe → pipe < t.nextPipe) :
    (t.insert fd d hfd hd).target fd = some d.target := by
  simp [target]

theorem openPipe_nextPipe (t : FdTable) (hint : Int × Int) (cloexec : Bool) :
    (t.openPipe hint cloexec).2.nextPipe = t.nextPipe + 1 := rfl

theorem openPipe_pipe (t : FdTable) (hint : Int × Int) (cloexec : Bool) :
    (t.openPipe hint cloexec).1.pipe = some t.nextPipe := rfl

theorem openPipe_rd_fresh (t : FdTable) (hint : Int × Int) (cloexec : Bool) :
    t.target (t.openPipe hint cloexec).1.rd = none := by
  have h : (t.openPipe hint cloexec).1.rd ∉ t.entries := freshFd_not_mem _ _
  simp [target, get, AList.lookup_eq_none.mpr h]

theorem openPipe_wr_not_mem (t : FdTable) (hint : Int × Int) (cloexec : Bool) :
    (t.openPipe hint cloexec).1.wr ≠ (t.openPipe hint cloexec).1.rd ∧
      (t.openPipe hint cloexec).1.wr ∉ t.entries := by
  have h : (t.openPipe hint cloexec).1.wr ∉
      t.entries.insert (t.openPipe hint cloexec).1.rd _ := freshFd_not_mem _ _
  rw [AList.mem_insert, not_or] at h
  exact h

theorem openPipe_wr_fresh (t : FdTable) (hint : Int × Int) (cloexec : Bool) :
    t.target (t.openPipe hint cloexec).1.wr = none := by
  have h := (openPipe_wr_not_mem t hint cloexec).2
  simp [target, get, AList.lookup_eq_none.mpr h]

theorem openPipe_get_rd (t : FdTable) (hint : Int × Int) (cloexec : Bool) :
    (t.openPipe hint cloexec).2.get (t.openPipe hint cloexec).1.rd =
      some ⟨.readEnd t.nextPipe, cloexec⟩ := by
  have h := (openPipe_wr_not_mem t hint cloexec).1.symm
  simp only [openPipe] at h ⊢
  rw [insert_get_ne _ _ h, insert_get_self]

theorem openPipe_get_wr (t : FdTable) (hint : Int × Int) (cloexec : Bool) :
    (t.openPipe hint cloexec).2.get (t.openPipe hint cloexec).1.wr =
      some ⟨.writeEnd t.nextPipe, cloexec⟩ := by
  simp only [openPipe, insert_get_self]

theorem openPipe_get_ne (t : FdTable) (hint : Int × Int) (cloexec : Bool) {fd : Int}
    (hr : fd ≠ (t.openPipe hint cloexec).1.rd) (hw : fd ≠ (t.openPipe hint cloexec).1.wr) :
    (t.openPipe hint cloexec).2.get fd = t.get fd := by
  simp only [openPipe] at hr hw ⊢
  rw [insert_get_ne _ _ hw, insert_get_ne _ _ hr]
  rfl

theorem openPipe_target_rd (t : FdTable) (hint : Int × Int) (cloexec : Bool) :
    (t.openPipe hint cloexec).2.target (t.openPipe hint cloexec).1.rd =
      some (.readEnd t.nextPipe) := by
  rw [target, openPipe_get_rd, Option.map_some]

theorem openPipe_target_wr (t : FdTable) (hint : Int × Int) (cloexec : Bool) :
    (t.openPipe hint cloexec).2.target (t.openPipe hint cloexec).1.wr =
      some (.writeEnd t.nextPipe) := by
  rw [target, openPipe_get_wr, Option.map_some]

/-- The descriptors that were open before are what they were. -/
theorem openPipe_get_old (t : FdTable) (hint : Int × Int) (cloexec : Bool) {fd : Int}
    (h : t.get fd ≠ none) : (t.openPipe hint cloexec).2.get fd = t.get fd := by
  refine openPipe_get_ne t hint cloexec ?_ ?_
  · rintro rfl
    exact h (by simpa [target] using openPipe_rd_fresh t hint cloexec)
  · rintro rfl
    exact h (by simpa [target] using openPipe_wr_fresh t hint cloexec)

end FdTable

end Pexec
