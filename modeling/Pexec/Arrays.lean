import Pexec.Objects
import Pexec.WorldRules

namespace Pexec

/-- A closed array, or one that holds both ends of the pipe it was opened for. -/
def PipeFds.Ends (fds : FdTable) (p : PipeFds) : Prop :=
  (p.rd = -1 ∧ p.wr = -1) ∨ ∃ pipe, p.pipe = some pipe ∧
    fds.get p.rd = some ⟨.readEnd pipe, p.cloexec⟩ ∧ fds.get p.wr = some ⟨.writeEnd pipe, p.cloexec⟩

/-- Arrays of which no two were ever opened for one pipe, with all the descriptors of their
pipes. -/
structure Owned {ι : Type} (fds : FdTable) (array : ι → PipeFds) : Prop where
  ends : ∀ i, (array i).Ends fds
  apart : ∀ i j pipe, (array i).pipe = some pipe → (array j).pipe = some pipe → i = j
  below : ∀ i pipe, (array i).pipe = some pipe → pipe < fds.nextPipe
  only : ∀ i pipe x t, (array i).pipe = some pipe → fds.target x = some t → t.pipe? = some pipe →
    x = (array i).rd ∨ x = (array i).wr

/-- The pipe of an array, as far as it was used. -/
def World.stream (w : World) (p : PipeFds) : ByteStream UInt8 :=
  match p.pipe with
  | some pipe => w.pipes pipe
  | none => {}

theorem World.stream_of_pipe {w : World} {p : PipeFds} {pipe : Nat} (h : p.pipe = some pipe) :
    w.stream p = w.pipes pipe := by
  simp only [World.stream, h]

@[simp] theorem World.stream_closed (w : World) (p : PipeFds) : w.stream p.closed = w.stream p := rfl

theorem FdTable.closeFd_get (t : FdTable) (fd x : Int) :
    (t.closeFd fd).get x = if x = fd then none else t.get x := by
  unfold FdTable.closeFd
  by_cases hfd : 0 ≤ fd
  · rw [if_pos hfd]
    by_cases hx : x = fd
    · subst x
      simp
    · rw [if_neg hx]
      exact FdTable.close_get_ne _ hx
  · rw [if_neg hfd]
    by_cases hx : x = fd
    · subst x
      rw [if_pos rfl]
      cases ht : t.get fd with
      | none => rfl
      | some d => exact absurd (FdTable.get_nonneg ht) hfd
    · rw [if_neg hx]

theorem FdTable.closePipe_get (t : FdTable) (p : PipeFds) (x : Int) :
    (t.closePipe p).get x = if x = p.rd ∨ x = p.wr then none else t.get x := by
  rw [FdTable.closePipe, FdTable.closeFd_get, FdTable.closeFd_get]
  by_cases hw : x = p.wr
  · rw [if_pos hw, if_pos (.inr hw)]
  · rw [if_neg hw]
    by_cases hr : x = p.rd
    · rw [if_pos hr, if_pos (.inl hr)]
    · rw [if_neg hr, if_neg (by tauto)]

theorem World.closeFd_table (w : World) (fd : Int) : (w.closeFd fd).fds = w.fds.closeFd fd := by
  unfold World.closeFd FdTable.closeFd
  split <;> rfl

theorem World.closePipe_table (w : World) (p : PipeFds) :
    (w.closePipe p).fds = w.fds.closePipe p := by
  rw [World.closePipe, World.closeFd_table, World.closeFd_table, FdTable.closePipe]

theorem World.closeFd_nextPipe (w : World) (fd : Int) :
    (w.closeFd fd).fds.nextPipe = w.fds.nextPipe := by
  unfold World.closeFd
  split <;> rfl

theorem World.closePipe_get (w : World) (p : PipeFds) (x : Int) :
    (w.closePipe p).fds.get x = if x = p.rd ∨ x = p.wr then none else w.fds.get x := by
  rw [World.closePipe_table, FdTable.closePipe_get]

theorem World.closePipe_get_ne (w : World) (p : PipeFds) {x : Int} (hr : x ≠ p.rd) (hw : x ≠ p.wr) :
    (w.closePipe p).fds.get x = w.fds.get x := by
  rw [World.closePipe_get, if_neg (by tauto)]

theorem World.closePipe_target (w : World) (p : PipeFds) {x : Int} {t : FdTarget}
    (h : (w.closePipe p).fds.target x = some t) : w.fds.target x = some t ∧ x ≠ p.rd ∧ x ≠ p.wr := by
  rw [FdTable.target, World.closePipe_get] at h
  by_cases hx : x = p.rd ∨ x = p.wr
  · rw [if_pos hx] at h
    cases h
  · rw [if_neg hx] at h
    exact ⟨h, not_or.mp hx⟩

theorem World.closePipe_nextPipe (w : World) (p : PipeFds) :
    (w.closePipe p).fds.nextPipe = w.fds.nextPipe := by
  rw [World.closePipe, World.closeFd_nextPipe, World.closeFd_nextPipe]

namespace PipeFds

variable {fds : FdTable} {p q : PipeFds}

theorem Ends.held (h : p.Ends fds) (hp : p.rd ≠ -1) : ∃ pipe, p.pipe = some pipe ∧
    fds.get p.rd = some ⟨.readEnd pipe, p.cloexec⟩ ∧ fds.get p.wr = some ⟨.writeEnd pipe, p.cloexec⟩ :=
  h.resolve_left fun hc => hp hc.1

theorem Ends.opened (h : p.Ends fds) (hp : p.rd ≠ -1) : ∃ pipe, p.pipe = some pipe ∧
    fds.target p.rd = some (.readEnd pipe) ∧ fds.target p.wr = some (.writeEnd pipe) := by
  obtain ⟨pipe, hpipe, hr, hw⟩ := h.held hp
  exact ⟨pipe, hpipe, by rw [FdTable.target, hr, Option.map_some],
    by rw [FdTable.target, hw, Option.map_some]⟩

theorem Ends.rd_ne_wr (h : p.Ends fds) (hp : p.rd ≠ -1) : p.rd ≠ p.wr := by
  obtain ⟨pipe, _, hr, hw⟩ := h.held hp
  intro he
  rw [he, hw] at hr
  cases hr

/-- An end of a pipe that is not the array's is not one of its descriptors. -/
theorem Ends.not_end (h : p.Ends fds) {x : Int} {t : FdTarget} {pipe : Nat}
    (ht : fds.target x = some t) (hpipe : t.pipe? = some pipe) (hne : p.pipe ≠ some pipe) :
    x ≠ p.rd ∧ x ≠ p.wr := by
  have hx := FdTable.target_nonneg ht
  by_cases hp : p.rd = -1
  · rcases h with ⟨hr, hw⟩ | ⟨pipe', _, hr, _⟩
    · exact ⟨by omega, by omega⟩
    · have := FdTable.get_nonneg hr
      omega
  · obtain ⟨pipe', hp', hr, hw⟩ := h.opened hp
    have hpipe' : pipe' ≠ pipe := by
      rintro rfl
      exact hne hp'
    constructor
    · rintro rfl
      rw [ht] at hr
      cases hr
      exact hpipe' (Option.some.inj hpipe)
    · rintro rfl
      rw [ht] at hw
      cases hw
      exact hpipe' (Option.some.inj hpipe)

theorem Ends.closePipe {w : World} (hq : q.Ends w.fds) (hp : p.Ends w.fds)
    (hne : ∀ pipe, q.pipe = some pipe → p.pipe ≠ some pipe) : q.Ends (w.closePipe p).fds := by
  rcases hq with hc | ⟨pipe, hpipe, hr, hw⟩
  · exact .inl hc
  · have hrd := hp.not_end (FdTable.target_eq.mpr ⟨_, hr, rfl⟩) rfl (hne pipe hpipe)
    have hwr := hp.not_end (FdTable.target_eq.mpr ⟨_, hw, rfl⟩) rfl (hne pipe hpipe)
    refine .inr ⟨pipe, hpipe, ?_, ?_⟩
    · rw [World.closePipe_get_ne w p hrd.1 hrd.2, hr]
    · rw [World.closePipe_get_ne w p hwr.1 hwr.2, hw]

theorem Ends.mono {fds' : FdTable} (h : p.Ends fds)
    (ht : ∀ x d, d.target ≠ .file → fds.get x = some d → fds'.get x = some d) : p.Ends fds' := by
  rcases h with hc | ⟨pipe, hpipe, hr, hw⟩
  · exact .inl hc
  · exact .inr ⟨pipe, hpipe, ht _ _ (by simp) hr, ht _ _ (by simp) hw⟩

end PipeFds

namespace Owned

variable {ι : Type} {fds : FdTable} {array : ι → PipeFds} {w w' : World}

/-- Different arrays that are open have different read ends, and no descriptor is in both. -/
theorem rd_ne (h : Owned fds array) {i j : ι} (hij : i ≠ j) (hi : (array i).rd ≠ -1) :
    (array i).rd ≠ (array j).rd ∧ (array i).rd ≠ (array j).wr := by
  obtain ⟨pipe, hp, hr, _⟩ := (h.ends i).opened hi
  exact (h.ends j).not_end hr rfl fun hj => hij (h.apart i j pipe hp hj)

theorem wr_ne (h : Owned fds array) {i j : ι} (hij : i ≠ j) (hi : (array i).rd ≠ -1) :
    (array i).wr ≠ (array j).rd ∧ (array i).wr ≠ (array j).wr := by
  obtain ⟨pipe, hp, _, hw⟩ := (h.ends i).opened hi
  exact (h.ends j).not_end hw rfl fun hj => hij (h.apart i j pipe hp hj)

theorem mono {fds' : FdTable} (h : Owned fds array)
    (ht : ∀ x d, d.target ≠ .file → (fds.get x = some d ↔ fds'.get x = some d))
    (hn : fds'.nextPipe = fds.nextPipe) : Owned fds' array where
  ends i := (h.ends i).mono fun x d hd => (ht x d hd).mp
  apart := h.apart
  below i pipe hp := hn ▸ h.below i pipe hp
  only i pipe x t hp hx hpipe := by
    obtain ⟨d, hd, rfl⟩ := FdTable.target_eq.mp hx
    have hfile : d.target ≠ .file := by
      intro hf
      rw [hf] at hpipe
      cases hpipe
    exact h.only i pipe x _ hp (FdTable.target_eq.mpr ⟨d, (ht x d hfile).mpr hd, rfl⟩) hpipe

theorem insertFile (h : Owned fds array) {fd : Int} {cloexec : Bool} (hfd : 0 ≤ fd)
    (hd : ∀ pipe, FdTarget.file.pipe? = some pipe → pipe < fds.nextPipe) (hn : fds.get fd = none) :
    Owned (fds.insert fd ⟨.file, cloexec⟩ hfd hd) array := by
  refine h.mono (fun x d hfile => ?_) rfl
  by_cases hx : x = fd
  · subst x
    rw [hn, FdTable.insert_get_self]
    constructor
    · intro hd
      cases hd
    · intro hd
      cases hd
      exact absurd rfl hfile
  · rw [FdTable.insert_get_ne _ _ hx]

theorem closeFile (h : Owned fds array) {fd : Int} (hf : fds.target fd = some .file) :
    Owned (fds.close fd) array := by
  refine h.mono (fun x d hfile => ?_) rfl
  by_cases hx : x = fd
  · subst x
    obtain ⟨d', hd', ht⟩ := FdTable.target_eq.mp hf
    rw [FdTable.close_get_self, hd']
    constructor
    · intro hd
      cases hd
      exact absurd ht hfile
    · intro hd
      cases hd
  · rw [FdTable.close_get_ne _ hx]

/-- Closing the two ends of a pipe that is in none of the arrays. -/
theorem closeOther (h : Owned w.fds array) {p : PipeFds} (hp : p.Ends w.fds)
    (hne : ∀ i pipe, (array i).pipe = some pipe → p.pipe ≠ some pipe) :
    Owned (w.closePipe p).fds array where
  ends i := (h.ends i).closePipe hp (hne i)
  apart := h.apart
  below i pipe hi := (World.closePipe_nextPipe w p).symm ▸ h.below i pipe hi
  only i pipe x t hi hx := h.only i pipe x t hi (World.closePipe_target w p hx).1

variable [DecidableEq ι]

/-- An array is closed and given up; its pipe is forgotten, or remembered. -/
theorem close (h : Owned w.fds array) (i : ι) {p q : PipeFds} (hq : array i = q) (hr : p.rd = -1)
    (hw : p.wr = -1) (hp : ∀ pipe, p.pipe = some pipe → q.pipe = some pipe) :
    Owned (w.closePipe q).fds (Function.update array i p) := by
  subst hq
  have hpipe : ∀ j pipe, (Function.update array i p j).pipe = some pipe →
      (array j).pipe = some pipe := by
    intro j pipe hj
    by_cases hji : j = i
    · subst j
      rw [Function.update_self] at hj
      exact hp pipe hj
    · rwa [Function.update_of_ne hji] at hj
  constructor
  · intro j
    by_cases hji : j = i
    · subst j
      rw [Function.update_self]
      exact .inl ⟨hr, hw⟩
    · rw [Function.update_of_ne hji]
      exact (h.ends j).closePipe (h.ends i) fun pipe hj hi => hji (h.apart j i pipe hj hi)
  · exact fun j k pipe hj hk => h.apart j k pipe (hpipe j pipe hj) (hpipe k pipe hk)
  · exact fun j pipe hj => (World.closePipe_nextPipe w _).symm ▸ h.below j pipe (hpipe j pipe hj)
  · intro j pipe x t hj hx ht
    obtain ⟨hx, hrd, hwr⟩ := World.closePipe_target w _ hx
    have honly := h.only j pipe x t (hpipe j pipe hj) hx ht
    by_cases hji : j = i
    · subst j
      exact absurd honly (not_or.mpr ⟨hrd, hwr⟩)
    · rwa [Function.update_of_ne hji]

theorem closeArray (h : Owned w.fds array) (i : ι) {q : PipeFds} (hq : array i = q) :
    Owned (w.closePipe q).fds (Function.update array i q.closed) :=
  h.close i hq rfl rfl fun _ => id

/-- A new pipe goes into an array, whatever was in it. -/
theorem openPipe (h : Owned fds array) (i : ι) (hint : Int × Int) (cloexec : Bool) :
    Owned (fds.openPipe hint cloexec).2
      (Function.update array i (fds.openPipe hint cloexec).1) := by
  have hnew := FdTable.openPipe_pipe fds hint cloexec
  constructor
  · intro j
    by_cases hji : j = i
    · subst j
      rw [Function.update_self]
      exact .inr ⟨_, hnew, FdTable.openPipe_get_rd .., FdTable.openPipe_get_wr ..⟩
    · rw [Function.update_of_ne hji]
      refine (h.ends j).mono fun x d _ hx => ?_
      rwa [FdTable.openPipe_get_old _ _ _ (by rw [hx]; simp)]
  · intro j k pipe hj hk
    by_cases hji : j = i <;> by_cases hki : k = i
    · rw [hji, hki]
    · subst j
      rw [Function.update_self, hnew] at hj
      rw [Function.update_of_ne hki] at hk
      have := h.below k pipe hk
      have := Option.some.inj hj
      omega
    · subst k
      rw [Function.update_self, hnew] at hk
      rw [Function.update_of_ne hji] at hj
      have := h.below j pipe hj
      have := Option.some.inj hk
      omega
    · rw [Function.update_of_ne hji] at hj
      rw [Function.update_of_ne hki] at hk
      exact h.apart j k pipe hj hk
  · intro j pipe hj
    rw [FdTable.openPipe_nextPipe]
    by_cases hji : j = i
    · subst j
      rw [Function.update_self, hnew] at hj
      have := Option.some.inj hj
      omega
    · rw [Function.update_of_ne hji] at hj
      exact Nat.lt_succ_of_lt (h.below j pipe hj)
  · intro j pipe x t hj hx ht
    have hold := @FdTable.openPipe_get_ne fds hint cloexec x
    by_cases hend : x = (fds.openPipe hint cloexec).1.rd ∨ x = (fds.openPipe hint cloexec).1.wr
    · have hpipe : pipe = fds.nextPipe := by
        rcases hend with rfl | rfl
        · rw [FdTable.openPipe_target_rd] at hx
          cases hx
          exact (Option.some.inj ht).symm
        · rw [FdTable.openPipe_target_wr] at hx
          cases hx
          exact (Option.some.inj ht).symm
      by_cases hji : j = i
      · subst j
        rwa [Function.update_self]
      · rw [Function.update_of_ne hji] at hj
        have := h.below j pipe hj
        omega
    · have hx' : fds.target x = some t := by
        rw [FdTable.target, ← hold (not_or.mp hend).1 (not_or.mp hend).2]
        exact hx
      by_cases hji : j = i
      · subst j
        rw [Function.update_self, hnew] at hj
        have := FdTable.target_pipe_lt hx' ht
        have := Option.some.inj hj
        omega
      · rw [Function.update_of_ne hji] at hj ⊢
        exact h.only j pipe x t hj hx' ht

end Owned

section Streams

variable {ι : Type} {array : ι → PipeFds} {w w' : World}

/-- What a read through array `i` can answer: an array that is open holds a write end itself, so
the end of its pipe is never reached. -/
inductive Owned.Reads (array : ι → PipeFds) (w : World) (i : ι) (count : Nat) :
    Except Errno (List UInt8) → World → Prop
  | failed (e : Errno) (rf : List (Option Errno)) :
      Reads array w i count (.error e) { w with readFaults := rf }
  | data {pipe : Nat} (rf : List (Option Errno)) (own : (array i).pipe = some pipe)
      (some : (w.pipes pipe).unread ≠ []) :
      Reads array w i count (.ok ((w.pipes pipe).unread.take (w.readLength pipe count)))
        { w with
          readFaults := rf
          pipes := Function.update w.pipes pipe ((w.pipes pipe).drop (w.readLength pipe count)) }

theorem Owned.reads (h : Owned w.fds array) {i : ι} {count : Nat} {a : Except Errno (List UInt8)}
    (ha : World.ReadAnswer w (array i).rd count a w') : Owned.Reads array w i count a w' := by
  cases ha with
  | failed e rf => exact .failed e rf
  | @ended pipe rf ht hn =>
    have hopen : (array i).rd ≠ -1 := by
      have := FdTable.target_nonneg ht
      omega
    obtain ⟨pipe', _, hr, hw⟩ := (h.ends i).opened hopen
    obtain rfl : pipe' = pipe := by simpa using hr.symm.trans ht
    rw [FdTable.hasWriter_of_target hw] at hn
    cases hn
  | @data pipe rf ht hu =>
    have hopen : (array i).rd ≠ -1 := by
      have := FdTable.target_nonneg ht
      omega
    obtain ⟨pipe', hp, hr, _⟩ := (h.ends i).opened hopen
    obtain rfl : pipe' = pipe := by simpa using hr.symm.trans ht
    exact .data rf hp hu

/-- The pipe of another array is left alone. -/
theorem Owned.Reads.stream_ne {fds : FdTable} {i j : ι} {count : Nat}
    {a : Except Errno (List UInt8)} (h : Owned fds array) (hij : j ≠ i)
    (hr : Owned.Reads array w i count a w') : w'.stream (array j) = w.stream (array j) := by
  cases hr with
  | failed => rfl
  | @data pipe rf hp _ =>
    cases hj : (array j).pipe with
    | none => simp only [World.stream, hj]
    | some x =>
      have hx : x ≠ pipe := by
        rintro rfl
        exact hij (h.apart j i x hj hp)
      simp only [World.stream_of_pipe hj, Function.update_of_ne hx]

/-- What the read has returned is what the reader of the pipe has got more than before. -/
theorem Owned.Reads.stream_read {i : ι} {count : Nat} {a : Except Errno (List UInt8)}
    (hr : Owned.Reads array w i count a w') :
    (w'.stream (array i)).read = (w.stream (array i)).read ++ a.toOption.getD [] := by
  cases hr with
  | failed => exact (List.append_nil _).symm
  | data rf hp _ =>
    simp only [World.stream_of_pipe hp, Function.update_self, ByteStream.drop_read]
    rfl

/-- Writing takes nothing out of any pipe. -/
theorem World.write_stream_read (w : World) (fd : Int) (data : List UInt8) (p : PipeFds) :
    ((w.write fd data).stream p).read = (w.stream p).read := by
  rcases World.write_cases w fd data with h | ⟨pipe, _, _, h⟩
  · rw [h]
  · rw [h]
    cases hp : p.pipe with
    | none => simp only [World.stream, hp]
    | some x =>
      simp only [World.stream_of_pipe hp]
      by_cases hx : x = pipe
      · subst x
        simp
      · rw [World.setPipe_pipes_ne _ _ hx]

/-- Writing through one array leaves the pipes of the others alone. -/
theorem Owned.write_stream_ne (h : Owned w.fds array) {i j : ι} (hij : j ≠ i) (data : List UInt8) :
    (w.write (array i).wr data).stream (array j) = w.stream (array j) := by
  rcases World.write_cases w (array i).wr data with he | ⟨pipe, ht, _, he⟩
  · rw [he]
  · rw [he]
    have hends : (array i).Ends w.fds := h.ends i
    rcases hends with ⟨_, hw⟩ | ⟨pipe', hp, _, hw⟩
    · have := FdTable.target_nonneg ht
      omega
    · obtain rfl : pipe' = pipe := by
        rw [FdTable.target, hw] at ht
        simpa using ht
      cases hj : (array j).pipe with
      | none => simp only [World.stream, hj]
      | some x =>
        have hx : x ≠ pipe' := by
          rintro rfl
          exact hij (h.apart j i x hj hp)
        simp only [World.stream_of_pipe hj, World.setPipe_pipes_ne _ _ hx]

/-- A pipe that is created is empty, and the pipes there are stay as they are. -/
theorem Owned.stream_bump (h : Owned w.fds array) (i : ι) {pipes : Nat → ByteStream UInt8}
    (hp : pipes = Function.update w.pipes w.fds.nextPipe {}) :
    World.stream { w with pipes } (array i) = w.stream (array i) := by
  cases hi : (array i).pipe with
  | none => simp only [World.stream, hi]
  | some x =>
    have hx : x ≠ w.fds.nextPipe := Nat.ne_of_lt (h.below i x hi)
    simp only [World.stream_of_pipe hi, hp, Function.update_of_ne hx]

end Streams

/-- The places where the process keeps the two ends of a pipe. -/
inductive Slot
  | control
  | sigchld
  | blocking
  | loop
  | ioLoop
  | stdin (h : Nat)
  | stdout (h : Nat)
  | stderr (h : Nat)
  | watch (h : Nat)
  deriving DecidableEq, Repr

/-- The object whose array it is. -/
def Slot.owner : Slot → Option Nat
  | .stdin h | .stdout h | .stderr h | .watch h => some h
  | _ => none

/-- Which of them are opened with `O_CLOEXEC`: all but the three that become the child's own. -/
def Slot.cloexec : Slot → Bool
  | .stdin _ | .stdout _ | .stderr _ => false
  | _ => true

def Sys.array (s : Sys) : Slot → PipeFds
  | .control => s.controlPipe
  | .sigchld => s.sigchldPipe
  | .blocking => s.blockingPipe
  | .loop => (s.loop.map SelectEvent.controlPipe).getD {}
  | .ioLoop => s.ioLoop.controlPipe
  | .stdin h => (s.procs h).pipeStdin
  | .stdout h => (s.procs h).pipeStdout
  | .stderr h => (s.procs h).pipeStderr
  | .watch h => (s.procs h).pipeCloseWatch

def Sys.stream (s : Sys) (slot : Slot) : ByteStream UInt8 := s.toWorld.stream (s.array slot)

/-- Every array of the process is closed or holds a pipe of its own. -/
def Sys.Owns (s : Sys) : Prop := Owned s.fds s.array

/-- A new pipe was opened into an array. -/
structure OpenedInto (slot : Slot) (s t : Sys) : Prop where
  opened : ∃ hint cloexec, t.fds = (s.fds.openPipe hint cloexec).2 ∧
    t.array = Function.update s.array slot (s.fds.openPipe hint cloexec).1
  pipes : t.pipes = Function.update s.pipes s.fds.nextPipe {}

namespace OpenedInto

variable {slot : Slot} {s t : Sys}

theorem owns (h : OpenedInto slot s t) (hs : s.Owns) : t.Owns := by
  obtain ⟨hint, cloexec, hf, ha⟩ := h.opened
  unfold Sys.Owns
  rw [hf, ha]
  exact Owned.openPipe hs slot hint cloexec

theorem array_ne (h : OpenedInto slot s t) {x : Slot} (hx : x ≠ slot) : t.array x = s.array x := by
  obtain ⟨hint, cloexec, _, ha⟩ := h.opened
  rw [ha, Function.update_of_ne hx]

theorem rd_nonneg (h : OpenedInto slot s t) : 0 ≤ (t.array slot).rd := by
  obtain ⟨hint, cloexec, _, ha⟩ := h.opened
  rw [ha, Function.update_self]
  exact freshFd_nonneg _ _

theorem rd_open (h : OpenedInto slot s t) : (t.array slot).rd ≠ -1 := by
  have := h.rd_nonneg
  omega

theorem stream_self (h : OpenedInto slot s t) : t.stream slot = {} := by
  obtain ⟨hint, cloexec, _, ha⟩ := h.opened
  have hp := FdTable.openPipe_pipe s.fds hint cloexec
  simp only [Sys.stream, ha, Function.update_self, World.stream_of_pipe hp, h.pipes]

theorem stream_ne (h : OpenedInto slot s t) (hs : s.Owns) {x : Slot} (hx : x ≠ slot) :
    t.stream x = s.stream x := by
  simp only [Sys.stream, h.array_ne hx]
  exact Owned.stream_bump hs x h.pipes

end OpenedInto

/-- A `pipe2` that succeeds, and what stores its result. -/
theorem openedInto_of_pipe2 {w w' : World} {p : PipeFds} {cloexec : Bool} {slot : Slot} {s t : Sys}
    (h : w.pipe2 cloexec = (some p, w')) (hs : s.toWorld = w) (hf : t.fds = w'.fds)
    (hp : t.pipes = w'.pipes) (ha : t.array = Function.update s.array slot p) :
    OpenedInto slot s t := by
  subst hs
  cases hfault : s.faults.head?.join with
  | some e =>
    rw [World.pipe2_of_fault hfault] at h
    cases h
  | none =>
    rw [World.pipe2_of_none hfault] at h
    cases h
    exact ⟨⟨_, _, hf, ha⟩, hp⟩

end Pexec
