import Pexec.World

namespace Pexec

namespace FdTable

theorem hasWriter_of_target {t : FdTable} {fd : Int} {pipe : Nat}
    (h : t.target fd = some (.writeEnd pipe)) : t.hasWriter pipe = true := by
  obtain ⟨d, hd, ht⟩ := target_eq.mp h
  have hmem := AList.mem_lookup_iff.mp (Option.mem_def.mpr hd)
  exact List.any_eq_true.mpr ⟨⟨fd, d⟩, hmem, by simp [ht]⟩

end FdTable

namespace World

theorem readLength_le_count (w : World) (pipe count : Nat) : w.readLength pipe count ≤ count := by
  unfold readLength
  omega

theorem readLength_le_unread (w : World) (pipe count : Nat) :
    w.readLength pipe count ≤ (w.pipes pipe).unread.length := by
  unfold readLength
  omega

theorem readLength_pos {w : World} {pipe count : Nat} (hc : 0 < count)
    (hu : (w.pipes pipe).unread ≠ []) : 0 < w.readLength pipe count := by
  have := List.length_pos_iff.mpr hu
  unfold readLength
  omega

/-- What a `read` can answer, and the world after it. -/
inductive ReadAnswer (w : World) (fd : Int) (count : Nat) :
    Except Errno (List UInt8) → World → Prop
  | failed (e : Errno) (rf : List (Option Errno)) :
      ReadAnswer w fd count (.error e) { w with readFaults := rf }
  | ended {pipe : Nat} (rf : List (Option Errno)) (target : w.fds.target fd = some (.readEnd pipe))
      (noWriter : w.fds.hasWriter pipe = false) :
      ReadAnswer w fd count (.ok []) { w with readFaults := rf }
  | data {pipe : Nat} (rf : List (Option Errno)) (target : w.fds.target fd = some (.readEnd pipe))
      (some : (w.pipes pipe).unread ≠ []) :
      ReadAnswer w fd count (.ok ((w.pipes pipe).unread.take (w.readLength pipe count)))
        { w with
          readFaults := rf
          pipes := Function.update w.pipes pipe ((w.pipes pipe).drop (w.readLength pipe count)) }

theorem read_answer (w : World) (fd : Int) (count : Nat) :
    ReadAnswer w fd count (w.read fd count).1 (w.read fd count).2 := by
  unfold read
  dsimp only
  split
  next e he => exact .failed e _
  next =>
    split
    next pipe ht =>
      split
      next hu =>
        split
        next hw => exact .failed _ _
        next hw => exact .ended _ ht (by simpa using hw)
      next hu => exact .data _ ht hu
    next => exact .failed _ _

theorem read_faults (w : World) (fd : Int) (count : Nat) :
    (w.read fd count).2.readFaults = w.readFaults.tail := by
  unfold read
  split
  · rfl
  · split
    · split
      · split <;> rfl
      · rfl
    · rfl

/-- A read of a pipe that is open at both ends. -/
theorem read_of_open {w : World} {fd wr : Int} {pipe : Nat} (count : Nat)
    (hr : w.fds.target fd = some (.readEnd pipe)) (hw : w.fds.target wr = some (.writeEnd pipe)) :
    w.read fd count = match w.readFaults.head?.join with
      | some e => (.error e, { w with readFaults := w.readFaults.tail })
      | none =>
        if (w.pipes pipe).unread = [] then
          (.error .eagain, { w with readFaults := w.readFaults.tail })
        else (.ok ((w.pipes pipe).unread.take (w.readLength pipe count)), { w with
          readFaults := w.readFaults.tail
          pipes := Function.update w.pipes pipe ((w.pipes pipe).drop (w.readLength pipe count)) }) := by
  unfold read
  simp only [hr, FdTable.hasWriter_of_target hw, if_true]
  rfl

theorem readRetry_answer (fd : Int) (count : Nat) (faults : List (Option Errno)) (w : World) :
    ReadAnswer w fd count (readRetry fd count faults w).1 (readRetry fd count faults w).2 := by
  induction faults generalizing w with
  | nil => exact read_answer w fd count
  | cons fault faults ih =>
    have hr := read_answer w fd count
    unfold readRetry
    split
    next w' he =>
      rw [he] at hr
      cases hr with
      | failed e rf =>
        have ht := ih { w with readFaults := rf }
        revert ht
        generalize readRetry fd count faults { w with readFaults := rf } = r
        obtain ⟨a, w'⟩ := r
        intro ht
        cases ht with
        | failed e rf' => exact .failed e rf'
        | ended rf' ht hw => exact .ended rf' ht hw
        | data rf' ht hu => exact .data rf' ht hu
    next => exact hr

theorem pipe2_of_fault {w : World} {cloexec : Bool} {e : Errno} (h : w.faults.head?.join = some e) :
    w.pipe2 cloexec = (none, { w with faults := w.faults.tail }) := by
  simp only [pipe2, nextFault, h]

theorem pipe2_of_none {w : World} {cloexec : Bool} (h : w.faults.head?.join = none) :
    w.pipe2 cloexec = (some (w.fds.openPipe (w.fdHint w.fds.nextPipe) cloexec).1, { w with
      faults := w.faults.tail
      fds := (w.fds.openPipe (w.fdHint w.fds.nextPipe) cloexec).2
      pipes := Function.update w.pipes w.fds.nextPipe {} }) := by
  simp only [pipe2, nextFault, h]

theorem pipe2_flag {w w' : World} {cloexec : Bool} {p : PipeFds}
    (h : w.pipe2 cloexec = (some p, w')) : p.cloexec = cloexec := by
  cases hf : w.faults.head?.join with
  | some e =>
    rw [pipe2_of_fault hf] at h
    cases h
  | none =>
    rw [pipe2_of_none hf] at h
    cases h
    rfl

theorem sigaction_of_fault {w : World} {d : Disposition} {e : Errno}
    (h : w.faults.head?.join = some e) :
    w.sigaction d = (none, { w with faults := w.faults.tail }) := by
  simp only [sigaction, nextFault, h]

theorem sigaction_of_none {w : World} {d : Disposition} (h : w.faults.head?.join = none) :
    w.sigaction d = (some w.disposition, { w with faults := w.faults.tail, disposition := d }) := by
  simp only [sigaction, nextFault, h]

/-- A write of a few bytes puts all of them into the pipe, or none. -/
theorem write_cases (w : World) (fd : Int) (data : List UInt8) :
    w.write fd data = w ∨ ∃ pipe, w.fds.target fd = some (.writeEnd pipe) ∧
      (w.pipes pipe).unread.length + data.length ≤ w.capacity ∧
      w.write fd data = w.setPipe pipe ((w.pipes pipe).push data) := by
  unfold write
  split
  next pipe ht =>
    split
    next hc => exact .inr ⟨pipe, ht, hc, rfl⟩
    next => exact .inl rfl
  next => exact .inl rfl

theorem write_of_target {w : World} {fd : Int} {pipe : Nat} {data : List UInt8}
    (h : w.fds.target fd = some (.writeEnd pipe)) :
    w.write fd data = if (w.pipes pipe).unread.length + data.length ≤ w.capacity then
      w.setPipe pipe ((w.pipes pipe).push data) else w := by
  unfold write
  rw [h]

theorem mem_zombies {w : World} {pid x : Int} : x ∈ w.zombies pid ↔
    ∃ child, w.children.lookup x = some child ∧ child.status.isSome = true ∧
      ⟨x, child⟩ ∈ w.selected pid := by
  simp only [zombies, List.mem_map, List.mem_filter]
  constructor
  · rintro ⟨⟨y, child⟩, ⟨hsel, hstatus⟩, rfl⟩
    exact ⟨child, AList.mem_lookup_iff.mpr (List.mem_filter.mp hsel).1, hstatus, hsel⟩
  · rintro ⟨child, _, hstatus, hsel⟩
    exact ⟨⟨x, child⟩, ⟨hsel, hstatus⟩, rfl⟩

/-- The children in the caller's process group that have terminated. -/
theorem mem_zombies_group {w : World} {x : Int} : x ∈ w.zombies 0 ↔
    ∃ child, w.children.lookup x = some child ∧ child.status.isSome = true ∧ child.pgid = w.pgid := by
  rw [mem_zombies]
  refine exists_congr fun child => and_congr_right fun hl => and_congr_right fun _ => ?_
  simp only [selected, List.mem_filter, Int.lt_irrefl, if_false, if_true, beq_iff_eq]
  exact and_iff_right (AList.mem_lookup_iff.mp hl)

/-- What a `waitpid` can answer, and the world after it. -/
inductive WaitAnswer (w : World) (pid : Int) : WaitResult → World → Prop
  | failed {e : Errno} (fault : w.faults.head?.join = some e) :
      WaitAnswer w pid (.failed e) { w with faults := w.faults.tail }
  | echild (none : w.zombies pid = []) :
      WaitAnswer w pid (.failed .echild) { w with faults := w.faults.tail }
  | unavailable (none : w.zombies pid = []) :
      WaitAnswer w pid .unavailable { w with faults := w.faults.tail }
  | reaped {x : Int} {child : Child} {status : { status : WaitStatus // Terminated status }}
      (mem : x ∈ w.zombies pid) (lookup : w.children.lookup x = some child)
      (some : child.status = some status) :
      WaitAnswer w pid (.reaped x status)
        { w with faults := w.faults.tail, children := w.children.erase x }

theorem waitpid_answer (w : World) (pid : Int) :
    WaitAnswer w pid (w.waitpid pid).1 (w.waitpid pid).2 := by
  cases hf : w.faults.head?.join with
  | some e =>
    simp only [waitpid, nextFault, hf]
    exact .failed hf
  | none =>
    simp only [waitpid, nextFault, hf]
    split
    next hz =>
      split
      · exact .echild hz
      · exact .unavailable hz
    next z zs hz =>
      generalize hc : (if w.pickChild (z :: zs) ∈ z :: zs then w.pickChild (z :: zs) else z) = x
      have hx : x ∈ w.zombies pid := by
        have hz' : w.zombies pid = z :: zs := hz
        rw [hz', ← hc]
        split_ifs with h
        · exact h
        · exact List.mem_cons_self
      obtain ⟨child, hl, hs, _⟩ := mem_zombies.mp hx
      obtain ⟨status, hs⟩ := Option.isSome_iff_exists.mp hs
      simp only [hl, Option.bind_some, hs]
      exact .reaped hx hl hs

theorem ReadAnswer.frame {w w' : World} {fd : Int} {count : Nat} {a : Except Errno (List UInt8)}
    (h : ReadAnswer w fd count a w') :
    ∃ readFaults pipes, w' = { w with readFaults, pipes } := by
  cases h with
  | failed e rf => exact ⟨_, _, rfl⟩
  | ended rf => exact ⟨_, _, rfl⟩
  | data rf => exact ⟨_, _, rfl⟩

theorem read_frame (w : World) (fd : Int) (count : Nat) :
    ∃ readFaults pipes, (w.read fd count).2 = { w with readFaults, pipes } :=
  (read_answer w fd count).frame

theorem readRetry_frame (fd : Int) (count : Nat) (faults : List (Option Errno)) (w : World) :
    ∃ readFaults pipes, (readRetry fd count faults w).2 = { w with readFaults, pipes } :=
  (readRetry_answer fd count faults w).frame

theorem closeFd_frame (w : World) (fd : Int) : ∃ fds, w.closeFd fd = { w with fds } := by
  unfold closeFd
  split
  · exact ⟨_, rfl⟩
  · exact ⟨_, rfl⟩

theorem closePipe_frame (w : World) (p : PipeFds) : ∃ fds, w.closePipe p = { w with fds } := by
  obtain ⟨fds, h⟩ := closeFd_frame w p.rd
  obtain ⟨fds', h'⟩ := closeFd_frame { w with fds } p.wr
  exact ⟨fds', by rw [closePipe, h, h']⟩

theorem write_frame (w : World) (fd : Int) (data : List UInt8) :
    ∃ pipes, w.write fd data = { w with pipes } := by
  rcases write_cases w fd data with h | ⟨pipe, _, _, h⟩
  · exact ⟨_, h⟩
  · exact ⟨_, h⟩

theorem deliverSigchld_frame (w : World) : ∃ pipes, w.deliverSigchld = { w with pipes } := by
  unfold deliverSigchld
  split
  · exact write_frame ..
  · exact write_frame ..
  · exact ⟨_, rfl⟩

theorem pipe2_frame (w : World) (cloexec : Bool) :
    ∃ faults fds pipes, (w.pipe2 cloexec).2 = { w with faults, fds, pipes } := by
  cases hf : w.faults.head?.join with
  | some e => rw [pipe2_of_fault hf]; exact ⟨_, _, _, rfl⟩
  | none => rw [pipe2_of_none hf]; exact ⟨_, _, _, rfl⟩

/-- A `pipe2` that fails opens nothing. -/
theorem pipe2_eq_none {w w' : World} {cloexec : Bool} (h : w.pipe2 cloexec = (none, w')) :
    ∃ faults, w' = { w with faults } := by
  cases hf : w.faults.head?.join with
  | some e =>
    rw [pipe2_of_fault hf] at h
    cases h
    exact ⟨_, rfl⟩
  | none =>
    rw [pipe2_of_none hf] at h
    cases h

theorem sigaction_frame (w : World) (d : Disposition) :
    ∃ faults disposition, (w.sigaction d).2 = { w with faults, disposition } := by
  cases hf : w.faults.head?.join with
  | some e => rw [sigaction_of_fault hf]; exact ⟨_, _, rfl⟩
  | none => rw [sigaction_of_none hf]; exact ⟨_, _, rfl⟩

theorem sigprocmask_faults (w : World) (block : Bool) : (w.sigprocmask block).2.faults = w.faults.tail := by
  cases hf : w.faults.head?.join <;> simp only [sigprocmask, nextFault, hf]

theorem sigprocmask_frame (w : World) (block : Bool) :
    ∃ faults sigchldBlocked, (w.sigprocmask block).2 = { w with faults, sigchldBlocked } := by
  cases hf : w.faults.head?.join <;>
    simp only [sigprocmask, nextFault, hf] <;>
    exact ⟨_, _, rfl⟩

theorem fork_of_fault {w : World} {e : Errno} (h : w.faults.head?.join = some e) :
    w.fork = (none, { w with faults := w.faults.tail }) := by
  simp only [fork, nextFault, h]

theorem fork_of_none {w : World} (h : w.faults.head?.join = none) :
    w.fork = (some w.freshPid, { w with
      faults := w.faults.tail
      children := w.children.insert w.freshPid { pgid := w.pgid, fds := w.fds }
      forks := w.forks + 1 }) := by
  simp only [fork, nextFault, h]
  rfl

theorem fork_frame (w : World) :
    ∃ faults children forks, w.fork.2 = { w with faults, children, forks } := by
  cases hf : w.faults.head?.join with
  | some e => rw [fork_of_fault hf]; exact ⟨_, _, _, rfl⟩
  | none => rw [fork_of_none hf]; exact ⟨_, _, _, rfl⟩

theorem foldr_max_nonneg (xs : List Int) : 0 ≤ xs.foldr max 0 := by
  induction xs with
  | nil => exact Int.le_refl _
  | cons y ys ih => exact Int.le_trans ih (Int.le_max_right _ _)

theorem mem_le_foldr_max {x : Int} {xs : List Int} (h : x ∈ xs) : x ≤ xs.foldr max 0 := by
  induction xs with
  | nil => cases h
  | cons y ys ih =>
    rcases List.mem_cons.mp h with rfl | h
    · exact Int.le_max_left _ _
    · exact Int.le_trans (ih h) (Int.le_max_right _ _)

theorem freshPid_pos (w : World) : 0 < w.freshPid := by
  unfold freshPid
  dsimp only
  split
  next h => exact h.1
  next =>
    have := foldr_max_nonneg w.children.keys
    omega

theorem freshPid_not_mem (w : World) : w.freshPid ∉ w.children := by
  unfold freshPid
  dsimp only
  split
  next h => exact h.2
  next =>
    intro h
    have := mem_le_foldr_max (AList.mem_keys.mp h)
    omega

theorem WaitAnswer.frame {w w' : World} {pid : Int} {r : WaitResult} (h : WaitAnswer w pid r w') :
    ∃ faults children, w' = { w with faults, children } := by
  cases h with
  | failed => exact ⟨_, _, rfl⟩
  | echild => exact ⟨_, _, rfl⟩
  | unavailable => exact ⟨_, _, rfl⟩
  | reaped => exact ⟨_, _, rfl⟩

@[simp] theorem setPipe_pipes_self (w : World) (pipe : Nat) (s : ByteStream UInt8) :
    (w.setPipe pipe s).pipes pipe = s := Function.update_self ..

theorem setPipe_pipes_ne (w : World) {pipe x : Nat} (s : ByteStream UInt8) (h : x ≠ pipe) :
    (w.setPipe pipe s).pipes x = w.pipes x := Function.update_of_ne h ..

end World

end Pexec
