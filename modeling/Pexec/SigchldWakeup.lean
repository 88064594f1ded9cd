import Pexec.Lib.Effect
import Pexec.MultiRun
import Pexec.WorldRules

namespace Pexec

/-- How far the loop is with `read_signal` and, inside it, `handle_sigchld`. -/
inductive WakePhase
  | idle
  | reading (want : Nat) (got : List UInt8)
  | received
  | waiting
  | leaving

/-- The bytes of the record that is being read. -/
def WakePhase.got : WakePhase → List UInt8
  | .reading _ got => got
  | _ => []

/-- A record has been read, and the last `waitpid` for it is still to come. -/
def WakePhase.Unfinished : WakePhase → Prop
  | .reading _ got => got ≠ []
  | .received | .waiting => True
  | .idle | .leaving => False

/-- The process with its SIGCHLD signals: one may be pending, for `writing` others the handler
runs but has not written yet. `before` are the children that were terminated already when the
handler was installed. -/
structure Wakeup where
  sys : Sys
  pending : Bool := false
  writing : Nat := 0
  phase : WakePhase := .idle
  before : List Int := []

inductive WakeLabel
  | exit (pid : Int)
  | raise
  | deliver
  | write
  | wake
  | read
  | block
  | wait
  | unblock
  | other

/-- The unread part of `sigchld_pipe_signal`. -/
def World.signals (w : World) : List UInt8 :=
  match w.sigchldPipe.pipe with
  | some pipe => (w.pipes pipe).unread
  | none => []

theorem World.signals_of_pipe {w : World} {pipe : Nat} (h : w.sigchldPipe.pipe = some pipe) :
    w.signals = (w.pipes pipe).unread := by
  simp only [World.signals, h]

theorem World.signals_update {w : World} {pipe : Nat} (h : w.sigchldPipe.pipe = some pipe)
    (rf : List (Option Errno)) (x : ByteStream UInt8) :
    World.signals { w with readFaults := rf, pipes := Function.update w.pipes pipe x } = x.unread := by
  simp only [World.signals, h, Function.update_self]

def SigchldOpen (s : Sys) : Prop :=
  ∃ pipe, s.sigchldPipe.pipe = some pipe ∧
    s.fds.target s.sigchldPipe.rd = some (.readEnd pipe) ∧
    s.fds.target s.sigchldPipe.wr = some (.writeEnd pipe)

/-- A step that has nothing to do with SIGCHLD: no child terminates in it. -/
structure SameSignals (s t : Sys) : Prop where
  array : t.sigchldPipe = s.sigchldPipe
  signals : t.toWorld.signals = s.toWorld.signals
  disposition : t.disposition = s.disposition
  capacity : t.capacity = s.capacity
  control : SigchldOpen s → SigchldOpen t
  children : ∀ pid ∈ t.zombies 0, pid ∈ s.zombies 0

/-- Where `read_signal` is after one answer of `read`. -/
def afterRead (want : Nat) (got : List UInt8) : Except Errno (List UInt8) → WakePhase
  | .error .eintr => .reading want got
  | .error _ => .idle
  | .ok data =>
    if want - data.length = 0 then
      if got ++ data = World.sigchldRecord then .received else .idle
    else .reading (want - data.length) (got ++ data)

/-- Where `handle_sigchld` is after one answer of `waitpid`. -/
def afterWait : WaitTurn → WakePhase
  | .leave | .fail => .leaving
  | .again | .child _ _ => .waiting

/-- The kernel generates SIGCHLD when a child terminates, and whenever it likes; a pending one is
not queued again. It may be delivered to any thread, so also while the loop has it blocked. Once
a part of a record is read the next `read` fails with EINTR at most, and so does `waitpid`, whose
ECHILD is not a choice of the kernel's. -/
inductive WakeStep : Wakeup → WakeLabel → Wakeup → Prop
  | exit {j pid child status} : j.sys.children.lookup pid = some child → child.status = none →
      WakeStep j (.exit pid) { j with
        sys := (EnvAct.exit pid status).apply j.sys
        pending := true
        before := j.before.filter (· ≠ pid) }
  | raise {j} : WakeStep j .raise { j with pending := true }
  | deliver {j} : j.pending = true →
      WakeStep j .deliver { j with pending := false, writing := j.writing + 1 }
  | write {j n} : j.writing = n + 1 →
      WakeStep j .write { j with sys := EnvAct.sigchld.apply j.sys, writing := n }
  | wake {j} : j.phase = .idle → WakeStep j .wake { j with phase := .reading 4 [] }
  | read {j want got answer t} : j.phase = .reading want got →
      (∀ e, j.sys.readFaults.head?.join = some e → e = .eintr ∨ got = []) →
      call (World.read · j.sys.sigchldPipe.rd want) j.sys = .ok answer t →
      WakeStep j .read { j with sys := t, phase := afterRead want got answer }
  | block {j ok t} : j.phase = .received → call (World.sigprocmask · true) j.sys = .ok ok t →
      WakeStep j .block { j with sys := t, phase := .waiting }
  | wait {j result t} : j.phase = .waiting →
      (∀ e, j.sys.faults.head?.join = some e → e = .eintr) →
      call (World.waitpid · 0) j.sys = .ok result t →
      WakeStep j .wait { j with sys := t, phase := afterWait (waitTurn result) }
  | unblock {j ok t} : j.phase = .leaving → call (World.sigprocmask · false) j.sys = .ok ok t →
      WakeStep j .unblock { j with sys := t, phase := .idle }
  | other {j t} : SameSignals j.sys t → WakeStep j .other { j with sys := t }

/-- Something will still make the loop call `waitpid`. -/
def Wakeup.Woken (j : Wakeup) : Prop :=
  j.pending = true ∨ 0 < j.writing ∨ World.sigchldRecord.length ≤ j.sys.signals.length ∨
    j.phase.Unfinished

structure WakeSound (j : Wakeup) : Prop where
  control : SigchldOpen j.sys
  handler : j.sys.disposition = .sigchldSignalHandler
  room : World.sigchldRecord.length ≤ j.sys.capacity
  phase : ∀ want got, j.phase = .reading want got → 0 < want ∧ got.length + want = 4
  records : ∃ n, j.phase.got ++ j.sys.signals = (List.replicate n World.sigchldRecord).flatten
  woken : ∀ pid ∈ j.sys.zombies 0, pid ∈ j.before ∨ j.Woken

theorem records_length (n : Nat) : (List.replicate n World.sigchldRecord).flatten.length = n * 4 := by
  simp [World.sigchldRecord]

/-- What is left of a record whose first part is read is still in the pipe. -/
theorem records_rest {got signals : List UInt8} {n : Nat}
    (h : got ++ signals = (List.replicate n World.sigchldRecord).flatten) (hlt : got.length < 4)
    (hs : signals = []) : got = [] := by
  have hlen := congrArg List.length h
  rw [records_length, List.length_append, hs, List.length_nil] at hlen
  exact List.eq_nil_of_length_eq_zero (by omega)

/-- A pipe that is not empty between two records holds a whole one. -/
theorem records_whole {signals : List UInt8} {n : Nat}
    (h : signals = (List.replicate n World.sigchldRecord).flatten) (hs : 0 < signals.length) :
    World.sigchldRecord.length ≤ signals.length := by
  have hlen := congrArg List.length h
  rw [records_length] at hlen
  have : World.sigchldRecord.length = 4 := rfl
  omega

/-- The first four bytes are a record. -/
theorem records_first {got signals : List UInt8} {n : Nat}
    (h : got ++ signals = (List.replicate n World.sigchldRecord).flatten) (hlen : got.length = 4) :
    got = World.sigchldRecord ∧ ∃ m, signals = (List.replicate m World.sigchldRecord).flatten := by
  cases n with
  | zero =>
    have := congrArg List.length h
    simp [hlen] at this
  | succ n =>
    rw [List.replicate_succ, List.flatten_cons] at h
    obtain ⟨h₁, h₂⟩ := List.append_inj h (by rw [hlen]; rfl)
    exact ⟨h₁, n, h₂⟩

theorem write_sound {j : Wakeup} {n : Nat} (hj : WakeSound j) :
    WakeSound { j with sys := EnvAct.sigchld.apply j.sys, writing := n } := by
  obtain ⟨pipe, hp, hr, hw⟩ := hj.control
  obtain ⟨m, hm⟩ := hj.records
  have hsig : j.sys.signals = (j.sys.pipes pipe).unread := World.signals_of_pipe hp
  have happly : EnvAct.sigchld.apply j.sys =
      { j.sys with toWorld := j.sys.toWorld.write j.sys.sigchldPipe.wr World.sigchldRecord } := by
    simp only [EnvAct.apply, World.deliverSigchld, hj.handler]
  rw [happly, World.write_of_target hw]
  split
  next hroom =>
    have hsig' : (j.sys.toWorld.setPipe pipe
        ((j.sys.pipes pipe).push World.sigchldRecord)).signals =
        j.sys.signals ++ World.sigchldRecord := by
      rw [hsig, ← ByteStream.push_unread]
      exact World.signals_update hp j.sys.readFaults _
    refine ⟨⟨pipe, hp, hr, hw⟩, hj.handler, hj.room, hj.phase, ⟨m + 1, ?_⟩, fun pid _ => .inr ?_⟩
    · rw [hsig', ← List.append_assoc, hm, List.replicate_succ', List.flatten_append]
      simp
    · refine .inr (.inr (.inl ?_))
      rw [hsig', List.length_append]
      exact Nat.le_add_left _ _
  next hfull =>
    refine ⟨⟨pipe, hp, hr, hw⟩, hj.handler, hj.room, hj.phase, ⟨m, hm⟩, fun pid _ => .inr ?_⟩
    have hpos : 0 < j.sys.signals.length := by
      have := hj.room
      rw [hsig]
      omega
    by_cases hgot : j.phase.got = []
    · rw [hgot, List.nil_append] at hm
      exact .inr (.inr (.inl (records_whole hm hpos)))
    · refine .inr (.inr (.inr ?_))
      cases hphase : j.phase with
      | reading want got =>
        rw [hphase] at hgot
        exact hgot
      | _ =>
        rw [hphase] at hgot
        exact absurd rfl hgot

theorem read_sound {j : Wakeup} {want : Nat} {got : List UInt8} {t : Sys}
    {answer : Except Errno (List UInt8)} (hj : WakeSound j) (hphase : j.phase = .reading want got)
    (hfault : ∀ e, j.sys.readFaults.head?.join = some e → e = .eintr ∨ got = [])
    (h : call (World.read · j.sys.sigchldPipe.rd want) j.sys = .ok answer t) :
    WakeSound { j with sys := t, phase := afterRead want got answer } := by
  obtain ⟨pipe, hp, hr, hw⟩ := hj.control
  obtain ⟨n, hn⟩ := hj.records
  obtain ⟨hpos, hwant⟩ := hj.phase want got hphase
  have hsig : j.sys.signals = (j.sys.pipes pipe).unread := World.signals_of_pipe hp
  simp only [hphase, WakePhase.got] at hn
  rw [call_apply, World.read_of_open want hr hw] at h
  -- a read that fails takes nothing, and it stops `read_signal` only between two records
  have hfail : ∀ e rf, (e = .eintr ∨ got = []) → WakeSound { j with
      sys := { j.sys with readFaults := rf }
      phase := afterRead want got (.error e) } := by
    intro e rf he
    have hstay : WakeSound { j with
        sys := { j.sys with readFaults := rf }, phase := .reading want got } := by
      rw [← hphase]
      exact ⟨⟨pipe, hp, hr, hw⟩, hj.handler, hj.room, hj.phase, hj.records, hj.woken⟩
    by_cases hi : e = .eintr
    · subst hi
      exact hstay
    · have hgot := he.resolve_left hi
      subst hgot
      have hidle : afterRead want [] (.error e) = .idle := by
        cases e <;> first | rfl | exact absurd rfl hi
      rw [hidle]
      refine ⟨hstay.control, hstay.handler, hstay.room, fun _ _ hne => (by cases hne), hstay.records,
        fun pid hz => (hstay.woken pid hz).imp_right ?_⟩
      rintro (h | h | h | h)
      · exact .inl h
      · exact .inr (.inl h)
      · exact .inr (.inr (.inl h))
      · exact absurd rfl h
  cases hf : j.sys.readFaults.head?.join with
  | some e =>
    rw [hf] at h
    cases h
    exact hfail e _ (hfault e hf)
  | none =>
    rw [hf] at h
    by_cases hempty : (j.sys.pipes pipe).unread = []
    · rw [if_pos hempty] at h
      cases h
      exact hfail .eagain _ (.inr (records_rest hn (by omega) (hsig.trans hempty)))
    · rw [if_neg hempty] at h
      cases h
      generalize hlen : j.sys.toWorld.readLength pipe want = len
      have hlenpos : 0 < len := hlen ▸ World.readLength_pos hpos hempty
      have hlenwant : len ≤ want := hlen ▸ j.sys.toWorld.readLength_le_count pipe want
      have hlenle : len ≤ (j.sys.pipes pipe).unread.length :=
        hlen ▸ j.sys.toWorld.readLength_le_unread pipe want
      have hdata : ((j.sys.pipes pipe).unread.take len).length = len := by
        rw [List.length_take, Nat.min_eq_left hlenle]
      have hsig' : World.signals { j.sys.toWorld with
          readFaults := j.sys.readFaults.tail
          pipes := Function.update j.sys.pipes pipe ((j.sys.pipes pipe).drop len) } =
          (j.sys.pipes pipe).unread.drop len := by
        rw [World.signals_update hp, ByteStream.drop_unread]
      have hjoin : (got ++ (j.sys.pipes pipe).unread.take len) ++
          (j.sys.pipes pipe).unread.drop len = (List.replicate n World.sigchldRecord).flatten := by
        rw [List.append_assoc, List.take_append_drop, ← hsig, hn]
      simp only [afterRead, hdata]
      by_cases hdone : want - len = 0
      · have hfour : (got ++ (j.sys.pipes pipe).unread.take len).length = 4 := by
          rw [List.length_append, hdata]
          omega
        obtain ⟨hrec, m, hm⟩ := records_first hjoin hfour
        rw [if_pos hdone, if_pos hrec]
        exact ⟨⟨pipe, hp, hr, hw⟩, hj.handler, hj.room, fun _ _ hne => (by cases hne),
          ⟨m, hsig'.trans hm⟩, fun _ _ => .inr (.inr (.inr (.inr trivial)))⟩
      · rw [if_neg hdone]
        refine ⟨⟨pipe, hp, hr, hw⟩, hj.handler, hj.room, ?_, ⟨n, ?_⟩, fun _ _ => .inr ?_⟩
        · intro want' got' he
          cases he
          rw [List.length_append, hdata]
          omega
        · exact (congrArg _ hsig').trans hjoin
        · refine .inr (.inr (.inr fun hnil => ?_))
          have := congrArg List.length hnil
          rw [List.length_append, hdata, List.length_nil] at this
          omega

theorem wait_sound {j : Wakeup} {result : WaitResult} {t : Sys} (hj : WakeSound j)
    (hphase : j.phase = .waiting) (hfault : ∀ e, j.sys.faults.head?.join = some e → e = .eintr)
    (h : call (World.waitpid · 0) j.sys = .ok result t) :
    WakeSound { j with sys := t, phase := afterWait (waitTurn result) } := by
  have hnot : ∀ want got, j.phase ≠ .reading want got := by
    intro want got he
    rw [hphase] at he
    cases he
  have hrec : ∃ n, j.sys.signals = (List.replicate n World.sigchldRecord).flatten := by
    have := hj.records
    rwa [hphase] at this
  have hans := World.waitpid_answer j.sys.toWorld 0
  rw [call_apply] at h
  obtain ⟨hres, rfl⟩ := EStateM.Result.ok.inj h
  rw [hres] at hans
  revert hans
  generalize (World.waitpid j.sys.toWorld 0).2 = w
  intro hans
  cases hans with
  | @failed e fault =>
    rw [hfault e fault]
    exact ⟨hj.control, hj.handler, hj.room, fun _ _ hne => (by cases hne), hrec,
      fun _ _ => .inr (.inr (.inr (.inr trivial)))⟩
  | echild none =>
    exact ⟨hj.control, hj.handler, hj.room, fun _ _ hne => (by cases hne), hrec,
      fun pid hz => absurd (none ▸ hz : pid ∈ []) List.not_mem_nil⟩
  | unavailable none =>
    exact ⟨hj.control, hj.handler, hj.room, fun _ _ hne => (by cases hne), hrec,
      fun pid hz => absurd (none ▸ hz : pid ∈ []) List.not_mem_nil⟩
  | reaped mem lookup some =>
    exact ⟨hj.control, hj.handler, hj.room, fun _ _ hne => (by cases hne), hrec,
      fun _ _ => .inr (.inr (.inr (.inr trivial)))⟩

/-- A step that leaves the signals alone and only moves on between unfinished phases, or between
finished ones, keeps the rest. -/
theorem WakeSound.move {j : Wakeup} {w : World} {phase : WakePhase} (hj : WakeSound j)
    (hw : ∃ faults blocked, w = { j.sys.toWorld with faults, sigchldBlocked := blocked })
    (hgot : j.phase.got = []) (hgot' : phase.got = [])
    (hphase : ∀ want got, phase = .reading want got → 0 < want ∧ got.length + want = 4)
    (hun : j.phase.Unfinished → phase.Unfinished) :
    WakeSound { j with sys := { j.sys with toWorld := w }, phase } := by
  obtain ⟨faults, blocked, rfl⟩ := hw
  refine ⟨hj.control, hj.handler, hj.room, hphase, ?_, fun pid hz => (hj.woken pid hz).imp_right ?_⟩
  · have := hj.records
    rw [hgot] at this
    rw [hgot']
    exact this
  · rintro (h | h | h | h)
    · exact .inl h
    · exact .inr (.inl h)
    · exact .inr (.inr (.inl h))
    · exact .inr (.inr (.inr (hun h)))

theorem wakeStep_sound {j k : Wakeup} {l : WakeLabel} (hj : WakeSound j) (h : WakeStep j l k) :
    WakeSound k := by
  cases h with
  | @exit pid child status hl hs =>
    have happly : (EnvAct.exit pid status).apply j.sys = { j.sys with
        children := j.sys.children.insert pid { child with status := some status } } := by
      simp only [EnvAct.apply, hl, hs, Option.isSome_none, Bool.false_eq_true, if_false]
    rw [happly]
    exact ⟨hj.control, hj.handler, hj.room, hj.phase, hj.records, fun _ _ => .inr (.inl rfl)⟩
  | raise =>
    exact ⟨hj.control, hj.handler, hj.room, hj.phase, hj.records, fun _ _ => .inr (.inl rfl)⟩
  | deliver hp =>
    exact ⟨hj.control, hj.handler, hj.room, hj.phase, hj.records,
      fun _ _ => .inr (.inr (.inl (Nat.succ_pos _)))⟩
  | write hn => exact write_sound hj
  | wake hphase =>
    have hgot : j.phase.got = [] := by rw [hphase]; rfl
    refine hj.move ⟨_, _, rfl⟩ hgot rfl ?_ ?_
    · intro want got he
      cases he
      decide
    · rw [hphase]
      exact False.elim
  | read hphase hfault hread => exact read_sound hj hphase hfault hread
  | block hphase hcall =>
    cases hcall
    have hgot : j.phase.got = [] := by rw [hphase]; rfl
    exact hj.move (World.sigprocmask_frame _ _) hgot rfl (fun _ _ he => (by cases he)) fun _ => trivial
  | wait hphase hfault hcall => exact wait_sound hj hphase hfault hcall
  | unblock hphase hcall =>
    cases hcall
    have hgot : j.phase.got = [] := by rw [hphase]; rfl
    refine hj.move (World.sigprocmask_frame _ _) hgot rfl (fun _ _ he => (by cases he)) ?_
    rw [hphase]
    exact False.elim
  | @other t hsame =>
    refine ⟨hsame.control hj.control, ?_, ?_, hj.phase, ?_, fun pid hz => ?_⟩
    · rw [hsame.disposition]; exact hj.handler
    · rw [hsame.capacity]; exact hj.room
    · rw [hsame.signals]; exact hj.records
    · have := hj.woken pid (hsame.children pid hz)
      simpa only [Wakeup.Woken, hsame.signals] using this

open Effect Runs

/-- What installing the handler does when it succeeds. -/
theorem sigchldSetSignalHandler_ok {s t : Sys} (h : sigchldSetSignalHandler s = .ok true t) :
    t = { s with
      faults := s.faults.tail.tail
      fds := (s.fds.openPipe (s.fdHint s.fds.nextPipe) true).2
      pipes := Function.update s.pipes s.fds.nextPipe {}
      sigchldPipe := (s.fds.openPipe (s.fdHint s.fds.nextPipe) true).1
      disposition := .sigchldSignalHandler
      sigchldSaPrev := s.disposition
      sigchldActive := true } := by
  unfold sigchldSetSignalHandler at h
  rw [Effect.bind_of_ok (call_apply ..)] at h
  cases hf : s.faults.head?.join with
  | some e => simp [World.pipe2_of_fault hf] at h
  | none =>
    rw [World.pipe2_of_none hf] at h
    dsimp only at h
    rw [Effect.bind_of_ok (Effect.modify_apply ..), Effect.bind_of_ok (call_apply ..)] at h
    cases hf' : s.faults.tail.head?.join with
    | some e =>
      rw [World.sigaction_of_fault hf'] at h
      cases h
    | none =>
      rw [World.sigaction_of_none hf'] at h
      cases h
      rfl

/-- A handler that has just been installed. -/
theorem sigchldSetSignalHandler_sound {s t : Sys} (h : sigchldSetSignalHandler s = .ok true t)
    (hcap : World.sigchldRecord.length ≤ s.capacity) (pending : Bool) (writing : Nat) :
    WakeSound { sys := t, pending, writing, before := t.zombies 0 } := by
  have ht := sigchldSetSignalHandler_ok h
  refine ⟨?_, ?_, ?_, fun _ _ he => (by cases he), ⟨0, ?_⟩, fun pid hz => .inl hz⟩ <;> rw [ht]
  · exact ⟨_, FdTable.openPipe_pipe .., FdTable.openPipe_target_rd .., FdTable.openPipe_target_wr ..⟩
  · exact hcap
  · simp [World.signals, FdTable.openPipe_pipe, ByteStream.unread, WakePhase.got]

/-- While the handler is installed no wake-up is lost: a child of the caller's process group that
has terminated since then and is not reaped has a signal pending or about to be written, a whole
record in the pipe, or a record whose last `waitpid` is still to come. -/
theorem sigchld_keeps_wakeup {s t : Sys} {ls : List WakeLabel} {j : Wakeup} {pending : Bool}
    {writing : Nat} (hset : sigchldSetSignalHandler s = .ok true t)
    (hcap : World.sigchldRecord.length ≤ s.capacity)
    (hrun : Run WakeStep { sys := t, pending, writing, before := t.zombies 0 } ls j) :
    ∀ pid ∈ j.sys.zombies 0, pid ∉ j.before →
      j.pending = true ∨ 0 < j.writing ∨
        World.sigchldRecord.length ≤ j.sys.toWorld.signals.length ∨ j.phase.Unfinished := by
  have hsound := hrun.invariant (sigchldSetSignalHandler_sound hset hcap pending writing)
    fun _ _ _ => wakeStep_sound
  exact fun pid hz hb => (hsound.woken pid hz).resolve_left hb

/-- The application has forked a child, and it has terminated before the handler is installed. -/
def earlyChild : Sys := (EnvAct.exit 5 ⟨0, terminated_zero⟩).apply ((EnvAct.fork 5 1).apply {})

def earlyInstalled : Sys := final sigchldSetSignalHandler earlyChild

/-- Nothing tells of a child that had terminated when the handler was installed. -/
theorem early_exit_unheard : ¬∀ (s t : Sys) (ls : List WakeLabel) (j : Wakeup),
    sigchldSetSignalHandler s = .ok true t → World.sigchldRecord.length ≤ s.capacity →
    Run WakeStep { sys := t } ls j → ∀ pid ∈ j.sys.zombies 0,
      j.pending = true ∨ 0 < j.writing ∨
        World.sigchldRecord.length ≤ j.sys.toWorld.signals.length ∨ j.phase.Unfinished := by
  intro hall
  have hwoken := hall earlyChild earlyInstalled [] { sys := earlyInstalled } rfl (by decide) .nil 5
    (by decide +kernel)
  rcases hwoken with h | h | h | h
  · exact Bool.false_ne_true h
  · exact Nat.lt_irrefl 0 h
  · exact absurd h (by decide +kernel)
  · exact h

/-- A child exits before anything else happens. -/
theorem sigchld_keeps_wakeup_exit :
    ∃ j : Wakeup, 5 ∈ j.sys.zombies 0 ∧ (j.pending = true ∨ 0 < j.writing ∨
      World.sigchldRecord.length ≤ j.sys.toWorld.signals.length ∨ j.phase.Unfinished) := by
  let s : Sys := { children := AList.insert 5 { pgid := 1 } ∅ }
  obtain ⟨t, hset⟩ : ∃ t, sigchldSetSignalHandler s = .ok true t := ⟨_, rfl⟩
  have hchildren : t.children = s.children := by rw [sigchldSetSignalHandler_ok hset]
  have hpgid : t.pgid = 1 := by rw [sigchldSetSignalHandler_ok hset]
  have hl : t.children.lookup 5 = some { pgid := 1 } := by rw [hchildren]; rfl
  have happly : (EnvAct.exit 5 ⟨0, terminated_zero⟩).apply t =
      { t with children := t.children.insert 5 { pgid := 1, status := some ⟨0, terminated_zero⟩ } } := by
    simp [EnvAct.apply, hl]
  have hz : 5 ∈ ((EnvAct.exit 5 ⟨0, terminated_zero⟩).apply t).zombies 0 := by
    rw [happly, World.mem_zombies_group]
    exact ⟨_, AList.lookup_insert _, rfl, hpgid.symm⟩
  have hstep : WakeStep ⟨t, false, 0, .idle, t.zombies 0⟩ (.exit 5)
      ⟨(EnvAct.exit 5 ⟨0, terminated_zero⟩).apply t, true, 0, .idle, (t.zombies 0).filter (· ≠ 5)⟩ :=
    .exit hl rfl
  exact ⟨_, hz, sigchld_keeps_wakeup hset (by decide) (Run.snoc Run.nil hstep) 5 hz (by simp)⟩

end Pexec
