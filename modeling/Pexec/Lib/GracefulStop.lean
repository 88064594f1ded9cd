import Mathlib.Data.List.Nodup
import Mathlib.Data.Set.Insert
import Mathlib.Logic.Relation

namespace GracefulStop

inductive Ticket (η φ : Type)
  | start (h : η)
  | stop (flag : φ)
  | sentinel

variable {η φ : Type}

def Ticket.job? : Ticket η φ → Option η
  | .start h => some h
  | _ => none

def Ticket.isSentinel : Ticket η φ → Bool
  | .sentinel => true
  | _ => false

/-- `issued` are the jobs there were ever tickets for, `sentinels` counts the sentinels ever added,
`started` and `ended` are histories. -/
structure Service (η φ : Type) where
  queue : List (Ticket η φ)
  sentinels : Nat
  running : Set η
  issued : Set η
  stopping : Bool
  flag : φ
  isOpen : Bool
  started : List η
  ended : List η

inductive Move (s : Service η φ) : Service η φ → Prop
  | send {x : Ticket η φ} (real : x.isSentinel = false) (fresh : ∀ h, x.job? = some h → h ∉ s.issued) :
      Move s { s with queue := s.queue ++ [x], issued := s.issued ∪ {h | x.job? = some h} }
  | start {h : η} {q : List (Ticket η φ)} (head : s.queue = .start h :: q) (isOpen : s.isOpen = true)
      (going : s.stopping = false) :
      Move s { s with queue := q, running := insert h s.running, started := s.started ++ [h] }
  | refuse {h : η} {q : List (Ticket η φ)} (head : s.queue = .start h :: q) (isOpen : s.isOpen = true)
      (stopping : s.stopping = true) : Move s { s with queue := q }
  | stop {f : φ} {q : List (Ticket η φ)} (head : s.queue = .stop f :: q) (isOpen : s.isOpen = true)
      (going : s.stopping = false) (busy : s.running ≠ ∅) :
      Move s { s with queue := q, stopping := true, flag := f }
  | ignore {f : φ} {q : List (Ticket η φ)} (head : s.queue = .stop f :: q) (isOpen : s.isOpen = true)
      (stopping : s.stopping = true) : Move s { s with queue := q }
  | close {f f' : φ} {q : List (Ticket η φ)} (head : s.queue = .stop f :: q) (isOpen : s.isOpen = true)
      (going : s.stopping = false) (idle : s.running = ∅) :
      Move s { s with queue := q, flag := f', isOpen := false }
  | closeLast {f' : φ} {q : List (Ticket η φ)} (head : s.queue = .sentinel :: q)
      (isOpen : s.isOpen = true) (idle : s.running = ∅) :
      Move s { s with queue := q, stopping := false, flag := f', isOpen := false }
  | early {q : List (Ticket η φ)} (head : s.queue = .sentinel :: q) (isOpen : s.isOpen = true)
      (going : s.stopping = false) (busy : s.running ≠ ∅) :
      Move s { s with queue := q, stopping := true }
  | late {q : List (Ticket η φ)} (head : s.queue = .sentinel :: q) (isOpen : s.isOpen = true)
      (stopping : s.stopping = true) (busy : s.running ≠ ∅) : Move s { s with queue := q }
  | finish {h : η} (mem : h ∈ s.running) (more : ¬(s.stopping = true ∧ s.running \ {h} = ∅)) :
      Move s { s with running := s.running \ {h}, ended := s.ended ++ [h] }
  | finishLast {h : η} (mem : h ∈ s.running) (stopping : s.stopping = true)
      (idle : s.running \ {h} = ∅) :
      Move s { s with
        running := s.running \ {h}
        ended := s.ended ++ [h]
        queue := s.queue ++ [.sentinel]
        sentinels := s.sentinels + 1 }

/-- Any number of moves. -/
abbrev Moves (s t : Service η φ) : Prop := Relation.ReflTransGen Move s t

/-- The jobs that the queue still has tickets for. -/
def jobs (queue : List (Ticket η φ)) : List η := queue.filterMap Ticket.job?

/-- What has been started and ended since the service opened as `s₀`. -/
structure Session (s₀ s : Service η φ) (new fin : List η) : Prop where
  started : s.started = s₀.started ++ new
  ended : s.ended = s₀.ended ++ fin
  nodup : (jobs s.queue ++ new).Nodup
  issued : ∀ h ∈ jobs s.queue ++ new, h ∈ s.issued
  once : fin.Nodup
  running : ∀ h, h ∈ fin ↔ h ∈ new ∧ h ∉ s.running
  mem : ∀ h ∈ s.running, h ∈ new
  pending : s.isOpen = true → s.stopping = true → s.running = ∅ → s.queue.countP Ticket.isSentinel = 1
  clean : ¬(s.isOpen = true ∧ s.stopping = true ∧ s.running = ∅) →
    s.queue.countP Ticket.isSentinel = 0
  sentinels : s.isOpen = true → s.sentinels = s₀.sentinels + s.queue.countP Ticket.isSentinel
  closed : s.isOpen = false → s.stopping = false ∧ s.running = ∅ ∧ s.sentinels ≤ s₀.sentinels + 1

/-- The service has just been opened. -/
structure Opened (s : Service η φ) : Prop where
  isOpen : s.isOpen = true
  stopping : s.stopping = false
  idle : s.running = ∅
  clean : s.queue.countP Ticket.isSentinel = 0
  nodup : (jobs s.queue).Nodup
  issued : ∀ h ∈ jobs s.queue, h ∈ s.issued

variable {s₀ s t : Service η φ} {new fin : List η}

theorem Opened.session (h : Opened s) : Session s s [] [] where
  started := (List.append_nil _).symm
  ended := (List.append_nil _).symm
  nodup := by simpa using h.nodup
  issued := by simpa using h.issued
  once := List.nodup_nil
  running := by simp
  mem := by simp [h.idle]
  pending _ hs := by
    rw [h.stopping] at hs
    cases hs
  clean _ := h.clean
  sentinels _ := by simp [h.clean]
  closed hc := by
    rw [h.isOpen] at hc
    cases hc

/-- Before the service is opened. -/
theorem Session.shut (hclosed : s.isOpen = false) (hstop : s.stopping = false) (hidle : s.running = ∅)
    (hclean : s.queue.countP Ticket.isSentinel = 0) (hnodup : (jobs s.queue).Nodup)
    (hissued : ∀ h ∈ jobs s.queue, h ∈ s.issued) : Session s s [] [] where
  started := (List.append_nil _).symm
  ended := (List.append_nil _).symm
  nodup := by simpa using hnodup
  issued := by simpa using hissued
  once := List.nodup_nil
  running := by simp
  mem := by simp [hidle]
  pending ho := by
    rw [hclosed] at ho
    cases ho
  clean _ := hclean
  sentinels _ := by simp [hclean]
  closed _ := ⟨hstop, hidle, Nat.le_succ _⟩

/-- A closed service may begin another session, -/
theorem Session.restart (h : Session s₀ s new fin) (hc : s.isOpen = false) : Session s s [] [] := by
  obtain ⟨hstop, hidle, _⟩ := h.closed hc
  exact .shut hc hstop hidle (h.clean fun hn => absurd (hc.symm.trans hn.1) (by decide))
    (List.nodup_append.mp h.nodup).1 fun x hx => h.issued x (List.mem_append_left _ hx)

/-- and be opened once more. -/
theorem Session.reopen (h : Session s₀ s new fin) (hc : s.isOpen = false)
    (ho : t = { s with isOpen := true }) : Opened t := by
  obtain ⟨hstop, hidle, _⟩ := h.closed hc
  subst ho
  refine ⟨rfl, hstop, hidle, h.clean fun hn => ?_, (List.nodup_append.mp h.nodup).1,
    fun x hx => h.issued x (List.mem_append_left _ hx)⟩
  exact absurd (hc.symm.trans hn.1) (by decide)

/-- When the service is closed, every job of the session has ended once. -/
theorem Session.finished (h : Session s₀ s new fin) (hc : s.isOpen = false) :
    new.Nodup ∧ List.Perm fin new := by
  have hnodup := (List.nodup_append.mp h.nodup).2.1
  refine ⟨hnodup, (List.perm_ext_iff_of_nodup h.once hnodup).mpr fun x => ?_⟩
  rw [h.running, (h.closed hc).2.1]
  simp

/-- A ticket is taken, and no sentinel. -/
theorem Session.take (h : Session s₀ s new fin) {x : Ticket η φ} {q : List (Ticket η φ)}
    (head : s.queue = x :: q) (hx : x.isSentinel = false) :
    q.countP Ticket.isSentinel = s.queue.countP Ticket.isSentinel ∧ (jobs q ++ new).Nodup ∧
      ∀ h ∈ jobs q ++ new, h ∈ s.issued := by
  have hsub : List.Sublist (jobs q ++ new) (jobs s.queue ++ new) := by
    refine List.Sublist.append_right ?_ new
    rw [head]
    exact (List.sublist_cons_self x q).filterMap _
  refine ⟨?_, h.nodup.sublist hsub, fun y hy => h.issued y (hsub.subset hy)⟩
  rw [head, List.countP_cons_of_neg (by simp [hx])]

/-- While the service is open a sentinel is only there when the last job has ended. -/
theorem Session.sentinel_idle (h : Session s₀ s new fin) {q : List (Ticket η φ)}
    (head : s.queue = .sentinel :: q) : s.stopping = true ∧ s.running = ∅ := by
  by_contra hn
  have := h.clean fun hc => hn hc.2
  rw [head, List.countP_cons_of_pos rfl] at this
  omega

/-- A job that runs ends. -/
theorem Session.end_job (h : Session s₀ s new fin) {x : η} (mem : x ∈ s.running) :
    s.ended ++ [x] = s₀.ended ++ (fin ++ [x]) ∧ (fin ++ [x]).Nodup ∧
      (∀ y, y ∈ fin ++ [x] ↔ y ∈ new ∧ y ∉ s.running \ {x}) ∧ s.running ≠ ∅ := by
  have hfin : x ∉ fin := fun hm => ((h.running x).mp hm).2 mem
  refine ⟨by rw [h.ended, List.append_assoc], ?_, fun y => ?_, fun he => ?_⟩
  · rw [List.nodup_append]
    refine ⟨h.once, List.nodup_singleton x, fun a ha b hb hab => ?_⟩
    rw [List.mem_singleton] at hb
    exact hfin (hb ▸ hab ▸ ha)
  · rw [List.mem_append, h.running, List.mem_singleton, Set.mem_sdiff, Set.mem_singleton_iff]
    constructor
    · rintro (⟨hy, hr⟩ | rfl)
      · exact ⟨hy, fun hd => hr hd.1⟩
      · exact ⟨h.mem y mem, fun hd => hd.2 rfl⟩
    · rintro ⟨hy, hr⟩
      by_cases hyx : y = x
      · exact .inr hyx
      · exact .inl ⟨hy, fun hm => hr ⟨hm, hyx⟩⟩
  · rw [he] at mem
    exact mem

theorem Session.move (h : Session s₀ s new fin) (hm : Move s t) :
    ∃ new' fin', Session s₀ t new' fin' := by
  cases hm with
  | @send x real fresh =>
    have hcount : (s.queue ++ [x]).countP Ticket.isSentinel = s.queue.countP Ticket.isSentinel := by
      rw [List.countP_append, List.countP_cons_of_neg (by simp [real]), List.countP_nil, Nat.add_zero]
    have hjobs : jobs (s.queue ++ [x]) = jobs s.queue ++ x.job?.toList := by
      cases hx : x.job? <;> simp [jobs, hx]
    refine ⟨new, fin, h.started, h.ended, ?_, ?_, h.once, h.running, h.mem, ?_, ?_, ?_, h.closed⟩
    · simp only [hjobs]
      cases hx : x.job? with
      | none => simpa using h.nodup
      | some y =>
        have hy : y ∉ jobs s.queue ++ new := fun hm => fresh y hx (h.issued y hm)
        have hcons := List.nodup_cons.mpr ⟨hy, h.nodup⟩
        have hperm : List.Perm (y :: (jobs s.queue ++ new)) (jobs s.queue ++ [y] ++ new) := by
          rw [List.append_assoc]
          exact List.perm_middle.symm
        exact hperm.nodup hcons
    · simp only [hjobs]
      intro y hy
      simp only [List.mem_append] at hy
      rcases hy with (hy | hy) | hy
      · exact .inl (h.issued y (List.mem_append_left _ hy))
      · exact .inr (by simpa using hy)
      · exact .inl (h.issued y (List.mem_append_right _ hy))
    · exact fun ho hs hr => hcount.trans (h.pending ho hs hr)
    · exact fun hc => hcount.trans (h.clean hc)
    · exact fun ho => (h.sentinels ho).trans (by rw [hcount])
  | @start x q head isOpen going =>
    have hnodup := h.nodup
    have hissued := h.issued
    rw [head] at hnodup hissued
    have hperm : List.Perm (x :: (jobs q ++ new)) (jobs q ++ (new ++ [x])) := by
      rw [← List.append_assoc]
      exact (List.perm_append_singleton x (jobs q ++ new)).symm
    have hcount : q.countP Ticket.isSentinel = s.queue.countP Ticket.isSentinel := by
      rw [head, List.countP_cons_of_neg (by simp [Ticket.isSentinel])]
    have hx : x ∉ new := by
      have := (List.nodup_cons.mp (show (x :: (jobs q ++ new)).Nodup from hnodup)).1
      exact fun hm => this (List.mem_append_right _ hm)
    have hzero : s.queue.countP Ticket.isSentinel = 0 := h.clean fun hc => by
      rw [going] at hc
      cases hc.2.1
    refine ⟨new ++ [x], fin, ?_, h.ended, hperm.nodup hnodup, fun y hy => ?_, h.once, fun y => ?_,
      fun y hy => ?_, fun _ hs => ?_, fun _ => hcount.trans hzero,
      fun ho => (h.sentinels ho).trans (by rw [hcount]), fun hc => ?_⟩
    · simp only [h.started, List.append_assoc]
    · exact hissued y (hperm.mem_iff.mpr hy)
    · rw [h.running, List.mem_append, List.mem_singleton, Set.mem_insert_iff, not_or]
      constructor
      · rintro ⟨hy, hr⟩
        refine ⟨.inl hy, ?_, hr⟩
        rintro rfl
        exact hx hy
      · rintro ⟨hy | rfl, hne, hr⟩
        · exact ⟨hy, hr⟩
        · exact absurd rfl hne
    · rcases hy with rfl | hy
      · exact List.mem_append_right _ (List.mem_singleton.mpr rfl)
      · exact List.mem_append_left _ (h.mem y hy)
    · rw [going] at hs
      cases hs
    · rw [isOpen] at hc
      cases hc
  | @refuse x q head isOpen stopping =>
    obtain ⟨hcount, hnodup, hissued⟩ := h.take head rfl
    exact ⟨new, fin, h.started, h.ended, hnodup, hissued, h.once, h.running, h.mem,
      fun ho hs hr => hcount.trans (h.pending ho hs hr), fun hc => hcount.trans (h.clean hc),
      fun ho => (h.sentinels ho).trans (by rw [hcount]), h.closed⟩
  | @stop f q head isOpen going busy =>
    obtain ⟨hcount, hnodup, hissued⟩ := h.take head rfl
    have hzero : s.queue.countP Ticket.isSentinel = 0 := h.clean fun hc => busy hc.2.2
    exact ⟨new, fin, h.started, h.ended, hnodup, hissued, h.once, h.running, h.mem,
      fun _ _ hr => absurd hr busy, fun _ => hcount.trans hzero,
      fun ho => (h.sentinels ho).trans (by rw [hcount]), fun hc => absurd (hc.symm.trans isOpen) (by simp)⟩
  | @ignore f q head isOpen stopping =>
    obtain ⟨hcount, hnodup, hissued⟩ := h.take head rfl
    exact ⟨new, fin, h.started, h.ended, hnodup, hissued, h.once, h.running, h.mem,
      fun ho hs hr => hcount.trans (h.pending ho hs hr), fun hc => hcount.trans (h.clean hc),
      fun ho => (h.sentinels ho).trans (by rw [hcount]), h.closed⟩
  | @close f f' q head isOpen going idle =>
    obtain ⟨hcount, hnodup, hissued⟩ := h.take head rfl
    have hzero : s.queue.countP Ticket.isSentinel = 0 := h.clean fun hc => by
      rw [going] at hc
      cases hc.2.1
    have hsent := h.sentinels isOpen
    exact ⟨new, fin, h.started, h.ended, hnodup, hissued, h.once, h.running, h.mem,
      fun ho => (by cases ho), fun _ => hcount.trans hzero, fun ho => (by cases ho),
      fun _ => ⟨going, idle, by show s.sentinels ≤ _; omega⟩⟩
  | @closeLast f' q head isOpen idle =>
    obtain ⟨hs, hr⟩ := h.sentinel_idle head
    have hone := h.pending isOpen hs hr
    have hsent := h.sentinels isOpen
    have hnodup := h.nodup
    have hissued := h.issued
    rw [head] at hone hnodup hissued
    rw [List.countP_cons_of_pos rfl] at hone
    have hzero : q.countP Ticket.isSentinel = 0 := by omega
    refine ⟨new, fin, h.started, h.ended, hnodup, hissued, h.once, h.running, h.mem,
      fun ho => (by cases ho), fun _ => hzero, fun ho => (by cases ho), fun _ => ⟨rfl, idle, ?_⟩⟩
    have := h.pending isOpen hs hr
    show s.sentinels ≤ _
    omega
  | early head isOpen going busy => exact absurd (h.sentinel_idle head).2 busy
  | late head isOpen stopping busy => exact absurd (h.sentinel_idle head).2 busy
  | @finish x mem more =>
    obtain ⟨hended, honce, hfin, hbusy⟩ := h.end_job mem
    have hzero : s.queue.countP Ticket.isSentinel = 0 := h.clean fun hc => hbusy hc.2.2
    exact ⟨new, fin ++ [x], h.started, hended, h.nodup, h.issued, honce, hfin,
      fun y hy => h.mem y hy.1, fun _ hs hr => absurd ⟨hs, hr⟩ more, fun _ => hzero, h.sentinels,
      fun hc => absurd (h.closed hc).2.1 hbusy⟩
  | @finishLast x mem stopping idle =>
    obtain ⟨hended, honce, hfin, hbusy⟩ := h.end_job mem
    have hzero : s.queue.countP Ticket.isSentinel = 0 := h.clean fun hc => hbusy hc.2.2
    have hcount : (s.queue ++ [Ticket.sentinel]).countP Ticket.isSentinel = 1 := by
      rw [List.countP_append, hzero]
      rfl
    have hopen : s.isOpen = true := by
      cases ho : s.isOpen with
      | true => rfl
      | false => exact absurd (h.closed ho).2.1 hbusy
    have hjobs : jobs (s.queue ++ [Ticket.sentinel]) = jobs s.queue := by
      simp [jobs, Ticket.job?]
    have hsent := h.sentinels hopen
    refine ⟨new, fin ++ [x], h.started, hended, ?_, ?_, honce, hfin, fun y hy => h.mem y hy.1,
      fun _ _ _ => hcount, fun hc => absurd ⟨hopen, stopping, idle⟩ hc, fun _ => ?_,
      fun hc => absurd (hc.symm.trans hopen) (by simp)⟩
    · simp only [hjobs]
      exact h.nodup
    · simp only [hjobs]
      exact h.issued
    · show s.sentinels + 1 = s₀.sentinels + (s.queue ++ [Ticket.sentinel]).countP Ticket.isSentinel
      omega

/-- What holds of every state after the opening. -/
theorem Session.moves (hm : Moves s t) (h : Session s₀ s new fin) :
    ∃ new' fin', Session s₀ t new' fin' := by
  induction hm with
  | refl => exact ⟨new, fin, h⟩
  | tail _ hstep ih =>
    obtain ⟨new', fin', h'⟩ := ih
    exact h'.move hstep

/-- The service closes only while nothing runs. -/
theorem Move.closes (hm : Move s t) (ho : s.isOpen = true) (hc : t.isOpen = false) :
    s.running = ∅ ∧ t.running = ∅ ∧ t.stopping = false ∧ t.started = s.started := by
  cases hm with
  | close head isOpen going idle => exact ⟨idle, idle, going, rfl⟩
  | closeLast head isOpen idle => exact ⟨idle, idle, rfl, rfl⟩
  | _ => exact absurd (ho.symm.trans hc) (by simp)

/-- What a stop that has begun leaves possible. -/
structure Winding (s t : Service η φ) : Prop where
  started : t.started = s.started
  running : t.running ⊆ s.running
  flag : t.stopping = true → t.flag = s.flag
  ended : t.stopping = false → t.isOpen = false

theorem Winding.refl (hs : s.stopping = true) : Winding s s :=
  ⟨rfl, subset_rfl, fun _ => rfl, fun hf => absurd (hf.symm.trans hs) (by simp)⟩

/-- Once stopping, no job is started and no other stop is heard, until the service closes. -/
theorem Winding.move {u : Service η φ} (h : Winding s t) (hm : Move t u) : Winding s u := by
  have hgoing : t.isOpen = true → t.stopping = false → False := fun ho hs => by
    have := h.ended hs
    rw [ho] at this
    cases this
  cases hm with
  | send => exact ⟨h.started, h.running, h.flag, h.ended⟩
  | start head isOpen going => exact (hgoing isOpen going).elim
  | refuse => exact ⟨h.started, h.running, h.flag, h.ended⟩
  | stop head isOpen going => exact (hgoing isOpen going).elim
  | ignore => exact ⟨h.started, h.running, h.flag, h.ended⟩
  | close head isOpen going => exact (hgoing isOpen going).elim
  | closeLast => exact ⟨h.started, h.running, fun hs => (by cases hs), fun _ => rfl⟩
  | early head isOpen going => exact (hgoing isOpen going).elim
  | late => exact ⟨h.started, h.running, h.flag, h.ended⟩
  | finish => exact ⟨h.started, fun _ hx => h.running hx.1, h.flag, h.ended⟩
  | finishLast => exact ⟨h.started, fun _ hx => h.running hx.1, h.flag, h.ended⟩

theorem Winding.moves {u : Service η φ} (hm : Moves t u) (h : Winding s t) : Winding s u := by
  induction hm with
  | refl => exact h
  | tail _ hstep ih => exact ih.move hstep

/-- A closed service stays as it is, but for jobs that end and tickets that come. -/
theorem Move.still (hm : Move s t) (hc : s.isOpen = false) :
    t.isOpen = false ∧ t.stopping = s.stopping ∧ t.flag = s.flag ∧ t.running ⊆ s.running := by
  have hopen : s.isOpen = true → False := fun ho => absurd (hc.symm.trans ho) (by decide)
  cases hm with
  | send real fresh => exact ⟨hc, rfl, rfl, subset_rfl⟩
  | finish mem more => exact ⟨hc, rfl, rfl, fun _ hx => hx.1⟩
  | finishLast mem stopping idle => exact ⟨hc, rfl, rfl, fun _ hx => hx.1⟩
  | start head isOpen | refuse head isOpen | stop head isOpen | ignore head isOpen
  | close head isOpen | closeLast head isOpen | early head isOpen | late head isOpen =>
    exact (hopen isOpen).elim

theorem Moves.still (hm : Moves s t) (hc : s.isOpen = false) :
    t.isOpen = false ∧ t.stopping = s.stopping ∧ t.flag = s.flag ∧ t.running ⊆ s.running := by
  induction hm with
  | refl => exact ⟨hc, rfl, rfl, subset_rfl⟩
  | tail _ hm ih =>
    obtain ⟨hopen, hstopping, hflag, hrun⟩ := hm.still ih.1
    exact ⟨hopen, hstopping.trans ih.2.1, hflag.trans ih.2.2.1, hrun.trans ih.2.2.2⟩

/-- Every job that was started runs, or has ended. -/
def Service.Tracked (s : Service η φ) : Prop := ∀ h ∈ s.started, h ∈ s.running ∨ h ∈ s.ended

theorem Move.tracked (hm : Move s t) (hs : s.Tracked) : t.Tracked := by
  cases hm with
  | @start x =>
    intro h hh
    rcases List.mem_append.mp hh with hh | hh
    · exact (hs h hh).imp_left (Set.mem_insert_of_mem x)
    · exact .inl (.inl (List.mem_singleton.mp hh))
  | @finish x | @finishLast x =>
    intro h hh
    by_cases hx : h = x
    · exact .inr (List.mem_append_right _ (List.mem_singleton.mpr hx))
    · exact (hs h hh).imp (fun hr => ⟨hr, hx⟩) (List.mem_append_left _)
  | _ => exact hs

/-- A property that moves keep, and that does not depend on what the service does next. -/
structure Stable (P : Service η φ → Prop) : Prop where
  move : ∀ s t, Move s t → P s → P t
  face : ∀ (s : Service η φ) stopping flag isOpen, P s → P { s with stopping, flag, isOpen }

theorem Stable.moves {P : Service η φ → Prop} (hP : Stable P) (hm : Moves s t) (hs : P s) : P t := by
  induction hm with
  | refl => exact hs
  | tail _ hm ih => exact hP.move _ _ hm ih

theorem tracked_stable : Stable (Service.Tracked (η := η) (φ := φ)) where
  move _ _ hm hs := hm.tracked hs
  face _ _ _ _ hs := hs

/-- There was a ticket for the job, and it is gone. -/
def Service.Past (s : Service η φ) (h : η) : Prop := h ∈ s.issued ∧ h ∉ jobs s.queue

/-- And so is the job. -/
def Service.Spent (s : Service η φ) (h : η) : Prop := s.Past h ∧ h ∉ s.running

/-- No job has two tickets, and none is started again. -/
structure Service.Orderly (s : Service η φ) : Prop where
  nodup : (jobs s.queue).Nodup
  issued : ∀ h ∈ jobs s.queue, h ∈ s.issued
  running : ∀ h ∈ s.running, s.Past h
  ended : ∀ h ∈ s.ended, s.Spent h

theorem jobs_cons (x : Ticket η φ) (q : List (Ticket η φ)) : jobs (x :: q) = x.job?.toList ++ jobs q := by
  cases hx : x.job? <;> simp [jobs, hx]

theorem jobs_append (q q' : List (Ticket η φ)) : jobs (q ++ q') = jobs q ++ jobs q' := List.filterMap_append ..

theorem Move.past {h : η} (hm : Move s t) (hs : s.Past h) : t.Past h := by
  obtain ⟨hissued, hqueue⟩ := hs
  have htail : ∀ {x q}, s.queue = x :: q → h ∉ jobs q := by
    intro x q hq hh
    rw [hq, jobs_cons] at hqueue
    exact hqueue (List.mem_append_right _ hh)
  cases hm with
  | @send x real fresh =>
    refine ⟨.inl hissued, fun hh => ?_⟩
    rw [jobs_append, jobs_cons] at hh
    rcases List.mem_append.mp hh with hh | hh
    · exact hqueue hh
    · have hx : x.job? = some h := by simpa [jobs] using hh
      exact fresh h hx hissued
  | finish => exact ⟨hissued, hqueue⟩
  | finishLast =>
    refine ⟨hissued, ?_⟩
    simpa [jobs_append, jobs_cons, Ticket.job?, jobs] using hqueue
  | start head | refuse head | stop head | ignore head | close head | closeLast head | early head
  | late head => exact ⟨hissued, htail head⟩

theorem Move.spent {h : η} (hm : Move s t) (hs : s.Spent h) : t.Spent h := by
  refine ⟨hm.past hs.1, ?_⟩
  cases hm with
  | @start x q head =>
    rintro (rfl | hh)
    · exact hs.1.2 (by simp [head, jobs_cons, Ticket.job?])
    · exact hs.2 hh
  | finish | finishLast => exact fun hh => hs.2 hh.1
  | _ => exact hs.2

/-- A ticket is taken from the queue. -/
theorem Service.Orderly.taken {x : Ticket η φ} {q : List (Ticket η φ)} (hs : s.Orderly)
    (hq : s.queue = x :: q) : (jobs q).Nodup ∧ ∀ h ∈ jobs q, h ∈ jobs s.queue := by
  have hqueue := hq ▸ jobs_cons x q
  have hnodup := hs.nodup
  rw [hqueue] at hnodup ⊢
  exact ⟨hnodup.of_append_right, fun _ hh => List.mem_append_right _ hh⟩

theorem Move.orderly (hm : Move s t) (hs : s.Orderly) : t.Orderly := by
  have hspent : ∀ h ∈ s.ended, t.Spent h := fun h hh => hm.spent (hs.ended h hh)
  have hpast : ∀ h ∈ s.running, t.Past h := fun h hh => hm.past (hs.running h hh)
  cases hm with
  | @send x real fresh =>
    have hnew : ∀ h ∈ jobs [x], h ∉ s.issued ∧ x.job? = some h := by
      intro h hh
      have hx : x.job? = some h := by simpa [jobs] using hh
      exact ⟨fresh h hx, hx⟩
    refine ⟨?_, fun h hh => ?_, hpast, hspent⟩
    · rw [jobs_append]
      refine hs.nodup.append ?_ fun h hh hh' => (hnew h hh').1 (hs.issued h hh)
      cases hx : x.job? <;> simp [jobs, hx]
    · rw [jobs_append] at hh
      exact (List.mem_append.mp hh).imp (hs.issued h) fun hh => (hnew h hh).2
  | @start x q head =>
    obtain ⟨hnodup, hsub⟩ := hs.taken head
    have hx : x ∉ jobs q ∧ x ∈ jobs s.queue := by
      have hall := hs.nodup
      rw [head, jobs_cons] at hall
      exact ⟨(List.nodup_cons.mp hall).1, by simp [head, jobs_cons, Ticket.job?]⟩
    refine ⟨hnodup, fun h hh => hs.issued h (hsub h hh), ?_, hspent⟩
    rintro h (rfl | hh)
    · exact ⟨hs.issued h hx.2, hx.1⟩
    · exact hpast h hh
  | @finish x mem =>
    refine ⟨hs.nodup, hs.issued, fun h hh => hpast h hh.1, fun h hh => ?_⟩
    rcases List.mem_append.mp hh with hh | hh
    · exact hspent h hh
    · rw [List.mem_singleton.mp hh]
      exact ⟨hpast x mem, fun hr => hr.2 rfl⟩
  | @finishLast x mem =>
    have hqueue : jobs (s.queue ++ [.sentinel]) = jobs s.queue := by
      simp [Ticket.job?, jobs]
    refine ⟨hqueue ▸ hs.nodup, fun h hh => hs.issued h (hqueue ▸ hh), fun h hh => hpast h hh.1,
      fun h hh => ?_⟩
    rcases List.mem_append.mp hh with hh | hh
    · exact hspent h hh
    · rw [List.mem_singleton.mp hh]
      exact ⟨hpast x mem, fun hr => hr.2 rfl⟩
  | refuse head | stop head | ignore head | close head | closeLast head | early head | late head =>
    obtain ⟨hnodup, hsub⟩ := hs.taken head
    exact ⟨hnodup, fun h hh => hs.issued h (hsub h hh), hpast, hspent⟩

theorem past_stable (h : η) : Stable fun s : Service η φ => s.Past h where
  move _ _ hm hs := hm.past hs
  face _ _ _ _ hs := hs

theorem spent_stable (h : η) : Stable fun s : Service η φ => s.Spent h where
  move _ _ hm hs := hm.spent hs
  face _ _ _ _ hs := hs

theorem orderly_stable : Stable (Service.Orderly (η := η) (φ := φ)) where
  move _ _ hm hs := hm.orderly hs
  face _ _ _ _ hs := ⟨hs.nodup, hs.issued, hs.running, hs.ended⟩

end GracefulStop
