import Pexec.Lib.GracefulStop

namespace GracefulStop

variable {η φ : Type} {s₀ s t : Service η φ} {new fin new' fin' : List η} {q : List (Ticket η φ)}
  {st : List η}

/-- Only tickets that start a job. -/
def Starts (tickets : List (Ticket η φ)) : Prop := ∀ x ∈ tickets, ∃ h, x = .start h

/-- Where the session is that was opened with the queue `q`, `st` having been started before. -/
inductive Course (q : List (Ticket η φ)) (st : List η) (s : Service η φ) : Prop
  | going {taken} (isOpen : s.isOpen = true) (going : s.stopping = false) (queue : q = taken ++ s.queue)
      (starts : Starts taken) (started : s.started = st ++ jobs taken)
  | winding {taken f dropped left n} (isOpen : s.isOpen = true) (stopping : s.stopping = true)
      (split : q = taken ++ .stop f :: (dropped ++ left)) (starts : Starts taken) (busy : taken ≠ [])
      (queue : s.queue = left ++ List.replicate n .sentinel) (started : s.started = st ++ jobs taken)
  | left {taken f} (closed : s.isOpen = false) (split : q = taken ++ .stop f :: s.queue)
      (starts : Starts taken) (started : s.started = st ++ jobs taken)
  | drained {taken f dropped} (closed : s.isOpen = false) (split : q = taken ++ .stop f :: dropped)
      (starts : Starts taken) (busy : taken ≠ []) (queue : s.queue = [])
      (started : s.started = st ++ jobs taken)

/-- What a step does that sends no ticket: it takes one, or it adds sentinels at most. -/
inductive CourseStep (s t : Service η φ) : Prop
  | quiet (n : Nat) (queue : t.queue = s.queue ++ List.replicate n .sentinel)
      (started : t.started = s.started) (stopping : t.stopping = s.stopping)
      (isOpen : t.isOpen = s.isOpen)
  | take {x : Ticket η φ} (queue : s.queue = x :: t.queue) (move : Move s t)

theorem Opened.course (h : Opened s) : Course s.queue s.started s :=
  .going h.isOpen h.stopping rfl (show Starts [] from fun _ hx => nomatch hx) (List.append_nil _).symm

theorem countP_sentinels (n : Nat) :
    (List.replicate n (Ticket.sentinel : Ticket η φ)).countP Ticket.isSentinel = n := by
  simp [List.countP_replicate, Ticket.isSentinel]

/-- Sentinels are only added where one may be left. -/
theorem Session.no_sentinel (h : Session s₀ t new fin) {n : Nat} {x : List (Ticket η φ)}
    (hq : t.queue = x ++ List.replicate n .sentinel) (hc : t.isOpen = false ∨ t.stopping = false) :
    n = 0 := by
  have hcount := h.clean fun hn => by
    rcases hc with hc | hc
    · exact absurd (hc.symm.trans hn.1) (by decide)
    · exact absurd (hc.symm.trans hn.2.1) (by decide)
  rw [hq, List.countP_append, countP_sentinels] at hcount
  omega

/-- A job that runs was started from the tickets that are taken. -/
theorem Session.taken_ne_nil (h : Session s₀ s new fin) {taken : List (Ticket η φ)}
    (hst : s.started = s₀.started ++ jobs taken) (hbusy : s.running ≠ ∅) : taken ≠ [] := by
  obtain ⟨x, hx⟩ := Set.nonempty_iff_ne_empty.mpr hbusy
  have hnew : new = jobs taken := List.append_cancel_left (h.started.symm.trans hst)
  rintro rfl
  exact absurd (hnew ▸ h.mem x hx) (by simp [jobs])

theorem jobs_snoc (taken : List (Ticket η φ)) (x : Ticket η φ) :
    jobs (taken ++ [x]) = jobs taken ++ x.job?.toList := by
  cases hx : x.job? <;> simp [jobs, hx]

theorem Course.quiet (hc : Course q st s) (ht : Session s₀ t new' fin') {n : Nat}
    (hqueue : t.queue = s.queue ++ List.replicate n .sentinel) (hstarted : t.started = s.started)
    (hstopping : t.stopping = s.stopping) (hopen : t.isOpen = s.isOpen) : Course q st t := by
  cases hc with
  | going isOpen going queue starts started =>
    have hn := ht.no_sentinel hqueue (.inr (hstopping.trans going))
    subst hn
    have hsame : t.queue = s.queue := hqueue.trans (List.append_nil _)
    exact .going (hopen.trans isOpen) (hstopping.trans going) (hsame ▸ queue) starts
      (hstarted.trans started)
  | @winding taken f dropped left m isOpen stopping split starts busy queue started =>
    refine .winding (n := m + n) (hopen.trans isOpen) (hstopping.trans stopping) split starts busy ?_
      (hstarted.trans started)
    rw [hqueue, queue, List.append_assoc, List.replicate_append_replicate]
  | left closed split starts started =>
    have hn := ht.no_sentinel hqueue (.inl (hopen.trans closed))
    subst hn
    have hsame : t.queue = s.queue := hqueue.trans (List.append_nil _)
    exact .left (hopen.trans closed) (hsame ▸ split) starts (hstarted.trans started)
  | drained closed split starts busy queue started =>
    have hn := ht.no_sentinel hqueue (.inl (hopen.trans closed))
    subst hn
    have hsame : t.queue = s.queue := hqueue.trans (List.append_nil _)
    exact .drained (hopen.trans closed) split starts busy (hsame.trans queue) (hstarted.trans started)

/-- While tickets are taken in their order, the next one is a ticket of the first queue. -/
theorem Course.take_going {x : Ticket η φ} {taken : List (Ticket η φ)}
    (hq : q.countP Ticket.isSentinel = 0) (hsplit : q = taken ++ s.queue) (hx : s.queue = x :: t.queue) :
    x.isSentinel = false ∧ q = taken ++ x :: t.queue := by
  rw [hx] at hsplit
  refine ⟨?_, hsplit⟩
  have hmem : x ∈ q := by
    rw [hsplit]
    exact List.mem_append_right _ List.mem_cons_self
  simpa using List.countP_eq_zero.mp hq x hmem

/-- While the session winds down, the next ticket is one behind the stop, or a sentinel. -/
theorem Course.take_winding {x : Ticket η φ} {taken dropped left : List (Ticket η φ)} {f : φ} {n : Nat}
    (hq : q.countP Ticket.isSentinel = 0) (hsplit : q = taken ++ .stop f :: (dropped ++ left))
    (hqueue : s.queue = left ++ List.replicate n .sentinel) (hx : s.queue = x :: t.queue) :
    (x.isSentinel = false ∧ ∃ left', left = x :: left' ∧
      q = taken ++ .stop f :: ((dropped ++ [x]) ++ left') ∧
      t.queue = left' ++ List.replicate n .sentinel) ∨
      x = .sentinel ∧ left = [] ∧ ∃ m, n = m + 1 ∧ t.queue = List.replicate m .sentinel := by
  rw [hqueue] at hx
  cases left with
  | nil =>
    refine .inr ?_
    cases n with
    | zero => cases hx
    | succ m =>
      obtain ⟨hx, ht⟩ := List.cons.inj (List.replicate_succ.symm.trans hx)
      exact ⟨hx.symm, rfl, m, rfl, ht.symm⟩
  | cons y left =>
    obtain ⟨rfl, ht⟩ := List.cons.inj ((List.cons_append ..).symm.trans hx)
    refine .inl ⟨?_, left, rfl, by rw [hsplit, List.append_assoc]; rfl, ht.symm⟩
    have hmem : y ∈ q := by
      rw [hsplit]
      simp
    simpa using List.countP_eq_zero.mp hq y hmem

theorem Course.take {x : Ticket η φ} (hq : q.countP Ticket.isSentinel = 0) (hc : Course q st s)
    (hs : Session s₀ s new fin) (hst : s₀.started = st) (ht : Session s₀ t new' fin')
    (hx : s.queue = x :: t.queue) (hm : Move s t) : Course q st t := by
  have hlen : s.queue.length = t.queue.length + 1 := by rw [hx, List.length_cons]
  cases hc with
  | @going taken isOpen going queue starts started =>
    obtain ⟨hreal, hsplit⟩ := Course.take_going hq queue hx
    cases hm with
    | @start y rest head isOpen' _ =>
      obtain ⟨rfl, -⟩ := List.cons.inj (hx.symm.trans head)
      have hstarts : Starts (taken ++ [.start y]) := by
        intro z hz
        rcases List.mem_append.mp hz with hz | hz
        · exact starts z hz
        · exact ⟨_, List.mem_singleton.mp hz⟩
      refine .going isOpen' going ?_ hstarts ?_
      · rw [hsplit, List.append_assoc]
        rfl
      · rw [jobs_snoc, ← List.append_assoc, ← started]
        rfl
    | stop head isOpen' _ busy =>
      obtain ⟨rfl, -⟩ := List.cons.inj (hx.symm.trans head)
      have hbusy := hs.taken_ne_nil (hst ▸ started) busy
      exact .winding (n := 0) isOpen' rfl (show q = taken ++ _ :: ([] ++ _) from hsplit) starts hbusy
        (List.append_nil _).symm started
    | close head _ _ _ =>
      obtain ⟨rfl, -⟩ := List.cons.inj (hx.symm.trans head)
      exact .left rfl hsplit starts started
    | refuse _ _ stopping | ignore _ _ stopping => exact absurd (going.symm.trans stopping) (by decide)
    | closeLast head | early head | late head =>
      obtain ⟨rfl, -⟩ := List.cons.inj (hx.symm.trans head)
      exact absurd hreal (by simp [Ticket.isSentinel])
    | send | finish | finishLast => simp at hlen <;> omega
  | @winding taken f dropped left n isOpen stopping split starts busy queue started =>
    rcases Course.take_winding hq split queue hx with ⟨hreal, left', _, hsplit, hrest⟩ | ⟨hsent, _, m, _, hrest⟩
    · cases hm with
      | refuse head | ignore head =>
        exact .winding isOpen stopping hsplit starts busy hrest started
      | start _ _ going | stop _ _ going | close _ _ going =>
        exact absurd (going.symm.trans stopping) (by decide)
      | closeLast head | early head | late head =>
        obtain ⟨rfl, -⟩ := List.cons.inj (hx.symm.trans head)
        exact absurd hreal (by simp [Ticket.isSentinel])
      | send | finish | finishLast => simp at hlen <;> omega
    · cases hm with
      | closeLast head _ _ =>
        have hm := ht.no_sentinel (x := []) hrest (.inl rfl)
        subst hm
        exact .drained rfl split starts busy hrest started
      | late head _ _ running =>
        obtain ⟨rfl, -⟩ := List.cons.inj (hx.symm.trans head)
        exact absurd (hs.sentinel_idle head).2 running
      | early _ _ going | start _ _ going | stop _ _ going | close _ _ going =>
        exact absurd (going.symm.trans stopping) (by decide)
      | refuse head | ignore head =>
        obtain ⟨rfl, -⟩ := List.cons.inj (hx.symm.trans head)
        cases hsent
      | send | finish | finishLast => simp at hlen <;> omega
  | left closed =>
    cases hm with
    | start _ isOpen | refuse _ isOpen | stop _ isOpen | ignore _ isOpen | close _ isOpen
    | closeLast _ isOpen | early _ isOpen | late _ isOpen =>
      exact absurd (closed.symm.trans isOpen) (by decide)
    | send | finish | finishLast => simp at hlen <;> omega
  | drained closed _ _ _ queue =>
    rw [queue] at hx
    cases hx

theorem Course.step (hq : q.countP Ticket.isSentinel = 0) (hc : Course q st s)
    (hs : Session s₀ s new fin) (hst : s₀.started = st) (ht : Session s₀ t new' fin')
    (hstep : CourseStep s t) : Course q st t := by
  cases hstep with
  | quiet n queue started stopping isOpen => exact hc.quiet ht queue started stopping isOpen
  | take queue move => exact hc.take hq hs hst ht queue move

/-- The first stop ticket has nothing before it, or nothing behind it. -/
def StopAlone (q : List (Ticket η φ)) : Prop :=
  ∀ taken f rest, q = taken ++ .stop f :: rest → Starts taken → taken = [] ∨ rest = []

/-- There is one first stop ticket. -/
theorem first_stop_unique {taken taken' rest rest' : List (Ticket η φ)} {f f' : φ}
    (h : taken ++ .stop f :: rest = taken' ++ .stop f' :: rest') (hs : Starts taken)
    (hs' : Starts taken') : taken = taken' ∧ rest = rest' := by
  induction taken generalizing taken' with
  | nil =>
    cases taken' with
    | nil => exact ⟨rfl, (List.cons.inj h).2⟩
    | cons y taken' =>
      obtain ⟨x, hx⟩ := hs' y List.mem_cons_self
      cases hx ▸ (List.cons.inj h).1
  | cons y taken ih =>
    cases taken' with
    | nil =>
      obtain ⟨x, hx⟩ := hs y List.mem_cons_self
      cases hx ▸ (List.cons.inj h).1
    | cons y' taken' =>
      obtain ⟨rfl, htail⟩ := List.cons.inj h
      obtain ⟨rfl, hrest⟩ := ih htail (fun x hx => hs x (List.mem_cons_of_mem _ hx))
        fun x hx => hs' x (List.mem_cons_of_mem _ hx)
      exact ⟨rfl, hrest⟩

/-- What a closed session leaves: the jobs before the first stop are started, what is behind it is
left, or it was dropped because a job was running. -/
theorem Course.closed (hc : Course q st s) (hclosed : s.isOpen = false) : ∃ taken f rest,
    q = taken ++ .stop f :: rest ∧ Starts taken ∧ s.started = st ++ jobs taken ∧
      (s.queue = rest ∨ taken ≠ [] ∧ s.queue = []) := by
  cases hc with
  | going isOpen | winding isOpen => exact absurd (hclosed.symm.trans isOpen) (by decide)
  | left _ split starts started => exact ⟨_, _, _, split, starts, started, .inl rfl⟩
  | drained _ split starts busy queue started =>
    exact ⟨_, _, _, split, starts, started, .inr ⟨busy, queue⟩⟩

/-- Two sessions with one queue agree in what they start and leave. -/
theorem Course.agree (hq : StopAlone q) (hs : Course q st s) (ht : Course q st t)
    (hclosed : s.isOpen = false) (hclosed' : t.isOpen = false) :
    s.started = t.started ∧ s.queue = t.queue := by
  obtain ⟨taken, f, rest, hsplit, hstarts, hstarted, hqueue⟩ := hs.closed hclosed
  obtain ⟨taken', f', rest', hsplit', hstarts', hstarted', hqueue'⟩ := ht.closed hclosed'
  obtain ⟨rfl, rfl⟩ := first_stop_unique (hsplit.symm.trans hsplit') hstarts hstarts'
  refine ⟨hstarted.trans hstarted'.symm, ?_⟩
  rcases hq taken f rest hsplit hstarts with hnone | hlast
  · rcases hqueue with hqueue | ⟨hbusy, _⟩
    · rcases hqueue' with hqueue' | ⟨hbusy, _⟩
      · exact hqueue.trans hqueue'.symm
      · exact absurd hnone hbusy
    · exact absurd hnone hbusy
  · have hempty : ∀ {x : List (Ticket η φ)}, x = rest ∨ taken ≠ [] ∧ x = [] → x = [] :=
      fun hx => hx.elim (fun h => h.trans hlast) And.right
    exact (hempty hqueue).trans (hempty hqueue').symm

/-- Whenever two sessions with one queue are looked at, one has only started more than the other. -/
theorem Course.comparable (hs : Course q st s) (ht : Course q st t) :
    s.started <+: t.started ∨ t.started <+: s.started := by
  have hprefix : ∀ {s : Service η φ}, Course q st s →
      ∃ taken, taken <+: q ∧ s.started = st ++ jobs taken := by
    intro s hc
    cases hc with
    | going _ _ queue _ started => exact ⟨_, ⟨_, queue.symm⟩, started⟩
    | winding _ _ split _ _ _ started | left _ split _ started | drained _ split _ _ _ started =>
      exact ⟨_, ⟨_, split.symm⟩, started⟩
  obtain ⟨taken, hpre, hst⟩ := hprefix hs
  obtain ⟨taken', hpre', hst'⟩ := hprefix ht
  rw [hst, hst']
  rcases List.prefix_or_prefix_of_prefix hpre hpre' with hle | hle
  · exact .inl ((List.prefix_append_right_inj st).mpr (hle.filterMap _))
  · exact .inr ((List.prefix_append_right_inj st).mpr (hle.filterMap _))

/-- No job is dropped. -/
theorem Course.kept (hq : StopAlone q) (hc : Course q st s) {h : η} (hh : h ∈ jobs q) :
    h ∈ jobs s.queue ∨ h ∈ s.started := by
  have htaken : ∀ {taken : List (Ticket η φ)} {f rest}, q = taken ++ .stop f :: rest → rest = [] →
      s.started = st ++ jobs taken → h ∈ s.started := by
    intro taken f rest hsplit hrest hstarted
    rw [hsplit, hrest] at hh
    rw [hstarted]
    refine List.mem_append_right _ ?_
    simpa [jobs, Ticket.job?] using hh
  cases hc with
  | @going taken _ _ queue _ started =>
    rw [queue, jobs, List.filterMap_append] at hh
    rcases List.mem_append.mp hh with hh | hh
    · exact .inr (started ▸ List.mem_append_right _ hh)
    · exact .inl hh
  | winding _ _ split starts busy _ started =>
    exact .inr (htaken split ((hq _ _ _ split starts).resolve_left busy) started)
  | @left taken f _ split _ started =>
    rw [split, jobs, List.filterMap_append, List.filterMap_cons_none rfl] at hh
    rcases List.mem_append.mp hh with hh | hh
    · exact .inr (started ▸ List.mem_append_right _ hh)
    · exact .inl hh
  | drained _ split starts busy _ started =>
    exact .inr (htaken split ((hq _ _ _ split starts).resolve_left busy) started)

theorem Move.issued (hm : Move s t) : s.issued ⊆ t.issued := by
  cases hm with
  | send => exact Set.subset_union_left
  | _ => exact Set.Subset.rfl

theorem Moves.issued (hm : Moves s t) : s.issued ⊆ t.issued := by
  induction hm with
  | refl => exact Set.Subset.rfl
  | tail _ hm ih => exact ih.trans hm.issued

/-- Where no new job is issued, jobs only leave the queue, and what is started has left it. -/
structure Taken (s t : Service η φ) : Prop where
  taken : ∃ gone begun, jobs s.queue = gone ++ jobs t.queue ∧ t.started = s.started ++ begun ∧
    List.Sublist begun gone

theorem Taken.refl (s : Service η φ) : Taken s s :=
  ⟨[], [], rfl, (List.append_nil _).symm, List.Sublist.slnil⟩

theorem Taken.trans {u : Service η φ} (hs : Taken s t) (ht : Taken t u) : Taken s u := by
  obtain ⟨gone, begun, hq, hst, hsub⟩ := hs.taken
  obtain ⟨gone', begun', hq', hst', hsub'⟩ := ht.taken
  exact ⟨gone ++ gone', begun ++ begun', by rw [hq, hq', List.append_assoc],
    by rw [hst', hst, List.append_assoc], hsub.append hsub'⟩

theorem Taken.same (hq : jobs t.queue = jobs s.queue) (hst : t.started = s.started) : Taken s t :=
  ⟨[], [], hq.symm, hst.trans (List.append_nil _).symm, List.Sublist.slnil⟩

theorem Move.taken (hm : Move s t) (hissued : t.issued ⊆ s.issued) : Taken s t := by
  have hnone : ∀ {x : Ticket η φ} {q}, s.queue = x :: q → x.job? = none → jobs q = jobs s.queue := by
    intro x q hq hx
    rw [hq, jobs, jobs, List.filterMap_cons_none hx]
  cases hm with
  | @send x real fresh =>
    have hx : x.job? = none := by
      cases hj : x.job? with
      | none => rfl
      | some h => exact absurd (hissued (.inr hj)) (fresh h hj)
    exact .same (by rw [jobs_snoc, hx]; exact List.append_nil _) rfl
  | @start h q head => exact ⟨[h], [h], by rw [head]; rfl, rfl, List.Sublist.refl _⟩
  | @refuse h q head =>
    exact ⟨[h], [], by rw [head]; rfl, (List.append_nil _).symm, List.nil_sublist _⟩
  | stop head | ignore head | close head | closeLast head | early head | late head =>
    exact .same (hnone head rfl) rfl
  | finish => exact .same rfl rfl
  | finishLast => exact .same (by rw [jobs_snoc]; exact List.append_nil _) rfl

theorem Moves.taken (hm : Moves s t) (hissued : t.issued ⊆ s.issued) : Taken s t := by
  induction hm with
  | refl => exact .refl s
  | @tail u v hsu huv ih =>
    exact (ih (huv.issued.trans hissued)).trans (huv.taken (hissued.trans (Moves.issued hsu)))

/-- Nothing has left the queue, and nothing is started. -/
theorem Taken.idle (h : Taken s t) (hq : jobs t.queue = jobs s.queue) : t.started = s.started := by
  obtain ⟨gone, begun, hgone, hst, hsub⟩ := h.taken
  rw [hq] at hgone
  have hnil : gone = [] := List.append_left_eq_self.mp hgone.symm
  rw [hnil] at hsub
  rw [hst, List.sublist_nil.mp hsub, List.append_nil]

end GracefulStop
