import Pexec.Emissions
import Pexec.LaunchErrors

namespace Pexec

open Effect Runs

/-- No read that is still to come fails. -/
def Sys.ReadsWell (s : Sys) : Prop := ∀ fault ∈ s.readFaults, fault = none

/-- The next read gets all that is left in the pipe. -/
def Sys.Fits (s : Sys) (slot : Slot) : Prop :=
  ∀ pipe ∈ (s.array slot).pipe,
    (s.pipes pipe).unread.length ≤ s.toWorld.readLength pipe (bufferSize - 1)

/-- One read of each output pipe of the object gets all. -/
def Sys.OutputFits (s : Sys) (h : Nat) : Prop := s.Fits (.stdout h) ∧ s.Fits (.stderr h)

/-- The chunks of the events are all that the process of the object has written. -/
def Complete (h : Nat) (events : List Event) (s : Sys) : Prop :=
  outOf h events = (s.stream (.stdout h)).written ∧ errOf h events = (s.stream (.stderr h)).written

variable {h x : Nat} {pid : Int} {line : List Char} {s t u a b c d : Sys} {q : ProcStatus} {w : World}
  {slot : Slot}

theorem Sys.ReadsWell.head (hs : s.ReadsWell) : s.readFaults.head?.join = none := by
  cases hf : s.readFaults with
  | nil => rfl
  | cons fault faults =>
    obtain rfl : fault = none := hs fault (by rw [hf]; exact List.mem_cons_self)
    rfl

theorem Sys.ReadsWell.suffix (hs : s.ReadsWell) (ht : t.readFaults <:+ s.readFaults) : t.ReadsWell :=
  fun fault hm => hs fault (ht.mem hm)

theorem Sys.Fits.congr (ha : t.array slot = s.array slot) (hst : t.stream slot = s.stream slot)
    (hc : t.chunk = s.chunk) : t.Fits slot ↔ s.Fits slot := by
  unfold Sys.Fits
  rw [ha]
  refine forall₂_congr fun pipe hp => ?_
  have hsame : t.pipes pipe = s.pipes pipe := by
    have ht := World.stream_of_pipe (w := t.toWorld) (ha ▸ hp)
    have hs := World.stream_of_pipe (w := s.toWorld) hp
    exact ht.symm.trans (hst.trans hs)
  simp only [World.readLength, hsame, hc]

/-- The drain of an open pipe reads once. -/
theorem readStdRest_drains (cb : List UInt8 → Event) (hs : s.Owns) (hopen : (s.array slot).rd ≠ -1)
    (hreads : s.ReadsWell) (e : Error) (fuel : Nat) :
    ∃ t, readStdRest (s.array slot).rd h cb e (fuel + 1) s = .ok () t ∧
      ((t.stream slot).unread = [] ↔ s.Fits slot) ∧
      ∀ other, other ≠ slot → t.stream other = s.stream other := by
  obtain ⟨pipe, hpipe, hrd, hwr⟩ := (hs.ends slot).opened hopen
  have hfits : s.Fits slot ↔
      (s.pipes pipe).unread.length ≤ s.toWorld.readLength pipe (bufferSize - 1) := by
    simp [Sys.Fits, hpipe]
  have hothers : ∀ other, other ≠ slot →
      (s.toWorld.read (s.array slot).rd (bufferSize - 1)).2.stream (s.array other) = s.stream other :=
    fun other hne => (Owned.reads hs (World.read_answer ..)).stream_ne hs hne
  have hread := World.read_of_open (bufferSize - 1) hrd hwr
  rw [hreads.head] at hread
  dsimp only at hread
  unfold readStdRest
  rw [bind_of_ok (call_apply ..), hfits]
  rw [hread] at hothers ⊢
  by_cases hu : (s.pipes pipe).unread = []
  · rw [if_pos hu] at hothers ⊢
    dsimp only
    rw [if_neg (by decide)]
    refine ⟨_, rfl, iff_of_true ?_ (by simp [hu]), hothers⟩
    exact (congrArg ByteStream.unread (World.stream_of_pipe hpipe)).trans hu
  · rw [if_neg hu] at hothers ⊢
    have hpos := World.readLength_pos (w := s.toWorld) (show 0 < bufferSize - 1 by decide) hu
    have hlen := List.length_pos_iff.mpr hu
    obtain ⟨b, bs, hdata⟩ : ∃ b bs,
        (s.pipes pipe).unread.take (s.toWorld.readLength pipe (bufferSize - 1)) = b :: bs := by
      refine List.exists_cons_of_ne_nil fun hnil => ?_
      have := congrArg List.length hnil
      rw [List.length_take, List.length_nil] at this
      omega
    dsimp only
    rw [hdata]
    refine ⟨_, rfl, ?_, hothers⟩
    have hstream : Sys.stream { s with toWorld := World.emit { s.toWorld with
        readFaults := s.readFaults.tail
        pipes := Function.update s.pipes pipe
          ((s.pipes pipe).drop (s.toWorld.readLength pipe (bufferSize - 1))) } (cb (b :: bs)) } slot =
        (s.pipes pipe).drop (s.toWorld.readLength pipe (bufferSize - 1)) := by
      refine (World.stream_of_pipe hpipe).trans ?_
      simp [World.emit]
    rw [hstream, ByteStream.drop_unread, List.drop_eq_nil_iff]

/-- The output pipes of the object are open. -/
def Sys.OutputOpen (s : Sys) (h : Nat) : Prop :=
  (s.array (.stdout h)).rd ≠ -1 ∧ (s.array (.stderr h)).rd ≠ -1

/-- Nothing is left in the output pipes of the object. -/
def Sys.OutputRead (s : Sys) (h : Nat) : Prop :=
  (s.stream (.stdout h)).unread = [] ∧ (s.stream (.stderr h)).unread = []

theorem loopRestIo_drains (hs : s.Owns) (hopen : s.OutputOpen h) (hreads : s.ReadsWell) :
    ∃ t, loopRestIo h s = .ok () t ∧ (t.OutputRead h ↔ s.OutputFits h) := by
  obtain ⟨t, ht, hout, hothers⟩ := readStdRest_drains (h := h) (.out h) hs hopen.1 hreads
    .stdoutPipeReadRestError s.readFaults.length
  have hl : Local h s t := by
    have := readStdRest_local (h := h) .stdout .stdoutPipeReadRestError (s.readFaults.length + 1) s
      (s.array (.stdout h)).rd rfl
    rwa [ht] at this
  have hwell : t.ReadsWell :=
    have hdrain : ∀ data, (Event.out h data).IsDrain h := fun _ => rfl
    hreads.suffix ((readStdRest_emits hdrain _ _ _).ok ht).reads
  have hopen' : (t.array (.stderr h)).rd ≠ -1 := by rw [hl.array]; exact hopen.2
  obtain ⟨u, hu, herr, hothers'⟩ := readStdRest_drains (h := h) (.err h) (hl.carries hs).1 hopen'
    hwell .stderrPipeReadRestError t.readFaults.length
  refine ⟨u, ?_, ?_⟩
  · unfold loopRestIo
    exact (bind_of_ok (get_apply _)).trans ((bind_of_ok ht).trans ((bind_of_ok (get_apply _)).trans hu))
  · have hfits : t.Fits (.stderr h) ↔ s.Fits (.stderr h) :=
      Sys.Fits.congr (by rw [hl.array]) (hothers _ (by simp)) (hl.field (·.chunk) fun _ => rfl)
    unfold Sys.OutputRead Sys.OutputFits
    rw [hothers' _ (by simp), hout, herr, hfits]

/-- The output pipes of the object are left alone. -/
structure SameOutput (x : Nat) (s t : Sys) : Prop where
  owns : t.Owns
  chunk : t.chunk = s.chunk
  out : t.array (.stdout x) = s.array (.stdout x) ∧ t.stream (.stdout x) = s.stream (.stdout x)
  err : t.array (.stderr x) = s.array (.stderr x) ∧ t.stream (.stderr x) = s.stream (.stderr x)

/-- The same of a step from a state in which the arrays are in order. -/
def SparesOutput (x : Nat) (s t : Sys) : Prop := s.Owns → SameOutput x s t

theorem SameOutput.trans (hst : SameOutput x s t) (htu : SameOutput x t u) : SameOutput x s u where
  owns := htu.owns
  chunk := htu.chunk.trans hst.chunk
  out := ⟨htu.out.1.trans hst.out.1, htu.out.2.trans hst.out.2⟩
  err := ⟨htu.err.1.trans hst.err.1, htu.err.2.trans hst.err.2⟩

instance : IsPreorder Sys (SparesOutput x) where
  refl _ hs := ⟨hs, rfl, ⟨rfl, rfl⟩, rfl, rfl⟩
  trans _ _ _ hst htu hs := (hst hs).trans (htu (hst hs).owns)

theorem SameOutput.fits (hs : SameOutput x s t) : t.OutputFits x ↔ s.OutputFits x :=
  and_congr (Sys.Fits.congr hs.out.1 hs.out.2 hs.chunk) (Sys.Fits.congr hs.err.1 hs.err.2 hs.chunk)

theorem SameOutput.outputRead (hs : SameOutput x s t) : t.OutputRead x ↔ s.OutputRead x := by
  unfold Sys.OutputRead
  rw [hs.out.2, hs.err.2]

theorem SparesOutput.same (hf : t.fds = s.fds) (ha : t.array = s.array) (hp : t.pipes = s.pipes)
    (hc : t.chunk = s.chunk) : SparesOutput x s t := fun hs =>
  ⟨hs.congr hf ha, hc, ⟨by rw [ha], by rw [Sys.stream_congr hp ha]⟩, by rw [ha], by rw [Sys.stream_congr hp ha]⟩

/-- What is done about another object. -/
theorem Acts.sparesOutput (ha : Acts h s t) (hx : x ≠ h) : SparesOutput x s t := by
  intro hs
  have hproc : t.procs x = s.procs x := (Sys.off_objects ha.off hx).1
  have howner : ∀ slot : Slot, slot.owner = some x → slot.owner ≠ some h := fun slot ho => by simp [ho, hx]
  refine ⟨(ha.carries hs).1, ha.field (·.chunk) fun _ => rfl, ⟨?_, ?_⟩, ?_, ?_⟩
  · simp only [Sys.array, hproc]
  · exact ha.streams hs _ (howner _ rfl) (by simp) (by simp)
  · simp only [Sys.array, hproc]
  · exact ha.streams hs _ (howner _ rfl) (by simp) (by simp)

/-- A part of a callback that is about no object. -/
theorem sparesOutput_of_acts {α : Type} {y : Prog α} (hy : ∀ h, Moves (Acts h) y) : Moves (SparesOutput x) y :=
  (hy (x + 1)).mono fun _ _ ha => ha.sparesOutput (by omega)

theorem callState_sparesOutput (st : State) : Moves (SparesOutput x) (callState h st) := by
  have hemit : ∀ e, Moves (SparesOutput x) (emit e) := fun e => Moves.modify fun _ => .same rfl rfl rfl rfl
  refine Moves.bind Moves.get fun s => Moves.bind ?_ fun _ => ?_
  · exact Moves.bind Moves.get fun s => Moves.bind (hemit _) fun _ => hemit _
  · split
    next hd _ =>
      refine Moves.bind (Moves.modify fun _ => .same rfl rfl rfl rfl) fun _ =>
        Moves.ite (fun _ => ?_) fun _ => Moves.pure _
      cases hd.onProcStopped with
      | none => exact Moves.ite (fun _ => Moves.bind (hemit _) fun _ => Moves.pure _) fun _ => Moves.pure _
      | some pid =>
        have hstop : Moves (SparesOutput x) (onProcStopped h pid) :=
          sparesOutput_of_acts fun _ => onProcStopped_acts pid
        exact Moves.ite (fun _ => Moves.bind (hemit _) fun _ => hstop) fun _ => hstop
    next => exact Moves.pure _

theorem Event.IsNotice.silent {e : Event} (he : e.IsNotice h) : e.Silent := by
  cases e <;> first | exact fun _ => ⟨rfl, rfl⟩ | cases he

/-- STOPPED is told after the drain, and no output after it. -/
structure Stops (h : Nat) (s t : Sys) (told rest : List Event) (q : ProcStatus) : Prop where
  trace : t.trace = s.trace ++ told ++ .state h .stopped q :: rest
  first : ∀ q', .state h .stopped q' ∉ told
  silent : ∀ e ∈ rest, e.outData h = [] ∧ e.errData h = []
  fits : t.OutputRead h ↔ s.OutputFits h

theorem stopped_stops (hs : s.Owns) (hopen : s.OutputOpen h) (hreads : s.ReadsWell)
    (ht : stopped h s = .ok () t) : ∃ told rest q, Stops h s t told rest q := by
  obtain ⟨u, hu, hfits⟩ := loopRestIo_drains hs hopen hreads
  obtain ⟨drain, hdrain, hisdrain⟩ := (loopRestIo_emits.ok hu).events
  have ho : u.Owns := (loopRestIo_local.ok hu).carries hs |>.1
  unfold stopped at ht
  rw [bind_of_ok hu] at ht
  obtain ⟨⟨⟩, v, hv, ht⟩ := bind_eq_ok.mp ht
  obtain ⟨stdin, userStop, rest, htrace, hnotice⟩ := callState_calls ht
  have hvt := (callState_sparesOutput (x := h) _).ok ht ((closeForkPipes_acts.ok hv).carries ho).1
  have hvtrace : v.trace = u.trace := by
    obtain ⟨new, hnew, hnone⟩ := (closeForkPipes_emits (P := fun _ => False) |>.ok hv).events
    rw [hnew, List.eq_nil_iff_forall_not_mem.mpr fun e hm => hnone e hm, List.append_nil]
  refine ⟨drain ++ [.handed h stdin userStop], rest, (v.procs h).proc, ?_, fun q' hm => ?_,
    fun e hm => (hnotice e hm).silent h, ?_⟩
  · rw [htrace, hvtrace, hdrain]
    simp
  · rcases List.mem_append.mp hm with hm | hm
    · exact hisdrain _ hm
    · cases List.mem_singleton.mp hm
  · rw [hvt.outputRead, ← hfits]
    unfold closeForkPipes at hv
    cases hv
    unfold Sys.OutputRead
    rw [closeForkPipes_stream]

/-- The end of a process whose output pipes are open. -/
theorem updateStatus_stops (hs : s.Owns) (hopen : s.OutputOpen h) (hreads : s.ReadsWell)
    (htype : (s.procs h).type = .nonblocking) {status : WaitStatus} (hdead : Terminated status)
    (ht : updateStatus h status s = .ok () t) : ∃ told rest q, Stops h s t told rest q := by
  obtain ⟨u, hu, hreported⟩ := updateStatus_reports htype hdead
  obtain ⟨stdin, userStop, launch, htrace, hlaunch⟩ := hreported.trace
  have harray : u.array = s.array := hreported.inside.array
  have hstream : u.stream = s.stream := Sys.stream_congr hreported.pipes harray
  have hchunk : u.chunk = s.chunk := hreported.inside.field (·.chunk) fun _ => rfl
  have hopen' : u.OutputOpen h := by
    unfold Sys.OutputOpen
    rw [harray]
    exact hopen
  have hwell : u.ReadsWell := hreads.suffix (hreported.reads ▸ List.suffix_rfl)
  rw [hu] at ht
  obtain ⟨told, rest, q, hstops⟩ := stopped_stops (hreported.inside.carries hs).1 hopen' hwell ht
  refine ⟨[.handed h stdin userStop, .state h .signaled ((s.procs h).proc.updateStatus status)] ++ launch ++
    told, rest, q, ⟨?_, fun q' hm => ?_, hstops.silent, hstops.fits.trans ?_⟩⟩
  · simp only [hstops.trace, htrace, List.append_assoc]
  · rcases List.mem_append.mp hm with hm | hm
    · rcases List.mem_append.mp hm with hm | hm
      · simp at hm
      · obtain ⟨e, he⟩ := hlaunch _ hm
        cases he
    · exact hstops.first q' hm
  · exact and_congr (Sys.Fits.congr (by rw [harray]) (by rw [hstream]) hchunk)
      (Sys.Fits.congr (by rw [harray]) (by rw [hstream]) hchunk)

end Pexec
