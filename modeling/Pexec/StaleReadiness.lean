import Pexec.DispatchPass
import Pexec.Rerunning
import Pexec.BlockingRuns

namespace Pexec

open Effect Runs

variable {κ : Type} {ref : LoopRef κ} {callback : κ → Int → Prog EventReturn} {ready : List Int}
  {e e' : SelectEvent κ} {s t : Sys} {calls : List (Call κ)} {ret : Option EventReturn}
  {acts : Call κ → List (RegAct κ)}

/-- The registered numbers from the cursor on. -/
def SelectEvent.ahead (e : SelectEvent κ) : List Int :=
  match e.cursor with
  | none => []
  | some fd => (e.cbs.dropWhile fun p => p.1 ≠ fd).map Prod.fst

/-- Among the acts is a registration of `fd`. -/
def Adds (fd : Int) (acts : List (RegAct κ)) : Prop := ∃ order cb, .add order fd cb ∈ acts

/-- Every call is for a registration that was there and ready when the pass began, which nobody has
registered since and which has not been called. -/
def Timely (ref : LoopRef κ) (ready : List Int) (acts : Call κ → List (RegAct κ)) (s : Sys)
    (calls : List (Call κ)) : Prop :=
  ∀ before c after, calls = before ++ c :: after → (c.fd, c.cb) ∈ (ref.get s).cbs ∧ c.fd ∈ ready ∧
    ∀ c' ∈ before, c'.fd ≠ c.fd ∧ ¬Adds c.fd (acts c')

/-- After the call no ready number stands before the cursor that did not stand there already, or
that the callback has registered. -/
def Undisturbed (ref : LoopRef κ) (ready : List Int) (acts : Call κ → List (RegAct κ)) (c : Call κ) :
    Prop :=
  c.ret = .nothing → ∀ fd ∈ ready, fd ∈ (ref.get c.after).advance.ahead →
    fd ∈ (ref.get c.before).ahead.tail ∧ ¬Adds fd (acts c)

theorem RegAct.apply_nodup {act : RegAct κ} (he : act.apply e = some e') (hn : e.keys.Nodup) :
    e'.keys.Nodup := by
  cases act with
  | add order fd cb =>
    change e.addReadEvent order fd cb = some e' at he
    unfold SelectEvent.addReadEvent at he
    split at he
    · cases he
    next hfresh =>
      cases he
      have hperm : (arrange order (e.cbs ++ [(fd, cb)])).Perm (e.cbs ++ [(fd, cb)]) :=
        List.perm_insertionSort _ _
      refine ((hperm.map Prod.fst).nodup_iff).mpr ?_
      rw [List.map_append]
      exact List.nodup_append.mpr ⟨hn, List.nodup_singleton _, fun x hx y hy => by
        rw [List.mem_singleton.mp hy]
        rintro rfl
        exact hfresh hx⟩
  | remove fd => exact (removeReadEvent_keys he).symm ▸ hn.filter _

theorem applyActs_nodup {acts : List (RegAct κ)} (he : applyActs acts e = some e')
    (hn : e.keys.Nodup) : e'.keys.Nodup := by
  induction acts generalizing e with
  | nil =>
    cases he
    exact hn
  | cons act acts ih =>
    obtain ⟨e₁, h₁, he⟩ := Option.bind_eq_some_iff.mp he
    exact ih he (RegAct.apply_nodup h₁ hn)

/-- What nobody has registered was there before. -/
theorem mem_of_not_adds {acts : List (RegAct κ)} (he : applyActs acts e = some e') {p : Int × κ}
    (ha : ¬Adds p.1 acts) (hp : p ∈ e'.cbs) : p ∈ e.cbs := by
  induction acts generalizing e with
  | nil =>
    cases he
    exact hp
  | cons act acts ih =>
    obtain ⟨e₁, h₁, he⟩ := Option.bind_eq_some_iff.mp he
    have hrest : ¬Adds p.1 acts := fun ⟨order, cb, hm⟩ => ha ⟨order, cb, List.mem_cons_of_mem _ hm⟩
    have hp₁ := ih he hrest
    cases act with
    | add order fd cb =>
      change e.addReadEvent order fd cb = some e₁ at h₁
      unfold SelectEvent.addReadEvent at h₁
      split at h₁
      · cases h₁
      · cases h₁
        rcases List.mem_append.mp (SelectEvent.mem_arrange.mp hp₁) with hm | hm
        · exact hm
        · cases List.mem_singleton.mp hm
          exact absurd ⟨order, cb, List.mem_cons_self⟩ ha
    | remove fd =>
      change e.removeReadEvent fd = some e₁ at h₁
      unfold SelectEvent.removeReadEvent at h₁
      split at h₁
      · split at h₁
        · cases h₁
          exact (List.mem_filter.mp hp₁).1
        · cases h₁
          exact (List.mem_filter.mp hp₁).1
      · cases h₁

theorem dropWhile_append_key {behind rest : List (Int × κ)} {x : Int} {c : κ}
    (hx : x ∉ behind.map Prod.fst) :
    (behind ++ (x, c) :: rest).dropWhile (fun p => p.1 ≠ x) = (x, c) :: rest := by
  rw [List.dropWhile_append_of_pos, List.dropWhile_cons_of_neg (by simp)]
  intro y hy
  simpa using fun he : y.1 = x => hx (he ▸ List.mem_map_of_mem hy)

/-- The registrations around the one under the cursor. -/
theorem SelectEvent.current_split {p : Int × κ} (hn : e.keys.Nodup) (hc : e.current = some p) :
    ∃ behind rest, e.cbs = behind ++ p :: rest ∧ e.cursor = some p.1 ∧
      e.ahead = p.1 :: rest.map Prod.fst := by
  obtain ⟨fd, hcur, hfind⟩ := Option.bind_eq_some_iff.mp hc
  have hp : p.1 = fd := by simpa using List.find?_some hfind
  obtain ⟨behind, rest, hsplit⟩ := List.append_of_mem (List.mem_of_find?_eq_some hfind)
  refine ⟨behind, rest, hsplit, hp ▸ hcur, ?_⟩
  simp only [SelectEvent.ahead, hcur, hsplit, ← hp]
  obtain ⟨x, c⟩ := p
  rw [dropWhile_append_key (keys_append hsplit hn).1]
  rfl

/-- The loop's step takes the cursor at most one further. -/
theorem SelectEvent.ahead_advance {p : Int × κ} (hn : e.keys.Nodup) (hc : e.current = some p) :
    e.advance.ahead ⊆ e.ahead := by
  obtain ⟨behind, rest, hsplit, hcur, hahead⟩ := e.current_split hn hc
  unfold SelectEvent.advance
  split
  · exact List.Subset.refl _
  · obtain ⟨x, c⟩ := p
    obtain ⟨hb, hr⟩ := keys_append hsplit hn
    have hnext : nextKey x e.cbs = rest.head?.map Prod.fst := by
      rw [hsplit]
      exact nextKey_append hb
    rw [hahead]
    simp only [SelectEvent.ahead, hcur, Option.bind_some, hnext]
    cases rest with
    | nil => exact List.nil_subset _
    | cons y ys =>
      obtain ⟨z, d⟩ := y
      have hsplit' : e.cbs = (behind ++ [(x, c)]) ++ (z, d) :: ys := by
        rw [hsplit, List.append_assoc]
        rfl
      simp only [List.head?_cons, Option.map_some, hsplit',
        dropWhile_append_key (keys_append hsplit' hn).1]
      exact List.subset_cons_self _ _

/-- What a pass calls from `s` on stands before the cursor there. -/
theorem Pass.timely (hl : ref.Lawful) (hp : Pass ref callback ready s calls ret t)
    (hn : (ref.get s).keys.Nodup)
    (hacts : ∀ c ∈ calls, applyActs (acts c) (ref.get c.before) = some (ref.get c.after))
    (hund : ∀ c ∈ calls, Undisturbed ref ready acts c) : Timely ref ready acts s calls ∧
      ∀ c ∈ calls, c.fd ∈ (ref.get s).ahead := by
  have hnil : ∀ s, Timely ref ready acts s [] ∧ ∀ c ∈ ([] : List (Call κ)), c.fd ∈ (ref.get s).ahead :=
    fun s => ⟨fun before c after hsplit => by simp at hsplit, fun _ hc => absurd hc List.not_mem_nil⟩
  induction hp with
  | going => exact hnil _
  | finished _ => exact hnil _
  | @unready s t cb fd calls ret hcur hnot _ ih =>
    have hsame : (ref.get (ref.update SelectEvent.advance s)).cbs = (ref.get s).cbs := by
      rw [hl.update]
      unfold SelectEvent.advance
      split <;> rfl
    have hkeys : (ref.get (ref.update SelectEvent.advance s)).keys = (ref.get s).keys :=
      congrArg (List.map Prod.fst) hsame
    obtain ⟨htimely, hahead⟩ := ih (hkeys ▸ hn) hacts hund
    refine ⟨fun before c after hsplit => ?_, fun c hc => ?_⟩
    · rw [← hsame]
      exact htimely before c after hsplit
    · have := hahead c hc
      rw [hl.update] at this
      exact SelectEvent.ahead_advance hn hcur this
  | @ended s t cb fd ret hcur hready hcall hret =>
    obtain ⟨behind, rest, hsplit', _, hahead⟩ := SelectEvent.current_split hn hcur
    refine ⟨fun before c after hsplit => ?_, fun c hc => ?_⟩
    · cases before with
      | nil =>
        cases hsplit
        exact ⟨hsplit' ▸ List.mem_append.mpr (.inr List.mem_cons_self), hready,
          fun _ hc => absurd hc List.not_mem_nil⟩
      | cons b before => simp at hsplit
    · rw [List.mem_singleton.mp hc, hahead]
      exact List.mem_cons_self
  | @next s t u cb fd calls ret hcur hready hcall _ ih =>
    obtain ⟨behind, rest, hsplit', _, hahead⟩ := SelectEvent.current_split hn hcur
    have hact := hacts _ List.mem_cons_self
    have hsame : (ref.get (ref.update SelectEvent.advance u)).cbs = (ref.get u).cbs := by
      rw [hl.update]
      unfold SelectEvent.advance
      split <;> rfl
    have hkeys : (ref.get (ref.update SelectEvent.advance u)).keys = (ref.get u).keys :=
      congrArg (List.map Prod.fst) hsame
    obtain ⟨htimely, hlater⟩ := ih (hkeys ▸ applyActs_nodup hact hn)
      (fun c hc => hacts c (List.mem_cons_of_mem _ hc)) fun c hc => hund c (List.mem_cons_of_mem _ hc)
    -- a later call is for a number that stood behind this one, and that this one has not registered
    have hstill : ∀ c ∈ calls, c.fd ∈ ready → c.fd ∈ rest.map Prod.fst ∧
        ¬Adds c.fd (acts ⟨fd, cb, s, .nothing, u⟩) := by
      intro c hc hr
      have hadvanced := hlater c hc
      rw [hl.update] at hadvanced
      have := hund _ List.mem_cons_self rfl c.fd hr hadvanced
      rwa [hahead] at this
    have hfd : fd ∉ rest.map Prod.fst := (keys_append hsplit' hn).2
    refine ⟨fun before c after hsplit => ?_, fun c hc => ?_⟩
    · cases before with
      | nil =>
        cases hsplit
        exact ⟨hsplit' ▸ List.mem_append.mpr (.inr List.mem_cons_self), hready,
          fun _ hc => absurd hc List.not_mem_nil⟩
      | cons b before =>
        obtain ⟨hfirst, htail⟩ := List.cons.inj hsplit
        subst hfirst
        obtain ⟨hmem, hr, hbefore⟩ := htimely before c after htail
        obtain ⟨hrest, hnot⟩ := hstill c (htail ▸ List.mem_append.mpr (.inr List.mem_cons_self)) hr
        refine ⟨mem_of_not_adds hact hnot (hsame ▸ hmem), hr, fun c' hc' => ?_⟩
        rcases List.mem_cons.mp hc' with rfl | hc'
        · exact ⟨fun he : fd = c.fd => hfd (he ▸ hrest), hnot⟩
        · exact hbefore c' hc'
    · rw [hahead]
      rcases List.mem_cons.mp hc with rfl | hc
      · exact List.mem_cons_self
      · obtain ⟨before, after, hsplit⟩ := List.append_of_mem hc
        exact List.mem_cons_of_mem _ (hstill c hc (htimely before c after hsplit).2.1).1

/-- A pass of the loop whose calls never bring a ready number before the cursor calls only what was
registered and ready when it began, and that once. -/
theorem pass_timely (hl : ref.Lawful) (hn : (ref.get s).keys.Nodup)
    (hp : Pass ref callback ready (ref.update SelectEvent.begin s) calls ret t)
    (hacts : ∀ c ∈ calls, applyActs (acts c) (ref.get c.before) = some (ref.get c.after))
    (hund : ∀ c ∈ calls, Undisturbed ref ready acts c) : Timely ref ready acts s calls := by
  have hbegin : (ref.get (ref.update SelectEvent.begin s)).cbs = (ref.get s).cbs := by
    rw [hl.update]
    rfl
  have hkeys : (ref.get (ref.update SelectEvent.begin s)).keys = (ref.get s).keys :=
    congrArg (List.map Prod.fst) hbegin
  have htimely := (hp.timely hl (hkeys ▸ hn) hacts hund).1
  intro before c after hsplit
  rw [← hbegin]
  exact htimely before c after hsplit

/-- The loop of a DEFAULT run. -/
def multiRef : LoopRef LoopSource where
  get s := s.loop.getD {}
  set e s := { s with loop := some e }

theorem multiRef_lawful : multiRef.Lawful := fun _ _ => rfl

/-- The process has written and ended, and another one is to be spawned. -/
def staleMulti : Sys := spawnedMulti.after
  [.exec ['b'] false, .env (.childOut 0 [1]), .env (.exit 1 ⟨0, terminated_zero⟩), .env .sigchld]

theorem staleMulti_run : Run (Under PreviousFinished Step) freshMulti
    ([] ++ [.exec ['a'] false] ++ [.run .default {}] ++ [.event 0 {}] ++ [.exec ['b'] false] ++
      [.env (.childOut 0 [1])] ++ [.env (.exit 1 ⟨0, terminated_zero⟩)] ++ [.env .sigchld]) staleMulti :=
  .snoc (.snoc (.snoc (.snoc spawnedMulti_run ⟨trivial, step_after (by decide +kernel)⟩)
    ⟨trivial, trivial, rfl⟩) ⟨trivial, trivial, rfl⟩) ⟨trivial, trivial, rfl⟩

/-- The pass has called the SIGCHLD callback. -/
def reapedMulti : Sys := final (loopCallback .doAction 4)
  (multiRef.update SelectEvent.advance (multiRef.update SelectEvent.begin staleMulti))

/-- Then that of the control pipe. -/
def respawnedMulti : Sys := final (loopCallback .doAction 0)
  (multiRef.update SelectEvent.advance reapedMulti)

/-- Then that of descriptor 8, past the one of descriptor 12. -/
def brokenMulti : Sys := final (loopCallback .doAction 8)
  (multiRef.update SelectEvent.advance (multiRef.update SelectEvent.advance respawnedMulti))

/-- What the three callbacks do. -/
def respawning (c : Call LoopSource) : List (RegAct LoopSource) :=
  if c.fd = 0 then [.add [] 12 .doAction, .add [] 8 .doAction, .add [] 10 .doAction]
  else [.remove 12, .remove 8, .remove 10]

def respawningCalls : List (Call LoopSource) := [
  ⟨4, .doAction, multiRef.update SelectEvent.advance (multiRef.update SelectEvent.begin staleMulti),
    .nothing, reapedMulti⟩,
  ⟨0, .doAction, multiRef.update SelectEvent.advance reapedMulti, .nothing, respawnedMulti⟩,
  ⟨8, .doAction,
    multiRef.update SelectEvent.advance (multiRef.update SelectEvent.advance respawnedMulti),
    .nothing, brokenMulti⟩]

theorem respawning_pass : Pass multiRef loopCallback [4, 0, 8]
    (multiRef.update SelectEvent.begin staleMulti) respawningCalls (some .nothing)
    (multiRef.update SelectEvent.advance brokenMulti) :=
  .unready (show _ = some ((2 : Int), LoopSource.interrupt) by decide +kernel) (by decide)
    (.next (by decide +kernel) (by decide) (ok_answer (by decide +kernel))
      (.next (by decide +kernel) (by decide) (ok_answer (by decide +kernel))
        (.unready (show _ = some ((12 : Int), LoopSource.doAction) by decide +kernel) (by decide)
          (.next (by decide +kernel) (by decide) (ok_answer (by decide +kernel))
            (.finished (by decide +kernel))))))

/-- The pass spawns a process whose pipes have the numbers of those that it has closed before, and
calls one of them: there is nothing to read, and the watching of the process fails. -/
theorem stale_dispatch : newMulti (boot {}) = .ok () freshMulti ∧
    Run (Under PreviousFinished Step) freshMulti
      ([] ++ [.exec ['a'] false] ++ [.run .default {}] ++ [.event 0 {}] ++ [.exec ['b'] false] ++
        [.env (.childOut 0 [1])] ++ [.env (.exit 1 ⟨0, terminated_zero⟩)] ++ [.env .sigchld]) staleMulti ∧
    Pass multiRef loopCallback [4, 0, 8] (multiRef.update SelectEvent.begin staleMulti)
      respawningCalls (some .nothing) (multiRef.update SelectEvent.advance brokenMulti) ∧
    (∀ c ∈ respawningCalls,
      applyActs (respawning c) (multiRef.get c.before) = some (multiRef.get c.after)) ∧
    ¬Timely multiRef [4, 0, 8] respawning staleMulti respawningCalls ∧
    .error 1 .stdoutPipeReadError ∈ brokenMulti.trace ∧ statesOf 1 brokenMulti.trace = [.started, .failStopped] := by
  refine ⟨rfl, staleMulti_run, respawning_pass, ?_, fun ht => ?_, by decide +kernel, by decide +kernel⟩
  · decide +kernel
  · exact ((ht [_, _] _ [] rfl).2.2 _ (List.mem_cons_of_mem _ List.mem_cons_self)).2
      ⟨[], .doAction, List.mem_cons_of_mem _ List.mem_cons_self⟩

/-- A pass that only handles the end of the process. -/
theorem pass_timely_reaping : Timely multiRef [4] respawning staleMulti (respawningCalls.take 1) := by
  refine pass_timely multiRef_lawful
    (by decide +kernel) (t := multiRef.update SelectEvent.advance reapedMulti)
    (.unready (show _ = some ((2 : Int), LoopSource.interrupt) by decide +kernel) (by decide)
      (.next (by decide +kernel) (by decide) (ok_answer (by decide +kernel)) .going)) ?_ ?_
  · decide +kernel
  · intro c hc _ fd hfd hahead
    cases List.mem_singleton.mp hc
    cases List.mem_singleton.mp hfd
    exact absurd hahead (by decide +kernel)

end Pexec
