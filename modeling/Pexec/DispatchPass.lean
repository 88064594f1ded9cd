import Pexec.LoopCalls

namespace Pexec

open Effect

variable {κ : Type}

/-- What a callback can do to the registrations of its loop. -/
inductive RegAct (κ : Type)
  | add (order : List Int) (fd : Int) (cb : κ)
  | remove (fd : Int)

/-- `none` where an assertion fails. -/
def RegAct.apply : RegAct κ → SelectEvent κ → Option (SelectEvent κ)
  | .add order fd cb, e => e.addReadEvent order fd cb
  | .remove fd, e => e.removeReadEvent fd

def applyActs : List (RegAct κ) → SelectEvent κ → Option (SelectEvent κ)
  | [], e => some e
  | act :: acts, e => (act.apply e).bind (applyActs acts)

/-- A call of a pass, with the states around it. -/
structure Call (κ : Type) where
  fd : Int
  cb : κ
  before : Sys
  ret : EventReturn
  after : Sys

/-- The pass that goes on in `s` makes the calls and comes to `t`; it is over with a result, or
still going on. -/
inductive Pass (ref : LoopRef κ) (callback : κ → Int → Prog EventReturn) (ready : List Int) :
    Sys → List (Call κ) → Option EventReturn → Sys → Prop
  | going {s} : Pass ref callback ready s [] none s
  | finished {s} : (ref.get s).current = none → Pass ref callback ready s [] (some .nothing) s
  | unready {s t cb fd calls ret} : (ref.get s).current = some (fd, cb) → fd ∉ ready →
      Pass ref callback ready (ref.update SelectEvent.advance s) calls ret t →
      Pass ref callback ready s calls ret t
  | ended {s t cb fd ret} : (ref.get s).current = some (fd, cb) → fd ∈ ready →
      callback cb fd s = .ok ret t → ret ≠ .nothing →
      Pass ref callback ready s [⟨fd, cb, s, ret, t⟩] (some ret) t
  | next {s t u cb fd calls ret} : (ref.get s).current = some (fd, cb) → fd ∈ ready →
      callback cb fd s = .ok .nothing u →
      Pass ref callback ready (ref.update SelectEvent.advance u) calls ret t →
      Pass ref callback ready s (⟨fd, cb, s, .nothing, u⟩ :: calls) ret t

/-- What is stored is what is found there. -/
def LoopRef.Lawful (ref : LoopRef κ) : Prop := ∀ e s, ref.get (ref.set e s) = e

theorem LoopRef.Lawful.update {ref : LoopRef κ} (hl : ref.Lawful) (f : SelectEvent κ → SelectEvent κ)
    (s : Sys) : ref.get (ref.update f s) = f (ref.get s) := hl _ s

variable {e e' : SelectEvent κ} {p : Int × κ} {behind ahead rest : List (Int × κ)} {x : Int}

/-- The cursor stands before the registrations `ahead`. -/
structure Stands (e : SelectEvent κ) (behind ahead : List (Int × κ)) : Prop where
  cbs : e.cbs = behind ++ ahead
  cursor : e.cursor = ahead.head?.map Prod.fst
  flag : e.deleted = false
  nodup : e.keys.Nodup

/-- The callback of `p` is running: `p` is still there and under the cursor, or it is gone and the
cursor stands before `rest`. -/
structure Calling (e : SelectEvent κ) (p : Int × κ) (behind rest : List (Int × κ)) : Prop where
  nodup : e.keys.Nodup
  place : (e.deleted = false ∧ e.cbs = behind ++ p :: rest ∧ e.cursor = some p.1) ∨
    (e.deleted = true ∧ e.cbs = behind ++ rest ∧ e.cursor = rest.head?.map Prod.fst)

theorem nextKey_append {c : κ} (hx : x ∉ behind.map Prod.fst) :
    nextKey x (behind ++ (x, c) :: rest) = rest.head?.map Prod.fst := by
  induction behind with
  | nil => simp [nextKey]
  | cons b behind ih =>
    have hb : b.1 ≠ x := fun he => hx (he ▸ List.mem_cons_self)
    have htail : x ∉ behind.map Prod.fst := fun hm => hx (List.mem_cons_of_mem _ hm)
    simpa [nextKey, hb] using ih htail

theorem find?_append {c : κ} (hx : x ∉ behind.map Prod.fst) :
    (behind ++ (x, c) :: rest).find? (·.1 = x) = some (x, c) := by
  have hnone : behind.find? (·.1 = x) = none :=
    List.find?_eq_none.mpr fun y hy => by
      simpa using fun he : y.1 = x => hx (he ▸ List.mem_map_of_mem hy)
  rw [List.find?_append, hnone]
  simp

theorem keys_append (he : e.cbs = behind ++ p :: rest) (hn : e.keys.Nodup) :
    p.1 ∉ behind.map Prod.fst ∧ p.1 ∉ rest.map Prod.fst := by
  rw [SelectEvent.keys, he, List.map_append, List.map_cons] at hn
  have hparts := List.nodup_append.mp hn
  exact ⟨fun hm => hparts.2.2 _ hm _ List.mem_cons_self rfl, (List.nodup_cons.mp hparts.2.1).1⟩

theorem Stands.current (hs : Stands e behind (p :: rest)) : e.current = some p := by
  obtain ⟨fd, cb⟩ := p
  have hfresh := (keys_append hs.cbs hs.nodup).1
  rw [SelectEvent.current, hs.cursor, hs.cbs]
  exact find?_append hfresh

theorem Stands.current_nil (hs : Stands e behind []) : e.current = none := by
  rw [SelectEvent.current, hs.cursor]
  rfl

theorem Stands.calling (hs : Stands e behind (p :: rest)) : Calling e p behind rest :=
  ⟨hs.nodup, .inl ⟨hs.flag, hs.cbs, hs.cursor⟩⟩

theorem Calling.advance (hc : Calling e p behind rest) : ∃ behind', Stands e.advance behind' rest := by
  rcases hc.place with ⟨hflag, hcbs, hcursor⟩ | ⟨hflag, hcbs, hcursor⟩
  · have hfresh := (keys_append hcbs hc.nodup).1
    have hadvance : e.advance = { e with cursor := e.cursor.bind fun fd => nextKey fd e.cbs } := by
      rw [SelectEvent.advance, if_neg (by rw [hflag]; exact Bool.false_ne_true)]
    refine ⟨behind ++ [p], ?_, ?_, ?_, ?_⟩
    · rw [hadvance, List.append_assoc]
      exact hcbs
    · rw [hadvance]
      simp only [hcursor, Option.bind_some, hcbs]
      obtain ⟨fd, cb⟩ := p
      exact nextKey_append hfresh
    · rw [hadvance]
      exact hflag
    · rw [hadvance]
      exact hc.nodup
  · have hadvance : e.advance = { e with deleted := false } := by
      rw [SelectEvent.advance, if_pos hflag]
    refine ⟨behind, ?_, ?_, ?_, ?_⟩
    · rw [hadvance]
      exact hcbs
    · rw [hadvance]
      exact hcursor
    · rw [hadvance]
    · rw [hadvance]
      exact hc.nodup

theorem filter_keys_of_not_mem {l : List (Int × κ)} (hx : x ∉ l.map Prod.fst) :
    l.filter (fun y => y.1 ≠ x) = l :=
  List.filter_eq_self.mpr fun y hy => by
    simpa using fun he : y.1 = x => hx (he ▸ List.mem_map_of_mem hy)

theorem keys_filter (e : SelectEvent κ) (x : Int) :
    (e.cbs.filter fun y => y.1 ≠ x).map Prod.fst = e.keys.filter (· ≠ x) := by
  rw [SelectEvent.keys, List.filter_map]
  rfl

theorem removeReadEvent_keys (he : e.removeReadEvent x = some e') :
    e'.keys = e.keys.filter (· ≠ x) := by
  unfold SelectEvent.removeReadEvent at he
  split at he
  · split at he
    · cases he
      exact keys_filter e x
    · cases he
      exact keys_filter e x
  · cases he

theorem removes_keys {fds : List Int} (he : applyActs (fds.map .remove) e = some e') :
    e'.keys ⊆ e.keys := by
  induction fds generalizing e with
  | nil =>
    cases he
    exact List.Subset.refl _
  | cons x fds ih =>
    obtain ⟨e₁, h₁, he⟩ := Option.bind_eq_some_iff.mp he
    intro y hy
    have hmem := ih he hy
    rw [removeReadEvent_keys h₁] at hmem
    exact (List.mem_filter.mp hmem).1

/-- A removal takes the registration away wherever it stands, and moves the cursor on where it
stood before it. -/
theorem Calling.remove (hc : Calling e p behind rest) (he : e.removeReadEvent x = some e') :
    Calling e' p (behind.filter fun y => y.1 ≠ x) (rest.filter fun y => y.1 ≠ x) := by
  unfold SelectEvent.removeReadEvent at he
  split at he
  next hmem =>
    have hnodup : (e.keys.filter (· ≠ x)).Nodup := hc.nodup.filter _
    split at he
    next hcur =>
      cases he
      refine ⟨?_, .inr ⟨rfl, ?_, ?_⟩⟩
      · exact (congrArg List.Nodup (keys_filter e x)).mpr hnodup
      · rcases hc.place with ⟨_, hcbs, hcursor⟩ | ⟨_, hcbs, _⟩
        · have hx : p.1 = x := Option.some.inj (hcursor.symm.trans hcur)
          simp [hcbs, hx]
        · simp [hcbs]
      · rcases hc.place with ⟨_, hcbs, hcursor⟩ | ⟨_, hcbs, hcursor⟩
        · obtain ⟨fd, cb⟩ := p
          have hx : fd = x := Option.some.inj (hcursor.symm.trans hcur)
          subst hx
          obtain ⟨hb, hr⟩ := keys_append hcbs hc.nodup
          rw [filter_keys_of_not_mem hr, hcbs]
          exact nextKey_append hb
        · cases rest with
          | nil => simp [hcursor] at hcur
          | cons y ys =>
            obtain ⟨fd, cb⟩ := y
            have hx : fd = x := Option.some.inj (hcursor.symm.trans hcur)
            subst hx
            obtain ⟨hb, hr⟩ := keys_append hcbs hc.nodup
            rw [List.filter_cons_of_neg (by simp), filter_keys_of_not_mem hr, hcbs]
            exact nextKey_append hb
    next hcur =>
      cases he
      refine ⟨?_, ?_⟩
      · exact (congrArg List.Nodup (keys_filter e x)).mpr hnodup
      · rcases hc.place with ⟨hflag, hcbs, hcursor⟩ | ⟨hflag, hcbs, hcursor⟩
        · have hx : p.1 ≠ x := fun he => hcur (hcursor.trans (congrArg some he))
          exact .inl ⟨hflag, by simp [hcbs, hx], hcursor⟩
        · refine .inr ⟨hflag, by simp [hcbs], hcursor.trans ?_⟩
          cases rest with
          | nil => rfl
          | cons y ys =>
            have hx : y.1 ≠ x := fun he => hcur (hcursor.trans (congrArg some he))
            rw [List.filter_cons_of_pos (by simpa using hx)]
            rfl
  next => cases he

/-- After any removals: what was to come and was not removed is still to come. -/
theorem Calling.removes (hc : Calling e p behind rest) {fds : List Int}
    (he : applyActs (fds.map .remove) e = some e') : ∃ behind' rest', Calling e' p behind' rest' ∧
      rest'.Sublist rest ∧ ∀ y ∈ rest, y ∈ rest' ∨ y.1 ∉ e'.keys := by
  induction fds generalizing e behind rest with
  | nil =>
    cases he
    exact ⟨behind, rest, hc, List.Sublist.refl _, fun y hy => .inl hy⟩
  | cons x fds ih =>
    obtain ⟨e₁, h₁, he⟩ := Option.bind_eq_some_iff.mp he
    obtain ⟨behind', rest', hc', hsub, hkept⟩ := ih (hc.remove h₁) he
    refine ⟨behind', rest', hc', hsub.trans List.filter_sublist, fun y hy => ?_⟩
    by_cases hx : y.1 = x
    · refine .inr fun hm => ?_
      have hmem := removes_keys he hm
      rw [removeReadEvent_keys h₁] at hmem
      simp [hx] at hmem
    · exact hkept y (List.mem_filter.mpr ⟨hy, by simpa using hx⟩)

variable {ref : LoopRef κ} {callback : κ → Int → Prog EventReturn} {ready : List Int} {s t : Sys}
  {calls : List (Call κ)} {ret : Option EventReturn}

/-- The callbacks add no registration; they may remove any of them, in any order. -/
def OnlyRemoves (ref : LoopRef κ) (callback : κ → Int → Prog EventReturn) : Prop :=
  ∀ cb fd s ret t, callback cb fd s = .ok ret t →
    ∃ fds : List Int, applyActs (fds.map .remove) (ref.get s) = some (ref.get t)

/-- A registration has had its turn, or a call before it has removed it or ended the pass. -/
def HadTurn (ref : LoopRef κ) (keys : List Int) (calls : List (Call κ)) (fd : Int) : Prop :=
  fd ∈ calls.map Call.fd ∨ ∃ c ∈ calls, [c.fd, fd].Sublist keys ∧
    (fd ∉ (ref.get c.after).keys ∨ c.ret ≠ .nothing)

/-- What a pass does that begins with the cursor before `ahead`. -/
structure Orderly (ref : LoopRef κ) (ready : List Int) (ahead : List (Int × κ))
    (calls : List (Call κ)) (ret : Option EventReturn) (t : Sys) : Prop where
  once : (calls.map Call.fd).Sublist (ahead.map Prod.fst)
  registered : ∀ c ∈ calls, (c.fd, c.cb) ∈ (ref.get c.before).cbs ∧ c.fd ∈ ready
  all : ret ≠ none → ∀ p ∈ ahead, p.1 ∈ ready → HadTurn ref (ahead.map Prod.fst) calls p.1
  flag : ret = some .nothing → (ref.get t).deleted = false

theorem HadTurn.mono {keys keys' : List Int} {calls calls' : List (Call κ)} {fd : Int}
    (hh : HadTurn ref keys calls fd) (hk : keys.Sublist keys') (hc : calls ⊆ calls') :
    HadTurn ref keys' calls' fd := by
  rcases hh with hm | ⟨c, hm, hbefore, hwhy⟩
  · exact .inl (List.map_subset _ hc hm)
  · exact .inr ⟨c, hc hm, hbefore.trans hk, hwhy⟩

theorem Pass.orderly (hl : ref.Lawful) (hr : OnlyRemoves ref callback)
    (hp : Pass ref callback ready s calls ret t) {behind ahead : List (Int × κ)}
    (hs : Stands (ref.get s) behind ahead) : Orderly ref ready ahead calls ret t := by
  induction hp generalizing behind ahead with
  | going =>
    exact ⟨List.nil_sublist _, fun _ hc => absurd hc List.not_mem_nil, fun hn => absurd rfl hn,
      fun hn => (by cases hn)⟩
  | finished hcur =>
    cases ahead with
    | nil =>
      exact ⟨List.nil_sublist _, fun _ hc => absurd hc List.not_mem_nil,
        fun _ _ hm => absurd hm List.not_mem_nil, fun _ => hs.flag⟩
    | cons p ahead => cases hcur.symm.trans hs.current
  | @unready s t cb fd calls ret hcur hnot _ ih =>
    cases ahead with
    | nil => cases hcur.symm.trans hs.current_nil
    | cons p ahead =>
      cases hcur.symm.trans hs.current
      obtain ⟨behind', hs'⟩ := hs.calling.advance
      have hih := ih ((hl.update SelectEvent.advance s).symm ▸ hs')
      refine ⟨hih.once.cons _, hih.registered, fun hret q hq hready => ?_, hih.flag⟩
      rcases List.mem_cons.mp hq with rfl | hq
      · exact absurd hready hnot
      · exact (hih.all hret q hq hready).mono (List.sublist_cons_self _ _) (List.Subset.refl _)
  | @ended s t cb fd ret hcur hready hcall hret =>
    cases ahead with
    | nil => cases hcur.symm.trans hs.current_nil
    | cons p ahead =>
      cases hcur.symm.trans hs.current
      refine ⟨(List.nil_sublist _).cons_cons fd, fun c hc => ?_, fun _ q hq _ => ?_,
        fun hn => absurd (Option.some.inj hn) hret⟩
      · rw [List.mem_singleton.mp hc]
        exact ⟨hs.cbs ▸ List.mem_append.mpr (.inr List.mem_cons_self), hready⟩
      · rcases List.mem_cons.mp hq with rfl | hq
        · exact .inl List.mem_cons_self
        · refine .inr ⟨_, List.mem_singleton_self _, ?_, .inr hret⟩
          exact (List.singleton_sublist.mpr (List.mem_map_of_mem hq)).cons_cons fd
  | @next s t u cb fd calls ret hcur hready hcall _ ih =>
    cases ahead with
    | nil => cases hcur.symm.trans hs.current_nil
    | cons p ahead =>
      cases hcur.symm.trans hs.current
      obtain ⟨fds, hfds⟩ := hr cb fd s .nothing u hcall
      obtain ⟨behind', rest', hc, hsub, hkept⟩ := hs.calling.removes hfds
      obtain ⟨behind'', hs'⟩ := hc.advance
      have hih := ih ((hl.update SelectEvent.advance u).symm ▸ hs')
      have hkeys : (rest'.map Prod.fst).Sublist (ahead.map Prod.fst) := hsub.map _
      refine ⟨(hih.once.trans hkeys).cons_cons fd, fun c hc => ?_, fun hret q hq hq' => ?_, hih.flag⟩
      · rcases List.mem_cons.mp hc with rfl | hc
        · exact ⟨hs.cbs ▸ List.mem_append.mpr (.inr List.mem_cons_self), hready⟩
        · exact hih.registered c hc
      · rcases List.mem_cons.mp hq with rfl | hq
        · exact .inl List.mem_cons_self
        · rcases hkept q hq with hm | hgone
          · exact (hih.all hret q hm hq').mono (hkeys.trans (List.sublist_cons_self _ _))
              (List.subset_cons_self _ _)
          · refine .inr ⟨_, List.mem_cons_self, ?_, .inl hgone⟩
            exact (List.singleton_sublist.mpr (List.mem_map_of_mem hq)).cons_cons fd

/-- How `selectPass` answers for a pass; where it halts, a callback has. -/
def Answers (callback : κ → Int → Prog EventReturn) (t : Sys) :
    Option EventReturn → EStateM.Result Halt Sys Bool → Prop
  | some ret, .ok stop u => stop = (ret == .stopLoop) ∧ u = t
  | none, .error halt u => ∃ cb fd, callback cb fd t = .error halt u
  | _, _ => False

/-- There is fuel for all the calls. -/
theorem selectPass_pass (hl : ref.Lawful) (hr : OnlyRemoves ref callback) {fuel : Nat}
    {behind ahead : List (Int × κ)} (hs : Stands (ref.get s) behind ahead) (hf : ahead.length < fuel) :
    ∃ calls ret t, Pass ref callback ready s calls ret t ∧
      Answers callback t ret (selectPass ref callback ready fuel s) := by
  induction fuel generalizing s behind ahead with
  | zero => exact absurd hf (Nat.not_lt_zero _)
  | succ fuel ih =>
    cases ahead with
    | nil =>
      refine ⟨[], _, s, .finished hs.current_nil, ?_⟩
      have hrun : selectPass ref callback ready (fuel + 1) s = .ok false s := by
        unfold selectPass
        rw [bind_of_ok (get_apply _)]
        simp only [hs.current_nil]
        rfl
      rw [hrun]
      exact ⟨rfl, rfl⟩
    | cons p ahead =>
      obtain ⟨fd, cb⟩ := p
      have hlength : ahead.length < fuel := Nat.lt_of_succ_lt_succ hf
      have hcur := hs.current
      by_cases hready : fd ∈ ready
      · cases hcall : callback cb fd s with
        | error halt u =>
          refine ⟨[], none, s, .going, ?_⟩
          have hrun : selectPass ref callback ready (fuel + 1) s = .error halt u := by
            unfold selectPass
            rw [bind_of_ok (get_apply _)]
            simp only [hcur]
            refine bind_of_error ?_
            rw [callReady, if_pos hready, hcall]
          rw [hrun]
          exact ⟨cb, fd, hcall⟩
        | ok ret u =>
          cases ret with
          | nothing =>
            obtain ⟨fds, hfds⟩ := hr cb fd s .nothing u hcall
            obtain ⟨_, rest', hc, hsub, _⟩ := hs.calling.removes hfds
            obtain ⟨behind', hs'⟩ := hc.advance
            obtain ⟨calls, ret, t, hpass, hanswers⟩ := ih ((hl.update SelectEvent.advance u).symm ▸ hs')
              (Nat.lt_of_le_of_lt hsub.length_le hlength)
            refine ⟨_, ret, t, .next hcur hready hcall hpass, ?_⟩
            rwa [selectPass_later hcur (by rw [callReady, if_pos hready, hcall])]
          | stopLoop =>
            refine ⟨_, _, u, .ended hcur hready hcall (by decide), ?_⟩
            have hrun : selectPass ref callback ready (fuel + 1) s = .ok true u := by
              unfold selectPass
              rw [bind_of_ok (get_apply _)]
              simp only [hcur]
              refine bind_of_ok (a := EventReturn.stopLoop) ?_
              rw [callReady, if_pos hready, hcall]
            rw [hrun]
            exact ⟨rfl, rfl⟩
          | skipOtherFd =>
            refine ⟨_, _, u, .ended hcur hready hcall (by decide), ?_⟩
            have hrun : selectPass ref callback ready (fuel + 1) s = .ok false u := by
              unfold selectPass
              rw [bind_of_ok (get_apply _)]
              simp only [hcur]
              refine bind_of_ok (a := EventReturn.skipOtherFd) ?_
              rw [callReady, if_pos hready, hcall]
            rw [hrun]
            exact ⟨rfl, rfl⟩
      · obtain ⟨behind', hs'⟩ := hs.calling.advance
        obtain ⟨calls, ret, t, hpass, hanswers⟩ :=
          ih ((hl.update SelectEvent.advance s).symm ▸ hs') hlength
        refine ⟨calls, ret, t, .unready hcur hready hpass, ?_⟩
        rwa [selectPass_later hcur (by rw [callReady, if_neg hready]; rfl)]

theorem begin_stands (hl : ref.Lawful) (hn : (ref.get s).keys.Nodup) (hflag : (ref.get s).deleted = false) :
    Stands (ref.get (ref.update SelectEvent.begin s)) [] (ref.get s).cbs := by
  rw [hl.update]
  exact ⟨rfl, rfl, hflag, hn⟩

/-- A pass of the loop whose callbacks remove registrations and add none: it makes its calls, each
registration is called at most once, while it is registered and ready, each ready one has its turn,
and the flag is down at the end. -/
theorem pass_removal_safe (hl : ref.Lawful) (hr : OnlyRemoves ref callback)
    (hn : (ref.get s).keys.Nodup) (hflag : (ref.get s).deleted = false) :
    ∃ calls ret t, Pass ref callback ready (ref.update SelectEvent.begin s) calls ret t ∧
      Answers callback t ret (selectPass ref callback ready ((ref.get s).keys.length + 1)
        (ref.update SelectEvent.begin s)) ∧
      (calls.map Call.fd).Nodup ∧
      (∀ c ∈ calls, (c.fd, c.cb) ∈ (ref.get c.before).cbs ∧ c.fd ∈ ready) ∧
      (ret ≠ none → ∀ fd ∈ (ref.get s).keys, fd ∈ ready → HadTurn ref (ref.get s).keys calls fd) ∧
      (ret = some .nothing → (ref.get t).deleted = false) := by
  have hs := begin_stands hl hn hflag
  obtain ⟨calls, ret, t, hpass, hanswers⟩ : ∃ calls ret t,
      Pass ref callback ready (ref.update SelectEvent.begin s) calls ret t ∧
      Answers callback t ret (selectPass ref callback ready ((ref.get s).keys.length + 1)
        (ref.update SelectEvent.begin s)) :=
    selectPass_pass hl hr hs (by simp [SelectEvent.keys])
  have horderly := hpass.orderly hl hr hs
  refine ⟨calls, ret, t, hpass, hanswers, ?_, horderly.registered, fun hret fd hfd hready => ?_,
    horderly.flag⟩
  · exact horderly.once.nodup hn
  · obtain ⟨p, hp, rfl⟩ := List.mem_map.mp hfd
    exact horderly.all hret p hp hready

theorem ioRef_lawful : ioRef.Lawful := fun _ _ => rfl

/-- A callback that removes its own registration. -/
def removeOwn (_ : IoSource) (fd : Int) : Prog EventReturn := do
  match (← get).ioLoop.removeReadEvent fd with
  | some e =>
    modify fun s => { s with ioLoop := e }
    return .nothing
  | none => throw (.assertion .watched)

theorem removeOwn_removes : OnlyRemoves ioRef removeOwn := by
  intro cb fd s ret t hcall
  refine ⟨[fd], ?_⟩
  unfold removeOwn at hcall
  rw [bind_of_ok (get_apply _)] at hcall
  cases he : s.ioLoop.removeReadEvent fd with
  | some e =>
    simp only [he] at hcall
    cases hcall
    exact Option.bind_eq_some_iff.mpr ⟨e, he, rfl⟩
  | none =>
    simp only [he] at hcall
    cases hcall

/-- A process whose loop watches two descriptors. -/
def watchingTwo : Sys := { ioLoop := { cbs := [(3, .stdout), (5, .stderr)] } }

theorem pass_removal_safe_two : ∃ calls ret t,
    Pass ioRef removeOwn [3, 5] (ioRef.update SelectEvent.begin watchingTwo) calls ret t ∧
      Answers removeOwn t ret (selectPass ioRef removeOwn [3, 5] 3
        (ioRef.update SelectEvent.begin watchingTwo)) ∧
      (calls.map Call.fd).Nodup ∧
      (∀ c ∈ calls, (c.fd, c.cb) ∈ (ioRef.get c.before).cbs ∧ c.fd ∈ [3, 5]) ∧
      (ret ≠ none → ∀ fd ∈ [3, 5], fd ∈ [3, 5] → HadTurn ioRef [3, 5] calls fd) ∧
      (ret = some .nothing → (ioRef.get t).deleted = false) :=
  pass_removal_safe (s := watchingTwo) ioRef_lawful removeOwn_removes (by decide) rfl

end Pexec
