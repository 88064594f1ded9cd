import Pexec.SingleRules

namespace Pexec

open Effect

variable {κ : Type} {ref : LoopRef κ} {callback : κ → Int → Prog EventReturn} {onError : Prog Unit}

/-- The pass that goes on in the state `s` comes to call `cb` for `fd`, in the state `u`. -/
inductive PassCalls (ref : LoopRef κ) (callback : κ → Int → Prog EventReturn) (ready : List Int) :
    Sys → κ → Int → Sys → Prop
  | here {s cb fd} : (ref.get s).current = some (fd, cb) → fd ∈ ready →
      PassCalls ref callback ready s cb fd s
  | later {s t u cb cb' fd fd'} : (ref.get s).current = some (fd', cb') →
      callReady callback ready fd' cb' s = .ok .nothing t →
      PassCalls ref callback ready (ref.update SelectEvent.advance t) cb fd u →
      PassCalls ref callback ready s cb fd u

/-- What the loop watches when it has the given answers still to come. -/
def LoopRef.watched (ref : LoopRef κ) (answers : List SelectAnswer) (s : Sys) : List Int :=
  (ref.get { s with selects := answers }).keys

/-- The state in which a pass begins, after what others did while the loop waited. -/
def LoopRef.woken (ref : LoopRef κ) (answers : List SelectAnswer) (acts : List EnvAct) (s : Sys) : Sys :=
  ref.update SelectEvent.begin (acts.foldl (fun s act => act.apply s) { s with selects := answers })

/-- The loop comes to wait in the state `u`, with the answers `rest`. -/
inductive LoopWaits (ref : LoopRef κ) (callback : κ → Int → Prog EventReturn) :
    List SelectAnswer → Sys → List SelectAnswer → Sys → Prop
  | here {answers s} : ref.watched answers.tail s ≠ [] → LoopWaits ref callback answers s answers s
  | eintr {answers s rest u} : ref.watched answers s ≠ [] →
      LoopWaits ref callback answers { s with selects := answers } rest u →
      LoopWaits ref callback (.eintr :: answers) s rest u
  | pass {answers s t acts fds rest u} : ref.watched answers s ≠ [] →
      selectPass ref callback (fds.filter (· ∈ ref.watched answers s))
        ((ref.watched answers s).length + 1) (ref.woken answers acts s) = .ok false t →
      LoopWaits ref callback answers t rest u → LoopWaits ref callback (.ready acts fds :: answers) s rest u

/-- The loop comes to call `cb` for `fd`, in the state `u`. -/
def LoopCalls (ref : LoopRef κ) (callback : κ → Int → Prog EventReturn) (answers : List SelectAnswer)
    (s : Sys) (cb : κ) (fd : Int) (u : Sys) : Prop :=
  ∃ acts fds rest v, LoopWaits ref callback answers s (.ready acts fds :: rest) v ∧
    PassCalls ref callback (fds.filter (· ∈ ref.watched rest v)) (ref.woken rest acts v) cb fd u

/-- The loop comes to a `select` that fails, and reports it in the state `u`. -/
def LoopFails (ref : LoopRef κ) (callback : κ → Int → Prog EventReturn) (answers : List SelectAnswer)
    (s u : Sys) : Prop :=
  ∃ e rest v, LoopWaits ref callback answers s (.fail e :: rest) v ∧ u = { v with selects := rest }

variable {s t u v : Sys} {ready : List Int} {answers rest : List SelectAnswer} {cb : κ} {fd : Int}

theorem selectPass_later {fuel : Nat} {cb' : κ} {fd' : Int}
    (hcur : (ref.get s).current = some (fd', cb'))
    (hcall : callReady callback ready fd' cb' s = .ok .nothing t) :
    selectPass ref callback ready (fuel + 1) s =
      selectPass ref callback ready fuel (ref.update SelectEvent.advance t) := by
  conv_lhs => unfold selectPass
  rw [bind_of_ok (get_apply _)]
  simp only [hcur]
  exact (bind_of_ok hcall).trans rfl

/-- A call that ends the loop is the last one of its pass. -/
theorem PassCalls.last (hc : PassCalls ref callback ready s cb fd u)
    (hstop : callback cb fd u = .ok .stopLoop v) {fuel : Nat} {b : Bool}
    (ht : selectPass ref callback ready fuel s = .ok b t) : b = true ∧ t = v := by
  induction hc generalizing fuel with
  | @here s cb fd hcur hready =>
    cases fuel with
    | zero => cases ht
    | succ fuel =>
      have hpass : selectPass ref callback ready (fuel + 1) s = .ok true v := by
        unfold selectPass
        rw [bind_of_ok (get_apply _)]
        simp only [hcur]
        refine bind_of_ok (a := EventReturn.stopLoop) ?_
        rw [callReady, if_pos hready, hstop]
      cases hpass.symm.trans ht
      exact ⟨rfl, rfl⟩
  | later hcur hcall _ ih =>
    cases fuel with
    | zero => cases ht
    | succ fuel =>
      rw [selectPass_later hcur hcall] at ht
      exact ih hstop ht

/-- A pass that ends the loop does so with its last call. -/
theorem selectPass_stopped {fuel : Nat} (ht : selectPass ref callback ready fuel s = .ok true t) :
    ∃ cb fd u, PassCalls ref callback ready s cb fd u ∧ callback cb fd u = .ok .stopLoop t := by
  induction fuel generalizing s with
  | zero => cases ht
  | succ fuel ih =>
    have htail := ht
    unfold selectPass at ht
    rw [bind_of_ok (get_apply _)] at ht
    cases hcur : (ref.get s).current with
    | none =>
      simp only [hcur] at ht
      cases ht
    | some item =>
      obtain ⟨fd, cb⟩ := item
      simp only [hcur] at ht
      obtain ⟨ret, v, hcall, ht⟩ := bind_eq_ok.mp ht
      cases ret with
      | stopLoop =>
        cases ht
        by_cases hready : fd ∈ ready
        · rw [callReady, if_pos hready] at hcall
          exact ⟨cb, fd, s, .here hcur hready, hcall⟩
        · rw [callReady, if_neg hready] at hcall
          cases hcall
      | skipOtherFd => cases ht
      | nothing =>
        rw [selectPass_later hcur hcall] at htail
        obtain ⟨cb', fd', u, hcalls, hstop⟩ := ih htail
        exact ⟨cb', fd', u, .later hcur hcall hcalls, hstop⟩

theorem selectLoop_fail {e : Errno} (hw : ref.watched answers s ≠ []) :
    selectLoop ref callback onError (.fail e :: answers) s = onError { s with selects := answers } := by
  unfold selectLoop
  rw [bind_of_ok (modify_apply ..), bind_of_ok (get_apply _)]
  exact congrFun (if_neg hw) _

theorem selectLoop_eintr (hw : ref.watched answers s ≠ []) :
    selectLoop ref callback onError (.eintr :: answers) s =
      selectLoop ref callback onError answers { s with selects := answers } := by
  conv_lhs => unfold selectLoop
  rw [bind_of_ok (modify_apply ..), bind_of_ok (get_apply _)]
  exact congrFun (if_neg hw) _

theorem selectLoop_ready {acts : List EnvAct} {fds : List Int} (hw : ref.watched answers s ≠ []) :
    selectLoop ref callback onError (.ready acts fds :: answers) s =
      (do
        if ← selectPass ref callback (fds.filter (· ∈ ref.watched answers s))
            ((ref.watched answers s).length + 1) then pure ()
        else selectLoop ref callback onError answers : Prog Unit) (ref.woken answers acts s) := by
  conv_lhs => unfold selectLoop
  rw [bind_of_ok (modify_apply ..), bind_of_ok (get_apply _)]
  refine (congrFun (if_neg hw) _).trans ?_
  exact (bind_of_ok (modify_apply ..)).trans ((bind_of_ok (modify_apply ..)).trans rfl)

theorem selectLoop_watched {answer : SelectAnswer}
    (ht : selectLoop ref callback onError (answer :: answers) s = .ok () t) :
    ref.watched answers s ≠ [] := by
  intro hw
  unfold selectLoop at ht
  rw [bind_of_ok (modify_apply ..), bind_of_ok (get_apply _)] at ht
  cases (congrFun (if_pos hw) _).symm.trans ht

/-- A loop that waits once more goes on from there. -/
theorem LoopWaits.goes (hw : LoopWaits ref callback answers s rest u) :
    selectLoop ref callback onError answers s = selectLoop ref callback onError rest u := by
  induction hw with
  | here _ => rfl
  | eintr hne _ ih => exact (selectLoop_eintr hne).trans ih
  | pass hne hpass _ ih => exact (selectLoop_ready hne).trans ((bind_of_ok hpass).trans ih)

/-- A call that ends the loop is the last one. -/
theorem LoopCalls.last (hc : LoopCalls ref callback answers s cb fd u)
    (hstop : callback cb fd u = .ok .stopLoop v)
    (ht : selectLoop ref callback onError answers s = .ok () t) : t = v := by
  obtain ⟨acts, fds, rest, w, hwaits, hpass⟩ := hc
  rw [hwaits.goes] at ht
  rw [selectLoop_ready (selectLoop_watched ht)] at ht
  obtain ⟨b, x, hx, ht⟩ := bind_eq_ok.mp ht
  obtain ⟨rfl, rfl⟩ := hpass.last hstop hx
  cases ht
  rfl

/-- A loop that ends does so with its last call, or with a `select` that fails. -/
theorem selectLoop_stopped (ht : selectLoop ref callback onError answers s = .ok () t) :
    (∃ cb fd u, LoopCalls ref callback answers s cb fd u ∧ callback cb fd u = .ok .stopLoop t) ∨
      ∃ u, LoopFails ref callback answers s u ∧ onError u = .ok () t := by
  induction answers generalizing s with
  | nil => cases ht
  | cons answer answers ih =>
    have hw := selectLoop_watched ht
    cases answer with
    | eintr =>
      rw [selectLoop_eintr hw] at ht
      rcases ih ht with ⟨cb, fd, u, ⟨acts, fds, rest, v, hwaits, hpass⟩, hstop⟩ |
        ⟨u, ⟨e, rest, v, hwaits, hu⟩, he⟩
      · exact .inl ⟨cb, fd, u, ⟨acts, fds, rest, v, .eintr hw hwaits, hpass⟩, hstop⟩
      · exact .inr ⟨u, ⟨e, rest, v, .eintr hw hwaits, hu⟩, he⟩
    | fail e =>
      rw [selectLoop_fail hw] at ht
      exact .inr ⟨_, ⟨e, answers, s, .here hw, rfl⟩, ht⟩
    | ready acts fds =>
      rw [selectLoop_ready hw] at ht
      obtain ⟨b, x, hx, ht⟩ := bind_eq_ok.mp ht
      cases b with
      | true =>
        cases ht
        obtain ⟨cb, fd, u, hpass, hstop⟩ := selectPass_stopped hx
        exact .inl ⟨cb, fd, u, ⟨acts, fds, answers, s, .here hw, hpass⟩, hstop⟩
      | false =>
        rcases ih ht with ⟨cb, fd, u, ⟨acts', fds', rest, v, hwaits, hpass⟩, hstop⟩ |
          ⟨u, ⟨e, rest, v, hwaits, hu⟩, he⟩
        · exact .inl ⟨cb, fd, u, ⟨acts', fds', rest, v, .pass hw hx hwaits, hpass⟩, hstop⟩
        · exact .inr ⟨u, ⟨e, rest, v, .pass hw hx hwaits, hu⟩, he⟩

/-- After a `select` that fails the loop is left. -/
theorem LoopFails.last (hf : LoopFails ref callback answers s u)
    (ht : selectLoop ref callback onError answers s = .ok () t) : onError u = .ok () t := by
  obtain ⟨e, rest, v, hwaits, rfl⟩ := hf
  rw [hwaits.goes] at ht
  rwa [selectLoop_fail (selectLoop_watched ht)] at ht

section Check

variable {p : κ → Int → Sys → Bool}

/-- The check that `p` holds of every call of a pass. -/
def checkPass (ref : LoopRef κ) (callback : κ → Int → Prog EventReturn) (ready : List Int)
    (p : κ → Int → Sys → Bool) : Nat → Sys → Bool
  | 0, _ => false
  | fuel + 1, s => match (ref.get s).current with
    | none => true
    | some (fd, cb) => (decide (fd ∉ ready) || p cb fd s) && match callReady callback ready fd cb s with
      | .ok .nothing t => checkPass ref callback ready p fuel (ref.update SelectEvent.advance t)
      | _ => true

/-- The check that `p` holds of every call of a loop. -/
def checkLoop (ref : LoopRef κ) (callback : κ → Int → Prog EventReturn) (p : κ → Int → Sys → Bool) :
    List SelectAnswer → Sys → Bool
  | [], _ | .fail _ :: _, _ => true
  | .eintr :: answers, s => checkLoop ref callback p answers { s with selects := answers }
  | .ready acts fds :: answers, s =>
    checkPass ref callback (fds.filter (· ∈ ref.watched answers s)) p ((ref.watched answers s).length + 1)
      (ref.woken answers acts s) &&
      match selectPass ref callback (fds.filter (· ∈ ref.watched answers s))
        ((ref.watched answers s).length + 1) (ref.woken answers acts s) with
      | .ok false t => checkLoop ref callback p answers t
      | _ => true

theorem PassCalls.checked {fuel : Nat} (hc : PassCalls ref callback ready s cb fd u)
    (hp : checkPass ref callback ready p fuel s = true) : p cb fd u = true := by
  induction hc generalizing fuel with
  | here hcur hready =>
    cases fuel with
    | zero => cases hp
    | succ fuel =>
      simp only [checkPass, hcur, hready, not_true_eq_false, decide_false, Bool.false_or, Bool.and_eq_true] at hp
      exact hp.1
  | later hcur hcall _ ih =>
    cases fuel with
    | zero => cases hp
    | succ fuel =>
      simp only [checkPass, hcur, hcall, Bool.and_eq_true] at hp
      exact ih hp.2

theorem LoopCalls.checked (hc : LoopCalls ref callback answers s cb fd u)
    (hp : checkLoop ref callback p answers s = true) : p cb fd u = true := by
  obtain ⟨acts, fds, rest, v, hwaits, hpass⟩ := hc
  generalize hrest : SelectAnswer.ready acts fds :: rest = answers' at hwaits
  induction hwaits with
  | here _ =>
    subst hrest
    simp only [checkLoop, Bool.and_eq_true] at hp
    exact hpass.checked hp.1
  | eintr _ _ ih => exact ih hp hpass hrest
  | pass _ hdone _ ih =>
    simp only [checkLoop, hdone, Bool.and_eq_true] at hp
    exact ih hp.2 hpass hrest

end Check

section Invariant

variable {I J : Sys → Prop} {E : Halt → Sys → Prop}

/-- What a callback keeps that does not end the loop holds in the state of every call. -/
theorem PassCalls.invariant (hc : PassCalls ref callback ready s cb fd u)
    (hcall : ∀ cb fd, Triple I (callback cb fd)
      (fun ret t => (ret = .stopLoop → J t) ∧ (ret ≠ .stopLoop → I t)) E)
    (hadvance : ∀ s, I s → I (ref.update SelectEvent.advance s)) (hs : I s) : I u := by
  induction hc with
  | here _ _ => exact hs
  | @later s t _ _ cb' _ fd' hcur hready _ ih =>
    refine ih (hadvance _ ?_)
    by_cases hr : fd' ∈ ready
    · rw [callReady, if_pos hr] at hready
      exact ((hcall cb' fd').ok hs hready).2 (by decide)
    · rw [callReady, if_neg hr] at hready
      cases hready
      exact hs

theorem LoopWaits.invariant (hw : LoopWaits ref callback answers s rest u)
    (hcall : ∀ cb fd, Triple I (callback cb fd)
      (fun ret t => (ret = .stopLoop → J t) ∧ (ret ≠ .stopLoop → I t)) E)
    (hbegin : ∀ s, I s → I (ref.update SelectEvent.begin s))
    (hadvance : ∀ s, I s → I (ref.update SelectEvent.advance s))
    (hselects : ∀ answers s, I s → I { s with selects := answers })
    (hwait : ∀ s, I s → E .waiting s)
    (henv : ∀ acts fds, SelectAnswer.ready acts fds ∈ answers → ∀ act ∈ acts, ∀ s, I s →
      I (EnvAct.apply act s)) (hs : I s) : I u ∧ rest <:+ answers := by
  induction hw with
  | here _ => exact ⟨hs, List.suffix_rfl⟩
  | eintr _ _ ih =>
    obtain ⟨hu, hsuffix⟩ := ih (fun acts fds hm => henv acts fds (List.mem_cons_of_mem _ hm))
      (hselects _ _ hs)
    exact ⟨hu, hsuffix.trans (List.suffix_cons ..)⟩
  | pass _ hpass _ ih =>
    obtain ⟨hu, hsuffix⟩ := ih (fun acts fds hm => henv acts fds (List.mem_cons_of_mem _ hm))
      (((selectPass_triple (fun cb fd s hs => hcall cb fd s hs.1) hadvance hwait _ _).ok (hbegin _ (envActs_keep
        (henv _ _ List.mem_cons_self) (hselects _ _ hs))) hpass).2 rfl)
    exact ⟨hu, hsuffix.trans (List.suffix_cons ..)⟩

theorem LoopCalls.invariant (hc : LoopCalls ref callback answers s cb fd u)
    (hcall : ∀ cb fd, Triple I (callback cb fd)
      (fun ret t => (ret = .stopLoop → J t) ∧ (ret ≠ .stopLoop → I t)) E)
    (hbegin : ∀ s, I s → I (ref.update SelectEvent.begin s))
    (hadvance : ∀ s, I s → I (ref.update SelectEvent.advance s))
    (hselects : ∀ answers s, I s → I { s with selects := answers })
    (hwait : ∀ s, I s → E .waiting s)
    (henv : ∀ acts fds, SelectAnswer.ready acts fds ∈ answers → ∀ act ∈ acts, ∀ s, I s →
      I (EnvAct.apply act s)) (hs : I s) : I u := by
  obtain ⟨acts, fds, rest, v, hwaits, hpass⟩ := hc
  obtain ⟨hv, hsuffix⟩ := hwaits.invariant hcall hbegin hadvance hselects hwait henv hs
  refine hpass.invariant hcall hadvance (hbegin _ (envActs_keep (fun act ha => ?_) (hselects _ _ hv)))
  exact henv acts fds (hsuffix.mem List.mem_cons_self) act ha

theorem LoopFails.invariant (hf : LoopFails ref callback answers s u)
    (hcall : ∀ cb fd, Triple I (callback cb fd)
      (fun ret t => (ret = .stopLoop → J t) ∧ (ret ≠ .stopLoop → I t)) E)
    (hbegin : ∀ s, I s → I (ref.update SelectEvent.begin s))
    (hadvance : ∀ s, I s → I (ref.update SelectEvent.advance s))
    (hselects : ∀ answers s, I s → I { s with selects := answers })
    (hwait : ∀ s, I s → E .waiting s)
    (henv : ∀ acts fds, SelectAnswer.ready acts fds ∈ answers → ∀ act ∈ acts, ∀ s, I s →
      I (EnvAct.apply act s)) (hs : I s) : I u := by
  obtain ⟨e, rest, v, hwaits, rfl⟩ := hf
  exact hselects _ _ (hwaits.invariant hcall hbegin hadvance hselects hwait henv hs).1

end Invariant

end Pexec
