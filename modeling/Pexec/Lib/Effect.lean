import Mathlib.Order.Defs.Unbundled

namespace Effect

variable {ε σ α β : Type}

@[simp] theorem pure_apply (a : α) (s : σ) : (pure a : EStateM ε σ α) s = .ok a s := rfl

@[simp] theorem get_apply (s : σ) : (get : EStateM ε σ σ) s = .ok s s := rfl

@[simp] theorem modify_apply (f : σ → σ) (s : σ) :
    (modify f : EStateM ε σ PUnit) s = .ok ⟨⟩ (f s) := rfl

@[simp] theorem throw_apply (e : ε) (s : σ) : (throw e : EStateM ε σ α) s = .error e s := rfl

theorem bind_apply (x : EStateM ε σ α) (f : α → EStateM ε σ β) (s : σ) :
    (x >>= f) s = match x s with
      | .ok a t => f a t
      | .error e t => .error e t := rfl

theorem bind_of_ok {x : EStateM ε σ α} {f : α → EStateM ε σ β} {s t : σ} {a : α}
    (h : x s = .ok a t) : (x >>= f) s = f a t := by
  rw [bind_apply, h]

theorem bind_of_error {x : EStateM ε σ α} {f : α → EStateM ε σ β} {s t : σ} {e : ε}
    (h : x s = .error e t) : (x >>= f) s = .error e t := by
  rw [bind_apply, h]

theorem bind_eq_ok {x : EStateM ε σ α} {f : α → EStateM ε σ β} {s u : σ} {b : β} :
    (x >>= f) s = .ok b u ↔ ∃ a t, x s = .ok a t ∧ f a t = .ok b u := by
  rw [bind_apply]
  cases h : x s with
  | ok a t =>
    constructor
    · exact fun hf => ⟨a, t, rfl, hf⟩
    · rintro ⟨a', t', he, hf⟩
      cases he
      exact hf
  | error e t => simp

/-- Past a guard both programs have succeeded. -/
theorem guard_eq_true {x y : EStateM ε σ Bool} {s u : σ}
    (h : (x >>= fun b => if (!b) = true then pure false else y) s = .ok true u) :
    ∃ t, x s = .ok true t ∧ y t = .ok true u := by
  obtain ⟨b, t, hx, h⟩ := bind_eq_ok.mp h
  cases b with
  | true => exact ⟨t, hx, h⟩
  | false => cases h

/-- The program has returned with `Q`, or stopped with `E`. -/
@[reducible] def Outcome (Q : α → σ → Prop) (E : ε → σ → Prop) : EStateM.Result ε σ α → Prop
  | .ok a t => Q a t
  | .error e t => E e t

/-- From a state with `P`, the program returns a value and a state with `Q`, or stops with `E`. -/
def Triple (P : σ → Prop) (x : EStateM ε σ α) (Q : α → σ → Prop) (E : ε → σ → Prop) : Prop :=
  ∀ s, P s → Outcome Q E (x s)

/-- The program keeps `I`, whether it returns or stops. -/
def Keeps (I : σ → Prop) (x : EStateM ε σ α) : Prop :=
  Triple I x (fun _ => I) (fun _ => I)

variable {P : σ → Prop} {Q : α → σ → Prop} {R : β → σ → Prop} {E : ε → σ → Prop}
  {x : EStateM ε σ α} {f : α → EStateM ε σ β}

theorem Outcome.imp {Q' : α → σ → Prop} {E' : ε → σ → Prop} {r : EStateM.Result ε σ α}
    (h : Outcome Q E r) (hq : ∀ a s, Q a s → Q' a s) (he : ∀ e s, E e s → E' e s) :
    Outcome Q' E' r := by
  cases r with
  | ok a t => exact hq a t h
  | error e t => exact he e t h

theorem Triple.ok (h : Triple P x Q E) {s t : σ} {a : α} (hs : P s) (hx : x s = .ok a t) : Q a t := by
  have := h s hs
  rwa [hx] at this

theorem Triple.error (h : Triple P x Q E) {s t : σ} {e : ε} (hs : P s) (hx : x s = .error e t) :
    E e t := by
  have := h s hs
  rwa [hx] at this

/-- A program that cannot stop returns. -/
theorem Triple.total (h : Triple P x Q fun _ _ => False) {s : σ} (hs : P s) :
    ∃ a t, x s = .ok a t ∧ Q a t := by
  cases hx : x s with
  | ok a t => exact ⟨a, t, rfl, h.ok hs hx⟩
  | error e t => exact (h.error hs hx).elim

theorem Triple.pure {a : α} (h : ∀ s, P s → Q a s) : Triple P (pure a) Q E := h

theorem Triple.modify {f : σ → σ} {Q : PUnit → σ → Prop} (h : ∀ s, P s → Q ⟨⟩ (f s)) :
    Triple P (modify f) Q E := h

theorem Triple.throw {e : ε} (h : ∀ s, P s → E e s) : Triple P (throw e) Q E := h

theorem Triple.bind (hx : Triple P x Q E) (hf : ∀ a, Triple (Q a) (f a) R E) :
    Triple P (x >>= f) R E := by
  intro s hs
  rw [bind_apply]
  cases h : x s with
  | ok a t => exact hf a t (hx.ok hs h)
  | error e t => exact hx.error hs h

theorem Triple.get_bind {f : σ → EStateM ε σ β} (h : ∀ s, P s → Triple (· = s) (f s) R E) :
    Triple P (get >>= f) R E := by
  intro s hs
  exact h s hs s rfl

theorem Triple.ite {c : Prop} [Decidable c] {y : EStateM ε σ α}
    (ht : c → Triple P x Q E) (he : ¬c → Triple P y Q E) : Triple P (if c then x else y) Q E := by
  split
  next h => exact ht h
  next h => exact he h

theorem Triple.conseq {P' : σ → Prop} {Q' : α → σ → Prop} {E' : ε → σ → Prop}
    (h : Triple P x Q E) (hp : ∀ s, P' s → P s) (hq : ∀ a s, Q a s → Q' a s)
    (he : ∀ e s, E e s → E' e s) : Triple P' x Q' E' := by
  intro s hs
  cases hx : x s with
  | ok a t => exact hq a t (h.ok (hp s hs) hx)
  | error e t => exact he e t (h.error (hp s hs) hx)

/-- A check that ends the program with `false`, and what is done where it succeeds. -/
theorem Triple.guard {x y : EStateM ε σ Bool} {Q R : Bool → σ → Prop} (hx : Triple P x Q E)
    (hf : ∀ s, Q false s → R false s) (hy : Triple (Q true) y R E) :
    Triple P (x >>= fun b => if (!b) = true then Pure.pure false else y) R E := by
  refine hx.bind fun b => ?_
  cases b with
  | false => exact Triple.pure hf
  | true => exact hy

/-- The state in which the program returns or stops. -/
def final (x : EStateM ε σ α) (s : σ) : σ :=
  match x s with
  | .ok _ t | .error _ t => t

/-- The program returns. -/
def returns (x : EStateM ε σ α) (s : σ) : Bool :=
  match x s with
  | .ok _ _ => true
  | .error _ _ => false

theorem ok_final {x : EStateM ε σ Unit} {s : σ} (h : returns x s = true) : x s = .ok () (final x s) := by
  unfold returns at h
  unfold final
  cases hx : x s with
  | ok a t => rfl
  | error e t =>
    rw [hx] at h
    cases h

theorem final_of_ok {x : EStateM ε σ α} {s t : σ} {a : α} (h : x s = .ok a t) : final x s = t := by
  rw [final, h]

/-- What the program returns. -/
def answer (x : EStateM ε σ α) (s : σ) : Option α :=
  match x s with
  | .ok a _ => some a
  | .error _ _ => none

theorem ok_answer {x : EStateM ε σ α} {s : σ} {a : α} (h : answer x s = some a) :
    x s = .ok a (final x s) := by
  unfold answer at h
  unfold final
  cases hx : x s with
  | ok b t =>
    rw [hx] at h
    cases h
    rfl
  | error e t =>
    rw [hx] at h
    cases h

/-- Why the program stops, if it does. -/
def halt (x : EStateM ε σ α) (s : σ) : Option ε :=
  match x s with
  | .ok _ _ => none
  | .error e _ => some e

theorem error_halt {x : EStateM ε σ α} {s : σ} {e : ε} (h : halt x s = some e) :
    x s = .error e (final x s) := by
  unfold halt at h
  unfold final
  cases hx : x s with
  | ok a t =>
    rw [hx] at h
    cases h
  | error e' t =>
    rw [hx] at h
    cases h
    rfl

theorem Triple.final {Q : σ → Prop} (h : Triple P x (fun _ => Q) (fun _ => Q)) {s : σ} (hs : P s) :
    Q (final x s) := by
  have := h s hs
  unfold Effect.final
  revert this
  cases x s <;> exact id

theorem Keeps.bind {I : σ → Prop} (hx : Keeps I x) (hf : ∀ a, Keeps I (f a)) : Keeps I (x >>= f) :=
  Triple.bind hx hf

/-- The program only moves the state along `R`, whether it returns or stops. -/
def Moves (R : σ → σ → Prop) (x : EStateM ε σ α) : Prop :=
  ∀ s, Outcome (fun _ => R s) (fun _ => R s) (x s)

section Moves

variable {R : σ → σ → Prop}

theorem Moves.ok (h : Moves R x) {s t : σ} {a : α} (hx : x s = .ok a t) : R s t := by
  have := h s
  rwa [hx] at this

theorem Moves.error (h : Moves R x) {s t : σ} {e : ε} (hx : x s = .error e t) : R s t := by
  have := h s
  rwa [hx] at this

theorem Moves.modify {f : σ → σ} (h : ∀ s, R s (f s)) :
    Moves R (modify f : EStateM ε σ PUnit) := h

/-- Where a move keeps `P`, so does a program that only makes such moves. -/
theorem Moves.keeps (h : Moves R x) (hR : ∀ s t, R s t → P s → P t) : Keeps P x := by
  intro s hs
  cases hx : x s with
  | ok a t => exact hR s t (h.ok hx) hs
  | error e t => exact hR s t (h.error hx) hs

theorem Moves.get_bind {f : σ → EStateM ε σ β}
    (h : ∀ s, Outcome (fun _ => R s) (fun _ => R s) (f s s)) : Moves R (get >>= f) := h

theorem Moves.ite {c : Prop} [Decidable c] {y : EStateM ε σ α} (ht : c → Moves R x)
    (he : ¬c → Moves R y) : Moves R (if c then x else y) := by
  split
  next h => exact ht h
  next h => exact he h

theorem Moves.mono {R' : σ → σ → Prop} (h : Moves R x) (hR : ∀ s t, R s t → R' s t) : Moves R' x := by
  intro s
  cases hx : x s with
  | ok a t => exact hR s t (h.ok hx)
  | error e t => exact hR s t (h.error hx)

theorem Moves.final (h : Moves R x) (s : σ) : R s (final x s) := by
  have := h s
  unfold Effect.final
  revert this
  cases x s <;> exact id

variable [IsPreorder σ R]

/-- A move before the program runs. -/
theorem Outcome.after {s t : σ} {r : EStateM.Result ε σ α} (hst : R s t)
    (h : Outcome (fun _ => R t) (fun _ => R t) r) : Outcome (fun _ => R s) (fun _ => R s) r := by
  cases r with
  | ok a u => exact IsTrans.trans _ _ _ hst h
  | error e u => exact IsTrans.trans _ _ _ hst h

theorem Moves.pure (a : α) : Moves R (pure a : EStateM ε σ α) := fun s => Std.Refl.refl s

theorem Moves.get : Moves R (get : EStateM ε σ σ) := fun s => Std.Refl.refl s

theorem Moves.throw (e : ε) : Moves R (throw e : EStateM ε σ α) := fun s => Std.Refl.refl s

theorem Moves.bind_from {s : σ} (hx : Outcome (fun _ => R s) (fun _ => R s) (x s))
    (hf : ∀ a, Moves R (f a)) : Outcome (fun _ => R s) (fun _ => R s) ((x >>= f) s) := by
  cases h : x s with
  | ok a t =>
    rw [h] at hx
    rw [bind_of_ok h]
    exact Outcome.after hx (hf a t)
  | error e t =>
    rw [h] at hx
    rw [bind_of_error h]
    exact hx

theorem Moves.bind (hx : Moves R x) (hf : ∀ a, Moves R (f a)) : Moves R (x >>= f) :=
  fun s => Moves.bind_from (hx s) hf

end Moves

/-- The program returns, and moves the state along `R`. -/
def Advances (R : σ → σ → Prop) (x : EStateM ε σ α) : Prop := ∀ s, ∃ a t, x s = .ok a t ∧ R s t

section Advances

variable {R : σ → σ → Prop}

theorem Advances.moves (h : Advances R x) : Moves R x := by
  intro s
  obtain ⟨a, t, hx, hr⟩ := h s
  rw [hx]
  exact hr

theorem Advances.modify {f : σ → σ} (h : ∀ s, R s (f s)) :
    Advances R (modify f : EStateM ε σ PUnit) := fun s => ⟨⟨⟩, f s, rfl, h s⟩

theorem Advances.ite {c : Prop} [Decidable c] {y : EStateM ε σ α} (ht : c → Advances R x)
    (he : ¬c → Advances R y) : Advances R (if c then x else y) := by
  split
  next h => exact ht h
  next h => exact he h

variable [IsPreorder σ R]

theorem Advances.pure (a : α) : Advances R (pure a : EStateM ε σ α) :=
  fun s => ⟨a, s, rfl, Std.Refl.refl s⟩

theorem Advances.get : Advances R (get : EStateM ε σ σ) := fun s => ⟨s, s, rfl, Std.Refl.refl s⟩

theorem Advances.bind (hx : Advances R x) (hf : ∀ a, Advances R (f a)) : Advances R (x >>= f) := by
  intro s
  obtain ⟨a, t, ht, hst⟩ := hx s
  obtain ⟨b, u, hu, htu⟩ := hf a t
  exact ⟨b, u, (bind_of_ok ht).trans hu, IsTrans.trans _ _ _ hst htu⟩

end Advances

end Effect
