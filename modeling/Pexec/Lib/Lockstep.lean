import Pexec.Lib.Effect

namespace Effect

variable {ε σ α β : Type} {R : σ → σ → Prop} {x x' : EStateM ε σ α} {f f' : α → EStateM ε σ β}
  {s s' : σ}

/-- From the state `s'` the second program answers what the first one answers from `s`, and the
states they leave are related. -/
def MimicsFrom (R : σ → σ → Prop) (s s' : σ) (x x' : EStateM ε σ α) : Prop :=
  ∀ a t, x s = .ok a t → ∃ t', x' s' = .ok a t' ∧ R t t'

/-- The second program answers from every related state what the first one does. -/
def Mimics (R : σ → σ → Prop) (x x' : EStateM ε σ α) : Prop := ∀ s s', R s s' → MimicsFrom R s s' x x'

theorem MimicsFrom.bind (hx : MimicsFrom R s s' x x') (hf : ∀ a, Mimics R (f a) (f' a)) :
    MimicsFrom R s s' (x >>= f) (x' >>= f') := by
  intro b u hu
  obtain ⟨a, t, ht, hu⟩ := bind_eq_ok.mp hu
  obtain ⟨t', ht', hR⟩ := hx a t ht
  rw [bind_of_ok ht']
  exact hf a t t' hR b u hu

theorem Mimics.bind (hx : Mimics R x x') (hf : ∀ a, Mimics R (f a) (f' a)) :
    Mimics R (x >>= f) (x' >>= f') := fun s s' hR => (hx s s' hR).bind hf

theorem Mimics.get_bind {f f' : σ → EStateM ε σ β}
    (hf : ∀ s s', R s s' → MimicsFrom R s s' (f s) (f' s')) :
    Mimics R (get >>= f) (get >>= f') := by
  intro s s' hR
  rw [MimicsFrom, bind_of_ok (get_apply s), bind_of_ok (get_apply s')]
  exact hf s s' hR

theorem Mimics.pure (a : α) : Mimics R (pure a : EStateM ε σ α) (pure a) := by
  intro s s' hR b t ht
  cases ht
  exact ⟨s', rfl, hR⟩

theorem Mimics.throw (e : ε) {y : EStateM ε σ α} : Mimics R (throw e) y := by
  intro s s' hR b t ht
  cases ht

theorem Mimics.modify {f f' : σ → σ} (hf : ∀ s s', R s s' → R (f s) (f' s')) :
    Mimics R (modify f : EStateM ε σ PUnit) (modify f') := by
  intro s s' hR a t ht
  cases ht
  exact ⟨f' s', rfl, hf s s' hR⟩

theorem Mimics.ite {c : Prop} [Decidable c] {y y' : EStateM ε σ α} (ht : c → Mimics R x x')
    (he : ¬c → Mimics R y y') : Mimics R (if c then x else y) (if c then x' else y') := by
  split
  next h => exact ht h
  next h => exact he h

end Effect

/-- The second list is the first with the answer `pad` put before any of its members, or before
any of the calls past its end, which a member for which `past` holds answers. -/
inductive Padded {α : Type} (pad : α) (past : α → Prop) : List α → List α → Prop
  | nil : Padded pad past [] []
  | cons (a : α) {as bs : List α} : Padded pad past as bs → Padded pad past (a :: as) (a :: bs)
  | pad {as bs : List α} : Padded pad past as bs → Padded pad past as (pad :: bs)
  | past {a : α} {bs : List α} : past a → Padded pad past [] bs → Padded pad past [] (a :: bs)

namespace Padded

variable {α : Type} {pad : α} {past : α → Prop} {as bs : List α}

theorem refl (as : List α) : Padded pad past as as := by
  induction as with
  | nil => exact nil
  | cons a as ih => exact cons a ih

theorem length_le (h : Padded pad past as bs) : as.length ≤ bs.length := by
  induction h with
  | nil => exact Nat.le_refl _
  | cons a _ ih => exact Nat.succ_le_succ ih
  | pad _ ih => exact Nat.le_succ_of_le ih
  | past _ _ _ => exact Nat.zero_le _

/-- The next answers without the padding in front of them. -/
theorem skip [DecidableEq α] (h : Padded pad past as bs) (hpast : ¬past pad) :
    let cs := as.dropWhile (· = pad)
    let ds := bs.dropWhile (· = pad)
    Padded pad past cs.tail ds.tail ∧ (cs.head? = ds.head? ∨ cs = [] ∧ ∃ a, ds.head? = some a ∧ past a) := by
  induction h with
  | nil => exact ⟨nil, .inl rfl⟩
  | @cons a as bs h ih =>
    by_cases ha : a = pad
    · rw [List.dropWhile_cons_of_pos (by simpa using ha), List.dropWhile_cons_of_pos (by simpa using ha)]
      exact ih
    · rw [List.dropWhile_cons_of_neg (by simpa using ha), List.dropWhile_cons_of_neg (by simpa using ha)]
      exact ⟨h, .inl rfl⟩
  | pad h ih =>
    rw [List.dropWhile_cons_of_pos (by simp)]
    exact ih
  | @past a bs ha h ih =>
    have hne : a ≠ pad := fun he => hpast (he ▸ ha)
    rw [List.dropWhile_cons_of_neg (by simpa using hne)]
    exact ⟨h, .inr ⟨rfl, a, rfl, ha⟩⟩

/-- An answer that is not the padding is the next one of the first list too. -/
theorem head (h : Padded pad past as bs) (hhead : bs.head? ≠ some pad) :
    Padded pad past as.tail bs.tail ∧ (as.head? = bs.head? ∨ as = [] ∧ ∃ a, bs.head? = some a ∧ past a) := by
  cases h with
  | nil => exact ⟨nil, .inl rfl⟩
  | cons a h => exact ⟨h, .inl rfl⟩
  | pad h => exact absurd rfl hhead
  | past ha h => exact ⟨h, .inr ⟨rfl, _, rfl, ha⟩⟩

end Padded
