import Mathlib.Data.List.Basic

namespace LastWrite

variable {α β γ : Type}

/-- One update: a word that passes the test replaces the content. -/
def store (test : α → Bool) (value : α → β) (b : β) (x : α) : β :=
  if test x then value x else b

/-- The last word of the stream that passes the test. -/
def last (test : α → Bool) (xs : List α) : Option α := (xs.filter test).getLast?

variable {test : α → Bool} {value : α → β} {b : β} {x : α} {xs : List α}

@[simp] theorem last_nil : last test [] = none := rfl

theorem last_cons : last test (x :: xs) = (last test xs).or (if test x then some x else none) := by
  cases ht : test x with
  | true =>
    simp only [last, List.filter_cons_of_pos ht, List.getLast?_cons, if_true]
    cases (xs.filter test).getLast? <;> rfl
  | false =>
    simp [last, List.filter_cons_of_neg, ht]

theorem last_append_singleton :
    last test (xs ++ [x]) = if test x then some x else last test xs := by
  cases ht : test x <;> simp [last, ht]

theorem test_of_last (h : last test xs = some x) : x ∈ xs ∧ test x = true :=
  List.mem_filter.mp (List.mem_of_getLast? h)

theorem last_eq_none_iff : last test xs = none ↔ ∀ x ∈ xs, test x = false := by
  rw [last, List.getLast?_eq_none_iff, List.filter_eq_nil_iff]
  simp only [Bool.not_eq_true]

/-- The content at the end is the value of the last word that was written. -/
theorem foldl_store : xs.foldl (store test value) b = ((last test xs).map value).getD b := by
  induction xs generalizing b with
  | nil => rfl
  | cons x xs ih =>
    rw [List.foldl_cons, ih, last_cons, store]
    cases last test xs with
    | some y => rfl
    | none => cases test x <;> rfl

/-- A field of a record that each word updates on its own. -/
theorem foldl_field {g : γ → α → γ} {f : γ → β} (h : ∀ c x, f (g c x) = store test value (f c) x)
    (c : γ) : f (xs.foldl g c) = ((last test xs).map value).getD (f c) := by
  rw [← foldl_store]
  exact (List.foldl_hom f fun c x => (h c x).symm).symm

/-- The stream leaves what its last word alone does: that word is written, or the words before
it have left the content as it was. -/
theorem foldl_field_snoc_iff {g : γ → α → γ} {f : γ → β}
    (h : ∀ c x, f (g c x) = store test value (f c) x) (c : γ) :
    f ((xs ++ [x]).foldl g c) = f (g c x) ↔
      (test x = false → ∀ y ∈ last test xs, value y = f c) := by
  rw [foldl_field h, h, store, last_append_singleton]
  cases test x with
  | true => simp
  | false => cases last test xs <;> simp

end LastWrite
