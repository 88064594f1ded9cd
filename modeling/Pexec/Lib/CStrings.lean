import Mathlib.Data.List.TakeWhile

namespace CStrings

variable {α β : Type} [DecidableEq α] (terminator : α)

/-- The string at the start of the memory. -/
def text (memory : List α) : List α := memory.takeWhile (· ≠ terminator)

/-- A buffer with data at its start and the terminator behind them. -/
def fill (buffer data : List α) : List α := data ++ terminator :: buffer.drop (data.length + 1)

variable {terminator} {data : List α}

@[simp] theorem text_nil : text terminator [] = [] := rfl

theorem length_text_le (memory : List α) : (text terminator memory).length ≤ memory.length :=
  (List.takeWhile_prefix _).length_le

theorem text_eq_self_iff : text terminator data = data ↔ terminator ∉ data := by
  rw [text, List.takeWhile_eq_self_iff]
  constructor
  · intro hall hmem
    simpa using hall terminator hmem
  · intro hnot x hx
    exact decide_eq_true fun heq => hnot (heq ▸ hx)

/-- What stood behind the terminator does not matter. -/
@[simp] theorem text_fill (buffer : List α) :
    text terminator (fill terminator buffer data) = text terminator data := by
  induction data generalizing buffer with
  | nil => simp [fill, text]
  | cons x data ih =>
    have hrest := ih (buffer.drop 1)
    simp only [fill, text, List.drop_drop, List.cons_append, List.length_cons] at hrest ⊢
    rw [List.takeWhile_cons, List.takeWhile_cons, ← hrest, Nat.add_comm 1]

theorem length_flatMap_text_le (f : β → List α) (xs : List β) :
    (xs.flatMap fun x => text terminator (f x)).length ≤ (xs.flatMap f).length := by
  induction xs with
  | nil => exact le_rfl
  | cons x xs ih =>
    simp only [List.flatMap_cons, List.length_append]
    have hx : (text terminator (f x)).length ≤ (f x).length := length_text_le _
    omega

/-- Joining the chunks read as strings gives the joined chunks only if no chunk holds the
terminator. -/
theorem flatMap_text_eq_iff (f : β → List α) (xs : List β) :
    (xs.flatMap fun x => text terminator (f x)) = xs.flatMap f ↔ terminator ∉ xs.flatMap f := by
  induction xs with
  | nil => simp
  | cons x xs ih =>
    simp only [List.flatMap_cons, List.mem_append, not_or]
    rw [← text_eq_self_iff, ← ih]
    constructor
    · intro heq
      have hlen := congrArg List.length heq
      have hx : (text terminator (f x)).length ≤ (f x).length := length_text_le _
      have hxs : (xs.flatMap fun x => text terminator (f x)).length ≤ (xs.flatMap f).length :=
        length_flatMap_text_le f xs
      simp only [List.length_append] at hlen
      exact List.append_inj heq (by omega)
    · rintro ⟨hx, hxs⟩
      rw [hx, hxs]

end CStrings
