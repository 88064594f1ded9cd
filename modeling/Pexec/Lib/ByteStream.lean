import Mathlib.Data.List.Basic

theorem ByteStream.nothing_taken (α : Type) : 0 ≤ ([] : List α).length := Nat.le_refl 0

structure ByteStream (α : Type) where
  written : List α := []
  taken : Nat := 0
  taken_le : taken ≤ written.length := by exact ByteStream.nothing_taken _

namespace ByteStream

variable {α : Type} (s : ByteStream α)

/-- What a reader has not taken yet. -/
def unread : List α := s.written.drop s.taken

def push (data : List α) : ByteStream α where
  written := s.written ++ data
  taken := s.taken
  taken_le := by
    have := s.taken_le
    simp only [List.length_append]
    omega

def drop (n : Nat) : ByteStream α where
  written := s.written
  taken := min (s.taken + n) s.written.length
  taken_le := Nat.min_le_right _ _

/-- What readers have taken so far. -/
def read : List α := s.written.take s.taken

theorem read_append_unread : s.read ++ s.unread = s.written := List.take_append_drop _ _

theorem read_prefix : s.read <+: s.written := List.take_prefix _ _

@[simp] theorem push_read (data : List α) : (s.push data).read = s.read :=
  List.take_append_of_le_length s.taken_le

@[simp] theorem push_unread (data : List α) : (s.push data).unread = s.unread ++ data :=
  List.drop_append_of_le_length s.taken_le

@[simp] theorem push_written (data : List α) : (s.push data).written = s.written ++ data := rfl

@[simp] theorem drop_written (n : Nat) : (s.drop n).written = s.written := rfl

@[simp] theorem drop_unread (n : Nat) : (s.drop n).unread = s.unread.drop n := by
  simp only [unread, drop, List.drop_drop]
  rcases Nat.le_total (s.taken + n) s.written.length with h | h
  · rw [Nat.min_eq_left h]
  · rw [Nat.min_eq_right h, List.drop_length, List.drop_eq_nil_of_le h]

/-- Taking the next bytes appends exactly these bytes to what was read. -/
@[simp] theorem drop_read (n : Nat) : (s.drop n).read = s.read ++ s.unread.take n := by
  simp only [read, unread, drop]
  rw [← List.take_add]
  rcases Nat.le_total (s.taken + n) s.written.length with h | h
  · rw [Nat.min_eq_left h]
  · rw [Nat.min_eq_right h, List.take_length, List.take_of_length_le h]

end ByteStream
