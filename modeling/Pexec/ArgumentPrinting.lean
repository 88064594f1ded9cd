import Pexec.ArgumentParser

namespace Pexec

/-- An argument as `arg2str` writes it: between quotes where it contains a space. -/
def quoteArg (p : List Char) : List Char := if ' ' ∈ p then '"' :: p ++ ['"'] else p

def arg2str : List (List Char) → List Char
  | [] => []
  | [p] => quoteArg p
  | p :: q :: rest => quoteArg p ++ ' ' :: arg2str (q :: rest)

/-- The pieces of an unquoted text. -/
def words (u : List Char) : List (List Char) := (split u ' ').filter fun item => !item.isEmpty

/-- A text after which the next character begins a new word. -/
def Boundary (u : List Char) : Prop := u = [] ∨ ∃ v, u = v ++ [' ']

theorem splitFrom_of_not_mem {delim : Char} {xs : List Char} (hx : delim ∉ xs) (item : List Char) :
    splitFrom delim item xs = if (item ++ xs).isEmpty then [] else [item ++ xs] := by
  induction xs generalizing item with
  | nil => simp [splitFrom]
  | cons c xs ih =>
    have hc : c ≠ delim := fun he => hx (he ▸ List.mem_cons_self)
    have hxs : delim ∉ xs := fun hm => hx (List.mem_cons_of_mem _ hm)
    rw [splitFrom, if_neg hc, ih hxs, List.append_assoc, List.singleton_append]

theorem splitFrom_append_delim {delim : Char} {xs : List Char} (hx : delim ∉ xs)
    (item rest : List Char) :
    splitFrom delim item (xs ++ delim :: rest) = (item ++ xs) :: splitFrom delim [] rest := by
  induction xs generalizing item with
  | nil => simp [splitFrom]
  | cons c xs ih =>
    have hc : c ≠ delim := fun he => hx (he ▸ List.mem_cons_self)
    have hxs : delim ∉ xs := fun hm => hx (List.mem_cons_of_mem _ hm)
    rw [List.cons_append, splitFrom, if_neg hc, ih hxs, List.append_assoc, List.singleton_append]

/-- Characters that are not the delimiter only make the current piece longer. -/
theorem splitFrom_append {delim : Char} {xs : List Char} (hx : delim ∉ xs) (item rest : List Char) :
    splitFrom delim item (xs ++ rest) = splitFrom delim (item ++ xs) rest := by
  induction xs generalizing item with
  | nil => simp
  | cons c xs ih =>
    have hc : c ≠ delim := fun he => hx (he ▸ List.mem_cons_self)
    have hxs : delim ∉ xs := fun hm => hx (List.mem_cons_of_mem _ hm)
    rw [List.cons_append, splitFrom, if_neg hc, ih hxs, List.append_assoc, List.singleton_append]

theorem splitFrom_snoc_append (delim : Char) (xs item rest : List Char) :
    splitFrom delim item (xs ++ [delim] ++ rest) =
      splitFrom delim item (xs ++ [delim]) ++ splitFrom delim [] rest := by
  induction xs generalizing item with
  | nil => simp [splitFrom]
  | cons c xs ih =>
    simp only [List.cons_append, splitFrom]
    split
    next => rw [ih, List.cons_append]
    next => rw [ih]

/-- A word at a boundary is a piece of its own. -/
theorem words_append {u p : List Char} (hu : Boundary u) (hp : p ≠ []) (hs : ' ' ∉ p) :
    words (u ++ p) = words u ++ [p] := by
  have hword : words p = [p] := by
    have := splitFrom_of_not_mem hs []
    simp only [words, split, this, List.nil_append]
    simp [hp]
  rcases hu with rfl | ⟨v, rfl⟩
  · rw [List.nil_append, hword]
    rfl
  · rw [← hword]
    simp only [words, split, splitFrom_snoc_append, List.filter_append]

theorem words_snoc (u : List Char) : words (u ++ [' ']) = words u := by
  have hsplit : ∀ item, (splitFrom ' ' item (u ++ [' '])).filter (fun item => !item.isEmpty) =
      (splitFrom ' ' item u).filter fun item => !item.isEmpty := by
    induction u with
    | nil =>
      intro item
      cases item <;> simp [splitFrom]
    | cons c u ih =>
      intro item
      simp only [List.cons_append, splitFrom]
      split
      next => simp only [List.filter_cons, ih]
      next => exact ih _
  exact hsplit []

theorem pieces_even {k : Nat} (hk : k % 2 = 0) (u : List Char) (subs : List (List Char)) :
    pieces k (u :: subs) = words u ++ pieces (k + 1) subs := by
  simp only [pieces, if_pos hk, words]

theorem pieces_odd {k : Nat} (hk : k % 2 = 1) {p : List Char} (hp : p ≠ []) (subs : List (List Char)) :
    pieces k (p :: subs) = p :: pieces (k + 1) subs := by
  have hk' : ¬k % 2 = 0 := by omega
  simp [pieces, if_neg hk', hp]

/-- What is left when the text ends is the last piece. -/
theorem pieces_last {k : Nat} (hk : k % 2 = 0) (u : List Char) :
    pieces k (if u.isEmpty then [] else [u]) = words u := by
  cases u with
  | nil => rfl
  | cons c u =>
    have := pieces_even hk (c :: u) []
    rw [pieces, List.append_nil] at this
    exact this

/-- What `str2arg` finds in a printed list; `u` is what it has read since the last quote. -/
theorem pieces_arg2str (args : List (List Char)) (hne : ∀ p ∈ args, p ≠ [])
    (hq : ∀ p ∈ args, '"' ∉ p) (k : Nat) (hk : k % 2 = 0) (u : List Char) (hu : Boundary u)
    (huq : '"' ∉ u) : pieces k (splitFrom '"' u (arg2str args)) = words u ++ args := by
  induction args generalizing k u with
  | nil =>
    rw [arg2str, List.append_nil, splitFrom]
    exact pieces_last hk u
  | cons p args ih =>
    have hp := hne p List.mem_cons_self
    have hpq := hq p List.mem_cons_self
    have ih' := ih (fun x hx => hne x (List.mem_cons_of_mem _ hx))
      fun x hx => hq x (List.mem_cons_of_mem _ hx)
    by_cases hs : ' ' ∈ p
    · have hquote : quoteArg p = '"' :: p ++ ['"'] := if_pos hs
      -- the opening quote ends the even piece `u`, the closing one the odd piece `p`
      have hsplit : ∀ rest, pieces k (splitFrom '"' u (quoteArg p ++ rest)) =
          words u ++ p :: pieces (k + 2) (splitFrom '"' [] rest) := by
        intro rest
        have hopen := splitFrom_append_delim (List.not_mem_nil (a := '"')) u (p ++ '"' :: rest)
        have hclose := splitFrom_append_delim hpq [] rest
        rw [List.nil_append, List.append_nil] at hopen
        rw [List.nil_append] at hclose
        rw [hquote, List.cons_append, List.cons_append, List.append_assoc, List.singleton_append,
          hopen, hclose, pieces_even hk, pieces_odd (by omega) hp]
      cases args with
      | nil =>
        have := hsplit []
        rw [List.append_nil] at this
        exact this
      | cons q rest =>
        rw [arg2str, hsplit, splitFrom, if_neg (by decide), List.nil_append,
          ih' (k + 2) (by omega) [' '] (.inr ⟨[], rfl⟩) (by decide)]
        rfl
    · have hquote : quoteArg p = p := if_neg hs
      cases args with
      | nil =>
        rw [arg2str, hquote, splitFrom_of_not_mem hpq, ← words_append hu hp hs]
        exact pieces_last hk (u ++ p)
      | cons q rest =>
        have hnext : Boundary (u ++ p ++ [' ']) := .inr ⟨u ++ p, rfl⟩
        have hquotes : '"' ∉ u ++ p ++ [' '] := by
          simp only [List.mem_append, not_or]
          exact ⟨⟨huq, hpq⟩, by decide⟩
        rw [arg2str, hquote, splitFrom_append hpq, splitFrom, if_neg (by decide),
          ih' k hk (u ++ p ++ [' ']) hnext hquotes, words_snoc, words_append hu hp hs,
          List.append_assoc, List.singleton_append]

/-- Pieces of which none but the last ends in a backslash are not joined. -/
theorem foldl_mergeStep (rest out : List (List Char)) (prev : List Char)
    (hne : ∀ p ∈ prev :: rest, p ≠ [])
    (hb : ∀ p ∈ (prev :: rest).dropLast, p.getLast? ≠ some '\\') :
    (rest.foldl mergeStep (out, prev)).1 ++ [(rest.foldl mergeStep (out, prev)).2] =
      out ++ prev :: rest := by
  induction rest generalizing out prev with
  | nil => rfl
  | cons now rest ih =>
    have hprev : prev.isEmpty = false := by
      simpa using hne prev List.mem_cons_self
    have hlast : prev.getLast? ≠ some '\\' := hb prev (by simp)
    have hstep : mergeStep (out, prev) now = (out ++ [prev], now) := by
      simp only [mergeStep, hprev, Bool.false_eq_true, if_false, if_neg hlast]
    rw [List.foldl_cons, hstep, ih (out ++ [prev]) now
      (fun p hp => hne p (List.mem_cons_of_mem _ hp)) (fun p hp => hb p ?_)]
    · rw [List.append_assoc, List.singleton_append]
    · rw [List.dropLast_cons_of_ne_nil (List.cons_ne_nil _ _)]
      exact List.mem_cons_of_mem _ hp

theorem parse_print {args : List (List Char)} (hne : ∀ p ∈ args, p ≠ [])
    (hq : ∀ p ∈ args, '"' ∉ p) (hb : ∀ p ∈ args.dropLast, p.getLast? ≠ some '\\') :
    str2arg (arg2str args) = args := by
  have hpieces : pieces 0 (split (arg2str args) '"') = args :=
    pieces_arg2str args hne hq 0 rfl [] (.inl rfl) List.not_mem_nil
  unfold str2arg
  cases args with
  | nil => rfl
  | cons p args =>
    have htext : (arg2str (p :: args)).isEmpty = false := by
      cases h : arg2str (p :: args) with
      | nil =>
        rw [h] at hpieces
        cases hpieces
      | cons c cs => rfl
    rw [htext, hpieces]
    exact foldl_mergeStep args [] p hne hb

/-- Printing an argument list and parsing the text gives the list back. -/
theorem str2arg_arg2str {args : List (List Char)} (hne : ∀ p ∈ args, p ≠ [])
    (hq : ∀ p ∈ args, '"' ∉ p) (hb : ∀ p ∈ args.dropLast, p.getLast? ≠ some '\\') :
    str2arg (arg2str args) = args := parse_print hne hq hb

/-- Quoted and plain arguments, spaces at both ends, and a last argument that ends in a backslash. -/
theorem str2arg_arg2str_mixed :
    str2arg (arg2str ["cp".toList, " a b ".toList, "c".toList, "  ".toList, "d \\".toList]) =
      ["cp".toList, " a b ".toList, "c".toList, "  ".toList, "d \\".toList] :=
  str2arg_arg2str (by decide) (by decide) (by decide)

end Pexec
