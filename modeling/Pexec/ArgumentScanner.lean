import Pexec.ArgumentPrinting

namespace Pexec

/-- A token, unless it is empty. -/
def token (item : List Char) : List (List Char) := if item.isEmpty then [] else [item]

/-- The scanner, with the flag for the text between quotes and the token it has begun. -/
def scanFrom : Bool → List Char → List Char → List (List Char)
  | _, item, [] => token item
  | quoted, item, c :: rest =>
    if c = '"' then token item ++ scanFrom (!quoted) [] rest
    else if c = ' ' ∧ quoted = false then token item ++ scanFrom quoted [] rest
    else scanFrom quoted (item ++ [c]) rest

def scan (ss : List Char) : List (List Char) := scanFrom false [] ss

/-- A token that ends in a backslash takes the next one in, with a space between them. -/
def joinFrom : List Char → List (List Char) → List (List Char)
  | prev, [] => [prev]
  | prev, now :: rest =>
    if prev.getLast? = some '\\' then joinFrom (prev.dropLast ++ ' ' :: now) rest
    else prev :: joinFrom now rest

def joinTokens : List (List Char) → List (List Char)
  | [] => []
  | first :: rest => joinFrom first rest

theorem token_of_ne {item : List Char} (hne : item ≠ []) : token item = [item] := by
  simp [token, hne]

theorem words_append_token {u w : List Char} (hu : Boundary u) (hs : ' ' ∉ w) :
    words (u ++ w) = words u ++ token w := by
  by_cases hw : w = []
  · simp [hw, token]
  · rw [words_append hu hw hs, token_of_ne hw]

/-- Where the next piece is a quoted one, `item` is what has been read of it; where it is not, `u`
is the text since the last quote and `w` the word it ends with. -/
theorem pieces_eq_scanFrom (rest : List Char) :
    (∀ k item, k % 2 = 1 → pieces k (splitFrom '"' item rest) = scanFrom true item rest) ∧
    ∀ k u w, k % 2 = 0 → Boundary u → ' ' ∉ w →
      pieces k (splitFrom '"' (u ++ w) rest) = words u ++ scanFrom false w rest := by
  induction rest with
  | nil =>
    refine ⟨fun k item hk => ?_, fun k u w hk hu hw => ?_⟩
    · cases item with
      | nil => rfl
      | cons c cs => exact pieces_odd hk (List.cons_ne_nil c cs) []
    · exact (pieces_last hk (u ++ w)).trans (words_append_token hu hw)
  | cons c rest ih =>
    obtain ⟨ihq, ihu⟩ := ih
    refine ⟨fun k item hk => ?_, fun k u w hk hu hw => ?_⟩
    · by_cases hc : c = '"'
      · have hnext := ihu (k + 1) [] [] (by omega) (.inl rfl) List.not_mem_nil
        have hpieces : pieces k (item :: splitFrom '"' [] rest) =
            token item ++ pieces (k + 1) (splitFrom '"' [] rest) := by
          cases item with
          | nil => simp [pieces, hk, token]
          | cons c cs => exact pieces_odd hk (List.cons_ne_nil c cs) _
        rw [splitFrom, if_pos hc, hpieces, scanFrom, if_pos hc]
        exact congrArg (token item ++ ·) hnext
      · rw [splitFrom, if_neg hc, ihq k _ hk, scanFrom, if_neg hc, if_neg (by simp)]
    · by_cases hc : c = '"'
      · rw [splitFrom, if_pos hc, pieces_even hk, ihq (k + 1) [] (by omega), scanFrom, if_pos hc,
          words_append_token hu hw, List.append_assoc]
        rfl
      · by_cases hspace : c = ' '
        · have hnext := ihu k (u ++ w ++ [' ']) [] hk (.inr ⟨u ++ w, rfl⟩) List.not_mem_nil
          rw [List.append_nil, words_snoc, words_append_token hu hw] at hnext
          rw [splitFrom, if_neg hc, scanFrom, if_neg hc, if_pos ⟨hspace, rfl⟩, hspace]
          exact hnext.trans (List.append_assoc ..)
        · have hw' : ' ' ∉ w ++ [c] := by
            simp only [List.mem_append, List.mem_singleton, not_or]
            exact ⟨hw, fun he => hspace he.symm⟩
          rw [splitFrom, if_neg hc, scanFrom, if_neg hc, if_neg (fun h => hspace h.1),
            List.append_assoc, ihu k u (w ++ [c]) hk hu hw']

theorem pieces_eq_scan (ss : List Char) : pieces 0 (split ss '"') = scan ss :=
  (pieces_eq_scanFrom ss).2 0 [] [] rfl (.inl rfl) List.not_mem_nil

theorem scanFrom_ne_nil (rest : List Char) (quoted : Bool) (item : List Char) :
    ∀ p ∈ scanFrom quoted item rest, p ≠ [] := by
  have htoken : ∀ item, ∀ p ∈ token item, p ≠ [] := by
    intro item p hp
    cases item with
    | nil => cases hp
    | cons c cs => exact List.mem_singleton.mp hp ▸ List.cons_ne_nil c cs
  induction rest generalizing quoted item with
  | nil => exact htoken item
  | cons c rest ih =>
    intro p hp
    rw [scanFrom] at hp
    split at hp
    · exact (List.mem_append.mp hp).elim (htoken item p) (ih _ _ p)
    · split at hp
      · exact (List.mem_append.mp hp).elim (htoken item p) (ih _ _ p)
      · exact ih _ _ p hp

theorem mergeStep_ne_nil {acc : List (List Char) × List Char} {now : List Char} (ha : acc.2 ≠ [])
    (hn : now ≠ []) : (mergeStep acc now).2 ≠ [] := by
  obtain ⟨out, prev⟩ := acc
  simp only [mergeStep]
  split
  · exact ha
  · split
    · simp
    · exact hn

theorem foldl_mergeStep_ne_nil {rest : List (List Char)} (hne : ∀ p ∈ rest, p ≠ [])
    {acc : List (List Char) × List Char} (ha : acc.2 ≠ []) : (rest.foldl mergeStep acc).2 ≠ [] := by
  induction rest generalizing acc with
  | nil => exact ha
  | cons now rest ih =>
    exact ih (fun p hp => hne p (List.mem_cons_of_mem _ hp))
      (mergeStep_ne_nil ha (hne now List.mem_cons_self))

theorem foldl_mergeStep_eq (rest out : List (List Char)) (prev : List Char)
    (hne : ∀ p ∈ prev :: rest, p ≠ []) :
    (rest.foldl mergeStep (out, prev)).1 ++ [(rest.foldl mergeStep (out, prev)).2] =
      out ++ joinFrom prev rest := by
  induction rest generalizing out prev with
  | nil => rfl
  | cons now rest ih =>
    have hprev : prev.isEmpty = false := by simpa using hne prev List.mem_cons_self
    have hrest : ∀ p ∈ now :: rest, p ≠ [] := fun p hp => hne p (List.mem_cons_of_mem _ hp)
    rw [List.foldl_cons, joinFrom]
    by_cases hlast : prev.getLast? = some '\\'
    · have hstep : mergeStep (out, prev) now = (out, prev.dropLast ++ ' ' :: now) := by
        simp only [mergeStep, hprev, Bool.false_eq_true, if_false, if_pos hlast]
      rw [hstep, if_pos hlast]
      refine ih _ _ fun p hp => ?_
      rcases List.mem_cons.mp hp with rfl | hp
      · simp
      · exact hrest p (List.mem_cons_of_mem _ hp)
    · have hstep : mergeStep (out, prev) now = (out ++ [prev], now) := by
        simp only [mergeStep, hprev, Bool.false_eq_true, if_false, if_neg hlast]
      rw [hstep, if_neg hlast, ih _ _ hrest, List.append_assoc, List.singleton_append]

theorem str2arg_eq_join (ss : List Char) : str2arg ss = joinTokens (scan ss) := by
  unfold str2arg
  cases ss with
  | nil => rfl
  | cons c cs =>
    rw [pieces_eq_scan]
    have hne := scanFrom_ne_nil (c :: cs) false []
    change ∀ p ∈ scan (c :: cs), p ≠ [] at hne
    revert hne
    cases scan (c :: cs) with
    | nil => exact fun _ => rfl
    | cons first rest => exact fun hne => foldl_mergeStep_eq rest [] first hne

/-- `str2arg` is the scanner, and the joining from left to right. -/
theorem str2arg_eq_scan (ss : List Char) : str2arg ss = joinTokens (scan ss) := str2arg_eq_join ss

/-- The open quote ends with the text, and its backslash stays. -/
example : joinTokens (scan "a\\ \"b\" \"c d\\".toList) = ["a b".toList, "c d\\".toList] := by decide

theorem scanFrom_no_quote (rest : List Char) (quoted : Bool) {item : List Char} (hi : '"' ∉ item) :
    ∀ p ∈ scanFrom quoted item rest, '"' ∉ p := by
  have htoken : ∀ {item}, '"' ∉ item → ∀ p ∈ token item, '"' ∉ p := by
    intro item hi p hp
    unfold token at hp
    split at hp
    · cases hp
    · rwa [List.mem_singleton.mp hp]
  induction rest generalizing quoted item with
  | nil => exact htoken hi
  | cons c rest ih =>
    intro p hp
    rw [scanFrom] at hp
    split at hp
    next => exact (List.mem_append.mp hp).elim (htoken hi p) (ih _ List.not_mem_nil p)
    next hc =>
      split at hp
      next => exact (List.mem_append.mp hp).elim (htoken hi p) (ih _ List.not_mem_nil p)
      next =>
        refine ih _ ?_ p hp
        simp only [List.mem_append, List.mem_singleton, not_or]
        exact ⟨hi, fun he => hc he.symm⟩

/-- What holds of the tokens, and of two that are joined, holds of the arguments. -/
theorem joinFrom_forall {P : List Char → Prop} (hP : ∀ p q, P p → P q → P (p.dropLast ++ ' ' :: q))
    {prev : List Char} {rest : List (List Char)} (hprev : P prev) (hrest : ∀ p ∈ rest, P p) :
    ∀ p ∈ joinFrom prev rest, P p := by
  induction rest generalizing prev with
  | nil => exact fun p hp => List.mem_singleton.mp hp ▸ hprev
  | cons now rest ih =>
    have hnow := hrest now List.mem_cons_self
    have hlater : ∀ p ∈ rest, P p := fun p hp => hrest p (List.mem_cons_of_mem _ hp)
    intro p hp
    rw [joinFrom] at hp
    split at hp
    · exact ih (hP _ _ hprev hnow) hlater p hp
    · rcases List.mem_cons.mp hp with rfl | hp
      · exact hprev
      · exact ih hnow hlater p hp

theorem joinFrom_ne_nil (prev : List Char) (rest : List (List Char)) : joinFrom prev rest ≠ [] := by
  induction rest generalizing prev with
  | nil => exact List.cons_ne_nil _ _
  | cons now rest ih =>
    rw [joinFrom]
    split
    · exact ih _
    · exact List.cons_ne_nil _ _

theorem joinFrom_dropLast (prev : List Char) (rest : List (List Char)) :
    ∀ p ∈ (joinFrom prev rest).dropLast, p.getLast? ≠ some '\\' := by
  induction rest generalizing prev with
  | nil => exact fun p hp => absurd hp List.not_mem_nil
  | cons now rest ih =>
    intro p hp
    rw [joinFrom] at hp
    split at hp
    next => exact ih _ p hp
    next hlast =>
      rw [List.dropLast_cons_of_ne_nil (joinFrom_ne_nil now rest)] at hp
      rcases List.mem_cons.mp hp with rfl | hp
      · exact hlast
      · exact ih _ p hp

theorem joinTokens_forall {P : List Char → Prop} (hP : ∀ p q, P p → P q → P (p.dropLast ++ ' ' :: q))
    {tokens : List (List Char)} (ht : ∀ p ∈ tokens, P p) : ∀ p ∈ joinTokens tokens, P p := by
  cases tokens with
  | nil => exact ht
  | cons first rest =>
    exact joinFrom_forall hP (ht first List.mem_cons_self)
      fun p hp => ht p (List.mem_cons_of_mem _ hp)

theorem str2arg_ne_nil (ss : List Char) : ∀ p ∈ str2arg ss, p ≠ [] := by
  rw [str2arg_eq_join]
  exact joinTokens_forall (P := (· ≠ [])) (fun _ _ _ _ => by simp) (scanFrom_ne_nil ss false [])

theorem str2arg_no_quote (ss : List Char) : ∀ p ∈ str2arg ss, '"' ∉ p := by
  rw [str2arg_eq_join]
  refine joinTokens_forall (P := ('"' ∉ ·)) (fun p q hp hq => ?_)
    (scanFrom_no_quote ss false List.not_mem_nil)
  simp only [List.mem_append, List.mem_cons, not_or]
  exact ⟨fun hm => hp (List.dropLast_subset p hm), by decide, hq⟩

theorem str2arg_dropLast (ss : List Char) : ∀ p ∈ (str2arg ss).dropLast, p.getLast? ≠ some '\\' := by
  rw [str2arg_eq_join]
  cases scan ss with
  | nil => exact fun p hp => absurd hp List.not_mem_nil
  | cons first rest => exact joinFrom_dropLast first rest

/-- The arguments are in normal form: they are not empty and have no quote, only the last may end
in a backslash, the loop that joins never carries an empty one along, and printing them and parsing
the text changes nothing. -/
theorem str2arg_normal (ss : List Char) :
    (∀ p ∈ str2arg ss, p ≠ [] ∧ '"' ∉ p) ∧
    (∀ p ∈ (str2arg ss).dropLast, p.getLast? ≠ some '\\') ∧
    (∀ first before after, pieces 0 (split ss '"') = first :: (before ++ after) →
      (before.foldl mergeStep ([], first)).2 ≠ []) ∧
    str2arg (arg2str (str2arg ss)) = str2arg ss := by
  refine ⟨fun p hp => ⟨str2arg_ne_nil ss p hp, str2arg_no_quote ss p hp⟩, str2arg_dropLast ss,
    fun first before after hp => ?_, ?_⟩
  · rw [pieces_eq_scan] at hp
    have hne : ∀ p ∈ first :: (before ++ after), p ≠ [] := hp ▸ scanFrom_ne_nil ss false []
    exact foldl_mergeStep_ne_nil
      (fun p hm => hne p (List.mem_cons_of_mem _ (List.mem_append.mpr (.inl hm))))
      (hne first List.mem_cons_self)
  · exact parse_print (str2arg_ne_nil ss) (str2arg_no_quote ss) (str2arg_dropLast ss)

end Pexec
