import Pexec.ArgumentScanner

namespace Pexec

/-- The token ends in a backslash, so that it is joined to the next one. -/
def Open (item : List Char) : Prop := item.getLast? = some '\\'

instance (item : List Char) : Decidable (Open item) := inferInstanceAs (Decidable (_ = _))

theorem joinFrom_open {prev : List Char} (hp : Open prev) (now : List Char) (rest : List (List Char)) :
    joinFrom prev (now :: rest) = joinFrom (prev.dropLast ++ ' ' :: now) rest := if_pos hp

theorem joinFrom_closed {prev : List Char} (hp : ¬Open prev) (now : List Char)
    (rest : List (List Char)) : joinFrom prev (now :: rest) = prev :: joinFrom now rest := if_neg hp

/-- A quote ends what is read before it, and flips the flag. -/
theorem scanFrom_quote (a : List Char) (quoted : Bool) (item rest : List Char) :
    scanFrom quoted item (a ++ '"' :: rest) = scanFrom quoted item a ++
      scanFrom (if a.count '"' % 2 = 0 then !quoted else quoted) [] rest := by
  induction a generalizing quoted item with
  | nil => simp [scanFrom]
  | cons c a ih =>
    rw [List.cons_append, scanFrom, scanFrom]
    by_cases hc : c = '"'
    · subst hc
      have hflag : (if a.count '"' % 2 = 0 then !!quoted else !quoted) =
          if (('"' :: a).count '"') % 2 = 0 then !quoted else quoted := by
        rw [List.count_cons_self, Bool.not_not]
        by_cases hpar : a.count '"' % 2 = 0
        · rw [if_pos hpar, if_neg (by omega)]
        · rw [if_neg hpar, if_pos (by omega)]
      rw [if_pos rfl, if_pos rfl, ih, hflag, List.append_assoc]
    · rw [if_neg hc, if_neg hc, List.count_cons_of_ne hc]
      split
      · rw [ih, List.append_assoc]
      · rw [ih]

theorem scan_quoted {a q : List Char} (heven : a.count '"' % 2 = 0) (hq : '"' ∉ q) (hne : q ≠ [])
    (b : List Char) : scan (a ++ '"' :: q ++ '"' :: b) = scan a ++ q :: scan b := by
  have hcount : q.count '"' % 2 = 0 := by rw [List.count_eq_zero.mpr hq]
  have hverbatim : ∀ item, scanFrom true item q = token (item ++ q) := by
    clear hne hcount
    induction q with
    | nil => exact fun item => by rw [List.append_nil]; rfl
    | cons c q ih =>
      intro item
      have hc : c ≠ '"' := fun he => hq (he ▸ List.mem_cons_self)
      rw [scanFrom, if_neg hc, if_neg (by simp), ih (fun hm => hq (List.mem_cons_of_mem _ hm)),
        List.append_assoc, List.singleton_append]
  have hopen := scanFrom_quote a false [] (q ++ '"' :: b)
  rw [if_pos heven, Bool.not_false, scanFrom_quote q, if_pos hcount, hverbatim, List.nil_append,
    token_of_ne hne, List.singleton_append] at hopen
  rw [List.append_assoc]
  exact hopen

theorem open_joined {p now : List Char} (hn : now ≠ []) : Open (p.dropLast ++ ' ' :: now) ↔ Open now := by
  have hlast : (p.dropLast ++ ' ' :: now).getLast? = now.getLast? := by
    rw [List.getLast?_append_of_ne_nil _ (List.cons_ne_nil _ _)]
    cases now with
    | nil => exact absurd rfl hn
    | cons c cs => rfl
  unfold Open
  rw [hlast]

/-- The tokens that are not joined to a successor. -/
def closedCount (tokens : List (List Char)) : Nat := tokens.countP fun p => ¬Open p

theorem closedCount_append (xs ys : List (List Char)) :
    closedCount (xs ++ ys) = closedCount xs + closedCount ys := List.countP_append

theorem closedCount_cons (p : List Char) (tokens : List (List Char)) :
    closedCount (p :: tokens) = closedCount tokens + if Open p then 0 else 1 := by
  simp only [closedCount, List.countP_cons]
  by_cases hp : Open p <;> simp [hp]

theorem joinFrom_length (prev : List Char) {rest : List (List Char)} (hne : ∀ p ∈ rest, p ≠ []) :
    (joinFrom prev rest).length = closedCount (prev :: rest).dropLast + 1 := by
  induction rest generalizing prev with
  | nil => rfl
  | cons now rest ih =>
    have hnow := hne now List.mem_cons_self
    have hlater : ∀ p ∈ rest, p ≠ [] := fun p hp => hne p (List.mem_cons_of_mem _ hp)
    have hsame : ∀ p : List Char, closedCount ((p.dropLast ++ ' ' :: now) :: rest).dropLast =
        closedCount (now :: rest).dropLast := by
      intro p
      cases rest with
      | nil => rfl
      | cons q rest =>
        simp only [List.dropLast_cons_cons, closedCount_cons, open_joined hnow]
    rw [List.dropLast_cons_cons, closedCount_cons]
    by_cases hopen : Open prev
    · rw [joinFrom_open hopen, if_pos hopen, ih _ hlater, hsame]
    · rw [joinFrom_closed hopen, if_neg hopen, List.length_cons, ih _ hlater]

theorem joinTokens_length {tokens : List (List Char)} (hne : ∀ p ∈ tokens, p ≠ []) :
    (tokens = [] ∧ (joinTokens tokens).length = 0) ∨ ∃ before last, tokens = before ++ [last] ∧
      (joinTokens tokens).length = closedCount before + 1 := by
  rcases List.eq_nil_or_concat tokens with rfl | ⟨before, last, rfl⟩
  · exact .inl ⟨rfl, rfl⟩
  · right
    refine ⟨before, last, List.concat_eq_append, ?_⟩
    rw [List.concat_eq_append] at hne ⊢
    cases before with
    | nil => rfl
    | cons first before =>
      have hlength := joinFrom_length first (show ∀ p ∈ before ++ [last], p ≠ [] from
        fun p hp => hne p (List.mem_cons_of_mem _ hp))
      rw [← List.cons_append, List.dropLast_concat] at hlength
      exact hlength

/-- The arguments before the quoted text are counted right exactly if it is not joined to them. -/
theorem closedCount_eq_iff {tokens : List (List Char)} (hne : ∀ p ∈ tokens, p ≠ []) :
    closedCount tokens ≤ (joinTokens tokens).length ∧
      (closedCount tokens = (joinTokens tokens).length ↔
        ∀ p, tokens.getLast? = some p → ¬Open p) := by
  rcases joinTokens_length hne with ⟨rfl, h⟩ | ⟨before, last, rfl, h⟩
  · simp [closedCount, joinTokens]
  · rw [h, closedCount_append, closedCount_cons]
    by_cases hl : Open last
    · simp [hl, closedCount]
    · simp [hl, closedCount]

/-- The quoted text itself is counted right exactly if nothing is joined to it. -/
theorem closedCount_cons_eq_iff {q : List Char} {tokens : List (List Char)}
    (hne : ∀ p ∈ tokens, p ≠ []) :
    closedCount (q :: tokens).dropLast ≤ (joinTokens tokens).length ∧
      (closedCount (q :: tokens).dropLast = (joinTokens tokens).length ↔ (Open q → tokens = [])) := by
  rcases joinTokens_length hne with ⟨rfl, h⟩ | ⟨before, last, rfl, h⟩
  · simp [closedCount, joinTokens]
  · rw [h, ← List.cons_append, List.dropLast_concat, closedCount_cons]
    by_cases hq : Open q <;> simp [hq]

theorem joinFrom_append {prev : List Char} {rest : List (List Char)} {x : List Char}
    (hne : ∀ p ∈ rest, p ≠ []) (hlast : ∀ p, (prev :: rest).getLast? = some p → ¬Open p)
    (xs : List (List Char)) : joinFrom prev (rest ++ x :: xs) = joinFrom prev rest ++ joinFrom x xs := by
  induction rest generalizing prev with
  | nil =>
    have hprev : ¬Open prev := hlast prev rfl
    rw [List.nil_append, joinFrom_closed hprev]
    rfl
  | cons now rest ih =>
    have hnow := hne now List.mem_cons_self
    have hlater : ∀ p ∈ rest, p ≠ [] := fun p hp => hne p (List.mem_cons_of_mem _ hp)
    have hlast' : ∀ p, (now :: rest).getLast? = some p → ¬Open p := by
      rwa [List.getLast?_cons_cons] at hlast
    rw [List.cons_append]
    by_cases hopen : Open prev
    · rw [joinFrom_open hopen, joinFrom_open hopen]
      refine ih hlater fun p hp => ?_
      cases rest with
      | nil =>
        cases hp
        exact fun ho => hlast' now rfl ((open_joined hnow).mp ho)
      | cons y ys =>
        rw [List.getLast?_cons_cons] at hp hlast'
        exact hlast' p hp
    · rw [joinFrom_closed hopen, joinFrom_closed hopen, ih hlater hlast', List.cons_append]

theorem joinTokens_append {tokens : List (List Char)} {x : List Char} (hne : ∀ p ∈ tokens, p ≠ [])
    (hlast : ∀ p, tokens.getLast? = some p → ¬Open p) (xs : List (List Char)) :
    joinTokens (tokens ++ x :: xs) = joinTokens tokens ++ joinFrom x xs := by
  cases tokens with
  | nil => rfl
  | cons first rest => exact joinFrom_append (fun p hp => hne p (List.mem_cons_of_mem _ hp)) hlast xs

/-- A quoted text is an argument of its own, and leaves what stands around it alone, exactly if the
piece before it does not end in a backslash and it does not end in one itself, unless nothing
follows. -/
theorem quoted_verbatim_iff {a q : List Char} (heven : a.count '"' % 2 = 0) (hq : '"' ∉ q)
    (hne : q ≠ []) (b : List Char) :
    str2arg (a ++ '"' :: q ++ '"' :: b) = str2arg a ++ q :: str2arg b ↔
      (∀ p, (pieces 0 (split a '"')).getLast? = some p → ¬Open p) ∧
        (Open q → pieces 0 (split b '"') = []) := by
  have hnea := scanFrom_ne_nil a false []
  have hneb := scanFrom_ne_nil b false []
  change ∀ p ∈ scan a, p ≠ [] at hnea
  change ∀ p ∈ scan b, p ≠ [] at hneb
  rw [str2arg_eq_join, str2arg_eq_join, str2arg_eq_join, scan_quoted heven hq hne, pieces_eq_scan,
    pieces_eq_scan]
  constructor
  · intro heq
    have hnet : ∀ p ∈ scan a ++ q :: scan b, p ≠ [] := by
      intro p hp
      rcases List.mem_append.mp hp with hp | hp
      · exact hnea p hp
      · rcases List.mem_cons.mp hp with rfl | hp
        · exact hne
        · exact hneb p hp
    have hlength : (joinTokens (scan a ++ q :: scan b)).length =
        closedCount (scan a) + closedCount (q :: scan b).dropLast + 1 := by
      rcases joinTokens_length hnet with ⟨hnil, _⟩ | ⟨before, last, hsplit, hl⟩
      · simp at hnil
      · have hbefore : before = scan a ++ (q :: scan b).dropLast := by
          rw [← (List.dropLast_concat : (before ++ [last]).dropLast = before), ← hsplit,
            List.dropLast_append_of_ne_nil (List.cons_ne_nil _ _)]
        rw [hl, hbefore, closedCount_append]
    rw [heq, List.length_append, List.length_cons] at hlength
    obtain ⟨hle, hiff⟩ := closedCount_eq_iff hnea
    obtain ⟨hle', hiff'⟩ := closedCount_cons_eq_iff (q := q) hneb
    exact ⟨hiff.mp (by omega), hiff'.mp (by omega)⟩
  · rintro ⟨hlast, hopen⟩
    rw [joinTokens_append hnea hlast]
    cases hb : scan b with
    | nil => rfl
    | cons first rest =>
      have hclosed : ¬Open q := fun ho => by
        rw [hopen ho] at hb
        cases hb
      rw [joinFrom_closed hclosed]
      rfl

/-- A text that ends in a backslash takes in what stands after its closing quote. -/
theorem quoted_joined : str2arg "\"a\\\" b".toList = ["a b".toList] ∧
    ¬["a\\".toList].Sublist (str2arg "\"a\\\" b".toList) := by decide

theorem quoted_verbatim_iff_copy :
    str2arg ("cp ".toList ++ '"' :: "./file with spaces.txt".toList ++ '"' :: " ./output.txt".toList) =
      str2arg "cp ".toList ++ "./file with spaces.txt".toList :: str2arg " ./output.txt".toList ↔
      (∀ p, (pieces 0 (split "cp ".toList '"')).getLast? = some p → ¬Open p) ∧
        (Open "./file with spaces.txt".toList → pieces 0 (split " ./output.txt".toList '"') = []) :=
  quoted_verbatim_iff (by decide) (by decide) (by decide) _

/-- A space is written behind a backslash. -/
def escapeSpaces (p : List Char) : List Char := p.flatMap fun c => if c = ' ' then ['\\', ' '] else [c]

/-- The arguments with their spaces escaped, and single spaces between them. -/
def escapedLine : List (List Char) → List Char
  | [] => []
  | [p] => escapeSpaces p
  | p :: q :: rest => escapeSpaces p ++ ' ' :: escapedLine (q :: rest)

/-- The tokens that an escaped argument is cut into, and the last of them, which the next character
may go on; `item` is the token begun before. -/
def escapedTokens : List Char → List Char → List (List Char) × List Char
  | item, [] => ([], item)
  | item, c :: p =>
    if c = ' ' then
      ((item ++ ['\\']) :: (escapedTokens [] p).1, (escapedTokens [] p).2)
    else escapedTokens (item ++ [c]) p

variable {p : List Char} {args : List (List Char)}

theorem scanFrom_escaped (hq : '"' ∉ p) (item rest : List Char) :
    scanFrom false item (escapeSpaces p ++ rest) =
      (escapedTokens item p).1 ++ scanFrom false (escapedTokens item p).2 rest := by
  induction p generalizing item with
  | nil => rfl
  | cons c p ih =>
    have hp : '"' ∉ p := fun hm => hq (List.mem_cons_of_mem _ hm)
    have hc : c ≠ '"' := fun he => hq (he ▸ List.mem_cons_self)
    by_cases hspace : c = ' '
    · subst hspace
      have hescape : escapeSpaces (' ' :: p) = '\\' :: ' ' :: escapeSpaces p := rfl
      rw [hescape, List.cons_append, List.cons_append, scanFrom, if_neg (by decide),
        if_neg (by decide), scanFrom, if_neg (by decide), if_pos ⟨rfl, rfl⟩, ih hp, escapedTokens,
        if_pos rfl, token_of_ne (by simp)]
      rfl
    · have hescape : escapeSpaces (c :: p) = c :: escapeSpaces p := by
        simp [escapeSpaces, hspace]
      rw [hescape, List.cons_append, scanFrom, if_neg hc, if_neg fun h => hspace h.1, ih hp,
        escapedTokens, if_neg hspace]

/-- A token that follows one which ends in a backslash is put behind it. -/
def joinAfter (before : List Char) : List (List Char) → List (List Char)
  | [] => []
  | first :: rest => joinFrom (before ++ first) rest

theorem joinFrom_backslash (before : List Char) {tokens : List (List Char)} (hne : tokens ≠ []) :
    joinFrom (before ++ ['\\']) tokens = joinAfter (before ++ [' ']) tokens := by
  cases tokens with
  | nil => exact absurd rfl hne
  | cons now rest =>
    rw [joinFrom_open (by simp [Open]), List.dropLast_concat, joinAfter, List.append_assoc]
    rfl

/-- The tokens of an escaped argument are joined to the argument. -/
theorem joinAfter_escaped (before item : List Char) (rest : List (List Char))
    (hclosed : ¬Open (before ++ item ++ p)) (hend : (escapedTokens item p).2 ≠ []) :
    joinAfter before ((escapedTokens item p).1 ++ (escapedTokens item p).2 :: rest) =
      (before ++ item ++ p) :: joinTokens rest := by
  induction p generalizing before item with
  | nil =>
    rw [List.append_nil] at hclosed ⊢
    change joinFrom (before ++ item) rest = _
    cases rest with
    | nil => rfl
    | cons now rest => exact joinFrom_closed hclosed now rest
  | cons c p ih =>
    by_cases hspace : c = ' '
    · subst hspace
      have hsame : before ++ item ++ ' ' :: p = before ++ item ++ [' '] ++ [] ++ p := by simp
      simp only [escapedTokens, if_true] at hend ⊢
      rw [hsame] at hclosed ⊢
      rw [← ih (before ++ item ++ [' ']) [] hclosed hend, ← joinFrom_backslash _ (by simp),
        List.append_assoc before]
      rfl
    · have hsame : before ++ item ++ c :: p = before ++ (item ++ [c]) ++ p := by simp
      simp only [escapedTokens, if_neg hspace] at hend ⊢
      rw [hsame] at hclosed ⊢
      exact ih before (item ++ [c]) hclosed hend

theorem escapedTokens_end (hp : p ≠ []) (hs : p.getLast? ≠ some ' ') (item : List Char) :
    (escapedTokens item p).2 ≠ [] := by
  induction p generalizing item with
  | nil => exact absurd rfl hp
  | cons c p ih =>
    cases p with
    | nil =>
      have hc : c ≠ ' ' := fun he => hs (by rw [he]; rfl)
      simp [escapedTokens, hc]
    | cons d p =>
      rw [List.getLast?_cons_cons] at hs
      rw [escapedTokens]
      split
      · exact ih (List.cons_ne_nil _ _) hs []
      · exact ih (List.cons_ne_nil _ _) hs _

theorem joinTokens_escapedLine (hne : ∀ p ∈ args, p ≠ []) (hq : ∀ p ∈ args, '"' ∉ p)
    (hb : ∀ p ∈ args, '\\' ∉ p) (hs : ∀ p ∈ args, p.getLast? ≠ some ' ') :
    joinTokens (scan (escapedLine args)) = args := by
  induction args with
  | nil => rfl
  | cons p args ih =>
    have hend := escapedTokens_end (hne p List.mem_cons_self) (hs p List.mem_cons_self) []
    have hclosed : ¬Open ([] ++ [] ++ p) := fun ho =>
      hb p List.mem_cons_self (List.mem_of_getLast? ho)
    have hafter : ∀ tokens, joinTokens tokens = joinAfter [] tokens := by
      intro tokens
      cases tokens <;> rfl
    have hscan := fun rest => scanFrom_escaped (hq p List.mem_cons_self) [] rest
    cases args with
    | nil =>
      have htokens := hscan []
      rw [List.append_nil, scanFrom, token_of_ne hend] at htokens
      rw [escapedLine, scan, htokens, hafter, joinAfter_escaped [] [] [] hclosed hend]
      rfl
    | cons q rest =>
      have htokens := hscan (' ' :: escapedLine (q :: rest))
      rw [scanFrom, if_neg (by decide), if_pos ⟨rfl, rfl⟩, token_of_ne hend] at htokens
      have hih := ih (fun x hx => hne x (List.mem_cons_of_mem _ hx))
        (fun x hx => hq x (List.mem_cons_of_mem _ hx)) (fun x hx => hb x (List.mem_cons_of_mem _ hx))
        fun x hx => hs x (List.mem_cons_of_mem _ hx)
      rw [escapedLine, scan, htokens, hafter, List.singleton_append,
        joinAfter_escaped [] [] _ hclosed hend]
      exact congrArg (p :: ·) hih

/-- An unquoted text is cut into tokens without spaces. -/
theorem scanFrom_no_space {rest : List Char} (hq : '"' ∉ rest) {item : List Char} (hi : ' ' ∉ item) :
    ∀ p ∈ scanFrom false item rest, ' ' ∉ p := by
  have htoken : ∀ {item}, ' ' ∉ item → ∀ p ∈ token item, ' ' ∉ p := by
    intro item hi p hp
    unfold token at hp
    split at hp
    · cases hp
    · rwa [List.mem_singleton.mp hp]
  induction rest generalizing item with
  | nil => exact htoken hi
  | cons c rest ih =>
    have hrest : '"' ∉ rest := fun hm => hq (List.mem_cons_of_mem _ hm)
    have hc : c ≠ '"' := fun he => hq (he ▸ List.mem_cons_self)
    intro p hp
    rw [scanFrom, if_neg hc] at hp
    split at hp
    next => exact (List.mem_append.mp hp).elim (htoken hi p) (ih hrest List.not_mem_nil p)
    next hspace =>
      refine ih hrest ?_ p hp
      simp only [List.mem_append, List.mem_singleton, not_or]
      exact ⟨hi, fun he => hspace ⟨he.symm, rfl⟩⟩

theorem escapedLine_no_quote (hq : ∀ p ∈ args, '"' ∉ p) : '"' ∉ escapedLine args := by
  have hescape : ∀ {p : List Char}, '"' ∉ p → '"' ∉ escapeSpaces p := by
    intro p hp hm
    obtain ⟨c, hc, hm⟩ := List.mem_flatMap.mp hm
    split at hm
    · simp at hm
    · exact hp (List.mem_singleton.mp hm ▸ hc)
  induction args with
  | nil => exact List.not_mem_nil
  | cons p args ih =>
    cases args with
    | nil => exact hescape (hq p List.mem_cons_self)
    | cons q rest =>
      simp only [escapedLine, List.mem_append, List.mem_cons, not_or]
      exact ⟨hescape (hq p List.mem_cons_self), by decide,
        ih fun x hx => hq x (List.mem_cons_of_mem _ hx)⟩

/-- No argument of an unquoted text ends in a space. -/
theorem str2arg_no_last_space {ss : List Char} (hq : '"' ∉ ss) :
    ∀ p ∈ str2arg ss, p.getLast? ≠ some ' ' := by
  intro p hp
  rw [str2arg_eq_join] at hp
  refine (joinTokens_forall (P := fun p => p ≠ [] ∧ p.getLast? ≠ some ' ') (fun p q _ hq => ?_)
    (fun p hp => ⟨scanFrom_ne_nil ss false [] p hp, fun hl => ?_⟩) p hp).2
  · refine ⟨by simp, ?_⟩
    rw [List.getLast?_append_of_ne_nil _ (List.cons_ne_nil _ _)]
    obtain ⟨hne, hlast⟩ := hq
    cases q with
    | nil => exact absurd rfl hne
    | cons c cs => rwa [List.getLast?_cons_cons]
  · exact scanFrom_no_space hq List.not_mem_nil p hp (List.mem_of_getLast? hl)

/-- Arguments with their spaces escaped are read back exactly if none of them ends in a space. -/
theorem escaped_literal_iff (hne : ∀ p ∈ args, p ≠ []) (hq : ∀ p ∈ args, '"' ∉ p)
    (hb : ∀ p ∈ args, '\\' ∉ p) :
    str2arg (escapedLine args) = args ↔ ∀ p ∈ args, p.getLast? ≠ some ' ' := by
  constructor
  · intro heq p hp
    exact str2arg_no_last_space (escapedLine_no_quote hq) p (heq.symm ▸ hp)
  · intro hs
    rw [str2arg_eq_join]
    exact joinTokens_escapedLine hne hq hb hs

/-- The space at the end of the first argument is taken for the one between the two. -/
theorem escaped_space_lost :
    (∀ p ∈ ["a ".toList, "b".toList], p ≠ [] ∧ '"' ∉ p ∧ '\\' ∉ p) ∧
      str2arg (escapedLine ["a ".toList, "b".toList]) ≠ ["a ".toList, "b".toList] := by decide

theorem escaped_literal_iff_inner : str2arg (escapedLine [" a  b".toList, "c".toList]) =
      [" a  b".toList, "c".toList] ↔
    ∀ p ∈ [" a  b".toList, "c".toList], p.getLast? ≠ some ' ' :=
  escaped_literal_iff (by decide) (by decide) (by decide)

end Pexec
