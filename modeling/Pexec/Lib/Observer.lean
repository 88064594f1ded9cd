import Mathlib.Data.List.Induction

namespace Observer

variable {γ ι : Type}

/-- Where the automaton is after the events, if it has refused none of them. -/
def reads (next : γ → ι → Option γ) (c : γ) (events : List ι) : Option γ := events.foldlM next c

variable {next : γ → ι → Option γ} {c d : γ} {events rest : List ι}

@[simp] theorem reads_nil : reads next c [] = some c := rfl

theorem reads_append : reads next c (events ++ rest) = (reads next c events).bind (reads next · rest) :=
  List.foldlM_append

theorem reads_cons {e : ι} : reads next c (e :: events) = (next c e).bind (reads next · events) :=
  List.foldlM_cons

/-- A history is read up to where another takes over. -/
theorem reads_extend (h : reads next c events = some d) :
    reads next c (events ++ rest) = reads next d rest := by
  rw [reads_append, h, Option.bind_some]

theorem reads_singleton {e : ι} : reads next c [e] = next c e := by
  rw [reads_cons]
  exact Option.bind_fun_some (next c e)

/-- Events that the automaton passes over where it is. -/
theorem reads_skip (h : ∀ e ∈ events, next c e = some c) : reads next c events = some c := by
  induction events with
  | nil => rfl
  | cons e events ih =>
    rw [reads_cons, h e List.mem_cons_self, Option.bind_some]
    exact ih fun e' hm => h e' (List.mem_cons_of_mem e hm)

/-- What a run of the automaton says about the events it has read. -/
theorem reads_induction {P : γ → List ι → Prop} (h : reads next c events = some d) (start : P c [])
    (keep : ∀ c' read e d', P c' read → next c' e = some d' → P d' (read ++ [e])) : P d events := by
  induction events using List.reverseRec generalizing d with
  | nil =>
    cases h
    exact start
  | append_singleton events e ih =>
    rw [reads_append] at h
    obtain ⟨c', hc, he⟩ := Option.bind_eq_some_iff.mp h
    rw [reads_singleton] at he
    exact keep c' events e d (ih hc) he

end Observer
