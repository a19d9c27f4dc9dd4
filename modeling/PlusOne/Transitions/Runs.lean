import Mathlib.Algebra.Order.BigOperators.Group.Finset
import Mathlib.Data.List.Basic

/-! # Runs of a transition system

A system takes events one after another; `step` is `none` where an event cannot take place. -/

namespace Transitions

variable {σ ε : Type} (step : σ → ε → Option σ)

/-- Take a whole list of events. -/
def run : σ → List ε → Option σ
  | s, [] => some s
  | s, e :: es => (step s e).bind fun s' => run s' es

/-- The states some run leads to. -/
def Reachable (s t : σ) : Prop := ∃ es, run step s es = some t

variable {step} {s t u : σ} {e : ε} {es : List ε}

@[simp] theorem run_nil : run step s [] = some s := rfl

theorem run_cons_eq_some : run step s (e :: es) = some t ↔ ∃ s', step s e = some s' ∧ run step s' es = some t := by
  simp [run, Option.bind_eq_some_iff]

theorem run_append {es' : List ε} (h : run step s es = some t) : run step s (es ++ es') = run step t es' := by
  induction es generalizing s with
  | nil =>
    cases h
    rfl
  | cons e es ih =>
    obtain ⟨s', hs', hrun⟩ := run_cons_eq_some.1 h
    simp [run, hs', ih hrun]

theorem run_singleton (h : step s e = some t) : run step s [e] = some t := by
  simp [run, h]

theorem Reachable.refl : Reachable step s s := ⟨[], rfl⟩

theorem Reachable.next (h : Reachable step s t) (ht : step t e = some u) : Reachable step s u := by
  obtain ⟨es, hes⟩ := h
  exact ⟨es ++ [e], by rw [run_append hes, run_singleton ht]⟩

theorem Reachable.trans (h : Reachable step s t) (h' : Reachable step t u) : Reachable step s u := by
  obtain ⟨es, hes⟩ := h
  obtain ⟨es', hes'⟩ := h'
  exact ⟨es ++ es', by rw [run_append hes, hes']⟩

theorem Reachable.invariant {P : σ → Prop} (hstep : ∀ s e s', P s → step s e = some s' → P s')
    (h : Reachable step s t) (hs : P s) : P t := by
  obtain ⟨es, hes⟩ := h
  induction es generalizing s with
  | nil =>
    cases hes
    exact hs
  | cons e es ih =>
    obtain ⟨s', hs', hrun⟩ := run_cons_eq_some.1 hes
    exact ih (hstep s e s' hs hs') hrun

/-! ## Endless runs -/

/-- A run that never ends. -/
structure Endless (step : σ → ε → Option σ) (s : σ) where
  state : ℕ → σ
  event : ℕ → ε
  start : state 0 = s
  steps : ∀ n, step (state n) (event n) = some (state (n + 1))

theorem Endless.reachable (r : Endless step s) (n : ℕ) : Reachable step s (r.state n) := by
  induction n with
  | zero =>
    rw [r.start]
    exact .refl
  | succ n ih => exact ih.next (r.steps n)

/-- When no step raises the potential but by what its event brings, an endless run costs at most what it
started with and what its events bring. -/
theorem Endless.potential (r : Endless step s) {P : σ → Prop} {potential : σ → ℕ} {cost : σ → ε → ℕ} {gain : ε → ℕ}
    (hkeeps : ∀ s e s', P s → step s e = some s' → P s')
    (hstep : ∀ s e s', P s → step s e = some s' → potential s' + cost s e ≤ potential s + gain e)
    (hs : P s) (n : ℕ) :
    potential (r.state n) + ∑ k ∈ Finset.range n, cost (r.state k) (r.event k) ≤
      potential s + ∑ k ∈ Finset.range n, gain (r.event k) := by
  induction n with
  | zero => simp [r.start]
  | succ n ih =>
    have hn := (r.reachable n).invariant hkeeps hs
    have hlast := hstep _ _ _ hn (r.steps n)
    rw [Finset.sum_range_succ, Finset.sum_range_succ]
    omega

/-- An endless run to which only its beginning brings something has a bounded cost. -/
theorem Endless.bounded (r : Endless step s) {P : σ → Prop} {potential : σ → ℕ} {cost : σ → ε → ℕ} {gain : ε → ℕ}
    (hkeeps : ∀ s e s', P s → step s e = some s' → P s')
    (hstep : ∀ s e s', P s → step s e = some s' → potential s' + cost s e ≤ potential s + gain e)
    (hs : P s) {N : ℕ} (hgain : ∀ n, N ≤ n → gain (r.event n) = 0) (n : ℕ) :
    ∑ k ∈ Finset.range n, cost (r.state k) (r.event k) ≤
      potential s + ∑ k ∈ Finset.range N, gain (r.event k) := by
  have hpotential := r.potential hkeeps hstep hs n
  have hsum : ∑ k ∈ Finset.range n, gain (r.event k) ≤ ∑ k ∈ Finset.range N, gain (r.event k) := by
    refine Finset.sum_le_sum_of_ne_zero ?_
    intro k _ hk
    by_contra hlate
    rw [Finset.mem_range, not_lt] at hlate
    exact hk (hgain k hlate)
  omega

/-- What adds up to no more than a bound is nothing from some point on. -/
theorem eventually_zero {f : ℕ → ℕ} {bound : ℕ} (h : ∀ n, ∑ k ∈ Finset.range n, f k ≤ bound) :
    ∃ N, ∀ n, N ≤ n → f n = 0 := by
  by_contra hnot
  push Not at hnot
  have hgrows : ∀ m, ∃ n, m ≤ ∑ k ∈ Finset.range n, f k := by
    intro m
    induction m with
    | zero => exact ⟨0, Nat.zero_le _⟩
    | succ m ih =>
      obtain ⟨n, hn⟩ := ih
      obtain ⟨n', hle, hn'⟩ := hnot n
      have hsum : ∑ k ∈ Finset.range n, f k ≤ ∑ k ∈ Finset.range n', f k :=
        Finset.sum_le_sum_of_subset (Finset.range_mono hle)
      refine ⟨n' + 1, ?_⟩
      rw [Finset.sum_range_succ]
      omega
  obtain ⟨n, hn⟩ := hgrows (bound + 1)
  have hbound := h n
  omega

/-! ## Runs that come back -/

/-- A round under way: the event to take, and the events that are left until `P` holds. -/
structure Round (step : σ → ε → Option σ) (P : σ → Prop) (Q : ε → Prop) where
  state : σ
  event : ε
  rest : List ε
  last : σ
  leads : run step state (event :: rest) = some last
  events : ∀ e ∈ event :: rest, Q e
  back : P last

section Returning

variable {P : σ → Prop} {Q : ε → Prop} {count : σ → ℕ}

/-- From where `P` holds, some events, all as in `Q`, lead to where it holds again, and something has been
counted. -/
def Returns (step : σ → ε → Option σ) (P : σ → Prop) (Q : ε → Prop) (count : σ → ℕ) : Prop :=
  ∀ s, P s → ∃ es t, run step s es = some t ∧ (∀ e ∈ es, Q e) ∧ P t ∧ count s < count t

theorem Returns.exists_round (h : Returns step P Q count) (hs : P s) :
    ∃ round : Round step P Q, round.state = s ∧ count s < count round.last := by
  obtain ⟨es, t, hrun, hevents, ht, hcount⟩ := h s hs
  cases es with
  | nil =>
    cases hrun
    exact absurd hcount (Nat.lt_irrefl _)
  | cons e es => exact ⟨⟨s, e, es, t, hrun, hevents, ht⟩, rfl, hcount⟩

/-- After its event the round goes on, or the next one begins. -/
theorem Returns.exists_next (h : Returns step P Q count) (round : Round step P Q) :
    ∃ next : Round step P Q, step round.state round.event = some next.state ∧
      ((round.rest = next.event :: next.rest ∧ next.last = round.last) ∨
        (round.rest = [] ∧ next.state = round.last ∧ count round.last < count next.last)) := by
  obtain ⟨s', hs', hrun⟩ := run_cons_eq_some.1 round.leads
  cases hrest : round.rest with
  | nil =>
    rw [hrest] at hrun
    cases hrun
    obtain ⟨next, hstate, hcount⟩ := h.exists_round round.back
    exact ⟨next, by rw [hs', hstate], Or.inr ⟨rfl, hstate, hcount⟩⟩
  | cons e es =>
    rw [hrest] at hrun
    have hevents : ∀ e' ∈ e :: es, Q e' := by
      intro e' he'
      rw [← hrest] at he'
      exact round.events e' (List.mem_cons_of_mem _ he')
    exact ⟨⟨s', e, es, round.last, hrun, hevents, round.back⟩, hs', Or.inl ⟨rfl, rfl⟩⟩

/-- The rounds one after another, each seen from every one of its states. -/
noncomputable def Returns.rounds (h : Returns step P Q count) (round : Round step P Q) : ℕ → Round step P Q
  | 0 => round
  | n + 1 => (h.exists_next (h.rounds round n)).choose

theorem Returns.rounds_succ (h : Returns step P Q count) (round : Round step P Q) (n : ℕ) :
    step (h.rounds round n).state (h.rounds round n).event = some (h.rounds round (n + 1)).state ∧
      (((h.rounds round n).rest = (h.rounds round (n + 1)).event :: (h.rounds round (n + 1)).rest ∧
          (h.rounds round (n + 1)).last = (h.rounds round n).last) ∨
        ((h.rounds round n).rest = [] ∧ (h.rounds round (n + 1)).state = (h.rounds round n).last ∧
          count (h.rounds round n).last < count (h.rounds round (n + 1)).last)) :=
  (h.exists_next (h.rounds round n)).choose_spec

/-- Every round is followed by one that counts more. -/
theorem Returns.rounds_grow (h : Returns step P Q count) (round : Round step P Q) (k n : ℕ)
    (hk : (h.rounds round n).rest.length = k) : ∃ m, n ≤ m ∧ (h.rounds round m).state = (h.rounds round n).last ∧
      count (h.rounds round n).last < count (h.rounds round m).last := by
  induction k generalizing n with
  | zero =>
    obtain ⟨-, ⟨hrest, -⟩ | ⟨-, hstate, hcount⟩⟩ := h.rounds_succ round n
    · rw [hrest] at hk
      simp at hk
    · exact ⟨n + 1, Nat.le_succ _, hstate, hcount⟩
  | succ k ih =>
    obtain ⟨-, ⟨hrest, hlast⟩ | ⟨hrest, -, -⟩⟩ := h.rounds_succ round n
    · rw [hrest, List.length_cons] at hk
      obtain ⟨m, hm, hnext⟩ := ih (n + 1) (by omega)
      rw [hlast] at hnext
      exact ⟨m, (Nat.le_succ _).trans hm, hnext⟩
    · rw [hrest] at hk
      simp at hk

/-- Runs that come back again and again make an endless run that counts beyond every bound. -/
theorem Returns.exists_endless (h : Returns step P Q count) (hs : P s) :
    ∃ r : Endless step s, (∀ n, Q (r.event n)) ∧ (∀ n, ∃ m, n ≤ m ∧ P (r.state m)) ∧
      ∀ bound, ∃ n, bound ≤ count (r.state n) := by
  obtain ⟨round, hstate, -⟩ := h.exists_round hs
  refine ⟨⟨fun n => (h.rounds round n).state, fun n => (h.rounds round n).event, hstate,
    fun n => (h.rounds_succ round n).1⟩, fun n => (h.rounds round n).events _ (by simp), ?_, ?_⟩
  · intro n
    obtain ⟨m, hm, hstate, -⟩ := h.rounds_grow round _ n rfl
    refine ⟨m, hm, ?_⟩
    simp only [hstate]
    exact (h.rounds round n).back
  · have hlast : ∀ bound, ∃ n, bound ≤ count (h.rounds round n).last := by
      intro bound
      induction bound with
      | zero => exact ⟨0, Nat.zero_le _⟩
      | succ bound ih =>
        obtain ⟨n, hn⟩ := ih
        obtain ⟨m, -, -, hm⟩ := h.rounds_grow round _ n rfl
        exact ⟨m, by omega⟩
    intro bound
    obtain ⟨n, hn⟩ := hlast bound
    obtain ⟨m, -, hm, -⟩ := h.rounds_grow round _ n rfl
    exact ⟨m, by simpa [hm] using hn⟩

/-- An endless run can be put after the events that lead to its start. -/
theorem Endless.exists_after (hrun : run step s es = some t) (r : Endless step t) :
    ∃ r' : Endless step s, ∀ n, r'.state (n + es.length) = r.state n ∧ r'.event (n + es.length) = r.event n := by
  induction es generalizing s with
  | nil =>
    cases hrun
    exact ⟨r, fun n => ⟨rfl, rfl⟩⟩
  | cons e es ih =>
    obtain ⟨s', hs', hrun⟩ := run_cons_eq_some.1 hrun
    obtain ⟨r', hr'⟩ := ih hrun
    refine ⟨⟨fun n => n.casesOn s r'.state, fun n => n.casesOn e r'.event, rfl, ?_⟩, hr'⟩
    intro n
    cases n with
    | zero => simpa [r'.start] using hs'
    | succ n => exact r'.steps n

end Returning

end Transitions
