import Mathlib.Data.List.Nodup
import PlusOne.Memory.ResourceMutex

/-! # Runs under the mutex

The calls of a resource that are not over stand in the order in which they were made, and
only the first of them is past its wait. What the calls that are over left to each other
is therefore what they leave when they run one at a time. -/

namespace PlusOne

open Interleaving

variable {ι κ Op : Type} {Resp : Op → Type} {ε α δ : Type} {C : Cell Op Resp ε δ}

/-! ## The invariant -/

/-- The books of the mutex, for resources that began with `d₀`. -/
structure MutexSys.Sound (d₀ : κ → δ) (s : MutexSys ι κ δ) : Prop where
  fresh : ∀ resourceId, ∀ entry ∈ s.queue resourceId, entry.2 < s.promises ∧ entry.2 ∉ s.released
  distinct : ∀ resourceId, ((s.queue resourceId).map Prod.snd).Nodup
  apart : ∀ resourceId resourceId', ∀ entry ∈ s.queue resourceId, ∀ entry' ∈ s.queue resourceId',
    entry.2 = entry'.2 → resourceId = resourceId'
  bounded : ∀ promise ∈ s.released, promise < s.promises
  tails : ∀ resourceId, s.tails resourceId = (s.queue resourceId).getLast?.map Prod.snd
  made : ∀ resourceId, s.made resourceId =
    (s.served resourceId).map Prod.fst ++ (s.queue resourceId).map Prod.fst
  once : ∀ resourceId, (s.made resourceId).Nodup
  single : ∀ i resourceId resourceId', i ∈ s.made resourceId → i ∈ s.made resourceId' →
    resourceId = resourceId'
  idle : ∀ resourceId, s.queue resourceId = [] →
    s.value resourceId = lastValue (d₀ resourceId) (s.served resourceId)

/-- The call waits for the one before it, or nothing is before it. -/
def Waiting (d₀ : κ → δ) (i : ι) (resourceId : κ) (previous : Option Nat) (current : Nat)
    (s : MutexSys ι κ δ) : Prop :=
  ∃ before after, s.queue resourceId = before ++ (i, current) :: after ∧
    (∀ entry, before.getLast? = some entry → previous = some entry.2) ∧
    (before = [] → (∀ promise, previous = some promise → promise ∈ s.released) ∧
      s.value resourceId = lastValue (d₀ resourceId) (s.served resourceId))

/-- The call is the first of those that are not over. -/
def Foremost (i : ι) (resourceId : κ) (current : Nat) (s : MutexSys ι κ δ) : Prop :=
  ∃ after, s.queue resourceId = (i, current) :: after

namespace MutexSys

variable {d₀ : κ → δ} {s : MutexSys ι κ δ} {i j : ι} {resourceId : κ} {current : Nat}

theorem atRest_sound (d₀ : κ → δ) : (atRest d₀ : MutexSys ι κ δ).Sound d₀ where
  fresh := fun _ _ hentry => by cases hentry
  distinct := fun _ => List.nodup_nil
  apart := fun _ _ _ hentry => by cases hentry
  bounded := fun _ hpromise => by cases hpromise
  tails := fun _ => rfl
  made := fun _ => rfl
  once := fun _ => List.nodup_nil
  single := fun _ _ _ hmade => by cases hmade
  idle := fun _ _ => rfl

theorem Sound.filter_queue (h : s.Sound d₀) {after : List (ι × Nat)}
    (hqueue : s.queue resourceId = (i, current) :: after) :
    ((s.queue resourceId).filter fun entry => decide (entry.2 ≠ current)) = after := by
  have hdistinct := h.distinct resourceId
  rw [hqueue, List.map_cons, List.nodup_cons] at hdistinct
  rw [hqueue, List.filter_cons_of_neg (by simp), List.filter_eq_self]
  intro entry hentry
  apply decide_eq_true
  intro heq
  have hin : entry.2 ∈ after.map Prod.snd := List.mem_map_of_mem hentry
  rw [heq] at hin
  exact hdistinct.1 hin

variable [DecidableEq κ]

theorem Sound.entered (h : s.Sound d₀) (hmade : ∀ resourceId, i ∉ s.made resourceId) :
    (s.entered i resourceId).Sound d₀ := by
  have hbelow : ∀ other, ∀ entry ∈ s.queue other, entry.2 ≠ s.promises := by
    intro other entry hentry heq
    have hlt := (h.fresh other entry hentry).1
    omega
  have hqueue : ∀ other, ∀ entry ∈ (s.entered i resourceId).queue other,
      entry ∈ s.queue other ∨ other = resourceId ∧ entry = (i, s.promises) := by
    intro other entry hentry
    by_cases hother : other = resourceId
    · subst hother
      simp only [MutexSys.entered, Function.update_self, List.mem_append, List.mem_singleton] at hentry
      rcases hentry with hold | hnew
      · exact .inl hold
      · exact .inr ⟨rfl, hnew⟩
    · simp only [MutexSys.entered, Function.update_of_ne hother] at hentry
      exact .inl hentry
  constructor
  · intro other entry hentry
    rcases hqueue other entry hentry with hold | ⟨_, rfl⟩
    · have hfresh := h.fresh other entry hold
      exact ⟨Nat.lt_succ_of_lt hfresh.1, hfresh.2⟩
    · refine ⟨Nat.lt_succ_self _, ?_⟩
      intro hreleased
      exact Nat.lt_irrefl _ (h.bounded _ hreleased)
  · intro other
    by_cases hother : other = resourceId
    · subst hother
      simp only [MutexSys.entered, Function.update_self]
      rw [List.map_append, List.map_singleton, ← List.concat_eq_append]
      apply (h.distinct other).concat
      intro hmem
      obtain ⟨entry, hentry, heq⟩ := List.mem_map.1 hmem
      exact hbelow other entry hentry heq
    · simp only [MutexSys.entered, Function.update_of_ne hother]
      exact h.distinct other
  · intro first second entry hentry entry' hentry' heq
    rcases hqueue first entry hentry with hold | ⟨rfl, rfl⟩
    · rcases hqueue second entry' hentry' with hold' | ⟨_, rfl⟩
      · exact h.apart first second entry hold entry' hold' heq
      · exact absurd heq (hbelow first entry hold)
    · rcases hqueue second entry' hentry' with hold' | ⟨rfl, _⟩
      · exact absurd heq.symm (hbelow second entry' hold')
      · rfl
  · intro promise hpromise
    exact Nat.lt_succ_of_lt (h.bounded promise hpromise)
  · intro other
    by_cases hother : other = resourceId
    · subst hother
      simp [MutexSys.entered]
    · simp only [MutexSys.entered, Function.update_of_ne hother]
      exact h.tails other
  · intro other
    by_cases hother : other = resourceId
    · subst hother
      simp [MutexSys.entered, h.made other]
    · simp only [MutexSys.entered, Function.update_of_ne hother]
      exact h.made other
  · intro other
    by_cases hother : other = resourceId
    · subst hother
      simp only [MutexSys.entered, Function.update_self]
      rw [← List.concat_eq_append]
      exact (h.once other).concat (hmade other)
    · simp only [MutexSys.entered, Function.update_of_ne hother]
      exact h.once other
  · have hcases : ∀ j other, j ∈ (s.entered i resourceId).made other →
        j ∈ s.made other ∨ j = i ∧ other = resourceId := by
      intro j other hj
      by_cases hother : other = resourceId
      · subst hother
        simp only [MutexSys.entered, Function.update_self, List.mem_append, List.mem_singleton] at hj
        rcases hj with hold | hnew
        · exact .inl hold
        · exact .inr ⟨hnew, rfl⟩
      · simp only [MutexSys.entered, Function.update_of_ne hother] at hj
        exact .inl hj
    intro j first second hfirst hsecond
    rcases hcases j first hfirst with hold | ⟨rfl, rfl⟩
    · rcases hcases j second hsecond with hold' | ⟨rfl, _⟩
      · exact h.single j first second hold hold'
      · exact absurd hold (hmade first)
    · rcases hcases j second hsecond with hold' | ⟨_, rfl⟩
      · exact absurd hold' (hmade second)
      · rfl
  · intro other hidle
    by_cases hother : other = resourceId
    · subst hother
      simp [MutexSys.entered] at hidle
    · simp only [MutexSys.entered, Function.update_of_ne hother] at hidle ⊢
      exact h.idle other hidle

theorem Sound.leaved (h : s.Sound d₀) (hforemost : Foremost i resourceId current s) :
    (s.leaved i resourceId current).Sound d₀ := by
  obtain ⟨after, hqueue⟩ := hforemost
  have hfilter := h.filter_queue hqueue
  have hmem : (i, current) ∈ s.queue resourceId := by
    rw [hqueue]
    exact List.mem_cons_self ..
  have hafter : ∀ entry ∈ after, entry ∈ s.queue resourceId := by
    intro entry hentry
    rw [hqueue]
    exact List.mem_cons_of_mem _ hentry
  have hrest : ∀ other, ∀ entry ∈ (s.leaved i resourceId current).queue other,
      entry ∈ s.queue other ∧ entry.2 ≠ current := by
    intro other entry hentry
    by_cases hother : other = resourceId
    · subst hother
      simp only [MutexSys.leaved, Function.update_self, List.mem_filter, decide_eq_true_eq] at hentry
      exact hentry
    · simp only [MutexSys.leaved, Function.update_of_ne hother] at hentry
      refine ⟨hentry, ?_⟩
      intro heq
      exact hother (h.apart other resourceId entry hentry _ hmem heq)
  constructor
  · intro other entry hentry
    obtain ⟨hold, hne⟩ := hrest other entry hentry
    have hfresh := h.fresh other entry hold
    refine ⟨hfresh.1, ?_⟩
    intro hreleased
    rcases List.mem_cons.1 hreleased with heq | hbefore
    · exact hne heq
    · exact hfresh.2 hbefore
  · intro other
    by_cases hother : other = resourceId
    · subst hother
      simp only [MutexSys.leaved, Function.update_self]
      exact (h.distinct other).sublist (List.filter_sublist.map _)
    · simp only [MutexSys.leaved, Function.update_of_ne hother]
      exact h.distinct other
  · intro first second entry hentry entry' hentry' heq
    exact h.apart first second entry (hrest first entry hentry).1 entry' (hrest second entry' hentry').1 heq
  · intro promise hpromise
    rcases List.mem_cons.1 hpromise with rfl | hbefore
    · exact (h.fresh resourceId _ hmem).1
    · exact h.bounded promise hbefore
  · intro other
    have htails := h.tails resourceId
    rw [hqueue] at htails
    by_cases hother : other = resourceId
    · subst hother
      simp only [MutexSys.leaved, Function.update_self, hfilter]
      cases after with
      | nil =>
        have hlast : s.tails other = some current := htails
        rw [if_pos hlast, Function.update_self]
        rfl
      | cons next rest =>
        have hlast : s.tails other = ((next :: rest).getLast?).map Prod.snd := by
          rw [htails, List.getLast?_cons_cons]
        have hother : s.tails other ≠ some current := by
          intro heq
          rw [hlast] at heq
          obtain ⟨entry, hentry, hpromise⟩ := Option.map_eq_some_iff.1 heq
          have hdistinct := h.distinct other
          rw [hqueue, List.map_cons, List.nodup_cons] at hdistinct
          have hin := List.mem_map_of_mem (f := Prod.snd) (List.mem_of_getLast? hentry)
          rw [hpromise] at hin
          exact hdistinct.1 hin
        rw [if_neg hother]
        exact hlast
    · simp only [MutexSys.leaved, Function.update_of_ne hother]
      split_ifs
      · rw [Function.update_of_ne hother]
        exact h.tails other
      · exact h.tails other
  · intro other
    by_cases hother : other = resourceId
    · subst hother
      have hmade := h.made other
      rw [hqueue] at hmade
      simp only [MutexSys.leaved, Function.update_self, hfilter, hmade]
      simp
    · simp only [MutexSys.leaved, Function.update_of_ne hother]
      exact h.made other
  · exact h.once
  · exact h.single
  · intro other hidle
    by_cases hother : other = resourceId
    · subst hother
      simp only [MutexSys.leaved, Function.update_self, lastValue_concat]
    · simp only [MutexSys.leaved, Function.update_of_ne hother] at hidle ⊢
      exact h.idle other hidle

theorem Sound.inside (h : s.Sound d₀) (hforemost : Foremost i resourceId current s) (d : δ) :
    ({ s with value := Function.update s.value resourceId d } : MutexSys ι κ δ).Sound d₀ := by
  refine ⟨h.fresh, h.distinct, h.apart, h.bounded, h.tails, h.made, h.once, h.single, ?_⟩
  intro other hidle
  have hother : other ≠ resourceId := by
    intro heq
    subst heq
    obtain ⟨after, hqueue⟩ := hforemost
    rw [show s.queue other = [] from hidle] at hqueue
    cases hqueue
  simp only [Function.update_of_ne hother]
  exact h.idle other hidle

end MutexSys

/-! ## What the others leave a call -/

/-- Of the books, what a call may rely on while others move. -/
structure Keeps (d₀ : κ → δ) (i : ι) (s s' : MutexSys ι κ δ) : Prop where
  unmade : ∀ resourceId, i ∉ s.made resourceId → i ∉ s'.made resourceId
  waiting : ∀ resourceId previous current, Waiting d₀ i resourceId previous current s →
    Waiting d₀ i resourceId previous current s'
  holder : ∀ resourceId current, Foremost i resourceId current s → Foremost i resourceId current s' ∧
    s'.value resourceId = s.value resourceId ∧ s'.served resourceId = s.served resourceId
  served : ∀ resourceId, s.served resourceId <+: s'.served resourceId

namespace Keeps

variable {d₀ : κ → δ} {i j : ι} {s s' s'' : MutexSys ι κ δ} {resourceId : κ} {current : Nat}

theorem refl (s : MutexSys ι κ δ) : Keeps d₀ i s s :=
  ⟨fun _ h => h, fun _ _ _ h => h, fun _ _ h => ⟨h, rfl, rfl⟩, fun _ => List.prefix_rfl⟩

theorem trans (h : Keeps d₀ i s s') (h' : Keeps d₀ i s' s'') : Keeps d₀ i s s'' where
  unmade := fun other hunmade => h'.unmade other (h.unmade other hunmade)
  waiting := fun other previous current hwaiting =>
    h'.waiting other previous current (h.waiting other previous current hwaiting)
  holder := by
    intro other current hforemost
    obtain ⟨hforemost', hvalue, hserved⟩ := h.holder other current hforemost
    obtain ⟨hforemost'', hvalue', hserved'⟩ := h'.holder other current hforemost'
    exact ⟨hforemost'', hvalue'.trans hvalue, hserved'.trans hserved⟩
  served := fun other => (h.served other).trans (h'.served other)

/-- A call that is not the first has one before it. -/
theorem not_first (hne : j ≠ i) (hforemost : Foremost j resourceId current s)
    {before after : List (ι × Nat)} {mine : Nat}
    (hqueue : s.queue resourceId = before ++ (i, mine) :: after) :
    ∃ rest, before = (j, current) :: rest := by
  obtain ⟨tail, hfirst⟩ := hforemost
  rw [hfirst] at hqueue
  cases before with
  | nil =>
    rw [List.nil_append, List.cons.injEq, Prod.mk.injEq] at hqueue
    exact absurd hqueue.1.1 hne
  | cons first rest =>
    rw [List.cons_append, List.cons.injEq] at hqueue
    exact ⟨rest, by rw [← hqueue.1]⟩

variable [DecidableEq κ]

theorem entered (hne : j ≠ i) : Keeps d₀ i s (s.entered j resourceId) where
  unmade := by
    intro other hunmade
    by_cases hother : other = resourceId
    · subst hother
      simp only [MutexSys.entered, Function.update_self, List.mem_append, List.mem_singleton]
      intro hmem
      rcases hmem with hold | hnew
      · exact hunmade hold
      · exact hne hnew.symm
    · simpa only [MutexSys.entered, Function.update_of_ne hother] using hunmade
  waiting := by
    intro other previous current hwaiting
    obtain ⟨before, after, hqueue, hlast, hfirst⟩ := hwaiting
    by_cases hother : other = resourceId
    · subst hother
      refine ⟨before, after ++ [(j, s.promises)], ?_, hlast, hfirst⟩
      simp only [MutexSys.entered, Function.update_self, hqueue]
      simp
    · refine ⟨before, after, ?_, hlast, hfirst⟩
      simpa only [MutexSys.entered, Function.update_of_ne hother] using hqueue
  holder := by
    intro other current hforemost
    obtain ⟨after, hqueue⟩ := hforemost
    refine ⟨?_, rfl, rfl⟩
    by_cases hother : other = resourceId
    · subst hother
      refine ⟨after ++ [(j, s.promises)], ?_⟩
      simp only [MutexSys.entered, Function.update_self, hqueue]
      rfl
    · refine ⟨after, ?_⟩
      simpa only [MutexSys.entered, Function.update_of_ne hother] using hqueue
  served := fun _ => List.prefix_rfl

theorem leaved (h : s.Sound d₀) (hne : j ≠ i) (hforemost : Foremost j resourceId current s) :
    Keeps d₀ i s (s.leaved j resourceId current) where
  unmade := fun _ hunmade => hunmade
  waiting := by
    intro other previous mine hwaiting
    obtain ⟨before, after, hqueue, hlast, hfirst⟩ := hwaiting
    by_cases hother : other = resourceId
    · subst hother
      obtain ⟨rest, rfl⟩ := not_first hne hforemost hqueue
      refine ⟨rest, after, ?_, ?_, ?_⟩
      · simp only [MutexSys.leaved, Function.update_self]
        exact h.filter_queue hqueue
      · intro entry hentry
        apply hlast
        cases rest with
        | nil => cases hentry
        | cons second rest => rw [List.getLast?_cons_cons, hentry]
      · intro hrest
        subst hrest
        have hprevious : previous = some current := hlast (j, current) rfl
        constructor
        · intro promise hpromise
          rw [hprevious, Option.some.injEq] at hpromise
          rw [← hpromise]
          exact List.mem_cons_self ..
        · simp only [MutexSys.leaved, Function.update_self, lastValue_concat]
    · refine ⟨before, after, ?_, hlast, ?_⟩
      · simpa only [MutexSys.leaved, Function.update_of_ne hother] using hqueue
      · intro hbefore
        obtain ⟨hreleased, hvalue⟩ := hfirst hbefore
        simp only [MutexSys.leaved, Function.update_of_ne hother]
        exact ⟨fun promise hpromise => List.mem_cons_of_mem _ (hreleased promise hpromise), hvalue⟩
  holder := by
    intro other mine hmine
    obtain ⟨after, hqueue⟩ := hmine
    have hother : other ≠ resourceId := by
      intro heq
      subst heq
      have hqueue' : s.queue other = [] ++ (i, mine) :: after := hqueue
      obtain ⟨rest, hrest⟩ := not_first hne hforemost hqueue'
      cases hrest
    refine ⟨⟨after, ?_⟩, rfl, ?_⟩
    · simpa only [MutexSys.leaved, Function.update_of_ne hother] using hqueue
    · simp only [MutexSys.leaved, Function.update_of_ne hother]
  served := by
    intro other
    by_cases hother : other = resourceId
    · subst hother
      simp only [MutexSys.leaved, Function.update_self]
      exact List.prefix_append _ _
    · simp only [MutexSys.leaved, Function.update_of_ne hother]
      exact List.prefix_rfl

theorem inside (hne : j ≠ i) (hforemost : Foremost j resourceId current s) (d : δ) :
    Keeps d₀ i s { s with value := Function.update s.value resourceId d } where
  unmade := fun _ hunmade => hunmade
  waiting := by
    intro other previous mine hwaiting
    obtain ⟨before, after, hqueue, hlast, hfirst⟩ := hwaiting
    refine ⟨before, after, hqueue, hlast, ?_⟩
    intro hbefore
    have hother : other ≠ resourceId := by
      intro heq
      subst heq
      obtain ⟨rest, hrest⟩ := not_first hne hforemost hqueue
      rw [hbefore] at hrest
      cases hrest
    simp only [Function.update_of_ne hother]
    exact hfirst hbefore
  holder := by
    intro other mine hmine
    obtain ⟨after, hqueue⟩ := hmine
    have hother : other ≠ resourceId := by
      intro heq
      subst heq
      have hqueue' : s.queue other = [] ++ (i, mine) :: after := hqueue
      obtain ⟨rest, hrest⟩ := not_first hne hforemost hqueue'
      cases hrest
    exact ⟨⟨after, hqueue⟩, by simp only [Function.update_of_ne hother], rfl⟩
  served := fun _ => List.prefix_rfl

end Keeps

/-! ## The discipline -/

section Discipline

variable [DecidableEq κ]

/-- Where a call of the mutex is allowed: its operation steps only while it is the first, and only
where `A` holds. -/
def MutexCall.allowed (d₀ : κ → δ) (A : ι → Op → δ → Prop) (i : ι) (s : MutexSys ι κ δ) :
    MutexCall κ Op → Prop
  | .enter _ => ∀ resourceId, i ∉ s.made resourceId
  | .await previous => ∃ resourceId current, Waiting d₀ i resourceId previous current s
  | .leave resourceId current => Foremost i resourceId current s
  | .inside resourceId op => (∃ current, Foremost i resourceId current s) ∧ A i op (s.value resourceId)

def mutexDiscipline (C : Cell Op Resp ε δ) (d₀ : κ → δ) (A : ι → Op → δ → Prop) :
    Discipline (mutexSystem C ι κ) (Guard.all (mutexSystem C ι κ)) where
  Inv s := s.Sound d₀
  rely := Keeps d₀
  allowed i call s := call.allowed d₀ A i s
  rely_refl := fun _ s => .refl s
  rely_trans := fun h h' => h.trans h'

theorem run_inside {i : ι} {resourceId : κ} {op : Op} {choice : MutexChoice C}
    {r : Except ε (Resp op)} {s s' : MutexSys ι κ δ}
    (h : MutexSys.run C i (.inside resourceId op) choice s = some (r, s')) :
    ∃ inner d, C.run op inner (s.value resourceId) = some (r, d) ∧
      s' = { s with value := Function.update s.value resourceId d } := by
  cases choice with
  | sync => cases h
  | inside inner =>
    obtain ⟨⟨r', d⟩, hstep, heq⟩ := Option.map_eq_some_iff.1 h
    cases heq
    exact ⟨inner, d, hstep, rfl⟩

theorem run_await {i : ι} {previous : Option Nat} {choice : MutexChoice C} {r : Except ε Unit}
    {s s' : MutexSys ι κ δ} (h : MutexSys.run C i (.await previous) choice s = some (r, s')) :
    r = .ok () ∧ s' = s ∧ ∀ promise, previous = some promise → promise ∈ s.released := by
  cases choice with
  | inside inner => cases previous <;> cases h
  | sync =>
    cases previous with
    | none =>
      cases h
      exact ⟨rfl, rfl, fun _ hsome => by cases hsome⟩
    | some promise =>
      simp only [MutexSys.run] at h
      split_ifs at h with hreleased
      cases h
      refine ⟨rfl, rfl, ?_⟩
      intro other hother
      cases hother
      exact hreleased

variable {d₀ : κ → δ} {A : ι → Op → δ → Prop}

theorem mutexDiscipline_sound : (mutexDiscipline C d₀ A).Sound where
  inv_call := by
    intro i call choice s r s' hinv hallowed _ hrun
    cases call with
    | enter resourceId =>
      cases choice <;> cases hrun
      exact hinv.entered hallowed
    | await previous =>
      obtain ⟨_, rfl, _⟩ := run_await hrun
      exact hinv
    | leave resourceId current =>
      cases choice <;> cases hrun
      exact hinv.leaved hallowed
    | inside resourceId op =>
      obtain ⟨_, d, _, rfl⟩ := run_inside hrun
      obtain ⟨⟨current, hforemost⟩, _⟩ := hallowed
      exact hinv.inside hforemost d
  rely_call := by
    intro i j call choice s r s' hinv hallowed _ hrun hne
    cases call with
    | enter resourceId =>
      cases choice <;> cases hrun
      exact .entered hne
    | await previous =>
      obtain ⟨_, rfl, _⟩ := run_await hrun
      exact .refl _
    | leave resourceId current =>
      cases choice <;> cases hrun
      exact .leaved hinv hne hallowed
    | inside resourceId op =>
      obtain ⟨_, d, _, rfl⟩ := run_inside hrun
      obtain ⟨⟨current, hforemost⟩, _⟩ := hallowed
      exact .inside hne hforemost d
  inv_env := fun {move} => by cases move
  rely_env := fun {_ move} => by cases move
  inv_leave := fun hinv => hinv
  rely_leave := fun _ _ => .refl _

/-! ## One call -/

/-- The call is the first, on the value `d`, after the calls of the log. -/
def InPlace (i : ι) (resourceId : κ) (current : Nat) (served : List (ι × δ)) (d : δ)
    (s : MutexSys ι κ δ) : Prop :=
  Foremost i resourceId current s ∧ s.value resourceId = d ∧ s.served resourceId = served

/-- The call is over, and did what it can do alone where the calls before it left the resource. -/
def Over (C : Cell Op Resp ε δ) (d₀ : κ → δ) (i : ι) (resourceId : κ) (operation : Prog Op Resp ε α)
    (out : Except ε α) (s : MutexSys ι κ δ) : Prop :=
  ∃ n d, (s.served resourceId)[n]? = some (i, d) ∧
    Exec C operation (valueBefore (d₀ resourceId) (s.served resourceId) n) out d

variable {i : ι} {resourceId : κ} {current : Nat} {served : List (ι × δ)} {d : δ}

theorem stable_inPlace :
    (mutexDiscipline C d₀ A).Stable i (InPlace i resourceId current served d) := by
  intro s s' _ hrely h
  obtain ⟨hforemost, hvalue, hserved⟩ := h
  obtain ⟨hforemost', hvalue', hserved'⟩ := hrely.holder resourceId current hforemost
  exact ⟨hforemost', hvalue'.trans hvalue, hserved'.trans hserved⟩

theorem stable_over {operation : Prog Op Resp ε α} {out : Except ε α} :
    (mutexDiscipline C d₀ A).Stable i (Over C d₀ i resourceId operation out) := by
  intro s s' _ hrely h
  obtain ⟨n, d, hn, hexec⟩ := h
  obtain ⟨more, hmore⟩ := hrely.served resourceId
  have hlt : n < (s.served resourceId).length := (List.getElem?_eq_some_iff.1 hn).1
  refine ⟨n, d, ?_, ?_⟩
  · rw [← hmore, List.getElem?_append_left hlt]
    exact hn
  · rw [← hmore, valueBefore_append (Nat.le_of_lt hlt)]
    exact hexec

/-- The steps of an operation in its place are its steps alone. -/
theorem inside_triple {p : Prog Op Resp ε α} (hsafe : p.Safe C (A i) d) :
    (mutexDiscipline C d₀ A).Triple i (InPlace i resourceId current served d) (inside resourceId p)
      (fun a s => ∃ d', Exec C p d (.ok a) d' ∧ InPlace i resourceId current served d' s)
      (fun e s => ∃ d', Exec C p d (.error e) d' ∧ InPlace i resourceId current served d' s) := by
  induction p generalizing d with
  | ret a => exact Discipline.Triple.ret fun s _ h => ⟨d, .ret a d, h⟩
  | throw e => exact Discipline.Triple.throw fun s _ h => ⟨d, .throw e d, h⟩
  | call op k ih =>
    let R (r : Except ε (MutexReply κ Resp (MutexCall.inside resourceId op))) (s : MutexSys ι κ δ) :
        Prop := ∃ d', (∃ choice, C.run op choice d = some (r, d')) ∧
      InPlace i resourceId current served d' s
    apply Discipline.Triple.call (R := R) stable_inPlace
    · intro s _ h
      obtain ⟨hforemost, hvalue, _⟩ := h
      refine ⟨⟨current, hforemost⟩, ?_⟩
      rw [hvalue]
      exact hsafe.1
    · intro s choice r s' _ h _ hrun _
      obtain ⟨hforemost, hvalue, hserved⟩ := h
      obtain ⟨inner, d', hstep, rfl⟩ := run_inside hrun
      rw [hvalue] at hstep
      exact ⟨d', ⟨inner, hstep⟩, hforemost, Function.update_self .., hserved⟩
    · intro r
      apply Discipline.Triple.exists
      intro d'
      apply Discipline.Triple.of_pure
      intro hstep
      obtain ⟨choice, hstep⟩ := hstep
      apply (ih r (hsafe.2 choice r d' hstep)).post
      · intro a s _ h
        obtain ⟨d'', hexec, hplace⟩ := h
        exact ⟨d'', .call hstep hexec, hplace⟩
      · intro e s _ h
        obtain ⟨d'', hexec, hplace⟩ := h
        exact ⟨d'', .call hstep hexec, hplace⟩

theorem enter_triple :
    (mutexDiscipline C d₀ A).Triple i (fun s => ∀ other, i ∉ s.made other)
      (Prog.perform (MutexCall.enter resourceId))
      (fun promises => Waiting d₀ i resourceId promises.1 promises.2) (fun _ _ => False) := by
  apply Discipline.Triple.perform
  · intro s s' _ hrely h other
    exact hrely.unmade other (h other)
  · exact fun s _ h => h
  · intro s choice promises s' hinv _ _ hrun _
    cases choice <;> cases hrun
    refine ⟨s.queue resourceId, [], ?_, ?_, ?_⟩
    · simp [MutexSys.entered]
    · intro entry hentry
      simp only
      rw [hinv.tails, hentry]
      rfl
    · intro hempty
      refine ⟨?_, hinv.idle resourceId hempty⟩
      intro promise hpromise
      simp only at hpromise
      rw [hinv.tails, hempty] at hpromise
      cases hpromise
  · intro s choice e s' _ _ _ hrun _
    cases choice <;> cases hrun

/-- A call whose wait is over is the first. -/
theorem await_triple {previous : Option Nat} :
    (mutexDiscipline C d₀ A).Triple i (Waiting d₀ i resourceId previous current)
      (Prog.perform (MutexCall.await previous))
      (fun _ s => ∃ served : List (ι × δ),
        InPlace i resourceId current served (lastValue (d₀ resourceId) served) s)
      (fun _ _ => False) := by
  apply Discipline.Triple.perform
  · intro s s' _ hrely h
    exact hrely.waiting resourceId previous current h
  · exact fun s _ h => ⟨resourceId, current, h⟩
  · intro s choice a s' hinv h _ hrun _
    obtain ⟨_, rfl, hreleased⟩ := run_await hrun
    obtain ⟨before, after, hqueue, hlast, hfirst⟩ := h
    have hbefore : before = [] := by
      cases hend : before.getLast? with
      | none => exact List.getLast?_eq_none_iff.1 hend
      | some entry =>
        have hmem : entry ∈ s'.queue resourceId := by
          rw [hqueue]
          exact List.mem_append_left _ (List.mem_of_getLast? hend)
        have hopen := (hinv.fresh resourceId entry hmem).2
        exact absurd (hreleased entry.2 (hlast entry hend)) hopen
    subst hbefore
    exact ⟨s'.served resourceId, ⟨after, hqueue⟩, (hfirst rfl).2, rfl⟩
  · intro s choice e s' _ _ _ hrun _
    obtain ⟨hreply, _, _⟩ := run_await hrun
    cases hreply

theorem leave_triple {operation : Prog Op Resp ε α} {out : Except ε α} {d' : δ}
    (hd : lastValue (d₀ resourceId) served = d) (hexec : Exec C operation d out d') :
    (mutexDiscipline C d₀ A).Triple i (InPlace i resourceId current served d')
      (Prog.perform (MutexCall.leave resourceId current))
      (fun _ => Over C d₀ i resourceId operation out) (fun _ _ => False) := by
  apply Discipline.Triple.perform stable_inPlace
  · exact fun s _ h => h.1
  · intro s choice a s' _ h _ hrun _
    obtain ⟨_, hvalue, hserved⟩ := h
    cases choice <;> cases hrun
    refine ⟨served.length, d', ?_, ?_⟩
    · simp [MutexSys.leaved, hserved, hvalue]
    · simp only [MutexSys.leaved, Function.update_self, hserved]
      rw [valueBefore_append (Nat.le_refl _)]
      rw [← hd] at hexec
      exact hexec
  · intro s choice e s' _ _ _ hrun _
    cases choice <;> cases hrun

theorem run_triple {operation : Prog Op Resp ε α} (hsafe : ∀ d, operation.Safe C (A i) d) :
    (mutexDiscipline C d₀ A).Triple i (fun s => ∀ other, i ∉ s.made other)
      (ResourceMutex.run resourceId operation)
      (fun a => Over C d₀ i resourceId operation (.ok a))
      (fun e => Over C d₀ i resourceId operation (.error e)) := by
  apply Discipline.Triple.bind (enter_triple.post (fun _ _ _ h => h) fun _ _ _ h => h.elim)
  intro promises
  apply Discipline.Triple.bind (await_triple.post (fun _ _ _ h => h) fun _ _ _ h => h.elim)
  intro _
  apply Discipline.Triple.exists
  intro served
  apply (inside_triple (hsafe (lastValue (d₀ resourceId) served))).handle
  · intro a
    apply Discipline.Triple.exists
    intro d'
    apply Discipline.Triple.of_pure
    intro hexec
    apply ((leave_triple rfl hexec).post (fun _ _ _ h => h) fun _ _ _ h => h.elim).bind
    exact fun _ => Discipline.Triple.ret fun _ _ h => h
  · intro e
    apply Discipline.Triple.exists
    intro d'
    apply Discipline.Triple.of_pure
    intro hexec
    apply ((leave_triple rfl hexec).post (fun _ _ _ h => h) fun _ _ _ h => h.elim).bind
    exact fun _ => Discipline.Triple.throw fun _ _ h => h

/-! ## Runs -/

variable [DecidableEq ι] {calls : ι → κ × Prog Op Resp ε α}

abbrev MutexConfig (ι κ : Type) (Resp : Op → Type) (ε α δ : Type) :=
  Config ι (MutexCall κ Op) (MutexReply κ Resp) ε α (MutexSys ι κ δ)

/-- Every call at its start. -/
def startCalls (d₀ : κ → δ) (calls : ι → κ × Prog Op Resp ε α) : MutexConfig ι κ Resp ε α δ :=
  .initial (.atRest d₀) fun i => ResourceMutex.run (calls i).1 (calls i).2

/-- The call has returned or thrown. -/
def IsOver (c : MutexConfig ι κ Resp ε α δ) (i : ι) : Prop := ∃ out, c.threads i = .finished out

/-- The books of a run, and where each of its calls stands. -/
def MutexOk (C : Cell Op Resp ε δ) (d₀ : κ → δ) (A : ι → Op → δ → Prop)
    (calls : ι → κ × Prog Op Resp ε α) (c : MutexConfig ι κ Resp ε α δ) : Prop :=
  (mutexDiscipline C d₀ A).ConfigOk
    (fun i a => Over C d₀ i (calls i).1 (calls i).2 (.ok a))
    (fun i e => Over C d₀ i (calls i).1 (calls i).2 (.error e)) c

theorem mutexOk_of_reachable (hsafe : ∀ i d, (calls i).2.Safe C (A i) d) {c : MutexConfig ι κ Resp ε α δ}
    (hrun : Reachable (Guard.all (mutexSystem C ι κ)) (startCalls d₀ calls) c) :
    MutexOk C d₀ A calls c :=
  Discipline.run (P := fun i s => ∀ other, i ∉ s.made other) mutexDiscipline_sound
    (fun _ _ => stable_over) (fun _ _ => stable_over) (fun _ _ _ _ h => h) (fun _ _ _ _ h => h)
    (MutexSys.atRest_sound d₀) (fun _ _ hmade => by cases hmade) (fun i => run_triple (hsafe i)) hrun

namespace MutexOk

variable {c : MutexConfig ι κ Resp ε α δ}

omit [DecidableEq ι] in
theorem sound (h : MutexOk C d₀ A calls c) : c.state.Sound d₀ := h.1

omit [DecidableEq ι] in
theorem finished (h : MutexOk C d₀ A calls c) {i : ι} {out : Except ε α}
    (hout : c.threads i = .finished out) : Over C d₀ i (calls i).1 (calls i).2 out c.state := by
  have hthread := h.2 i
  rw [hout] at hthread
  cases out with
  | ok a => exact hthread
  | error e => exact hthread

omit [DecidableEq ι] in
theorem made_of_isOver (h : MutexOk C d₀ A calls c) {i : ι} (hover : IsOver c i) :
    i ∈ c.state.made (calls i).1 := by
  obtain ⟨out, hout⟩ := hover
  obtain ⟨n, d, hn, _⟩ := h.finished hout
  rw [h.sound.made]
  exact List.mem_append_left _ (List.mem_map_of_mem (f := Prod.fst) (List.mem_of_getElem? hn))

omit [DecidableEq ι] in
theorem served_of_isOver (h : MutexOk C d₀ A calls c) {i : ι} (hover : IsOver c i)
    (hmade : i ∈ c.state.made resourceId) :
    (calls i).1 = resourceId ∧ i ∈ (c.state.served resourceId).map Prod.fst := by
  have hsame := h.sound.single i _ _ (h.made_of_isOver hover) hmade
  obtain ⟨out, hout⟩ := hover
  obtain ⟨n, d, hn, _⟩ := h.finished hout
  have hserved : i ∈ (c.state.served (calls i).1).map Prod.fst :=
    List.mem_map_of_mem (f := Prod.fst) (List.mem_of_getElem? hn)
  rw [hsame] at hserved
  exact ⟨hsame, hserved⟩

omit [DecidableEq ι] in
theorem not_over_of_queue (h : MutexOk C d₀ A calls c) {entry : ι × Nat}
    (hentry : entry ∈ c.state.queue resourceId) : ¬IsOver c entry.1 := by
  intro hover
  have hqueued : entry.1 ∈ (c.state.queue resourceId).map Prod.fst := List.mem_map_of_mem hentry
  have hmade : entry.1 ∈ c.state.made resourceId := by
    rw [h.sound.made]
    exact List.mem_append_right _ hqueued
  have hserved := (h.served_of_isOver hover hmade).2
  have honce := h.sound.once resourceId
  rw [h.sound.made] at honce
  exact (List.nodup_append.1 honce).2.2 _ hserved _ hqueued rfl

omit [DecidableEq ι] in
theorem queue_empty (h : MutexOk C d₀ A calls c)
    (hover : ∀ i ∈ c.state.made resourceId, IsOver c i) : c.state.queue resourceId = [] := by
  rw [List.eq_nil_iff_forall_not_mem]
  intro entry hentry
  have hmade : entry.1 ∈ c.state.made resourceId := by
    rw [h.sound.made]
    exact List.mem_append_right _ (List.mem_map_of_mem hentry)
  exact h.not_over_of_queue hentry (hover entry.1 hmade)

omit [DecidableEq ι] in
/-- The resource is what the calls made on it leave when they run one at a time, in the order in
which they were made. -/
theorem serial (h : MutexOk C d₀ A calls c)
    (hover : ∀ i ∈ c.state.made resourceId, IsOver c i) :
    ∃ log : List (ι × Except ε α), log.map Prod.fst = c.state.made resourceId ∧
      (∀ entry ∈ log, c.threads entry.1 = .finished entry.2) ∧
      Serial C (fun i => (calls i).2) log (d₀ resourceId) (c.state.value resourceId) := by
  have hempty := h.queue_empty hover
  have hmade := h.sound.made resourceId
  rw [hempty, List.map_nil, List.append_nil] at hmade
  have hserved : ∀ n i d', (c.state.served resourceId)[n]? = some (i, d') →
      ∃ out, c.threads i = .finished out ∧
        Exec C (calls i).2 (valueBefore (d₀ resourceId) (c.state.served resourceId) n) out d' := by
    intro n i d' hn
    have hmem : i ∈ c.state.made resourceId := by
      rw [hmade]
      exact List.mem_map_of_mem (f := Prod.fst) (List.mem_of_getElem? hn)
    obtain ⟨out, hout⟩ := hover i hmem
    obtain ⟨m, d'', hm, hexec⟩ := h.finished hout
    rw [(h.served_of_isOver ⟨out, hout⟩ hmem).1] at hm hexec
    -- a call is served once, so both positions are the same
    have honce := h.sound.once resourceId
    rw [hmade] at honce
    have hsame : m = n := by
      have hleft : ((c.state.served resourceId).map Prod.fst)[m]? = some i := by simp [hm]
      have hright : ((c.state.served resourceId).map Prod.fst)[n]? = some i := by simp [hn]
      obtain ⟨hmlt, _⟩ := List.getElem?_eq_some_iff.1 hleft
      exact (List.getElem?_inj hmlt honce).1 (hleft.trans hright.symm)
    subst hsame
    rw [hn] at hm
    cases hm
    exact ⟨out, hout, hexec⟩
  obtain ⟨log, hlog, houtcomes, hserial⟩ := Serial.of_served _ hserved
  refine ⟨log, hlog.trans hmade.symm, houtcomes, ?_⟩
  rw [h.sound.idle resourceId hempty]
  exact hserial

omit [DecidableEq ι] in
theorem no_tail (h : MutexOk C d₀ A calls c)
    (hover : ∀ i ∈ c.state.made resourceId, IsOver c i) : c.state.tails resourceId = none := by
  rw [h.sound.tails, h.queue_empty hover]
  rfl

/-- The calls made on the resource before this one. -/
def earlier (c : MutexConfig ι κ Resp ε α δ) (resourceId : κ) (i : ι) : List ι :=
  (c.state.made resourceId).takeWhile fun j => decide (j ≠ i)

/-- A call does not wait for calls that are over, however they ended. -/
theorem awaits (h : MutexOk C d₀ A calls c) {i : ι} {previous : Option Nat}
    {k : Except ε Unit → MutexProgram κ Resp ε α}
    (hi : c.threads i = .running (.call (MutexCall.await previous) k))
    (hmade : i ∈ c.state.made resourceId) (hover : ∀ j ∈ earlier c resourceId i, IsOver c j) :
    MutexSys.run C i (.await previous) .sync c.state = some (.ok (), c.state) := by
  obtain ⟨other, current, before, after, hqueue, hlast, hfirst⟩ := Discipline.ConfigOk.allowed h hi
  have hin : i ∈ c.state.made other := by
    rw [h.sound.made, hqueue]
    simp
  have hsame := h.sound.single i _ _ hin hmade
  subst hsame
  have honce := h.sound.once other
  rw [h.sound.made, hqueue, List.map_append, List.map_cons, ← List.append_assoc] at honce
  have hnot : i ∉ (c.state.served other).map Prod.fst ++ before.map Prod.fst := by
    intro hmem
    exact (List.nodup_append.1 honce).2.2 i hmem i (List.mem_cons_self ..) rfl
  have hearlier : earlier c other i =
      (c.state.served other).map Prod.fst ++ before.map Prod.fst := by
    rw [earlier, h.sound.made, hqueue, List.map_append, List.map_cons, ← List.append_assoc,
      List.takeWhile_append_of_pos]
    · simp
    · intro j hj
      apply decide_eq_true
      intro heq
      exact hnot (heq ▸ hj)
  have hbefore : before = [] := by
    rw [List.eq_nil_iff_forall_not_mem]
    intro entry hentry
    have hmem : entry ∈ c.state.queue other := by
      rw [hqueue]
      exact List.mem_append_left _ hentry
    have hpast : entry.1 ∈ earlier c other i := by
      rw [hearlier]
      exact List.mem_append_right _ (List.mem_map_of_mem hentry)
    exact h.not_over_of_queue hmem (hover entry.1 hpast)
  obtain ⟨hreleased, _⟩ := hfirst hbefore
  cases previous with
  | none => rfl
  | some promise => simp only [MutexSys.run, if_pos (hreleased promise rfl)]

/-- No part of a call waits when the calls made before it are over. -/
theorem goes_on (h : MutexOk C d₀ A calls c) {i : ι} {call : MutexCall κ Op}
    {k : Except ε (MutexReply κ Resp call) → MutexProgram κ Resp ε α}
    (hi : c.threads i = .running (.call call k)) (houtside : ∀ resourceId op, call ≠ .inside resourceId op)
    (hearlier : ∀ resourceId, i ∈ c.state.made resourceId → ∀ j ∈ earlier c resourceId i, IsOver c j) :
    ∃ answer s, MutexSys.run C i call .sync c.state = some (.ok answer, s) := by
  cases call with
  | enter resourceId => exact ⟨_, _, rfl⟩
  | leave resourceId current => exact ⟨_, _, rfl⟩
  | inside resourceId op => exact absurd rfl (houtside resourceId op)
  | await previous =>
    obtain ⟨resourceId, current, before, after, hqueue, _⟩ := Discipline.ConfigOk.allowed h hi
    have hmade : i ∈ c.state.made resourceId := by
      rw [h.sound.made, hqueue]
      simp
    exact ⟨_, _, h.awaits hi hmade (hearlier resourceId hmade)⟩

omit [DecidableEq ι] in
theorem step_safe (h : MutexOk C d₀ A calls c) {i : ι} {op : Op}
    {k : Except ε (Resp op) → MutexProgram κ Resp ε α}
    (hi : c.threads i = .running (.call (MutexCall.inside resourceId op) k)) :
    A i op (c.state.value resourceId) :=
  (Discipline.ConfigOk.allowed h hi).2

end MutexOk

end Discipline

end PlusOne
