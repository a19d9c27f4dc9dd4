import Mathlib.Logic.Relation
import Mathlib.Logic.Function.Basic
import PlusOne.Interleaving.Program

/-! # Interleaved runs of programs over one shared state

A system says how each call of each thread changes the shared state, what may
change on its own, and what becomes of the state when a thread is gone. It is
executable: a call takes a choice, which settles whatever the outside decides
(an answer, a failure), and is `none` while the call has to wait. -/

namespace Interleaving

/-! Numerals for the threads of small systems. -/

theorem twoThreads : @NeZero Nat Zero.ofOfNat0 2 := ⟨by decide⟩

theorem threeThreads : @NeZero Nat Zero.ofOfNat0 3 := ⟨by decide⟩

theorem fourThreads : @NeZero Nat Zero.ofOfNat0 4 := ⟨by decide⟩

/-- How calls, outside moves and departing threads act on the shared state. -/
structure System (ι Op : Type) (Resp : Op → Type) (ε σ : Type) where
  Choice : Type
  Move : Type
  run : ι → (op : Op) → Choice → σ → Option (Except ε (Resp op) × σ)
  env : Move → σ → Option σ
  leave : ι → σ → σ

/-- One program under way, its outcome, or the remains of a crash. -/
inductive Thread (Op : Type) (Resp : Op → Type) (ε α : Type)
  | running (p : Prog Op Resp ε α)
  | finished (r : Except ε α)
  | crashed

/-- What a thread returned. -/
def Thread.value? {Op : Type} {Resp : Op → Type} {ε α : Type} : Thread Op Resp ε α → Option α
  | finished (.ok a) => some a
  | _ => none

theorem Thread.value?_eq_some {Op : Type} {Resp : Op → Type} {ε α : Type}
    {t : Thread Op Resp ε α} {a : α} : t.value? = some a ↔ t = finished (.ok a) := by
  rcases t with p | (e | a) | _ <;> simp [value?]

structure Config (ι Op : Type) (Resp : Op → Type) (ε α σ : Type) where
  state : σ
  threads : ι → Thread Op Resp ε α

/-- What moves next: a thread's call, the delivery of its outcome, a crash, or the outside. -/
inductive Event (ι Choice Move : Type)
  | call (i : ι) (choice : Choice)
  | finish (i : ι)
  | crash (i : ι)
  | env (move : Move)

section Runs

variable {ι Op : Type} {Resp : Op → Type} {ε α σ : Type}

namespace Config

/-- Every thread at the start of its own program. -/
def initial (s : σ) (progs : ι → Prog Op Resp ε α) : Config ι Op Resp ε α σ :=
  ⟨s, fun i => .running (progs i)⟩

variable [DecidableEq ι]

/-- Replace thread `i` and the shared state. -/
def set (c : Config ι Op Resp ε α σ) (i : ι) (t : Thread Op Resp ε α) (s : σ) :
    Config ι Op Resp ε α σ :=
  ⟨s, Function.update c.threads i t⟩

@[simp] theorem set_state (c : Config ι Op Resp ε α σ) (i : ι) (t : Thread Op Resp ε α) (s : σ) :
    (c.set i t s).state = s := rfl

@[simp] theorem set_threads_self (c : Config ι Op Resp ε α σ) (i : ι) (t : Thread Op Resp ε α)
    (s : σ) : (c.set i t s).threads i = t := by simp [set]

theorem set_threads_ne (c : Config ι Op Resp ε α σ) {i j : ι} (t : Thread Op Resp ε α) (s : σ)
    (h : j ≠ i) : (c.set i t s).threads j = c.threads j := by simp [set, h]

/-- One event, when it can take place. -/
def step (S : System ι Op Resp ε σ) (c : Config ι Op Resp ε α σ) :
    Event ι S.Choice S.Move → Option (Config ι Op Resp ε α σ)
  | .call i choice =>
    match c.threads i with
    | .running (.call op k) =>
      (S.run i op choice c.state).map fun x => c.set i (.running (k x.1)) x.2
    | _ => none
  | .finish i =>
    match c.threads i with
    | .running (.ret a) => some (c.set i (.finished (.ok a)) (S.leave i c.state))
    | .running (.throw e) => some (c.set i (.finished (.error e)) (S.leave i c.state))
    | _ => none
  | .crash i =>
    match c.threads i with
    | .running _ => some (c.set i .crashed (S.leave i c.state))
    | _ => none
  | .env move => (S.env move c.state).map fun s => ⟨s, c.threads⟩

/-- Play a whole list of events. -/
def play (S : System ι Op Resp ε σ) (c : Config ι Op Resp ε α σ) :
    List (Event ι S.Choice S.Move) → Option (Config ι Op Resp ε α σ)
  | [] => some c
  | e :: es => (c.step S e).bind fun c' => c'.play S es

end Config

/-- A condition on the steps of a run: which calls and outside moves it admits, and where. -/
structure Guard (S : System ι Op Resp ε σ) where
  call : ι → Op → S.Choice → σ → Prop
  env : S.Move → σ → Prop

/-- The guard that admits every step. -/
def Guard.all (S : System ι Op Resp ε σ) : Guard S := ⟨fun _ _ _ _ => True, fun _ _ => True⟩

/-- The guard that also admits a call only where `A` holds of it. -/
def Guard.assuming {S : System ι Op Resp ε σ} (G : Guard S) (A : ι → Op → σ → Prop) : Guard S :=
  ⟨fun i op choice s => G.call i op choice s ∧ A i op s, G.env⟩

/-- The steps of `c` that the guard admits. -/
def Guard.admits {S : System ι Op Resp ε σ} (G : Guard S) (c : Config ι Op Resp ε α σ) :
    Event ι S.Choice S.Move → Prop
  | .call i choice => ∀ op k, c.threads i = .running (.call op k) → G.call i op choice c.state
  | .env move => G.env move c.state
  | .finish _ | .crash _ => True

@[simp] theorem Guard.all_admits (S : System ι Op Resp ε σ) (c : Config ι Op Resp ε α σ)
    (e : Event ι S.Choice S.Move) : (Guard.all S).admits c e := by
  cases e <;> simp [Guard.admits, Guard.all]

variable [DecidableEq ι] {S : System ι Op Resp ε σ}

/-- One admitted step. -/
def Step (G : Guard S) (c c' : Config ι Op Resp ε α σ) : Prop :=
  ∃ e, G.admits c e ∧ c.step S e = some c'

/-- The configurations some run of admitted steps leads to. -/
def Reachable (G : Guard S) : Config ι Op Resp ε α σ → Config ι Op Resp ε α σ → Prop :=
  Relation.ReflTransGen (Step G)

/-- A run in which every step meets the guard, given by its events. -/
def Admitted (G : Guard S) (c : Config ι Op Resp ε α σ) :
    List (Event ι S.Choice S.Move) → Prop
  | [] => True
  | e :: es => G.admits c e ∧ ∀ c', c.step S e = some c' → Admitted G c' es

variable {es : List (Event ι S.Choice S.Move)} {c c' : Config ι Op Resp ε α σ}

theorem Reachable.of_play {G : Guard S} (hG : Admitted G c es) (h : c.play S es = some c') :
    Reachable G c c' := by
  induction es generalizing c with
  | nil =>
    simp only [Config.play, Option.some.injEq] at h
    subst h
    exact .refl
  | cons e es ih =>
    simp only [Config.play, Option.bind_eq_some_iff] at h
    obtain ⟨d, hd, hrest⟩ := h
    exact .head ⟨e, hG.1, hd⟩ (ih (hG.2 d hd) hrest)

theorem admitted_all (c : Config ι Op Resp ε α σ) (es : List (Event ι S.Choice S.Move)) :
    Admitted (Guard.all S) c es := by
  induction es generalizing c with
  | nil => trivial
  | cons e es ih => exact ⟨Guard.all_admits S c e, fun c' _ => ih c'⟩

theorem Reachable.of_play_all (h : c.play S es = some c') :
    Reachable (Guard.all S) c c' :=
  .of_play (admitted_all c es) h

/-- Every call a played list of events makes passes a check. -/
def Config.passes (S : System ι Op Resp ε σ) (check : ι → Op → S.Choice → σ → Bool)
    (c : Config ι Op Resp ε α σ) : List (Event ι S.Choice S.Move) → Bool
  | [] => true
  | e :: es =>
    (match e with
      | .call i choice =>
        match c.threads i with
        | .running (.call op _) => check i op choice c.state
        | _ => true
      | _ => true) &&
    match c.step S e with
    | some c' => c'.passes S check es
    | none => true

theorem Admitted.of_passes {G : Guard S} {check : ι → Op → S.Choice → σ → Bool}
    (hcall : ∀ i op choice s, check i op choice s = true → G.call i op choice s) {c : Config ι Op Resp ε α σ}
    (henv : ∀ move, .env move ∈ es → ∀ s, G.env move s) (h : c.passes S check es = true) :
    Admitted G c es := by
  induction es generalizing c with
  | nil => trivial
  | cons e es ih =>
    simp only [Config.passes, Bool.and_eq_true] at h
    have hrest : ∀ move, .env move ∈ es → ∀ s, G.env move s :=
      fun move hmove => henv move (List.mem_cons_of_mem e hmove)
    refine ⟨?_, fun c' hc' => ih hrest (by simpa [hc'] using h.2)⟩
    cases e with
    | call i choice => exact fun op k hi => hcall i op choice c.state (by simpa [hi] using h.1)
    | env move => exact henv move (List.mem_cons_self ..) c.state
    | finish i => trivial
    | crash i => trivial

/-- Every admitted step is a call, a departure, or an outside move. -/
theorem Step.cases {G : Guard S} (h : Step G c c') :
    (∃ i op k choice r s, c.threads i = .running (.call op k) ∧ G.call i op choice c.state ∧
      S.run i op choice c.state = some (r, s) ∧ c' = c.set i (.running (k r)) s) ∨
    (∃ i a, c.threads i = .running (.ret a) ∧
      c' = c.set i (.finished (.ok a)) (S.leave i c.state)) ∨
    (∃ i e, c.threads i = .running (.throw e) ∧
      c' = c.set i (.finished (.error e)) (S.leave i c.state)) ∨
    (∃ i p, c.threads i = .running p ∧ c' = c.set i .crashed (S.leave i c.state)) ∨
    (∃ move s, G.env move c.state ∧ S.env move c.state = some s ∧ c' = ⟨s, c.threads⟩) := by
  obtain ⟨e, hG, hstep⟩ := h
  cases e with
  | call i choice =>
    simp only [Config.step] at hstep
    split at hstep
    · rename_i op k hi
      obtain ⟨⟨r, s⟩, hrun, rfl⟩ := Option.map_eq_some_iff.1 hstep
      exact .inl ⟨i, op, k, choice, r, s, hi, hG op k hi, hrun, rfl⟩
    · cases hstep
  | finish i =>
    simp only [Config.step] at hstep
    split at hstep
    · rename_i a hi
      cases hstep
      exact .inr (.inl ⟨i, a, hi, rfl⟩)
    · rename_i e hi
      cases hstep
      exact .inr (.inr (.inl ⟨i, e, hi, rfl⟩))
    · cases hstep
  | crash i =>
    simp only [Config.step] at hstep
    split at hstep
    · rename_i p hi
      cases hstep
      exact .inr (.inr (.inr (.inl ⟨i, p, hi, rfl⟩)))
    · cases hstep
  | env move =>
    obtain ⟨s, hs, rfl⟩ := Option.map_eq_some_iff.1 hstep
    exact .inr (.inr (.inr (.inr ⟨move, s, hG, hs, rfl⟩)))

end Runs

end Interleaving
