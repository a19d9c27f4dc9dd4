import PlusOne.Interleaving.System

/-! # Rely–guarantee reasoning about interleaved programs

A discipline fixes a global invariant, what each thread may rely on the others to
keep, and when each call is allowed. Its laws are proved once per call. A triple
about one program then speaks about every interleaving, and `Discipline.run`
carries the triples of all threads to every reachable configuration. -/

namespace Interleaving

variable {ι Op : Type} {Resp : Op → Type} {ε α β σ : Type}

/-- A global invariant, what a thread relies on, and where its calls are allowed. -/
structure Discipline (S : System ι Op Resp ε σ) (G : Guard S) where
  Inv : σ → Prop
  rely : ι → σ → σ → Prop
  allowed : ι → Op → σ → Prop
  rely_refl : ∀ i s, rely i s s
  rely_trans : ∀ {i s s' s''}, rely i s s' → rely i s' s'' → rely i s s''

/-- Allowed calls, outside moves and departures keep the invariant and what the others rely on. -/
structure Discipline.Sound {S : System ι Op Resp ε σ} {G : Guard S} (D : Discipline S G) :
    Prop where
  inv_call : ∀ {i op choice s r s'}, D.Inv s → D.allowed i op s → G.call i op choice s →
    S.run i op choice s = some (r, s') → D.Inv s'
  rely_call : ∀ {i j op choice s r s'}, D.Inv s → D.allowed j op s → G.call j op choice s →
    S.run j op choice s = some (r, s') → j ≠ i → D.rely i s s'
  inv_env : ∀ {move s s'}, D.Inv s → G.env move s → S.env move s = some s' → D.Inv s'
  rely_env : ∀ {i move s s'}, D.Inv s → G.env move s → S.env move s = some s' → D.rely i s s'
  inv_leave : ∀ {i s}, D.Inv s → D.Inv (S.leave i s)
  rely_leave : ∀ {i j s}, D.Inv s → j ≠ i → D.rely i s (S.leave j s)

namespace Discipline

variable {S : System ι Op Resp ε σ} {G : Guard S} (D : Discipline S G)

/-- Weakest precondition under interference: at each call the others may have moved first, the
call has to be allowed there, and every reply it can give has to lead on. -/
def wp (i : ι) : Prog Op Resp ε α → (α → σ → Prop) → (ε → σ → Prop) → σ → Prop
  | .ret a, Q, _, s => Q a s
  | .throw e, _, E, s => E e s
  | .call op k, Q, E, s => ∀ s', D.rely i s s' → D.Inv s' → D.allowed i op s' ∧
      ∀ choice r s'', G.call i op choice s' → S.run i op choice s' = some (r, s'') → D.Inv s'' →
        wp i (k r) Q E s''

/-- An assertion that the other threads cannot falsify for thread `i`. -/
def Stable (i : ι) (P : σ → Prop) : Prop :=
  ∀ s s', D.Inv s' → D.rely i s s' → P s → P s'

/-- From every state with `P`, thread `i` running `p` returns in `Q` or throws in `E`. -/
def Triple (i : ι) (P : σ → Prop) (p : Prog Op Resp ε α) (Q : α → σ → Prop)
    (E : ε → σ → Prop) : Prop :=
  ∀ s, D.Inv s → P s → D.wp i p Q E s

section Stability

variable {D} {i : ι} {P Q : σ → Prop}

theorem Stable.and (hP : D.Stable i P) (hQ : D.Stable i Q) : D.Stable i fun s => P s ∧ Q s :=
  fun s s' hInv hr h => ⟨hP s s' hInv hr h.1, hQ s s' hInv hr h.2⟩

theorem Stable.or (hP : D.Stable i P) (hQ : D.Stable i Q) : D.Stable i fun s => P s ∨ Q s :=
  fun s s' hInv hr h => h.imp (hP s s' hInv hr) (hQ s s' hInv hr)

theorem Stable.pure (φ : Prop) : D.Stable i fun _ => φ := fun _ _ _ _ h => h

theorem Stable.imp {φ : Prop} (hP : φ → D.Stable i P) : D.Stable i fun s => φ → P s :=
  fun s s' hInv hr h hφ => hP hφ s s' hInv hr (h hφ)

theorem Stable.exists {κ : Sort*} {P : κ → σ → Prop} (hP : ∀ x, D.Stable i (P x)) :
    D.Stable i fun s => ∃ x, P x s :=
  fun s s' hInv hr ⟨x, h⟩ => ⟨x, hP x s s' hInv hr h⟩

theorem Stable.forall {κ : Sort*} {P : κ → σ → Prop} (hP : ∀ x, D.Stable i (P x)) :
    D.Stable i fun s => ∀ x, P x s :=
  fun s s' hInv hr h x => hP x s s' hInv hr (h x)

end Stability

section Wp

variable {D} {i : ι} {Q Q' : α → σ → Prop} {E E' : ε → σ → Prop}

variable {p : Prog Op Resp ε α}

theorem wp_mono {s : σ} (hs : D.Inv s) (hQ : ∀ a s, D.Inv s → Q a s → Q' a s) (hE : ∀ e s, D.Inv s → E e s → E' e s)
    (h : D.wp i p Q E s) : D.wp i p Q' E' s := by
  induction p generalizing s with
  | ret a => exact hQ a s hs h
  | throw e => exact hE e s hs h
  | call op k ih =>
    intro s' hr hInv
    obtain ⟨hallowed, hk⟩ := h s' hr hInv
    exact ⟨hallowed, fun choice r s'' hG hrun hInv' => ih r hInv' (hk choice r s'' hG hrun hInv')⟩

theorem wp_handle {f : α → Prog Op Resp ε β} {h : ε → Prog Op Resp ε β} {Q : β → σ → Prop} {s : σ}
    (hp : D.wp i p (fun a => D.wp i (f a) Q E) (fun e => D.wp i (h e) Q E) s) :
    D.wp i (p.handle f h) Q E s := by
  induction p generalizing s with
  | ret a => exact hp
  | throw e => exact hp
  | call op k ih =>
    intro s' hr hInv
    obtain ⟨hallowed, hk⟩ := hp s' hr hInv
    exact ⟨hallowed, fun choice r s'' hG hrun hInv' => ih r (hk choice r s'' hG hrun hInv')⟩

theorem wp_bind {f : α → Prog Op Resp ε β} {Q : β → σ → Prop} {s : σ}
    (h : D.wp i p (fun a => D.wp i (f a) Q E) E s) : D.wp i (p.bind f) Q E s := by
  rw [Prog.bind_eq_handle]
  exact wp_handle h

theorem wp_tryCatch {h : ε → Prog Op Resp ε α} {s : σ} (hp : D.wp i p Q (fun e => D.wp i (h e) Q E) s) :
    D.wp i (p.tryCatch h) Q E s := by
  rw [Prog.tryCatch_eq_handle]
  exact wp_handle hp

theorem stable_wp (hQ : ∀ a, D.Stable i (Q a)) (hE : ∀ e, D.Stable i (E e)) : D.Stable i (D.wp i p Q E) := by
  intro s s' hInv hr h
  cases p with
  | ret a => exact hQ a s s' hInv hr h
  | throw e => exact hE e s s' hInv hr h
  | call op k => exact fun s'' hr' hInv' => h s'' (D.rely_trans hr hr') hInv'

end Wp

section Triples

variable {D} {i : ι} {P P' : σ → Prop} {Q Q' : α → σ → Prop} {E E' : ε → σ → Prop}
variable {p : Prog Op Resp ε α}

theorem Triple.conseq (h : D.Triple i P p Q E) (hP : ∀ s, D.Inv s → P' s → P s)
    (hQ : ∀ a s, D.Inv s → Q a s → Q' a s) (hE : ∀ e s, D.Inv s → E e s → E' e s) :
    D.Triple i P' p Q' E' :=
  fun s hs hP' => wp_mono hs hQ hE (h s hs (hP s hs hP'))

theorem Triple.pre (h : D.Triple i P p Q E) (hP : ∀ s, D.Inv s → P' s → P s) :
    D.Triple i P' p Q E :=
  h.conseq hP (fun _ _ _ h => h) (fun _ _ _ h => h)

theorem Triple.post (h : D.Triple i P p Q E) (hQ : ∀ a s, D.Inv s → Q a s → Q' a s)
    (hE : ∀ e s, D.Inv s → E e s → E' e s) : D.Triple i P p Q' E' :=
  h.conseq (fun _ _ h => h) hQ hE

theorem Triple.ret {a : α} (h : ∀ s, D.Inv s → P s → Q a s) : D.Triple i P (.ret a) Q E := h

theorem Triple.throw {e : ε} (h : ∀ s, D.Inv s → P s → E e s) : D.Triple i P (.throw e) Q E := h

theorem Triple.ofExcept {x : Except ε α} (hok : ∀ a, x = .ok a → ∀ s, D.Inv s → P s → Q a s)
    (herr : ∀ e, x = .error e → ∀ s, D.Inv s → P s → E e s) :
    D.Triple i P (.ofExcept x) Q E := by
  cases x with
  | ok a => exact hok a rfl
  | error e => exact herr e rfl

theorem Triple.bind {R : α → σ → Prop} {f : α → Prog Op Resp ε β} {Q : β → σ → Prop}
    (hp : D.Triple i P p R E) (hf : ∀ a, D.Triple i (R a) (f a) Q E) :
    D.Triple i P (p.bind f) Q E :=
  fun s hs hP => wp_bind (wp_mono hs (fun a s' hs' hR => hf a s' hs' hR) (fun _ _ _ h => h)
    (hp s hs hP))

theorem Triple.tryCatch {F : ε → σ → Prop} {h : ε → Prog Op Resp ε α}
    (hp : D.Triple i P p Q F) (hh : ∀ e, D.Triple i (F e) (h e) Q E) :
    D.Triple i P (p.tryCatch h) Q E :=
  fun s hs hP => wp_tryCatch (wp_mono hs (fun _ _ _ h => h) (fun e s' hs' hF => hh e s' hs' hF)
    (hp s hs hP))

theorem Triple.handle {R : α → σ → Prop} {F : ε → σ → Prop} {f : α → Prog Op Resp ε β}
    {h : ε → Prog Op Resp ε β} {Q : β → σ → Prop} (hp : D.Triple i P p R F)
    (hf : ∀ a, D.Triple i (R a) (f a) Q E) (hh : ∀ e, D.Triple i (F e) (h e) Q E) :
    D.Triple i P (p.handle f h) Q E :=
  fun s hs hP => wp_handle (wp_mono hs (fun a s' hs' hR => hf a s' hs' hR)
    (fun e s' hs' hF => hh e s' hs' hF) (hp s hs hP))

theorem Triple.exists {κ : Sort*} {P : κ → σ → Prop} (h : ∀ x, D.Triple i (P x) p Q E) :
    D.Triple i (fun s => ∃ x, P x s) p Q E :=
  fun s hs ⟨x, hP⟩ => h x s hs hP

theorem Triple.of_pure {φ : Prop} (h : φ → D.Triple i P p Q E) :
    D.Triple i (fun s => φ ∧ P s) p Q E :=
  fun s hs hP => h hP.1 s hs hP.2

theorem Triple.or {P' : σ → Prop} (h : D.Triple i P p Q E) (h' : D.Triple i P' p Q E) :
    D.Triple i (fun s => P s ∨ P' s) p Q E :=
  fun s hs hP => hP.elim (h s hs) (h' s hs)

theorem Triple.and_post {Q' : α → σ → Prop} {E' : ε → σ → Prop} (h : D.Triple i P p Q E)
    (h' : D.Triple i P p Q' E') :
    D.Triple i P p (fun a s => Q a s ∧ Q' a s) (fun e s => E e s ∧ E' e s) := by
  intro s hs hP
  have hp := h s hs hP
  have hp' := h' s hs hP
  clear h h' hP
  induction p generalizing s with
  | ret a => exact ⟨hp, hp'⟩
  | throw e => exact ⟨hp, hp'⟩
  | call op k ih =>
    intro s' hr hInv
    obtain ⟨hallowed, hk⟩ := hp s' hr hInv
    refine ⟨hallowed, fun choice r s'' hG hrun hInv' => ?_⟩
    exact ih r s'' hInv' (hk choice r s'' hG hrun hInv')
      ((hp' s' hr hInv).2 choice r s'' hG hrun hInv')

theorem Triple.call {op : Op} {k : Except ε (Resp op) → Prog Op Resp ε α}
    {R : Except ε (Resp op) → σ → Prop} (hP : D.Stable i P)
    (hallowed : ∀ s, D.Inv s → P s → D.allowed i op s)
    (hrun : ∀ s choice r s', D.Inv s → P s → G.call i op choice s →
      S.run i op choice s = some (r, s') → D.Inv s' → R r s')
    (hk : ∀ r, D.Triple i (R r) (k r) Q E) : D.Triple i P (.call op k) Q E := by
  intro s _ hPs s' hr hInv
  have hPs' := hP s s' hInv hr hPs
  exact ⟨hallowed s' hInv hPs', fun choice r s'' hG hstep hInv' =>
    hk r s'' hInv' (hrun s' choice r s'' hInv hPs' hG hstep hInv')⟩

/-- What is known after a reply. -/
def OnReply {α : Type} (Q : α → σ → Prop) (E : ε → σ → Prop) : Except ε α → σ → Prop
  | .ok a, s => Q a s
  | .error e, s => E e s

theorem Triple.perform {op : Op} {Q : Resp op → σ → Prop} (hP : D.Stable i P)
    (hallowed : ∀ s, D.Inv s → P s → D.allowed i op s)
    (hok : ∀ s choice a s', D.Inv s → P s → G.call i op choice s →
      S.run i op choice s = some (.ok a, s') → D.Inv s' → Q a s')
    (herr : ∀ s choice e s', D.Inv s → P s → G.call i op choice s →
      S.run i op choice s = some (.error e, s') → D.Inv s' → E e s') :
    D.Triple i P (.perform op) Q E := by
  refine Triple.call (R := OnReply Q E) hP hallowed ?_ ?_
  · intro s choice r s' hInv hPs hG hstep hInv'
    cases r with
    | ok a => exact hok s choice a s' hInv hPs hG hstep hInv'
    | error e => exact herr s choice e s' hInv hPs hG hstep hInv'
  · intro r
    cases r with
    | ok a => exact Triple.ret fun _ _ h => h
    | error e => exact Triple.throw fun _ _ h => h

theorem Triple.of_calls {C : Op → Prop} (hp : p.Calls C) (hP : D.Stable i P)
    (hC : ∀ op, C op → ∀ s, D.Inv s → P s → D.allowed i op s)
    (hrun : ∀ op, C op → ∀ s choice r s', D.Inv s → P s → G.call i op choice s →
      S.run i op choice s = some (r, s') → D.Inv s' → P s') :
    D.Triple i P p (fun _ => P) (fun _ => P) := by
  induction hp with
  | ret a => exact Triple.ret fun _ _ h => h
  | throw e => exact Triple.throw fun _ _ h => h
  | call hop _ ih =>
    exact Triple.call (R := fun _ => P) hP (hC _ hop)
      (fun s choice r s' hInv hPs hG hstep hInv' =>
        hrun _ hop s choice r s' hInv hPs hG hstep hInv') ih

/-- What the others keep, and the thread's own allowed calls keep, is kept by every program. -/
theorem Triple.frame {R : σ → Prop} (hR : D.Stable i R)
    (hkeep : ∀ op choice s r s', D.Inv s → D.allowed i op s → G.call i op choice s →
      S.run i op choice s = some (r, s') → R s → R s') (h : D.Triple i P p Q E) :
    D.Triple i (fun s => P s ∧ R s) p (fun a s => Q a s ∧ R s) (fun e s => E e s ∧ R s) := by
  rintro s hs ⟨hP, hRs⟩
  have hp := h s hs hP
  clear h hP
  induction p generalizing s with
  | ret a => exact ⟨hp, hRs⟩
  | throw e => exact ⟨hp, hRs⟩
  | call op k ih =>
    intro s' hr hInv
    obtain ⟨hallowed, hk⟩ := hp s' hr hInv
    refine ⟨hallowed, fun choice r s'' hG hrun hInv' => ?_⟩
    have hRs' := hR s s' hInv hr hRs
    exact ih r s'' hInv' (hkeep op choice s' r s'' hInv hallowed hG hrun hRs')
      (hk choice r s'' hG hrun hInv')

/-- Two disciplines together: what is allowed in one may be assumed of the steps the other
speaks about. -/
theorem Triple.combine {G₁ G₂ : Guard S} {D₁ : Discipline S G₁} {D₂ : Discipline S G₂}
    (hInv : ∀ s, D.Inv s → D₁.Inv s ∧ D₂.Inv s)
    (hrely : ∀ s s', D.rely i s s' → D₁.rely i s s' ∧ D₂.rely i s s')
    (hallowed : ∀ op s, D.Inv s → D₁.allowed i op s → D₂.allowed i op s → D.allowed i op s)
    (hG : ∀ op choice s, D₁.allowed i op s → D₂.allowed i op s → G.call i op choice s →
      G₁.call i op choice s ∧ G₂.call i op choice s)
    (h₁ : D₁.Triple i P p Q E) (h₂ : D₂.Triple i P p Q' E') :
    D.Triple i P p (fun a s => Q a s ∧ Q' a s) (fun e s => E e s ∧ E' e s) := by
  intro s hs hP
  have hp₁ := h₁ s (hInv s hs).1 hP
  have hp₂ := h₂ s (hInv s hs).2 hP
  clear h₁ h₂ hP
  induction p generalizing s with
  | ret a => exact ⟨hp₁, hp₂⟩
  | throw e => exact ⟨hp₁, hp₂⟩
  | call op k ih =>
    intro s' hr hs'
    obtain ⟨ha₁, hk₁⟩ := hp₁ s' (hrely s s' hr).1 (hInv s' hs').1
    obtain ⟨ha₂, hk₂⟩ := hp₂ s' (hrely s s' hr).2 (hInv s' hs').2
    refine ⟨hallowed op s' hs' ha₁ ha₂, fun choice r s'' hcall hrun hs'' => ?_⟩
    obtain ⟨hG₁, hG₂⟩ := hG op choice s' ha₁ ha₂ hcall
    exact ih r s'' hs'' (hk₁ choice r s'' hG₁ hrun (hInv s'' hs'').1)
      (hk₂ choice r s'' hG₂ hrun (hInv s'' hs'').2)

end Triples

/-! ## From triples to runs -/

/-- What is known of one thread in one shared state. -/
def ThreadOk (i : ι) (Q : α → σ → Prop) (E : ε → σ → Prop) (s : σ) :
    Thread Op Resp ε α → Prop
  | .running p => D.wp i p Q E s
  | .finished (.ok a) => Q a s
  | .finished (.error e) => E e s
  | .crashed => True

/-- The invariant holds, and every thread is on its way to its postconditions. -/
def ConfigOk (Q : ι → α → σ → Prop) (E : ι → ε → σ → Prop) (c : Config ι Op Resp ε α σ) : Prop :=
  D.Inv c.state ∧ ∀ i, D.ThreadOk i (Q i) (E i) c.state (c.threads i)

variable {D} {Q : ι → α → σ → Prop} {E : ι → ε → σ → Prop}

theorem ThreadOk.rely {i : ι} {s s' : σ} {t : Thread Op Resp ε α} (hQ : ∀ a, D.Stable i (Q i a))
    (hE : ∀ e, D.Stable i (E i e)) (hInv : D.Inv s') (hr : D.rely i s s')
    (h : D.ThreadOk i (Q i) (E i) s t) : D.ThreadOk i (Q i) (E i) s' t := by
  cases t with
  | running p => exact stable_wp hQ hE s s' hInv hr h
  | finished r =>
    cases r with
    | ok a => exact hQ a s s' hInv hr h
    | error e => exact hE e s s' hInv hr h
  | crashed => trivial

theorem ConfigOk.allowed {c : Config ι Op Resp ε α σ} (h : D.ConfigOk Q E c) {i : ι} {op : Op}
    {k : Except ε (Resp op) → Prog Op Resp ε α} (hi : c.threads i = .running (.call op k)) :
    D.allowed i op c.state := by
  have hwp : D.wp i (.call op k) (Q i) (E i) c.state := by simpa [hi, ThreadOk] using h.2 i
  exact (hwp c.state (D.rely_refl i _) h.1).1

variable [DecidableEq ι]

variable {c c' : Config ι Op Resp ε α σ}

/-- One admitted step keeps every thread on its way. -/
theorem ConfigOk.step (hD : D.Sound) (hQ : ∀ i a, D.Stable i (Q i a)) (hE : ∀ i e, D.Stable i (E i e))
    (hQl : ∀ i a s, D.Inv s → Q i a s → Q i a (S.leave i s))
    (hEl : ∀ i e s, D.Inv s → E i e s → E i e (S.leave i s)) (h : D.ConfigOk Q E c) (hstep : Step G c c') :
    D.ConfigOk Q E c' := by
  obtain ⟨hInv, hthreads⟩ := h
  -- the threads that did not move only see their rely
  have others : ∀ (i : ι) (t : Thread Op Resp ε α) (s : σ), D.Inv s →
      (∀ j, i ≠ j → D.rely j c.state s) → D.ThreadOk i (Q i) (E i) s t →
      D.ConfigOk Q E (c.set i t s) := by
    intro i t s hs hrely ht
    refine ⟨hs, fun j => ?_⟩
    rcases eq_or_ne j i with rfl | hj
    · simpa using ht
    · rw [Config.set_threads_ne c t s hj]
      exact (hthreads j).rely (hQ j) (hE j) hs (hrely j hj.symm)
  rcases hstep.cases with ⟨i, op, k, choice, r, s, hi, hG, hrun, rfl⟩ | ⟨i, a, hi, rfl⟩ |
    ⟨i, e, hi, rfl⟩ | ⟨i, p, hi, rfl⟩ | ⟨move, s, hG, hs, rfl⟩
  · have hwp : D.wp i (.call op k) (Q i) (E i) c.state := by simpa [hi, ThreadOk] using hthreads i
    obtain ⟨hallowed, hk⟩ := hwp c.state (D.rely_refl i _) hInv
    have hs := hD.inv_call hInv hallowed hG hrun
    exact others i _ s hs (fun j hj => hD.rely_call hInv hallowed hG hrun hj)
      (hk choice r s hG hrun hs)
  · have hwp : Q i a c.state := by simpa [hi, ThreadOk, wp] using hthreads i
    exact others i _ _ (hD.inv_leave hInv) (fun j hj => hD.rely_leave hInv hj) (hQl i a _ hInv hwp)
  · have hwp : E i e c.state := by simpa [hi, ThreadOk, wp] using hthreads i
    exact others i _ _ (hD.inv_leave hInv) (fun j hj => hD.rely_leave hInv hj) (hEl i e _ hInv hwp)
  · exact others i _ _ (hD.inv_leave hInv) (fun j hj => hD.rely_leave hInv hj) trivial
  · have hs' := hD.inv_env hInv hG hs
    exact ⟨hs', fun j => (hthreads j).rely (hQ j) (hE j) hs' (hD.rely_env hInv hG hs)⟩

theorem ConfigOk.run (hD : D.Sound) (hQ : ∀ i a, D.Stable i (Q i a)) (hE : ∀ i e, D.Stable i (E i e))
    (hQl : ∀ i a s, D.Inv s → Q i a s → Q i a (S.leave i s))
    (hEl : ∀ i e s, D.Inv s → E i e s → E i e (S.leave i s)) (hc : D.ConfigOk Q E c) (h : Reachable G c c') :
    D.ConfigOk Q E c' := by
  induction h with
  | refl => exact hc
  | tail _ hstep ih => exact ih.step hD hQ hE hQl hEl hstep

theorem run (hD : D.Sound) (hQ : ∀ i a, D.Stable i (Q i a)) (hE : ∀ i e, D.Stable i (E i e))
    (hQl : ∀ i a s, D.Inv s → Q i a s → Q i a (S.leave i s))
    (hEl : ∀ i e s, D.Inv s → E i e s → E i e (S.leave i s))
    {s₀ : σ} {progs : ι → Prog Op Resp ε α} {P : ι → σ → Prop} (hInv : D.Inv s₀)
    (hP : ∀ i, P i s₀) (htriple : ∀ i, D.Triple i (P i) (progs i) (Q i) (E i))
    {c : Config ι Op Resp ε α σ} (h : Reachable G (.initial s₀ progs) c) : D.ConfigOk Q E c := by
  have hstart : D.ConfigOk Q E (.initial s₀ progs) :=
    ⟨hInv, fun i => htriple i s₀ hInv (hP i)⟩
  exact hstart.run hD hQ hE hQl hEl h

theorem ConfigOk.step_rel {T : σ → σ → Prop} (h : D.ConfigOk Q E c) (hstep : Step G c c')
    (hcall : ∀ i op choice r s, D.allowed i op c.state → G.call i op choice c.state →
      S.run i op choice c.state = some (r, s) → T c.state s) (hleave : ∀ i, T c.state (S.leave i c.state))
    (henv : ∀ move s, G.env move c.state → S.env move c.state = some s → T c.state s) :
    T c.state c'.state := by
  rcases hstep.cases with ⟨i, op, k, choice, r, s, hi, hG, hrun, rfl⟩ | ⟨i, a, _, rfl⟩ |
    ⟨i, e, _, rfl⟩ | ⟨i, p, _, rfl⟩ | ⟨move, s, hG, hs, rfl⟩
  · exact hcall i op choice r s (h.allowed hi) hG hrun
  · exact hleave i
  · exact hleave i
  · exact hleave i
  · exact henv move s hG hs

end Discipline

end Interleaving
