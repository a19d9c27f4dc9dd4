import PlusOne.Interleaving.RelyGuarantee

/-! # Stores of atomic statements

A store says what each statement answers and leaves behind when it runs. Run by many
threads it becomes a system: the reply to a statement may be lost, and then the
statement was not carried out, was carried out, or still may be, later. A step relation
that every statement and outside move keeps to is kept to by every step of every run. -/

namespace Interleaving

/-- What each statement does when it runs, and what happens beside the statements. -/
structure Store (Op : Type) (Resp : Op → Type) (φ μ σ : Type) where
  perform : (op : Op) → σ → Except φ (Resp op × σ)
  outside : μ → σ → Option σ

/-- A store with the statements that were given up before it was done with them. -/
structure Stored (Op σ : Type) where
  current : σ
  unfinished : List Op

/-- How a statement ends for its caller: with its answer, or with an error that leaves open what
became of it. -/
inductive Ending (φ : Type)
  | answered
  | refused (e : φ)
  | unheard (e : φ)
  | unfinished (e : φ)

variable {ι Op : Type} {Resp : Op → Type} {φ μ σ ε α : Type}

/-- Whether the statement is carried out where its caller issues it. -/
def Ending.carried : Ending φ → Bool
  | answered | unheard _ => true
  | refused _ | unfinished _ => false

/-- Whether the caller of a statement gets its answer. -/
def Ending.heard : Ending φ → Bool
  | answered => true
  | refused _ | unheard _ | unfinished _ => false

/-- An outside move, or the end of an unfinished statement. -/
inductive StoreMove (μ : Type)
  | outside (move : μ)
  | resolve (n : Nat) (carried : Bool)

namespace Store

/-- One statement under one ending. -/
def run (S : Store Op Resp φ μ σ) (wrap : φ → ε) (op : Op) :
    Ending φ → Stored Op σ → Option (Except ε (Resp op) × Stored Op σ)
  | .answered, s =>
    match S.perform op s.current with
    | .ok (a, t) => some (.ok a, { s with current := t })
    | .error e => some (.error (wrap e), s)
  | .refused e, s => some (.error (wrap e), s)
  | .unheard e, s =>
    match S.perform op s.current with
    | .ok (_, t) => some (.error (wrap e), { s with current := t })
    | .error _ => none
  | .unfinished e, s => some (.error (wrap e), { s with unfinished := s.unfinished ++ [op] })

/-- An unfinished statement is carried out after all, or never will be. -/
def resolve (S : Store Op Resp φ μ σ) (n : Nat) (carried : Bool) (s : Stored Op σ) :
    Option (Stored Op σ) :=
  (s.unfinished[n]?).map fun op =>
    let rest := s.unfinished.eraseIdx n
    if carried then
      match S.perform op s.current with
      | .ok (_, t) => ⟨t, rest⟩
      | .error _ => ⟨s.current, rest⟩
    else ⟨s.current, rest⟩

def env (S : Store Op Resp φ μ σ) : StoreMove μ → Stored Op σ → Option (Stored Op σ)
  | .outside move, s => (S.outside move s.current).map fun t => { s with current := t }
  | .resolve n carried, s => S.resolve n carried s

/-- The store as a system of interleaved statements. -/
def system (S : Store Op Resp φ μ σ) (ι : Type) (wrap : φ → ε) :
    System ι Op Resp ε (Stored Op σ) where
  Choice := Ending φ
  Move := StoreMove μ
  run := fun _ op ending s => S.run wrap op ending s
  env := S.env
  leave := fun _ s => s

/-- The runs in which every statement satisfies `A` where it is carried out. -/
def guard (S : Store Op Resp φ μ σ) (ι : Type) (wrap : φ → ε) (A : Op → σ → Prop) :
    Guard (S.system ι wrap) where
  call := fun _ op ending s => ending.carried = true → A op s.current
  env := fun move s => ∀ n op, move = .resolve n true → s.unfinished[n]? = some op → A op s.current

variable {S : Store Op Resp φ μ σ} {wrap : φ → ε} {s s' : Stored Op σ}

/-- A statement either runs where the store stands, or leaves it alone. -/
theorem run_some {op : Op} {ending : Ending φ} {r : Except ε (Resp op)}
    (h : S.run wrap op ending s = some (r, s')) :
    (s'.current = s.current ∧ (s'.unfinished = s.unfinished ∨ s'.unfinished = s.unfinished ++ [op]) ∧
      ∃ e, r = .error (wrap e)) ∨
    ∃ a t, ending.carried = true ∧ S.perform op s.current = .ok (a, t) ∧
      s' = { s with current := t } ∧ (r = .ok a ∨ ∃ e, r = .error (wrap e)) := by
  cases ending with
  | answered =>
    simp only [run] at h
    split at h
    · rename_i a t hok
      cases h
      exact .inr ⟨a, t, rfl, hok, rfl, .inl rfl⟩
    · rename_i e herr
      cases h
      exact .inl ⟨rfl, .inl rfl, e, rfl⟩
  | refused e =>
    cases h
    exact .inl ⟨rfl, .inl rfl, e, rfl⟩
  | unheard e =>
    simp only [run] at h
    split at h
    · rename_i a t hok
      cases h
      exact .inr ⟨a, t, rfl, hok, rfl, .inr ⟨e, rfl⟩⟩
    · cases h
  | unfinished e =>
    cases h
    exact .inl ⟨rfl, .inr rfl, e, rfl⟩

theorem resolve_some {n : Nat} {carried : Bool} (h : S.resolve n carried s = some s') :
    s'.unfinished = s.unfinished.eraseIdx n ∧ (s'.current = s.current ∨
      ∃ op a, carried = true ∧ s.unfinished[n]? = some op ∧
        S.perform op s.current = .ok (a, s'.current)) := by
  obtain ⟨op, hop, rfl⟩ := Option.map_eq_some_iff.1 h
  split_ifs with hcarried
  · split
    · rename_i a t hok
      exact ⟨rfl, .inr ⟨op, a, hcarried, hop, hok⟩⟩
    · exact ⟨rfl, .inl rfl⟩
  · exact ⟨rfl, .inl rfl⟩

/-! ## Invariants and step relations -/

/-- A step relation of the store: every statement of kind `B` that meets `A` where it is carried
out, and every outside move, keeps the invariant and takes a step. -/
structure Steps (S : Store Op Resp φ μ σ) (B : Op → Prop) (A : Op → σ → Prop) (I : σ → Prop)
    (T : σ → σ → Prop) : Prop where
  refl : ∀ s, T s s
  perform : ∀ {op s a t}, B op → A op s → I s → S.perform op s = .ok (a, t) → I t ∧ T s t
  outside : ∀ {move s t}, I s → S.outside move s = some t → I t ∧ T s t

/-- The invariant, and that the unfinished statements are of the known kind. -/
structure Sound (B : Op → Prop) (I : σ → Prop) (s : Stored Op σ) : Prop where
  current : I s.current
  unfinished : ∀ op ∈ s.unfinished, B op

variable {B : Op → Prop} {A : Op → σ → Prop} {I : σ → Prop} {T : σ → σ → Prop}

theorem Steps.run (hS : Steps S B A I T) {op : Op} {ending : Ending φ} {r : Except ε (Resp op)}
    (hop : B op) (hA : ending.carried = true → A op s.current) (hs : Sound B I s)
    (h : S.run wrap op ending s = some (r, s')) : Sound B I s' ∧ T s.current s'.current := by
  rcases run_some h with ⟨hcurrent, hunfinished, _⟩ | ⟨a, t, hcarried, hok, rfl, _⟩
  · refine ⟨⟨hcurrent ▸ hs.current, ?_⟩, hcurrent ▸ hS.refl s.current⟩
    rcases hunfinished with hsame | happend
    · rw [hsame]
      exact hs.unfinished
    · rw [happend]
      intro other hother
      rcases List.mem_append.1 hother with hold | hlast
      · exact hs.unfinished other hold
      · rw [List.mem_singleton.1 hlast]
        exact hop
  · have hstep := hS.perform hop (hA hcarried) hs.current hok
    exact ⟨⟨hstep.1, hs.unfinished⟩, hstep.2⟩

theorem Steps.resolve (hS : Steps S B A I T) {n : Nat} {carried : Bool} (hs : Sound B I s)
    (hA : ∀ op, carried = true → s.unfinished[n]? = some op → A op s.current)
    (h : S.resolve n carried s = some s') : Sound B I s' ∧ T s.current s'.current := by
  obtain ⟨hunfinished, hcurrent⟩ := resolve_some h
  have hrest : ∀ other ∈ s'.unfinished, B other := by
    intro other hother
    rw [hunfinished] at hother
    exact hs.unfinished other (List.mem_of_mem_eraseIdx hother)
  rcases hcurrent with hsame | ⟨op, a, hcarried, hop, hok⟩
  · exact ⟨⟨hsame ▸ hs.current, hrest⟩, hsame ▸ hS.refl s.current⟩
  · have hmem : op ∈ s.unfinished := List.mem_of_getElem? hop
    have hstep := hS.perform (hs.unfinished op hmem) (hA op hcarried hop) hs.current hok
    exact ⟨⟨hstep.1, hrest⟩, hstep.2⟩

theorem Steps.env (hS : Steps S B A I T) {move : StoreMove μ} (hs : Sound B I s)
    (hA : (S.guard ι wrap A).env move s) (h : S.env move s = some s') :
    Sound B I s' ∧ T s.current s'.current := by
  cases move with
  | outside move =>
    obtain ⟨t, ht, rfl⟩ := Option.map_eq_some_iff.1 h
    have hstep := hS.outside hs.current ht
    exact ⟨⟨hstep.1, hs.unfinished⟩, hstep.2⟩
  | resolve n carried =>
    have hresolved : ∀ op, carried = true → s.unfinished[n]? = some op → A op s.current := by
      intro op hcarried hop
      exact hA n op (by rw [hcarried]) hop
    exact hS.resolve hs hresolved h

/-! ## Runs -/

/-- Under a step relation, a thread relies on the others taking steps of that kind. -/
def discipline (S : Store Op Resp φ μ σ) (ι : Type) (wrap : φ → ε) (B : Op → Prop)
    (A : Op → σ → Prop) (I : σ → Prop) (T : σ → σ → Prop) :
    Discipline (S.system ι wrap) (S.guard ι wrap A) where
  Inv := Sound B I
  rely := fun _ s s' => Relation.ReflTransGen T s.current s'.current
  allowed := fun _ op _ => B op
  rely_refl := fun _ _ => .refl
  rely_trans := fun h h' => h.trans h'

theorem Steps.sound (hS : Steps S B A I T) : (S.discipline ι wrap B A I T).Sound where
  inv_call := fun hs hop hA hrun => (hS.run hop hA hs hrun).1
  rely_call := fun hs hop hA hrun _ => .single (hS.run hop hA hs hrun).2
  inv_env := fun hs hA henv => (hS.env hs hA henv).1
  rely_env := fun hs hA henv => .single (hS.env hs hA henv).2
  inv_leave := fun hs => hs
  rely_leave := fun _ _ => .refl

theorem stable_of_steps {i : ι} {P : σ → Prop} (hP : ∀ s t, T s t → P s → P t) :
    (S.discipline ι wrap B A I T).Stable i fun s => P s.current := by
  intro s s' _ hrely hs
  have hkeep : ∀ t, Relation.ReflTransGen T s.current t → P t := by
    intro t ht
    induction ht with
    | refl => exact hs
    | tail _ hstep ih => exact hP _ _ hstep ih
  exact hkeep _ hrely

/-- One statement of a thread: its answer in the state it found, or an error of the store. -/
theorem triple_perform {i : ι} {op : Op} {P : σ → Prop} {Q : Resp op → σ → Prop}
    {E : ε → σ → Prop} (hop : B op) (hP : ∀ s t, T s t → P s → P t)
    (hok : ∀ s a t, A op s → I s → P s → S.perform op s = .ok (a, t) → I t → Q a t)
    (herr : ∀ e s, E (wrap e) s) :
    (S.discipline ι wrap B A I T).Triple i (fun s => P s.current) (.perform op)
      (fun a s => Q a s.current) (fun e s => E e s.current) := by
  refine Discipline.Triple.perform (stable_of_steps hP) (fun _ _ _ => hop) ?_ ?_
  · intro s ending a s' hs hPs hA hrun hs'
    rcases run_some hrun with ⟨_, _, e, he⟩ | ⟨a', t, hcarried, hperform, rfl, ha | ⟨e, he⟩⟩
    · cases he
    · cases ha
      exact hok s.current a t (hA hcarried) hs.current hPs hperform hs'.current
    · cases he
  · intro s ending e s' _ _ _ hrun _
    rcases run_some hrun with ⟨_, _, e', he⟩ | ⟨a', t, _, _, _, ha | ⟨e', he⟩⟩
    · cases he
      exact herr e' _
    · cases ha
    · cases he
      exact herr e' _

variable [DecidableEq ι] {progs : ι → Prog Op Resp ε α} {c c' : Config ι Op Resp ε α (Stored Op σ)}

theorem Steps.reachable (hS : Steps S B A I T) (hprogs : ∀ i, (progs i).Calls B)
    (hs : Sound B I s) (h : Reachable (S.guard ι wrap A) (.initial s progs) c) :
    (S.discipline ι wrap B A I T).ConfigOk (fun _ _ _ => True) (fun _ _ _ => True) c := by
  have htriple : ∀ i, (S.discipline ι wrap B A I T).Triple i (fun _ => True) (progs i)
      (fun _ _ => True) (fun _ _ => True) := by
    intro i
    exact Discipline.Triple.of_calls (hprogs i) (fun _ _ _ _ _ => trivial) (fun _ hop _ _ _ => hop)
      (fun _ _ _ _ _ _ _ _ _ _ _ => trivial)
  exact Discipline.run hS.sound (fun _ _ _ _ _ _ _ => trivial) (fun _ _ _ _ _ _ _ => trivial)
    (fun _ _ _ _ _ => trivial) (fun _ _ _ _ _ => trivial) hs (fun _ => trivial) htriple h

theorem Steps.step (hS : Steps S B A I T) {Q : ι → α → Stored Op σ → Prop}
    {E : ι → ε → Stored Op σ → Prop} (hc : (S.discipline ι wrap B A I T).ConfigOk Q E c)
    (h : Step (S.guard ι wrap A) c c') : T c.state.current c'.state.current := by
  have hs : Sound B I c.state := hc.1
  refine hc.step_rel (T := fun s s' => T s.current s'.current) h ?_ (fun _ => hS.refl _) ?_
  · intro i op ending r s hop hA hrun
    exact (hS.run hop hA hs hrun).2
  · intro move s hA henv
    exact (hS.env hs hA henv).2

/-! ## Played runs -/

/-- An event after which no unfinished statement is carried out. -/
def settles : Event ι (Ending φ) (StoreMove μ) → Bool
  | .env (.resolve _ true) => false
  | _ => true

/-- A played run is admitted when its statements pass a check where they are carried out. -/
theorem admitted_of_check {check : Op → σ → Bool} (hcheck : ∀ op s, check op s = true → A op s)
    {es : List (Event ι (Ending φ) (StoreMove μ))} (hsettled : es.all settles = true)
    (h : c.passes (S.system ι wrap)
      (fun _ op ending s => !Ending.carried ending || check op s.current) es = true) :
    Admitted (S.guard ι wrap A) c es := by
  refine Admitted.of_passes ?_ ?_ h
  · intro i op ending s hpass hcarried
    have hop : check op s.current = true := by
      rw [hcarried] at hpass
      exact hpass
    exact hcheck op s.current hop
  · intro move hmove s n op hresolve
    have hsettles := List.all_eq_true.1 hsettled _ hmove
    rw [hresolve] at hsettles
    cases hsettles

end Store

end Interleaving
