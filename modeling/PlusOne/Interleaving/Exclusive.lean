import Mathlib.Data.List.Induction
import Mathlib.Logic.Relation
import PlusOne.Interleaving.Program

/-! # Operations that run one at a time

A cell is a value that operations work on by atomic steps. Beside what one operation
can do to it alone, there is what a list of operations does one after the other. -/

namespace Interleaving

variable {ι Op : Type} {Resp : Op → Type} {ε α δ : Type}

/-- What each step of an operation does to the value; the choice settles what the outside decides. -/
structure Cell (Op : Type) (Resp : Op → Type) (ε δ : Type) where
  Choice : Type
  run : (op : Op) → Choice → δ → Option (Except ε (Resp op) × δ)

/-- The operation, run alone on `d`, can end with `out` and leave `d'`. -/
inductive Exec (C : Cell Op Resp ε δ) : Prog Op Resp ε α → δ → Except ε α → δ → Prop
  | ret (a : α) (d : δ) : Exec C (.ret a) d (.ok a) d
  | throw (e : ε) (d : δ) : Exec C (.throw e) d (.error e) d
  | call {op : Op} {k : Except ε (Resp op) → Prog Op Resp ε α} {choice : C.Choice}
      {r : Except ε (Resp op)} {d d' d'' : δ} {out : Except ε α} (step : C.run op choice d = some (r, d'))
      (rest : Exec C (k r) d' out d'') : Exec C (.call op k) d out d''

/-- The cell in so far as its steps reply with a value. -/
def Cell.answering (C : Cell Op Resp ε δ) : Cell Op Resp ε δ where
  Choice := C.Choice
  run := fun op choice d => (C.run op choice d).filter fun step => step.1.isOk

variable {C : Cell Op Resp ε δ}

theorem Cell.answering_run {op : Op} {choice : C.Choice} {r : Except ε (Resp op)} {d d' : δ}
    (h : C.answering.run op choice d = some (r, d')) :
    ∃ a, r = .ok a ∧ C.run op choice d = some (.ok a, d') := by
  obtain ⟨hrun, hok⟩ := Option.filter_eq_some_iff.1 h
  cases r with
  | error e => cases hok
  | ok a => exact ⟨a, rfl, hrun⟩

/-- Run an operation with one choice for all its steps. -/
def Cell.play (C : Cell Op Resp ε δ) (choice : C.Choice) : Prog Op Resp ε α → δ → Option (Except ε α × δ)
  | .ret a, d => some (.ok a, d)
  | .throw e, d => some (.error e, d)
  | .call op k, d => (C.run op choice d).bind fun step => C.play choice (k step.1) step.2

/-- Run an operation with a choice for each of its steps. -/
def Cell.playBy (C : Cell Op Resp ε δ) (choose : Op → C.Choice) :
    Prog Op Resp ε α → δ → Option (Except ε α × δ)
  | .ret a, d => some (.ok a, d)
  | .throw e, d => some (.error e, d)
  | .call op k, d => (C.run op (choose op) d).bind fun step => C.playBy choose (k step.1) step.2

/-- The operations of a list, run one after the other, can end as the list says. -/
inductive Serial (C : Cell Op Resp ε δ) (operations : ι → Prog Op Resp ε α) :
    List (ι × Except ε α) → δ → δ → Prop
  | nil (d : δ) : Serial C operations [] d d
  | snoc {log : List (ι × Except ε α)} {i : ι} {out : Except ε α} {d d' d'' : δ}
      (before : Serial C operations log d d') (last : Exec C (operations i) d' out d'') :
      Serial C operations (log ++ [(i, out)]) d d''

/-- Every step that the operation can take alone on `d` satisfies `A` where it is taken. -/
def Prog.Safe (C : Cell Op Resp ε δ) (A : Op → δ → Prop) : Prog Op Resp ε α → δ → Prop
  | .ret _, _ => True
  | .throw _, _ => True
  | .call op k, d => A op d ∧
      ∀ choice r d', C.run op choice d = some (r, d') → (k r).Safe C A d'

namespace Prog.Safe

variable {C : Cell Op Resp ε δ} {A : Op → δ → Prop} {β : Type} {p : Prog Op Resp ε α} {d : δ}

theorem handle {f : α → Prog Op Resp ε β} {g : ε → Prog Op Resp ε β} (h : p.Safe C A d)
    (hf : ∀ a d', Exec C p d (.ok a) d' → (f a).Safe C A d')
    (hg : ∀ e d', Exec C p d (.error e) d' → (g e).Safe C A d') : (p.handle f g).Safe C A d := by
  induction p generalizing d with
  | ret a => exact hf a d (.ret a d)
  | throw e => exact hg e d (.throw e d)
  | call op k ih =>
    refine ⟨h.1, ?_⟩
    intro choice r d' hstep
    exact ih r (h.2 choice r d' hstep) (fun a d'' hrest => hf a d'' (.call hstep hrest))
      fun e d'' hrest => hg e d'' (.call hstep hrest)

theorem bind {f : α → Prog Op Resp ε β} (h : p.Safe C A d)
    (hf : ∀ a d', Exec C p d (.ok a) d' → (f a).Safe C A d') : (p.bind f).Safe C A d := by
  rw [bind_eq_handle]
  exact h.handle hf fun _ _ _ => trivial

theorem of_calls (hp : p.Calls fun op => ∀ d, A op d) : p.Safe C A d := by
  induction hp generalizing d with
  | ret a => trivial
  | throw e => trivial
  | call hop _ ih => exact ⟨hop d, fun _ r _ _ => ih r⟩

end Prog.Safe

namespace Exec

variable {C : Cell Op Resp ε δ} {β : Type} {p : Prog Op Resp ε α} {d d' : δ}

variable {f : α → Prog Op Resp ε β}

theorem handle_inv {g : ε → Prog Op Resp ε β} {out : Except ε β} (h : Exec C (p.handle f g) d out d') :
    (∃ a d₁, Exec C p d (.ok a) d₁ ∧ Exec C (f a) d₁ out d') ∨
      ∃ e d₁, Exec C p d (.error e) d₁ ∧ Exec C (g e) d₁ out d' := by
  induction p generalizing d with
  | ret a => exact .inl ⟨a, d, .ret a d, h⟩
  | throw e => exact .inr ⟨e, d, .throw e d, h⟩
  | call op k ih =>
    cases h with
    | call hstep hrest =>
      rcases ih _ hrest with ⟨a, d₁, hfirst, hlast⟩ | ⟨e, d₁, hfirst, hlast⟩
      · exact .inl ⟨a, d₁, .call hstep hfirst, hlast⟩
      · exact .inr ⟨e, d₁, .call hstep hfirst, hlast⟩

variable {out : Except ε α}

theorem bind_inv {out : Except ε β} (h : Exec C (p.bind f) d out d') :
    (∃ a d₁, Exec C p d (.ok a) d₁ ∧ Exec C (f a) d₁ out d') ∨
      ∃ e, Exec C p d (.error e) d' ∧ out = .error e := by
  rw [Prog.bind_eq_handle] at h
  rcases h.handle_inv with hreturned | ⟨e, d₁, hthrew, hlast⟩
  · exact .inl hreturned
  · cases hlast
    exact .inr ⟨e, hthrew, rfl⟩

theorem tryCatch_inv {h : ε → Prog Op Resp ε α} (hexec : Exec C (p.tryCatch h) d out d') :
    (∃ a, Exec C p d (.ok a) d' ∧ out = .ok a) ∨
      ∃ e d₁, Exec C p d (.error e) d₁ ∧ Exec C (h e) d₁ out d' := by
  rw [Prog.tryCatch_eq_handle] at hexec
  rcases hexec.handle_inv with ⟨a, d₁, hreturned, hlast⟩ | hthrew
  · cases hlast
    exact .inl ⟨a, hreturned, rfl⟩
  · exact .inr hthrew

theorem handle_ok {g : ε → Prog Op Resp ε β} {a : α} {d₁ : δ} {out : Except ε β} (h : Exec C p d (.ok a) d₁)
    (hf : Exec C (f a) d₁ out d') :
    Exec C (p.handle f g) d out d' := by
  induction p generalizing d with
  | ret b =>
    cases h
    exact hf
  | throw e => cases h
  | call op k ih =>
    cases h with
    | call hstep hrest => exact .call hstep (ih _ hrest)

theorem bind_ok {a : α} {d₁ : δ} {out : Except ε β} (h : Exec C p d (.ok a) d₁) (hf : Exec C (f a) d₁ out d') :
    Exec C (p.bind f) d out d' :=
  Prog.bind_eq_handle p f ▸ h.handle_ok hf

theorem tryCatch_ok {h : ε → Prog Op Resp ε α} {a : α} (hp : Exec C p d (.ok a) d') :
    Exec C (p.tryCatch h) d (.ok a) d' :=
  Prog.tryCatch_eq_handle p h ▸ hp.handle_ok (.ret a d')

theorem mono {C' : Cell Op Resp ε δ} (hsteps : ∀ op choice r d d', C.run op choice d = some (r, d') →
      ∃ choice', C'.run op choice' d = some (r, d')) (h : Exec C p d out d') : Exec C' p d out d' := by
  induction h with
  | ret a d => exact .ret a d
  | throw e d => exact .throw e d
  | call hstep _ ih =>
    obtain ⟨choice', hstep'⟩ := hsteps _ _ _ _ _ hstep
    exact .call hstep' ih

theorem unchanged {R : Op → Prop} (hR : ∀ op choice r d d', R op → C.run op choice d = some (r, d') → d' = d)
    (hp : p.Calls R) (h : Exec C p d out d') : d' = d := by
  induction h with
  | ret a d => rfl
  | throw e d => rfl
  | call hstep _ ih =>
    cases hp with
    | call hop hrest => exact (ih (hrest _)).trans (hR _ _ _ _ _ hop hstep)

theorem perform_inv {op : Op} {out : Except ε (Resp op)} (h : Exec C (.perform op) d out d') :
    ∃ choice, C.run op choice d = some (out, d') := by
  cases h with
  | @call _ _ choice r _ d₁ _ _ hstep hrest =>
    cases r with
    | ok a =>
      cases hrest
      exact ⟨choice, hstep⟩
    | error e =>
      cases hrest
      exact ⟨choice, hstep⟩

theorem of_play {choice : C.Choice} (h : C.play choice p d = some (out, d')) :
    Exec C p d out d' := by
  induction p generalizing d with
  | ret a =>
    cases h
    exact .ret a _
  | throw e =>
    cases h
    exact .throw e _
  | call op k ih =>
    obtain ⟨⟨r, d₁⟩, hstep, hrest⟩ := Option.bind_eq_some_iff.1 h
    exact .call hstep (ih r hrest)

theorem of_playBy {choose : Op → C.Choice} (h : C.playBy choose p d = some (out, d')) : Exec C p d out d' := by
  induction p generalizing d with
  | ret a =>
    cases h
    exact .ret a _
  | throw e =>
    cases h
    exact .throw e _
  | call op k ih =>
    obtain ⟨⟨r, d₁⟩, hstep, hrest⟩ := Option.bind_eq_some_iff.1 h
    exact .call hstep (ih r hrest)

end Exec

/-! ## Operations that are cut off -/

/-- The operation, run alone on `d`, has left `d'` where it ends or where it is cut off. -/
inductive Prefix (C : Cell Op Resp ε δ) : Prog Op Resp ε α → δ → δ → Prop
  | stop (p : Prog Op Resp ε α) (d : δ) : Prefix C p d d
  | call {op : Op} {k : Except ε (Resp op) → Prog Op Resp ε α} {choice : C.Choice}
      {r : Except ε (Resp op)} {d d' d'' : δ} (step : C.run op choice d = some (r, d'))
      (rest : Prefix C (k r) d' d'') : Prefix C (.call op k) d d''

theorem Exec.toPrefix {p : Prog Op Resp ε α} {out : Except ε α} {d d' : δ} (h : Exec C p d out d') :
    Prefix C p d d' := by
  induction h with
  | ret a d => exact .stop _ d
  | throw e d => exact .stop _ d
  | call hstep _ ih => exact .call hstep ih

theorem Prefix.invariant {Inv : δ → Prop} {A : Op → δ → Prop}
    (hstep : ∀ op choice d r d', Inv d → A op d → C.run op choice d = some (r, d') → Inv d') {p : Prog Op Resp ε α}
    {d d' : δ} (h : Prefix C p d d') (hd : Inv d) (hsafe : p.Safe C A d) :
    Inv d' := by
  induction h with
  | stop p d => exact hd
  | call hrun _ ih => exact ih (hstep _ _ _ _ _ hd hsafe.1 hrun) (hsafe.2 _ _ _ hrun)

/-- Operations one after the other, each run to its end or cut off. -/
def CrashRun {ν : Type} (C : Cell Op Resp ε δ) (operations : ν → Prog Op Resp ε α) : δ → δ → Prop :=
  Relation.ReflTransGen fun d d' => ∃ n, Prefix C (operations n) d d'

theorem CrashRun.invariant {ν : Type} {operations : ν → Prog Op Resp ε α} {Inv : δ → Prop} {A : Op → δ → Prop}
    (hstep : ∀ op choice d r d', Inv d → A op d → C.run op choice d = some (r, d') → Inv d')
    (hsafe : ∀ n d, Inv d → (operations n).Safe C A d) {d d' : δ} (h : CrashRun C operations d d') (hd : Inv d) :
    Inv d' := by
  induction h with
  | refl => exact hd
  | tail _ hlast ih =>
    obtain ⟨n, hprefix⟩ := hlast
    exact hprefix.invariant hstep ih (hsafe n _ ih)

/-! ## Logs of operations with what each left -/

/-- The value before the `n`-th of the recorded operations. -/
def valueBefore (d : δ) (served : List (ι × δ)) : Nat → δ
  | 0 => d
  | n + 1 => (served[n]?.map Prod.snd).getD d

/-- The value after all recorded operations. -/
def lastValue (d : δ) (served : List (ι × δ)) : δ := valueBefore d served served.length

theorem lastValue_concat (d : δ) (served : List (ι × δ)) (i : ι) (d' : δ) :
    lastValue d (served ++ [(i, d')]) = d' := by
  simp [lastValue, valueBefore]

theorem valueBefore_append {d : δ} {served : List (ι × δ)} {n : Nat} (h : n ≤ served.length)
    (more : List (ι × δ)) : valueBefore d (served ++ more) n = valueBefore d served n := by
  cases n with
  | zero => rfl
  | succ n =>
    have hn : n < served.length := h
    rw [valueBefore, valueBefore, List.getElem?_append_left hn]

/-- Recorded operations, each of which did what it can do alone where the one before it left the
value, are a serial run. -/
theorem Serial.of_served {operations : ι → Prog Op Resp ε α} {d : δ} {outcome : ι → Except ε α → Prop}
    (served : List (ι × δ)) (h : ∀ n i d', served[n]? = some (i, d') → ∃ out, outcome i out ∧
      Exec C (operations i) (valueBefore d served n) out d') :
    ∃ log : List (ι × Except ε α), log.map Prod.fst = served.map Prod.fst ∧
      (∀ entry ∈ log, outcome entry.1 entry.2) ∧
      Serial C operations log d (lastValue d served) := by
  induction served using List.reverseRecOn with
  | nil =>
    refine ⟨[], rfl, ?_, .nil d⟩
    intro entry hentry
    cases hentry
  | append_singleton served last ih =>
    obtain ⟨i, d'⟩ := last
    have hprefix : ∀ n j d'', served[n]? = some (j, d'') → ∃ out, outcome j out ∧
        Exec C (operations j) (valueBefore d served n) out d'' := by
      intro n j d'' hn
      have hlt : n < served.length := (List.getElem?_eq_some_iff.1 hn).1
      obtain ⟨out, hout, hexec⟩ := h n j d'' (by rw [List.getElem?_append_left hlt, hn])
      rw [valueBefore_append (Nat.le_of_lt hlt)] at hexec
      exact ⟨out, hout, hexec⟩
    obtain ⟨log, hlog, houtcomes, hserial⟩ := ih hprefix
    obtain ⟨out, hout, hexec⟩ := h served.length i d' (by simp)
    rw [valueBefore_append (Nat.le_refl _)] at hexec
    refine ⟨log ++ [(i, out)], by simp [hlog], ?_, ?_⟩
    · intro entry hentry
      rcases List.mem_append.1 hentry with hold | hnew
      · exact houtcomes entry hold
      · rw [List.mem_singleton.1 hnew]
        exact hout
    · rw [lastValue_concat]
      exact .snoc hserial hexec

end Interleaving
