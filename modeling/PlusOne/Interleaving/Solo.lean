import PlusOne.Interleaving.Exclusive
import PlusOne.Interleaving.System

/-! # Programs that run alone

The run of one thread while no other thread and nothing outside moves. Each call takes
the choice it is given, so the run is a function of the state it starts in. -/

namespace Interleaving

variable {ι Op : Type} {Resp : Op → Type} {ε α β σ : Type}

/-- The run of `p` by thread `i` alone; `none` where one of its calls has to wait. -/
def System.solo (S : System ι Op Resp ε σ) (i : ι) (choose : Op → S.Choice) :
    Prog Op Resp ε α → σ → Option (Except ε α × σ)
  | .ret a, s => some (.ok a, s)
  | .throw e, s => some (.error e, s)
  | .call op k, s => (S.run i op (choose op) s).bind fun x => S.solo i choose (k x.1) x.2

namespace System

variable {S : System ι Op Resp ε σ} {i : ι} {choose : Op → S.Choice} {s s' : σ}
variable {p : Prog Op Resp ε α}

@[simp] theorem solo_ret (a : α) : S.solo i choose (.ret a) s = some (.ok a, s) := rfl

@[simp] theorem solo_throw (e : ε) :
    S.solo i choose (.throw e : Prog Op Resp ε α) s = some (.error e, s) := rfl

theorem solo_handle (f : α → Prog Op Resp ε β) (h : ε → Prog Op Resp ε β) :
    S.solo i choose (p.handle f h) s = (S.solo i choose p s).bind fun
      | (.ok a, t) => S.solo i choose (f a) t
      | (.error e, t) => S.solo i choose (h e) t := by
  induction p generalizing s with
  | ret a => rfl
  | throw e => rfl
  | call op k ih =>
    simp only [Prog.handle, solo, Option.bind_assoc]
    exact Option.bind_congr fun x _ => ih x.1

theorem solo_bind (f : α → Prog Op Resp ε β) :
    S.solo i choose (p.bind f) s = (S.solo i choose p s).bind fun
      | (.ok a, t) => S.solo i choose (f a) t
      | (.error e, t) => some (.error e, t) := by
  rw [Prog.bind_eq_handle, solo_handle]
  rfl

theorem solo_tryCatch (h : ε → Prog Op Resp ε α) :
    S.solo i choose (p.tryCatch h) s = (S.solo i choose p s).bind fun
      | (.ok a, t) => some (.ok a, t)
      | (.error e, t) => S.solo i choose (h e) t := by
  rw [Prog.tryCatch_eq_handle, solo_handle]
  rfl

variable {f : α → Prog Op Resp ε β}

theorem solo_bind_ok {a : α} (h : S.solo i choose p s = some (.ok a, s')) :
    S.solo i choose (p.bind f) s = S.solo i choose (f a) s' := by
  rw [solo_bind, h, Option.bind_some]

theorem solo_bind_error {e : ε} (h : S.solo i choose p s = some (.error e, s')) :
    S.solo i choose (p.bind f) s = some (.error e, s') := by
  rw [solo_bind, h, Option.bind_some]

theorem solo_handle_ok {g : ε → Prog Op Resp ε β} {a : α} (h : S.solo i choose p s = some (.ok a, s')) :
    S.solo i choose (p.handle f g) s = S.solo i choose (f a) s' := by
  rw [solo_handle, h, Option.bind_some]

theorem solo_handle_error {g : ε → Prog Op Resp ε β} {e : ε} (h : S.solo i choose p s = some (.error e, s')) :
    S.solo i choose (p.handle f g) s = S.solo i choose (g e) s' := by
  rw [solo_handle, h, Option.bind_some]

variable {h : ε → Prog Op Resp ε α}

theorem solo_tryCatch_ok {a : α} (hp : S.solo i choose p s = some (.ok a, s')) :
    S.solo i choose (p.tryCatch h) s = some (.ok a, s') := by
  rw [solo_tryCatch, hp, Option.bind_some]

theorem solo_tryCatch_error {e : ε} (hp : S.solo i choose p s = some (.error e, s')) :
    S.solo i choose (p.tryCatch h) s = S.solo i choose (h e) s' := by
  rw [solo_tryCatch, hp, Option.bind_some]

theorem solo_bind_eq_ok {b : β} :
    S.solo i choose (p.bind f) s = some (.ok b, s') ↔
      ∃ a t, S.solo i choose p s = some (.ok a, t) ∧ S.solo i choose (f a) t = some (.ok b, s') := by
  simp only [solo_bind, Option.bind_eq_some_iff, Prod.exists]
  constructor
  · rintro ⟨r, t, hp, hrest⟩
    cases r with
    | ok a => exact ⟨a, t, hp, hrest⟩
    | error e => cases hrest
  · rintro ⟨a, t, hp, hrest⟩
    exact ⟨.ok a, t, hp, hrest⟩

/-- A handler that throws again adds no way to end with a value. -/
theorem solo_tryCatch_eq_ok {a : α} (hh : ∀ e, ∃ e', h e = .throw e') :
    S.solo i choose (p.tryCatch h) s = some (.ok a, s') ↔
      S.solo i choose p s = some (.ok a, s') := by
  simp only [solo_tryCatch, Option.bind_eq_some_iff, Prod.exists]
  constructor
  · rintro ⟨r, t, hp, hrest⟩
    cases r with
    | ok b =>
      cases hrest
      exact hp
    | error e =>
      obtain ⟨e', he⟩ := hh e
      simp only [he, solo] at hrest
      cases hrest
  · intro hp
    exact ⟨.ok a, s', hp, rfl⟩

theorem solo_perform_eq_ok {op : Op} {a : Resp op} :
    S.solo i choose (.perform op) s = some (.ok a, s') ↔
      S.run i op (choose op) s = some (.ok a, s') := by
  simp only [Prog.perform, solo, Option.bind_eq_some_iff]
  constructor
  · rintro ⟨⟨r, t⟩, hx, hrest⟩
    cases r with
    | ok b =>
      cases hrest
      exact hx
    | error e => cases hrest
  · intro hrun
    exact ⟨_, hrun, rfl⟩

theorem solo_perform_ok {op : Op} {a : Resp op} (h : S.run i op (choose op) s = some (.ok a, s')) :
    S.solo i choose (.perform op) s = some (.ok a, s') := by
  simp only [Prog.perform, solo, h, Option.bind_some]

theorem solo_perform_error {op : Op} {e : ε} (h : S.run i op (choose op) s = some (.error e, s')) :
    S.solo i choose (.perform op) s = some (.error e, s') := by
  simp only [Prog.perform, solo, h, Option.bind_some]

/-- The calls of one thread, as what they do to the state. -/
def cell (S : System ι Op Resp ε σ) (i : ι) : Cell Op Resp ε σ := ⟨S.Choice, S.run i⟩

theorem exec_of_solo {out : Except ε α} (h : S.solo i choose p s = some (out, s')) :
    Exec (S.cell i) p s out s' := by
  induction p generalizing s with
  | ret a =>
    cases h
    exact .ret a _
  | throw e =>
    cases h
    exact .throw e _
  | call op k ih =>
    obtain ⟨x, hx, hrest⟩ := Option.bind_eq_some_iff.1 h
    have hstep : (S.cell i).run op (choose op) s = some (x.1, x.2) := hx
    exact .call hstep (ih x.1 hrest)

/-- Programs run to their ends, one after the other. -/
def soloAll (S : System ι Op Resp ε σ) (i : ι) (choose : Op → S.Choice) :
    List (Prog Op Resp ε α) → σ → Option σ
  | [], s => some s
  | p :: programs, s => (S.solo i choose p s).bind fun x => S.soloAll i choose programs x.2

theorem crashRun_of_soloAll {ν : Type} {operations : ν → Prog Op Resp ε α} {names : List ν}
    (h : S.soloAll i choose (names.map operations) s = some s') :
    CrashRun (S.cell i) operations s s' := by
  induction names generalizing s with
  | nil =>
    cases h
    exact .refl
  | cons n names ih =>
    obtain ⟨x, hx, hrest⟩ := Option.bind_eq_some_iff.1 h
    have hfirst : Exec (S.cell i) (operations n) s x.1 x.2 := exec_of_solo hx
    exact .head ⟨n, hfirst.toPrefix⟩ (ih hrest)

end System

end Interleaving
