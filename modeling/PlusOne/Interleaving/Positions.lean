import PlusOne.Interleaving.Program

/-! # Positions in a program

A statement about every point at which a program makes a call: what it has been told
so far, folded into an accumulator, and how it goes on with each reply. It does not
depend on what the replies are, so it speaks about every run at once. -/

namespace Interleaving

namespace Prog

variable {Op : Type} {Resp : Op → Type} {ε α β κ : Type}

/-- At every call `P` holds of the accumulator, the call and the continuation; `Q` holds where
the program returns and `E` where it throws. -/
inductive Everywhere (upd : κ → (op : Op) → Except ε (Resp op) → κ)
    (P : κ → (op : Op) → (Except ε (Resp op) → Prog Op Resp ε α) → Prop) (Q : κ → α → Prop)
    (E : κ → ε → Prop) : κ → Prog Op Resp ε α → Prop
  | ret {a x} : Q a x → Everywhere upd P Q E a (ret x)
  | throw {a e} : E a e → Everywhere upd P Q E a (throw e)
  | call {a op k} : P a op k → (∀ r, Everywhere upd P Q E (upd a op r) (k r)) →
    Everywhere upd P Q E a (call op k)

namespace Everywhere

variable {upd : κ → (op : Op) → Except ε (Resp op) → κ}
variable {P : κ → (op : Op) → (Except ε (Resp op) → Prog Op Resp ε β) → Prop}
variable {Q : κ → β → Prop} {R : κ → α → Prop} {E F : κ → ε → Prop} {a : κ}

theorem handle {p : Prog Op Resp ε α} {f : α → Prog Op Resp ε β} {h : ε → Prog Op Resp ε β}
    (hp : p.Everywhere upd (fun a op k => P a op fun r => (k r).handle f h) R F a)
    (hf : ∀ a x, R a x → (f x).Everywhere upd P Q E a)
    (hh : ∀ a e, F a e → (h e).Everywhere upd P Q E a) :
    (p.handle f h).Everywhere upd P Q E a := by
  induction hp with
  | ret hR => exact hf _ _ hR
  | throw hF => exact hh _ _ hF
  | call hP _ ih => exact .call hP ih

theorem bind {p : Prog Op Resp ε α} {f : α → Prog Op Resp ε β}
    (hp : p.Everywhere upd (fun a op k => P a op fun r => (k r).bind f) R E a)
    (hf : ∀ a x, R a x → (f x).Everywhere upd P Q E a) :
    (p.bind f).Everywhere upd P Q E a := by
  simp only [bind_eq_handle] at hp ⊢
  exact hp.handle hf fun _ _ => .throw

theorem tryCatch {p : Prog Op Resp ε β} {h : ε → Prog Op Resp ε β}
    (hp : p.Everywhere upd (fun a op k => P a op fun r => (k r).tryCatch h) Q F a)
    (hh : ∀ a e, F a e → (h e).Everywhere upd P Q E a) :
    (p.tryCatch h).Everywhere upd P Q E a := by
  simp only [tryCatch_eq_handle] at hp ⊢
  exact hp.handle (fun _ _ => .ret) hh

theorem perform (op : Op) {Q : κ → Resp op → Prop}
    {P : κ → (op' : Op) → (Except ε (Resp op') → Prog Op Resp ε (Resp op)) → Prop}
    (hP : P a op fun | .ok x => .ret x | .error e => .throw e)
    (hQ : ∀ x, Q (upd a op (.ok x)) x) (hE : ∀ e, E (upd a op (.error e)) e) :
    (Prog.perform op : Prog Op Resp ε (Resp op)).Everywhere upd P Q E a := by
  refine .call hP fun r => ?_
  cases r with
  | ok x => exact .ret (hQ x)
  | error e => exact .throw (hE e)

theorem of_calls {C : Op → Prop} {p : Prog Op Resp ε β} (hp : p.Calls C)
    (hupd : ∀ a op r, C op → upd a op r = a) (hP : ∀ a op k, C op → P a op k) :
    p.Everywhere upd P (fun b _ => b = a) (fun b _ => b = a) a := by
  induction hp with
  | ret x => exact .ret rfl
  | throw e => exact .throw rfl
  | @call op k hop _ ih =>
    refine .call (hP a op k hop) fun r => ?_
    rw [hupd a op r hop]
    exact ih r

theorem mono {P' : κ → (op : Op) → (Except ε (Resp op) → Prog Op Resp ε β) → Prop}
    {Q' : κ → β → Prop} {E' : κ → ε → Prop} {p : Prog Op Resp ε β}
    (h : p.Everywhere upd P Q E a) (hP : ∀ a op k, P a op k → P' a op k)
    (hQ : ∀ a x, Q a x → Q' a x) (hE : ∀ a e, E a e → E' a e) :
    p.Everywhere upd P' Q' E' a := by
  induction h with
  | ret h => exact .ret (hQ _ _ h)
  | throw h => exact .throw (hE _ _ h)
  | call h _ ih => exact .call (hP _ _ _ h) ih

end Everywhere

end Prog

end Interleaving
