import Mathlib.Control.Basic
import Mathlib.Tactic.Common

/-! # Programs that call a shared system

A program either returns, throws, or issues one call and goes on with the reply.
A reply is a value or an error, and an error reply is an ordinary reply: the
program decides whether to rethrow it. Everything between two calls is private,
so a call is the only point at which programs can be interleaved. -/

namespace Interleaving

/-- Programs over calls `Op`, where a call `op` replies in `Resp op` or throws in `ε`. -/
inductive Prog (Op : Type) (Resp : Op → Type) (ε α : Type)
  | ret (a : α)
  | throw (e : ε)
  | call (op : Op) (k : Except ε (Resp op) → Prog Op Resp ε α)

namespace Prog

variable {Op : Type} {Resp : Op → Type} {ε α β γ : Type}

/-- Run `p`, and go on with `f` when it returns. -/
def bind : Prog Op Resp ε α → (α → Prog Op Resp ε β) → Prog Op Resp ε β
  | ret a, f => f a
  | throw e, _ => throw e
  | call op k, f => call op fun r => (k r).bind f

/-- Run `p`, and go on with `h` when it throws. -/
def tryCatch : Prog Op Resp ε α → (ε → Prog Op Resp ε α) → Prog Op Resp ε α
  | ret a, _ => ret a
  | throw e, h => h e
  | call op k, h => call op fun r => (k r).tryCatch h

/-- Run `p`; go on with `f` when it returns and with `h` when it throws. -/
def handle : Prog Op Resp ε α → (α → Prog Op Resp ε β) → (ε → Prog Op Resp ε β) →
    Prog Op Resp ε β
  | ret a, f, _ => f a
  | throw e, _, h => h e
  | call op k, f, h => call op fun r => (k r).handle f h

/-- Issue one call; an error reply is thrown. -/
def perform (op : Op) : Prog Op Resp ε (Resp op) :=
  call op fun
    | .ok a => ret a
    | .error e => throw e

/-- The computation a plain `Except` value stands for. -/
def ofExcept : Except ε α → Prog Op Resp ε α
  | .ok a => ret a
  | .error e => throw e

/-- The same program where its calls are some among others. -/
def inr {Op' : Type} {Resp' : Op' → Type} :
    Prog Op Resp ε α → Prog (Op' ⊕ Op) (Sum.elim Resp' Resp) ε α
  | ret a => ret a
  | throw e => throw e
  | call op k => call (.inr op) fun r => (k r).inr

instance : Monad (Prog Op Resp ε) where
  pure := ret
  bind := bind

instance : MonadExceptOf ε (Prog Op Resp ε) where
  throw := throw
  tryCatch := tryCatch

@[simp] theorem pure_eq (a : α) : (pure a : Prog Op Resp ε α) = ret a := rfl

@[simp] theorem throw_eq (e : ε) : (MonadExcept.throw e : Prog Op Resp ε α) = throw e := rfl

@[simp] theorem throwThe_eq (e : ε) : (throwThe ε e : Prog Op Resp ε α) = throw e := rfl

@[simp] theorem tryCatch_eq (p : Prog Op Resp ε α) (h : ε → Prog Op Resp ε α) :
    MonadExcept.tryCatch p h = p.tryCatch h := rfl

@[simp] theorem tryCatchThe_eq (p : Prog Op Resp ε α) (h : ε → Prog Op Resp ε α) :
    tryCatchThe ε p h = p.tryCatch h := rfl

@[simp] theorem bind_eq (p : Prog Op Resp ε α) (f : α → Prog Op Resp ε β) :
    (p >>= f) = p.bind f := rfl

@[simp] theorem ret_bind (a : α) (f : α → Prog Op Resp ε β) : (ret a).bind f = f a := rfl

@[simp] theorem throw_bind (e : ε) (f : α → Prog Op Resp ε β) : (throw e).bind f = throw e := rfl

@[simp] theorem call_bind (op : Op) (k : Except ε (Resp op) → Prog Op Resp ε α)
    (f : α → Prog Op Resp ε β) : (call op k).bind f = call op fun r => (k r).bind f := rfl

theorem bind_eq_handle (p : Prog Op Resp ε α) (f : α → Prog Op Resp ε β) : p.bind f = p.handle f throw := by
  induction p with
  | ret a => rfl
  | throw e => rfl
  | call op k ih => simp only [bind, handle, ih]

theorem tryCatch_eq_handle (p : Prog Op Resp ε α) (h : ε → Prog Op Resp ε α) : p.tryCatch h = p.handle ret h := by
  induction p with
  | ret a => rfl
  | throw e => rfl
  | call op k ih => simp only [tryCatch, handle, ih]

theorem bind_ret (p : Prog Op Resp ε α) : p.bind ret = p := by
  induction p with
  | ret a => rfl
  | throw e => rfl
  | call op k ih => simp only [call_bind, ih]

theorem bind_assoc (p : Prog Op Resp ε α) (f : α → Prog Op Resp ε β) (g : β → Prog Op Resp ε γ) :
    (p.bind f).bind g = p.bind fun a => (f a).bind g := by
  induction p with
  | ret a => rfl
  | throw e => rfl
  | call op k ih => simp only [call_bind, ih]

instance : LawfulMonad (Prog Op Resp ε) :=
  LawfulMonad.mk' _ bind_ret (fun _ _ => rfl) bind_assoc

/-- Every call the program can make, on whatever replies, satisfies `P`. -/
inductive Calls (P : Op → Prop) : Prog Op Resp ε α → Prop
  | ret (a) : Calls P (ret a)
  | throw (e) : Calls P (throw e)
  | call {op k} : P op → (∀ r, Calls P (k r)) → Calls P (call op k)

namespace Calls

variable {P Q : Op → Prop} {p : Prog Op Resp ε α}

theorem mono (h : p.Calls P) (hPQ : ∀ op, P op → Q op) : p.Calls Q := by
  induction h with
  | ret a => exact .ret a
  | throw e => exact .throw e
  | call hop _ ih => exact .call (hPQ _ hop) ih

theorem handle {f : α → Prog Op Resp ε β} {h : ε → Prog Op Resp ε β} (hp : p.Calls P)
    (hf : ∀ a, (f a).Calls P) (hh : ∀ e, (h e).Calls P) : (p.handle f h).Calls P := by
  induction hp with
  | ret a => exact hf a
  | throw e => exact hh e
  | call hop _ ih => exact .call hop ih

theorem bind {f : α → Prog Op Resp ε β} (h : p.Calls P) (hf : ∀ a, (f a).Calls P) :
    (p.bind f).Calls P :=
  bind_eq_handle p f ▸ h.handle hf .throw

theorem tryCatch {h : ε → Prog Op Resp ε α} (hp : p.Calls P) (hh : ∀ e, (h e).Calls P) :
    (p.tryCatch h).Calls P :=
  tryCatch_eq_handle p h ▸ hp.handle .ret hh

theorem inr {Op' : Type} {Resp' : Op' → Type} {P : Op' ⊕ Op → Prop}
    (h : p.Calls fun op => P (.inr op)) : (p.inr : Prog (Op' ⊕ Op) (Sum.elim Resp' Resp) ε α).Calls P := by
  induction h with
  | ret a => exact .ret a
  | throw e => exact .throw e
  | call hop _ ih => exact .call hop ih

theorem perform {op : Op} (h : P op) : (perform op : Prog Op Resp ε _).Calls P :=
  .call h fun
    | .ok a => .ret a
    | .error e => .throw e

theorem ofExcept (x : Except ε α) : (ofExcept x : Prog Op Resp ε α).Calls P := by
  cases x with
  | ok a => exact .ret a
  | error e => exact .throw e

end Calls

end Prog

end Interleaving
