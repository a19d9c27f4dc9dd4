import PlusOne.Interleaving.Solo
import PlusOne.Interleaving.Store

/-! # Programs that run alone on a store

Every statement is answered, so the run of a program is a function of the state it starts in. -/

namespace Interleaving

variable {ι Op : Type} {Resp : Op → Type} {φ μ σ α β : Type}

namespace Store

/-- What a program ends with and leaves behind when nothing else moves. -/
def alone (S : Store Op Resp φ μ σ) : Prog Op Resp φ α → σ → Except φ α × σ
  | .ret a, s => (.ok a, s)
  | .throw e, s => (.error e, s)
  | .call op k, s =>
    match S.perform op s with
    | .ok (a, t) => S.alone (k (.ok a)) t
    | .error e => S.alone (k (.error e)) s

variable {S : Store Op Resp φ μ σ} {s t : σ}

@[simp] theorem alone_ret (a : α) : S.alone (.ret a) s = (.ok a, s) := rfl

@[simp] theorem alone_throw (e : φ) : S.alone (.throw e : Prog Op Resp φ α) s = (.error e, s) := rfl

/-- A sequence runs its second part where the first has led, unless the first has thrown. -/
theorem alone_bind (p : Prog Op Resp φ α) (f : α → Prog Op Resp φ β) :
    S.alone (p.bind f) s =
      match S.alone p s with
      | (.ok a, t) => S.alone (f a) t
      | (.error e, t) => (.error e, t) := by
  induction p generalizing s with
  | ret a => rfl
  | throw e => rfl
  | call op k ih =>
    simp only [Prog.call_bind, alone]
    split
    · exact ih _
    · exact ih _

theorem alone_perform_ok {op : Op} {a : Resp op} (h : S.perform op s = .ok (a, t)) :
    S.alone (.perform op) s = (.ok a, t) := by
  simp only [Prog.perform, alone, h]

theorem alone_perform_error {op : Op} {e : φ} (h : S.perform op s = .error e) :
    S.alone (.perform op) s = (.error e, s) := by
  simp only [Prog.perform, alone, h]

theorem alone_bind_ok {p : Prog Op Resp φ α} {f : α → Prog Op Resp φ β} {a : α} (h : S.alone p s = (.ok a, t)) :
    S.alone (p.bind f) s = S.alone (f a) t := by
  rw [alone_bind, h]

theorem alone_bind_error {p : Prog Op Resp φ α} {f : α → Prog Op Resp φ β} {e : φ}
    (h : S.alone p s = (.error e, t)) : S.alone (p.bind f) s = (.error e, t) := by
  rw [alone_bind, h]

theorem solo_answered {i : ι} (p : Prog Op Resp φ α) (unfinished : List Op) :
    (S.system ι id).solo i (fun _ => .answered) p ⟨s, unfinished⟩ =
      some ((S.alone p s).1, ⟨(S.alone p s).2, unfinished⟩) := by
  induction p generalizing s with
  | ret a => rfl
  | throw e => rfl
  | call op k ih =>
    simp only [System.solo, alone, system, run]
    cases hperform : S.perform op s with
    | ok reply => exact ih (.ok reply.1)
    | error e => exact ih (.error e)

end Store

end Interleaving
