import PlusOne.Interleaving.Exclusive
import PlusOne.Interleaving.RelyGuarantee

/-! # The resource mutex

Each call makes a promise, puts it in the place of the last one of its resource, and waits
for that one. Which calls were made and which are over is kept beside the promises; no call
reads it. -/

namespace PlusOne

open Interleaving

variable {ι κ Op : Type} {Resp : Op → Type} {ε α δ : Type}

/-- What a call asks of the process: its two synchronous parts, the wait between them, and the steps
of its operation on the resource. -/
inductive MutexCall (κ Op : Type)
  | enter (resourceId : κ)
  | await (previous : Option Nat)
  | leave (resourceId : κ) (current : Nat)
  | inside (resourceId : κ) (op : Op)

/-- `enter` answers with the promise to wait for, if there is one, and the new promise. -/
abbrev MutexReply (κ : Type) (Resp : Op → Type) : MutexCall κ Op → Type
  | .enter _ => Option Nat × Nat
  | .await _ | .leave .. => Unit
  | .inside _ op => Resp op

abbrev MutexProgram (κ : Type) (Resp : Op → Type) (ε α : Type) :=
  Prog (MutexCall κ Op) (MutexReply κ Resp) ε α

/-- The operation as a part of a call. -/
def inside (resourceId : κ) : Prog Op Resp ε α → MutexProgram κ Resp ε α
  | .ret a => .ret a
  | .throw e => .throw e
  | .call op k => .call (.inside resourceId op) fun r => inside resourceId (k r)

namespace ResourceMutex

/-- The `finally` of `run`. -/
def leaving (resourceId : κ) (current : Nat) (p : Prog Op Resp ε α) : MutexProgram κ Resp ε α :=
  (inside resourceId p).handle
    (fun a => (Prog.perform (MutexCall.leave resourceId current)).bind fun _ => .ret a)
    fun e => (Prog.perform (MutexCall.leave resourceId current)).bind fun _ => .throw e

def run (resourceId : κ) (operation : Prog Op Resp ε α) : MutexProgram κ Resp ε α :=
  (Prog.perform (MutexCall.enter resourceId)).bind fun promises =>
    (Prog.perform (MutexCall.await promises.1)).bind fun _ =>
      leaving resourceId promises.2 operation

end ResourceMutex

/-! ## The system -/

/-- The resources, the tails, how many promises were made and which are resolved; and for each
resource the calls made on it, those not over (with their promises), and those over (with what
each left). -/
structure MutexSys (ι κ δ : Type) where
  value : κ → δ
  tails : κ → Option Nat
  promises : Nat
  released : List Nat
  made : κ → List ι
  queue : κ → List (ι × Nat)
  served : κ → List (ι × δ)

/-- The synchronous parts have no choice; the steps of an operation have that of the resource. -/
inductive MutexChoice (C : Cell Op Resp ε δ)
  | sync
  | inside (choice : C.Choice)

namespace MutexSys

variable [DecidableEq κ] (C : Cell Op Resp ε δ)

/-- The state after the first part of a call. -/
def entered (i : ι) (resourceId : κ) (s : MutexSys ι κ δ) : MutexSys ι κ δ :=
  { s with
    tails := Function.update s.tails resourceId (some s.promises)
    promises := s.promises + 1
    made := Function.update s.made resourceId (s.made resourceId ++ [i])
    queue := Function.update s.queue resourceId (s.queue resourceId ++ [(i, s.promises)]) }

/-- The state after the last part: the promise is resolved, and the tail deleted when it is still
this promise. -/
def leaved (i : ι) (resourceId : κ) (current : Nat) (s : MutexSys ι κ δ) : MutexSys ι κ δ :=
  { s with
    released := current :: s.released
    tails := if s.tails resourceId = some current then Function.update s.tails resourceId none
      else s.tails
    queue := Function.update s.queue resourceId
      ((s.queue resourceId).filter fun entry => entry.2 ≠ current)
    served := Function.update s.served resourceId
      (s.served resourceId ++ [(i, s.value resourceId)]) }

def run (i : ι) : (call : MutexCall κ Op) → MutexChoice C → MutexSys ι κ δ →
    Option (Except ε (MutexReply κ Resp call) × MutexSys ι κ δ)
  | .enter resourceId, .sync, s =>
    some (.ok (s.tails resourceId, s.promises), s.entered i resourceId)
  | .await none, .sync, s => some (.ok (), s)
  | .await (some previous), .sync, s => if previous ∈ s.released then some (.ok (), s) else none
  | .leave resourceId current, .sync, s => some (.ok (), s.leaved i resourceId current)
  | .inside resourceId op, .inside choice, s =>
    (C.run op choice (s.value resourceId)).map fun (r, d) =>
      (r, { s with value := Function.update s.value resourceId d })
  | _, _, _ => none

/-- No call was made yet. -/
def atRest (value : κ → δ) : MutexSys ι κ δ :=
  ⟨value, fun _ => none, 0, [], fun _ => [], fun _ => [], fun _ => []⟩

end MutexSys

def mutexSystem (C : Cell Op Resp ε δ) (ι κ : Type) [DecidableEq κ] :
    System ι (MutexCall κ Op) (MutexReply κ Resp) ε (MutexSys ι κ δ) where
  Choice := MutexChoice C
  Move := Empty
  run := MutexSys.run C
  env := fun move _ => by cases move
  leave := fun _ s => s

end PlusOne
