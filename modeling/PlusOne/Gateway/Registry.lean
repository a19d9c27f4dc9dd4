import Mathlib.Logic.Relation
import Mathlib.Data.List.Basic

/-! # The active turn registry

One step of the registry is one piece of code that runs without a pause: a submission, or
what a promise's continuation does. A slot keeps its continuations in the order in which
they will run; continuations of different slots run in any order. Slots are objects, so a
continuation still holds its slot when the map no longer does. -/

namespace PlusOne

/-- A work that `run` has called, for `submit` or for the drain loop. -/
structure Turn (ω : Type) where
  work : ω
  draining : Bool
  deriving DecidableEq

/-- A continuation of a slot: of `await work()` in `run`, of `await this.run(…)` in the drain loop,
and the two `finally` callbacks. -/
inductive Continuation (ω : Type)
  | resume (turn : Turn ω)
  | drainNext
  | turnDone
  | drainDone

/-- A slot with its key, its waiting continuations and the works that have not settled. -/
structure Slot (κ ω : Type) where
  key : κ
  active : Bool
  queue : List ω
  activeDone : Bool
  drain : Bool
  continuations : List (Continuation ω)
  running : List (Turn ω)

/-- What a continuation leaves: the slot, a work it has started, and whether it deletes the key. -/
structure SlotProgress (κ ω : Type) where
  slot : Slot κ ω
  started : Option ω
  deleted : Bool

namespace Slot

variable {κ ω : Type} (slot : Slot κ ω)

def new (key : κ) : Slot κ ω := ⟨key, false, [], false, false, [], []⟩

/-- `run`, up to its `await`. -/
def run (work : ω) (draining : Bool) : Slot κ ω :=
  { slot with active := true, activeDone := true, running := slot.running ++ [⟨work, draining⟩] }

/-- The `finally` of `run`. -/
def resume (turn : Turn ω) : Slot κ ω :=
  { slot with
    active := false, activeDone := false
    continuations := slot.continuations ++ [if turn.draining then .drainNext else .turnDone] }

/-- `scheduleDrain`, whose loop starts its first work at once. -/
def scheduleDrain : SlotProgress κ ω :=
  match slot.queue with
  | [] => ⟨slot, none, !slot.active && !slot.drain⟩
  | work :: rest =>
    if slot.active || slot.drain then ⟨slot, none, false⟩
    else ⟨{ ({ slot with queue := rest } : Slot κ ω).run work true with drain := true }, some work, false⟩

/-- The drain loop from its condition on. -/
def drainNext : SlotProgress κ ω :=
  match slot.queue with
  | [] => ⟨{ slot with continuations := slot.continuations ++ [.drainDone] }, none, false⟩
  | work :: rest => ⟨({ slot with queue := rest } : Slot κ ω).run work true, some work, false⟩

/-- The `finally` of the drain. -/
def drainDone : SlotProgress κ ω :=
  let slot := { slot with drain := false }
  if slot.queue.isEmpty then ⟨slot, none, !slot.active⟩ else slot.scheduleDrain

def proceed : Continuation ω → SlotProgress κ ω
  | .resume turn => ⟨slot.resume turn, none, false⟩
  | .turnDone => slot.scheduleDrain
  | .drainNext => slot.drainNext
  | .drainDone => slot.drainDone

end Slot

/-- The registry, with its slot objects and what has happened so far: the accepted and the started
works in order, and what was unsettled whenever a drain returned. -/
structure Registry (κ ω : Type) where
  accepting : Bool
  slots : List (κ × Nat)
  objects : List (Slot κ ω)
  accepted : List (κ × ω)
  started : List (κ × ω)
  drains : List (List ω)

/-- `settle` and `throwNow` are the two ways a work ends: its promise settles, or it throws before
it has returned one. `drainCheck` is one round of the loop of `drainIdle`. -/
inductive RegistryEvent (κ ω : Type)
  | submit (key : κ) (work : ω)
  | settle (object : Nat) (n : Nat)
  | throwNow (object : Nat) (n : Nat)
  | proceed (object : Nat)
  | close
  | drainCheck

namespace Registry

variable {κ ω : Type} [DecidableEq κ] (s : Registry κ ω)

def empty : Registry κ ω := ⟨true, [], [], [], [], []⟩

/-- The object the map holds under a key. -/
def objectOf (key : κ) : Option Nat :=
  (s.slots.find? fun entry => entry.1 = key).map Prod.snd

/-- The slot object `i` moves on. -/
def put (i : Nat) (progress : SlotProgress κ ω) : Registry κ ω :=
  { s with
    objects := s.objects.set i progress.slot
    slots := if progress.deleted then s.slots.filter fun entry => entry.1 ≠ progress.slot.key
      else s.slots
    started := s.started ++ progress.started.toList.map fun work => (progress.slot.key, work) }

/-- Works are accepted under a key. -/
def accept (key : κ) (works : List ω) : Registry κ ω :=
  { s with accepted := s.accepted ++ works.map fun work => (key, work) }

/-- `submit` on a slot the map holds. -/
def submitTo (i : Nat) (slot : Slot κ ω) (work : ω) : Registry κ ω :=
  if slot.active || slot.drain then
    (s.accept slot.key [work]).put i ⟨{ slot with queue := slot.queue ++ [work] }, none, false⟩
  else (s.accept slot.key [work]).put i ⟨slot.run work false, some work, false⟩

/-- A new slot is put into the map. -/
def add (key : κ) : Registry κ ω :=
  { s with
    objects := s.objects ++ [Slot.new key], slots := s.slots ++ [(key, s.objects.length)] }

def submit (key : κ) (work : ω) : Option (Registry κ ω) :=
  if !s.accepting then some s
  else match s.objectOf key with
    | some i => (s.objects[i]?).map fun slot => s.submitTo i slot work
    | none => some ((s.add key).submitTo s.objects.length (Slot.new key) work)

/-- The promises that `drainIdle` waits for. -/
def busy : Bool :=
  s.slots.any fun entry => (s.objects[entry.2]?).any fun slot => slot.activeDone || slot.drain

/-- The accepted works that have not settled. -/
def unsettled : List ω :=
  s.objects.flatMap fun slot => slot.running.map Turn.work ++ slot.queue

def step : RegistryEvent κ ω → Option (Registry κ ω)
  | .submit key work => s.submit key work
  | .settle i n => (s.objects[i]?).bind fun slot => (slot.running[n]?).map fun turn =>
      s.put i ⟨{ slot with
        running := slot.running.eraseIdx n
        continuations := slot.continuations ++ [.resume turn] }, none, false⟩
  | .throwNow i n => (s.objects[i]?).bind fun slot => (slot.running[n]?).map fun turn =>
      s.put i ⟨({ slot with running := slot.running.eraseIdx n } : Slot κ ω).resume turn, none, false⟩
  | .proceed i => (s.objects[i]?).bind fun slot => match slot.continuations with
    | [] => none
    | continuation :: rest => some (s.put i (({ slot with continuations := rest } : Slot κ ω).proceed
        continuation))
  | .close => some { s with accepting := false }
  | .drainCheck => some (if s.busy then s else { s with drains := s.drains ++ [s.unsettled] })

/-- Play a whole list of events. -/
def play : List (RegistryEvent κ ω) → Registry κ ω → Option (Registry κ ω)
  | [], s => some s
  | event :: events, s => (s.step event).bind (play events)

/-- The works of a key, in the order of a log. -/
def worksOf (key : κ) (log : List (κ × ω)) : List ω :=
  (log.filter fun entry => entry.1 = key).map Prod.snd

/-- The works of a key that have been started and have not settled. -/
def runningOf (key : κ) : List ω :=
  s.objects.flatMap fun slot => if slot.key = key then slot.running.map Turn.work else []

end Registry

end PlusOne
