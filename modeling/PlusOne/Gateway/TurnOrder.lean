import PlusOne.Gateway.Registry

/-! # The order of turns

While no work is submitted between the end of a turn and the callback that starts the
queue, the continuations of a slot are where the slot's flags say, the map knows every
slot that is alive, and the works of a key start in the order of their submission. -/

namespace PlusOne

/-! ## The shapes of a slot -/

namespace Slot

variable {κ ω : Type} {slot : Slot κ ω}

/-- A slot that still has something to come. -/
def Live (slot : Slot κ ω) : Prop := slot.continuations ≠ [] ∨ slot.running ≠ []

/-- The slot's flags, its works and its continuations fit together. -/
inductive Shape (slot : Slot κ ω) : Prop
  | idle (hactive : slot.active = false) (hdone : slot.activeDone = false) (hdrain : slot.drain = false)
    (hrunning : slot.running = []) (htasks : slot.continuations = []) (hqueue : slot.queue = [])
  /-- A work of `submit`; the callback of the turn before it may still be waiting. -/
  | turn (turn : Turn ω) (hactive : slot.active = true) (hdone : slot.activeDone = true)
    (hdrain : slot.drain = false) (hturn : turn.draining = false) (hrunning : slot.running = [turn])
    (htasks : slot.continuations = [] ∨ slot.continuations = [.turnDone])
  | turnSettled (turn : Turn ω) (hactive : slot.active = true) (hdone : slot.activeDone = true)
    (hdrain : slot.drain = false) (hturn : turn.draining = false) (hrunning : slot.running = [])
    (htasks : slot.continuations = [.resume turn] ∨ slot.continuations = [.turnDone, .resume turn])
  | turnOver (hactive : slot.active = false) (hdone : slot.activeDone = false)
    (hdrain : slot.drain = false) (hrunning : slot.running = [])
    (htasks : slot.continuations = [.turnDone])
  | drain (turn : Turn ω) (hactive : slot.active = true) (hdone : slot.activeDone = true)
    (hdrain : slot.drain = true) (hturn : turn.draining = true) (hrunning : slot.running = [turn])
    (htasks : slot.continuations = [])
  | drainSettled (turn : Turn ω) (hactive : slot.active = true) (hdone : slot.activeDone = true)
    (hdrain : slot.drain = true) (hturn : turn.draining = true) (hrunning : slot.running = [])
    (htasks : slot.continuations = [.resume turn])
  | drainBetween (hactive : slot.active = false) (hdone : slot.activeDone = false)
    (hdrain : slot.drain = true) (hrunning : slot.running = [])
    (htasks : slot.continuations = [.drainNext] ∨ slot.continuations = [.drainDone])

/-- What a step of a slot may do: it takes works off the head of the queue after adding new ones at
its end, and gives up the key when nothing is left to come. -/
structure Moves (slot : Slot κ ω) (added : List ω) (progress : SlotProgress κ ω) : Prop where
  shape : progress.slot.Shape
  key : progress.slot.key = slot.key
  queue : slot.queue ++ added = progress.started.toList ++ progress.slot.queue
  deleted : progress.deleted = true ↔ ¬progress.slot.Live

/-- What a step of a slot keeps in whatever order works are taken. -/
structure Keeps (slot : Slot κ ω) (progress : SlotProgress κ ω) : Prop where
  shape : progress.slot.Shape
  key : progress.slot.key = slot.key
  deleted : progress.deleted = true ↔ ¬progress.slot.Live

theorem Moves.keeps {added : List ω} {progress : SlotProgress κ ω} (h : slot.Moves added progress) :
    slot.Keeps progress := ⟨h.shape, h.key, h.deleted⟩

theorem Shape.queue_nil (h : slot.Shape) (hlive : ¬slot.Live) : slot.queue = [] := by
  unfold Live at hlive
  cases h <;> simp_all

theorem Shape.running_le_one (h : slot.Shape) : slot.running.length ≤ 1 := by
  cases h <;> simp_all

theorem moves_settle {turn : Turn ω} {n : Nat} (h : slot.Shape) (hturn : slot.running[n]? = some turn) :
    slot.Moves [] ⟨{ slot with
      running := slot.running.eraseIdx n
      continuations := slot.continuations ++ [.resume turn] }, none, false⟩ := by
  have hone : ∀ other : Turn ω, slot.running = [other] → turn = other ∧ n = 0 := by
    intro other hrunning
    rw [hrunning] at hturn
    cases n with
    | zero => exact ⟨(Option.some.inj hturn).symm, rfl⟩
    | succ n => cases hturn
  refine ⟨?_, rfl, by simp, by simp [Live]⟩
  cases h with
  | turn other hactive hdone hdrain hother hrunning htasks =>
    obtain ⟨rfl, rfl⟩ := hone other hrunning
    refine .turnSettled turn hactive hdone hdrain hother (by simp [hrunning]) ?_
    rcases htasks with htasks | htasks <;> simp [htasks]
  | drain other hactive hdone hdrain hother hrunning htasks =>
    obtain ⟨rfl, rfl⟩ := hone other hrunning
    exact .drainSettled turn hactive hdone hdrain hother (by simp [hrunning]) (by simp [htasks])
  | idle _ _ _ hrunning | turnSettled _ _ _ _ _ hrunning | turnOver _ _ _ hrunning
  | drainSettled _ _ _ _ _ hrunning | drainBetween _ _ _ hrunning =>
    rw [hrunning] at hturn
    cases hturn

/-- A work that throws before it returns a promise, with no callback waiting. -/
theorem moves_throwNow {turn : Turn ω} {n : Nat} (h : slot.Shape) (hturn : slot.running[n]? = some turn)
    (hwaiting : slot.continuations = []) :
    slot.Moves [] ⟨({ slot with running := slot.running.eraseIdx n } : Slot κ ω).resume turn, none,
      false⟩ := by
  have hone : ∀ other : Turn ω, slot.running = [other] → turn = other ∧ n = 0 := by
    intro other hrunning
    rw [hrunning] at hturn
    cases n with
    | zero => exact ⟨(Option.some.inj hturn).symm, rfl⟩
    | succ n => cases hturn
  refine ⟨?_, rfl, by simp [resume], by simp [Live, resume]⟩
  cases h with
  | turn other hactive hdone hdrain hother hrunning _ =>
    obtain ⟨rfl, rfl⟩ := hone other hrunning
    exact .turnOver rfl rfl hdrain (by simp [resume, hrunning]) (by simp [resume, hwaiting, hother])
  | drain other hactive hdone hdrain hother hrunning _ =>
    obtain ⟨rfl, rfl⟩ := hone other hrunning
    exact .drainBetween rfl rfl hdrain (by simp [resume, hrunning]) (by simp [resume, hwaiting, hother])
  | idle _ _ _ hrunning | turnSettled _ _ _ _ _ hrunning | turnOver _ _ _ hrunning
  | drainSettled _ _ _ _ _ hrunning | drainBetween _ _ _ hrunning =>
    rw [hrunning] at hturn
    cases hturn

theorem moves_scheduleDrain (hactive : slot.active = false) (hdone : slot.activeDone = false)
    (hdrain : slot.drain = false) (hrunning : slot.running = []) (hwaiting : slot.continuations = []) :
    slot.Moves [] slot.scheduleDrain := by
  cases hqueue : slot.queue with
  | nil =>
    simp only [scheduleDrain, hqueue, hactive, hdrain]
    refine ⟨.idle hactive hdone hdrain hrunning hwaiting hqueue, rfl, by simp [hqueue], ?_⟩
    simp [Live, hrunning, hwaiting]
  | cons work rest =>
    simp only [scheduleDrain, hqueue, hactive, hdrain, Bool.or_self, Bool.false_eq_true, if_false]
    refine ⟨?_, rfl, by simp [run, hqueue], by simp [Live, run]⟩
    exact .drain ⟨work, true⟩ rfl rfl rfl rfl (by simp [run, hrunning]) (by simp [run, hwaiting])

theorem scheduleDrain_active (hactive : slot.active = true) : slot.scheduleDrain = ⟨slot, none, false⟩ := by
  cases hqueue : slot.queue <;> simp [scheduleDrain, hqueue, hactive]

theorem moves_proceed {continuation : Continuation ω} {rest : List (Continuation ω)} (h : slot.Shape)
    (hwaiting : slot.continuations = continuation :: rest) :
    slot.Moves [] (({ slot with continuations := rest } : Slot κ ω).proceed continuation) := by
  cases h with
  | idle _ _ _ _ htasks => simp [htasks] at hwaiting
  | turn turn hactive hdone hdrain hturn hrunning htasks =>
    rcases htasks with htasks | htasks
    · simp [htasks] at hwaiting
    · rw [htasks] at hwaiting
      cases hwaiting
      have hsame : ({ slot with continuations := [] } : Slot κ ω).scheduleDrain =
          ⟨{ slot with continuations := [] }, none, false⟩ := scheduleDrain_active hactive
      simp only [proceed, hsame]
      refine ⟨.turn turn hactive hdone hdrain hturn hrunning (.inl rfl), rfl, by simp, ?_⟩
      simp [Live, hrunning]
  | turnSettled turn hactive hdone hdrain hturn hrunning htasks =>
    rcases htasks with htasks | htasks
    · rw [htasks] at hwaiting
      cases hwaiting
      refine ⟨?_, rfl, by simp [proceed, resume], by simp [proceed, resume, Live]⟩
      exact .turnOver rfl rfl hdrain hrunning (by simp [proceed, resume, hturn])
    · rw [htasks] at hwaiting
      cases hwaiting
      have hsame : ({ slot with continuations := [.resume turn] } : Slot κ ω).scheduleDrain =
          ⟨{ slot with continuations := [.resume turn] }, none, false⟩ := scheduleDrain_active hactive
      simp only [proceed, hsame]
      refine ⟨.turnSettled turn hactive hdone hdrain hturn hrunning (.inl rfl), rfl, by simp, ?_⟩
      simp [Live]
  | turnOver hactive hdone hdrain hrunning htasks =>
    rw [htasks] at hwaiting
    cases hwaiting
    have hmoves : Slot.Moves { slot with continuations := [] } []
        ({ slot with continuations := [] } : Slot κ ω).scheduleDrain :=
      moves_scheduleDrain hactive hdone hdrain hrunning rfl
    exact ⟨hmoves.shape, hmoves.key, hmoves.queue, hmoves.deleted⟩
  | drain _ _ _ _ _ _ htasks => simp [htasks] at hwaiting
  | drainSettled turn hactive hdone hdrain hturn hrunning htasks =>
    rw [htasks] at hwaiting
    cases hwaiting
    refine ⟨?_, rfl, by simp [proceed, resume], by simp [proceed, resume, Live]⟩
    exact .drainBetween rfl rfl hdrain hrunning (by simp [proceed, resume, hturn])
  | drainBetween hactive hdone hdrain hrunning htasks =>
    rcases htasks with htasks | htasks
    · rw [htasks] at hwaiting
      cases hwaiting
      cases hqueue : slot.queue with
      | nil =>
        simp only [proceed, drainNext]
        refine ⟨.drainBetween hactive hdone hdrain hrunning (.inr rfl), rfl, by simp [hqueue], ?_⟩
        simp [Live]
      | cons work rest =>
        simp only [proceed, drainNext]
        refine ⟨?_, rfl, by simp [run, hqueue], by simp [Live, run]⟩
        exact .drain ⟨work, true⟩ rfl rfl hdrain rfl (by simp [run, hrunning]) rfl
    · rw [htasks] at hwaiting
      cases hwaiting
      cases hqueue : slot.queue with
      | nil =>
        simp only [proceed, drainDone, List.isEmpty_nil, if_true, hactive]
        refine ⟨.idle rfl hdone rfl hrunning rfl rfl, rfl, by simp [hqueue], ?_⟩
        simp [Live, hrunning]
      | cons work rest =>
        have hmoves : Slot.Moves { slot with continuations := [], drain := false } []
            ({ slot with continuations := [], drain := false } : Slot κ ω).scheduleDrain :=
          moves_scheduleDrain hactive hdone rfl hrunning rfl
        simp only [proceed, drainDone, List.isEmpty_cons, Bool.false_eq_true, if_false]
        simp only [hqueue] at hmoves
        exact ⟨hmoves.shape, hmoves.key, by simpa [hqueue] using hmoves.queue, hmoves.deleted⟩

theorem Shape.live (h : slot.Shape) (hbusy : (slot.active || slot.drain) = true) : slot.Live := by
  cases h with
  | idle hactive _ hdrain | turnOver hactive _ hdrain => simp [hactive, hdrain] at hbusy
  | turn _ _ _ _ _ hrunning | drain _ _ _ _ _ hrunning => exact .inr (by simp [hrunning])
  | turnSettled _ _ _ _ _ _ htasks => rcases htasks with h | h <;> exact .inl (by simp [h])
  | drainSettled _ _ _ _ _ _ htasks => exact .inl (by simp [htasks])
  | drainBetween _ _ _ _ htasks => rcases htasks with h | h <;> exact .inl (by simp [h])

theorem moves_enqueue {work : ω} (h : slot.Shape) (hbusy : (slot.active || slot.drain) = true) :
    slot.Moves [work] ⟨{ slot with queue := slot.queue ++ [work] }, none, false⟩ := by
  have hlive : slot.Live := h.live hbusy
  refine ⟨?_, rfl, by simp, ?_⟩
  · cases h with
    | idle hactive _ hdrain => simp [hactive, hdrain] at hbusy
    | turn turn hactive hdone hdrain hturn hrunning htasks =>
      exact .turn turn hactive hdone hdrain hturn hrunning htasks
    | turnSettled turn hactive hdone hdrain hturn hrunning htasks =>
      exact .turnSettled turn hactive hdone hdrain hturn hrunning htasks
    | turnOver hactive _ hdrain => simp [hactive, hdrain] at hbusy
    | drain turn hactive hdone hdrain hturn hrunning htasks =>
      exact .drain turn hactive hdone hdrain hturn hrunning htasks
    | drainSettled turn hactive hdone hdrain hturn hrunning htasks =>
      exact .drainSettled turn hactive hdone hdrain hturn hrunning htasks
    | drainBetween hactive hdone hdrain hrunning htasks =>
      exact .drainBetween hactive hdone hdrain hrunning htasks
  · exact ⟨fun h => absurd h Bool.false_ne_true, fun hdead => absurd hlive hdead⟩

theorem keeps_start {work : ω} (h : slot.Shape) (hfree : (slot.active || slot.drain) = false) :
    slot.Keeps ⟨slot.run work false, some work, false⟩ := by
  simp only [Bool.or_eq_false_iff] at hfree
  have hquiet : slot.running = [] ∧ (slot.continuations = [] ∨ slot.continuations = [.turnDone]) := by
    cases h <;> simp_all
  refine ⟨?_, rfl, by simp [Live, run]⟩
  exact .turn ⟨work, false⟩ rfl rfl hfree.2 rfl (by simp [run, hquiet.1]) hquiet.2

theorem moves_start {work : ω} (h : slot.Shape) (hfree : (slot.active || slot.drain) = false)
    (hqueue : slot.queue = []) : slot.Moves [work] ⟨slot.run work false, some work, false⟩ := by
  have hkeeps : slot.Keeps ⟨slot.run work false, some work, false⟩ := keeps_start h hfree
  exact ⟨hkeeps.shape, hkeeps.key, by simp [run, hqueue], hkeeps.deleted⟩

end Slot

/-! ## The registry -/

namespace Registry

variable {κ ω : Type} [DecidableEq κ] {s : Registry κ ω}

/-- The works that wait under a key. -/
def queueOf (s : Registry κ ω) (key : κ) : List ω :=
  ((s.objectOf key).bind fun i => s.objects[i]?).elim [] Slot.queue

/-- The map holds the slots that are alive, and perhaps one more. -/
structure HeldBut (spare : Option Nat) (s : Registry κ ω) : Prop where
  shape : ∀ (i : Nat) (slot : Slot κ ω), s.objects[i]? = some slot → slot.Shape
  known : ∀ key i, s.objectOf key = some i ↔
    ∃ slot, s.objects[i]? = some slot ∧ slot.key = key ∧ (slot.Live ∨ spare = some i)

def Held (s : Registry κ ω) : Prop := s.HeldBut none

/-- The map holds the slots that are alive, and perhaps one more, and works start in order. -/
structure OrderedBut (spare : Option Nat) (s : Registry κ ω) : Prop where
  shape : ∀ (i : Nat) (slot : Slot κ ω), s.objects[i]? = some slot → slot.Shape
  known : ∀ key i, s.objectOf key = some i ↔
    ∃ slot, s.objects[i]? = some slot ∧ slot.key = key ∧ (slot.Live ∨ spare = some i)
  fifo : ∀ key, worksOf key s.accepted = worksOf key s.started ++ s.queueOf key
  drains : ∀ unsettled ∈ s.drains, unsettled = []

def Ordered (s : Registry κ ω) : Prop := s.OrderedBut none

variable {spare : Option Nat}

theorem OrderedBut.held (hs : s.OrderedBut spare) : s.HeldBut spare :=
  ⟨hs.shape, hs.known⟩

theorem worksOf_append (key : κ) (log log' : List (κ × ω)) :
    worksOf key (log ++ log') = worksOf key log ++ worksOf key log' := by
  simp [worksOf]

theorem worksOf_same (key : κ) (works : List ω) :
    worksOf key (works.map fun work => (key, work)) = works := by
  simp [worksOf, List.filter_map, Function.comp_def]

theorem worksOf_other {key other : κ} (h : key ≠ other) (works : List ω) :
    worksOf key (works.map fun work => (other, work)) = [] := by
  simp [worksOf, List.filter_map, Function.comp_def, h.symm]

variable {progress : SlotProgress κ ω} {i : Nat}

theorem objectOf_put (key : κ) :
    (s.put i progress).objectOf key =
      if progress.deleted = true ∧ key = progress.slot.key then none else s.objectOf key := by
  unfold objectOf put
  cases hdeleted : progress.deleted with
  | false => simp
  | true =>
    simp only [if_true, true_and, List.find?_filter]
    split_ifs with hkey
    · subst hkey
      have hnone : (s.slots.find? fun entry =>
          decide (entry.1 ≠ progress.slot.key) && decide (entry.1 = progress.slot.key)) = none := by
        rw [List.find?_eq_none]
        intro entry _
        simp
      simp
    · congr 2
      funext entry
      rw [Bool.eq_iff_iff]
      simp only [decide_eq_true_eq]
      exact ⟨fun h => h.2, fun h => ⟨by rw [h]; exact hkey, h⟩⟩

variable {slot : Slot κ ω}

theorem getElem?_put (h : s.objects[i]? = some slot) (j : Nat) :
    (s.put i progress).objects[j]? = if j = i then some progress.slot else s.objects[j]? := by
  have hlt : i < s.objects.length := (List.getElem?_eq_some_iff.1 h).1
  simp only [put, List.getElem?_set, eq_comm (a := j)]
  split_ifs with hij
  · rfl
  · rfl

/-- A slot the map holds moves on: the map holds what is alive. -/
theorem HeldBut.put (hs : s.HeldBut spare) (hslot : s.objects[i]? = some slot)
    (hknown : s.objectOf slot.key = some i) (hspare : ∀ j, spare = some j → j = i) (hkeeps : slot.Keeps progress) :
    (s.put i progress).Held := by
  have hobjects : ∀ j, (s.put i progress).objects[j]? =
        if j = i then some progress.slot else s.objects[j]? :=
    getElem?_put hslot
  have hmap : ∀ key, (s.put i progress).objectOf key =
        if progress.deleted = true ∧ key = progress.slot.key then none else s.objectOf key :=
    objectOf_put
  -- the other objects that are alive have other keys
  have hothers : ∀ j other, j ≠ i → s.objects[j]? = some other → other.Live → other.key ≠ slot.key := by
    intro j other hne hother hlive hkey
    have hheld := (hs.known other.key j).2 ⟨other, hother, rfl, .inl hlive⟩
    rw [hkey, hknown] at hheld
    exact hne (Option.some.inj hheld).symm
  refine ⟨?_, ?_⟩
  · intro j moved hmoved
    rw [hobjects] at hmoved
    split_ifs at hmoved with hji
    · cases hmoved
      exact hkeeps.shape
    · exact hs.shape j moved hmoved
  · intro key j
    rw [hmap]
    constructor
    · intro hheld
      split_ifs at hheld with hdeleted
      obtain ⟨old, hold, hkey, halive⟩ := (hs.known key j).1 hheld
      by_cases hji : j = i
      · subst hji
        rw [hslot] at hold
        cases hold
        refine ⟨progress.slot, by rw [hobjects, if_pos rfl], hkeeps.key.trans hkey, .inl ?_⟩
        by_contra hdead
        exact hdeleted ⟨hkeeps.deleted.2 hdead, (hkeeps.key.trans hkey).symm⟩
      · refine ⟨old, by rw [hobjects, if_neg hji, hold], hkey, ?_⟩
        exact halive.imp_right fun h => absurd (hspare j h) hji
    · rintro ⟨moved, hmoved, hkey, halive | hnone⟩
      · rw [hobjects] at hmoved
        split_ifs at hmoved with hji
        · cases hmoved
          have hnot : ¬(progress.deleted = true ∧ key = progress.slot.key) :=
            fun h => hkeeps.deleted.1 h.1 halive
          rw [if_neg hnot, ← hkey, hkeeps.key, hknown, hji]
        · have hother := hothers j moved hji hmoved halive
          rw [if_neg, (hs.known key j).2 ⟨moved, hmoved, hkey, .inl halive⟩]
          rintro ⟨_, hsame⟩
          rw [hkeeps.key, ← hkey] at hsame
          exact hother hsame
      · cases hnone

/-- A slot the map holds moves on: the map holds what is alive, and the order is kept. -/
theorem OrderedBut.put (hs : s.OrderedBut spare) (hslot : s.objects[i]? = some slot)
    (hknown : s.objectOf slot.key = some i) (hspare : ∀ j, spare = some j → j = i) {added : List ω}
    (hmoves : slot.Moves added progress) :
    ((s.accept slot.key added).put i progress).Ordered := by
  have haccepted : (s.accept slot.key added).HeldBut spare := ⟨hs.shape, hs.known⟩
  have hput := haccepted.put hslot hknown hspare hmoves.keeps
  have hobjects : ∀ j, ((s.accept slot.key added).put i progress).objects[j]? =
        if j = i then some progress.slot else s.objects[j]? :=
    getElem?_put hslot
  have hmap : ∀ key, ((s.accept slot.key added).put i progress).objectOf key =
        if progress.deleted = true ∧ key = progress.slot.key then none else s.objectOf key :=
    objectOf_put
  refine ⟨hput.shape, hput.known, ?_, hs.drains⟩
  · intro key
    have hbefore := hs.fifo key
    by_cases hkey : key = slot.key
    · subst hkey
      have hqueue : s.queueOf slot.key = slot.queue := by
        simp [queueOf, hknown, hslot]
      have hafter : ((s.accept slot.key added).put i progress).queueOf slot.key = progress.slot.queue := by
        rw [queueOf, hmap, hmoves.key]
        split_ifs with hdeleted
        · exact (hmoves.shape.queue_nil (hmoves.deleted.1 hdeleted.1)).symm
        · rw [hknown, Option.bind_some, hobjects, if_pos rfl]
          rfl
      rw [hafter]
      simp only [Registry.put, accept, worksOf_append, hmoves.key, worksOf_same]
      rw [hbefore, hqueue, List.append_assoc, hmoves.queue, List.append_assoc]
    · have hafter : ((s.accept slot.key added).put i progress).queueOf key = s.queueOf key := by
        rw [queueOf, hmap, if_neg (by rw [hmoves.key]; exact fun h => hkey h.2), queueOf]
        cases hheld : s.objectOf key with
        | none => rfl
        | some j =>
          have hji : j ≠ i := by
            rintro rfl
            obtain ⟨old, hold, hold_key, _⟩ := (hs.known key j).1 hheld
            rw [hslot] at hold
            cases hold
            exact hkey hold_key.symm
          rw [Option.bind_some, hobjects, if_neg hji]
          rfl
      rw [hafter]
      simp only [Registry.put, accept, worksOf_append, hmoves.key, worksOf_other hkey, List.append_nil]
      exact hbefore

/-! ## One step -/

/-- The steps that keep to the order: nothing is submitted, and no drain looks, between the end of
a turn and the callback that starts its queue; and no work throws before it has returned a promise
while the callback of the turn before it is waiting. -/
def Orderly (s : Registry κ ω) : RegistryEvent κ ω → Prop
  | .submit key _ => ∀ i slot, s.objectOf key = some i → s.objects[i]? = some slot →
      (slot.active || slot.drain) = false → slot.queue = []
  | .throwNow i _ => ∀ slot, s.objects[i]? = some slot → slot.continuations = []
  | .drainCheck => ∀ key i slot, s.objectOf key = some i → s.objects[i]? = some slot →
      (slot.active || slot.drain) = false → slot.queue = []
  | .settle .. | .proceed _ | .close => True

theorem Held.objectOf (hs : s.Held) (hslot : s.objects[i]? = some slot) (hlive : slot.Live) :
    s.objectOf slot.key = some i :=
  (hs.known slot.key i).2 ⟨slot, hslot, rfl, .inl hlive⟩

theorem Ordered.objectOf (hs : s.Ordered) (hslot : s.objects[i]? = some slot) (hlive : slot.Live) :
    s.objectOf slot.key = some i :=
  Held.objectOf hs.held hslot hlive

theorem Ordered.put (hs : s.Ordered) (hslot : s.objects[i]? = some slot) (hlive : slot.Live)
    (hmoves : slot.Moves [] progress) :
    (s.put i progress).Ordered := by
  have hput := OrderedBut.put hs hslot (hs.objectOf hslot hlive) (by simp) hmoves
  have hsame : s.accept slot.key [] = s := by simp [accept]
  rwa [hsame] at hput

theorem OrderedBut.submitTo (hs : s.OrderedBut spare) {work : ω} (hslot : s.objects[i]? = some slot)
    (hknown : s.objectOf slot.key = some i) (hspare : ∀ j, spare = some j → j = i)
    (hqueue : (slot.active || slot.drain) = false → slot.queue = []) :
    (s.submitTo i slot work).Ordered := by
  have hshape := hs.shape i slot hslot
  unfold Registry.submitTo
  split_ifs with hbusy
  · exact hs.put hslot hknown hspare (Slot.moves_enqueue hshape hbusy)
  · have hfree : (slot.active || slot.drain) = false := by simpa using hbusy
    exact hs.put hslot hknown hspare (Slot.moves_start hshape hfree (hqueue hfree))

omit [DecidableEq κ] in
variable {key : κ}

theorem getElem?_add {j : Nat} :
    (s.add key).objects[j]? = some slot ↔
      s.objects[j]? = some slot ∨ j = s.objects.length ∧ slot = Slot.new key := by
  by_cases hlt : j < s.objects.length
  · have hne : j ≠ s.objects.length := by omega
    simp [Registry.add, List.getElem?_append_left hlt, hne]
  · by_cases heq : j = s.objects.length
    · subst heq
      simp [Registry.add, eq_comm]
    · have hnone : (s.objects ++ [Slot.new key])[j]? = none := by
        rw [List.getElem?_eq_none_iff, List.length_append, List.length_singleton]
        omega
      have hnone' : s.objects[j]? = none := by
        rw [List.getElem?_eq_none_iff]
        omega
      simp [Registry.add, hnone, hnone', heq]

theorem objectOf_add (hnone : s.objectOf key = none) (other : κ) :
    (s.add key).objectOf other = if other = key then some s.objects.length else s.objectOf other := by
  simp only [Registry.objectOf, Registry.add, List.find?_append]
  split_ifs with hkey
  · subst hkey
    have hmissing : s.slots.find? (fun entry => decide (entry.1 = other)) = none := by
      simpa [Registry.objectOf] using hnone
    simp [hmissing]
  · have hskip : [(key, s.objects.length)].find? (fun entry => decide (entry.1 = other)) = none := by
      simp [Ne.symm hkey]
    rw [hskip, Option.or_none]

/-- A new slot is in the map before it is alive. -/
theorem Held.add (hs : s.Held) (hnone : s.objectOf key = none) :
    (s.add key).HeldBut (some s.objects.length) := by
  refine ⟨?_, ?_⟩
  · intro j slot hslot
    rcases getElem?_add.1 hslot with hbefore | ⟨_, rfl⟩
    · exact hs.shape j slot hbefore
    · exact .idle rfl rfl rfl rfl rfl rfl
  · intro other j
    rw [objectOf_add hnone]
    split_ifs with hkey
    · subst hkey
      constructor
      · intro hj
        cases hj
        exact ⟨Slot.new other, getElem?_add.2 (.inr ⟨rfl, rfl⟩), rfl, .inr rfl⟩
      · rintro ⟨slot, hslot, hkey, hlive⟩
        rcases getElem?_add.1 hslot with hbefore | ⟨rfl, _⟩
        · rcases hlive with hlive | hj
          · have hheld := (hs.known other j).2 ⟨slot, hbefore, hkey, .inl hlive⟩
            rw [hnone] at hheld
            cases hheld
          · exact hj
        · rfl
    · rw [hs.known other j]
      constructor
      · rintro ⟨slot, hslot, hkey', hlive | hfalse⟩
        · exact ⟨slot, getElem?_add.2 (.inl hslot), hkey', .inl hlive⟩
        · cases hfalse
      · rintro ⟨slot, hslot, hkey', hlive⟩
        rcases getElem?_add.1 hslot with hbefore | ⟨rfl, rfl⟩
        · refine ⟨slot, hbefore, hkey', ?_⟩
          rcases hlive with hlive | hj
          · exact .inl hlive
          · cases hj
            have hlt := (List.getElem?_eq_some_iff.1 hbefore).1
            omega
        · exact absurd hkey'.symm hkey

theorem Ordered.add (hs : s.Ordered) (hnone : s.objectOf key = none) :
    (s.add key).OrderedBut (some s.objects.length) := by
  have hheld := Held.add hs.held hnone
  refine ⟨hheld.shape, hheld.known, ?_, hs.drains⟩
  · intro other
    have hqueue : (s.add key).queueOf other = s.queueOf other := by
      unfold queueOf
      rw [objectOf_add hnone]
      split_ifs with hkey
      · subst hkey
        have hnew : (s.add other).objects[s.objects.length]? = some (Slot.new other) :=
          getElem?_add.2 (.inr ⟨rfl, rfl⟩)
        rw [hnone, Option.bind_some, hnew]
        rfl
      · cases hheld : s.objectOf other with
        | none => rfl
        | some j =>
          obtain ⟨slot, hslot, _⟩ := (hs.known other j).1 hheld
          have hkept : (s.add key).objects[j]? = some slot := getElem?_add.2 (.inl hslot)
          rw [Option.bind_some, Option.bind_some, hkept, hslot]
    rw [hqueue]
    exact hs.fifo other

variable {s' : Registry κ ω}

theorem Ordered.submit (hs : s.Ordered) {work : ω} (horderly : s.Orderly (.submit key work))
    (h : s.submit key work = some s') : s'.Ordered := by
  unfold Registry.submit at h
  split at h
  · cases h
    exact hs
  split at h
  · rename_i i hheld
    obtain ⟨slot, hslot, rfl⟩ := Option.map_eq_some_iff.1 h
    obtain ⟨held, hheldSlot, hkey, _⟩ := (hs.known key i).1 hheld
    rw [hslot] at hheldSlot
    cases hheldSlot
    rw [← hkey] at hheld
    refine OrderedBut.submitTo hs hslot hheld (by simp) ?_
    intro hfree
    rw [hkey] at hheld
    exact horderly i slot hheld hslot hfree
  · rename_i hnone
    cases h
    have hnew : (s.add key).objects[s.objects.length]? = some (Slot.new key) := by
      simp [Registry.add]
    refine (hs.add hnone).submitTo hnew ?_ ?_ fun _ => rfl
    · rw [objectOf_add hnone]
      exact if_pos rfl
    · intro j hj
      exact (Option.some.inj hj).symm

/-- A slot of which no promise is pending has nothing unsettled. -/
theorem Ordered.unsettled_nil (hs : s.Ordered) (horderly : s.Orderly .drainCheck)
    (hidle : ¬s.busy = true) : s.unsettled = [] := by
  have hpending : ∀ key i slot, s.objectOf key = some i → s.objects[i]? = some slot →
      slot.activeDone = false ∧ slot.drain = false := by
    intro key i slot hheld hslot
    obtain ⟨entry, hentry, rfl⟩ := Option.map_eq_some_iff.1 hheld
    have hmem := List.mem_of_find?_eq_some hentry
    have hquiet : ¬((s.objects[entry.2]?).any fun slot => slot.activeDone || slot.drain) = true :=
      fun h => hidle (List.any_eq_true.2 ⟨entry, hmem, h⟩)
    rw [hslot] at hquiet
    simpa using hquiet
  refine List.flatMap_eq_nil_iff.2 ?_
  intro slot hmem
  obtain ⟨i, hslot⟩ := List.mem_iff_getElem?.1 hmem
  have hshape := hs.shape i slot hslot
  by_cases hlive : slot.Live
  · have hheld := hs.objectOf hslot hlive
    obtain ⟨hdone, hdrain⟩ := hpending slot.key i slot hheld hslot
    have hover : slot.active = false ∧ slot.running = [] := by
      cases hshape <;> simp_all
    have hqueue := horderly slot.key i slot hheld hslot (by simp [hover.1, hdrain])
    simp [hover.2, hqueue]
  · have hqueue := hshape.queue_nil hlive
    have hrunning : slot.running = [] := by
      by_contra h
      exact hlive (.inr h)
    simp [hrunning, hqueue]

theorem Ordered.step (hs : s.Ordered) {event : RegistryEvent κ ω} (horderly : s.Orderly event)
    (h : s.step event = some s') : s'.Ordered := by
  cases event with
  | submit key work => exact hs.submit horderly h
  | settle i n =>
    obtain ⟨slot, hslot, h⟩ := Option.bind_eq_some_iff.1 h
    obtain ⟨turn, hturn, rfl⟩ := Option.map_eq_some_iff.1 h
    have hlive : slot.Live := .inr (List.ne_nil_of_mem (List.mem_of_getElem? hturn))
    exact hs.put hslot hlive (Slot.moves_settle (hs.shape i slot hslot) hturn)
  | throwNow i n =>
    obtain ⟨slot, hslot, h⟩ := Option.bind_eq_some_iff.1 h
    obtain ⟨turn, hturn, rfl⟩ := Option.map_eq_some_iff.1 h
    have hlive : slot.Live := .inr (List.ne_nil_of_mem (List.mem_of_getElem? hturn))
    have hwaiting := horderly slot hslot
    exact hs.put hslot hlive (Slot.moves_throwNow (hs.shape i slot hslot) hturn hwaiting)
  | proceed i =>
    obtain ⟨slot, hslot, h⟩ := Option.bind_eq_some_iff.1 h
    split at h
    · cases h
    · rename_i continuation rest hwaiting
      cases h
      have hlive : slot.Live := .inl (by simp [hwaiting])
      exact hs.put hslot hlive (Slot.moves_proceed (hs.shape i slot hslot) hwaiting)
  | close =>
    cases h
    exact ⟨hs.shape, hs.known, hs.fifo, hs.drains⟩
  | drainCheck =>
    simp only [Registry.step, Option.some.injEq] at h
    subst h
    split_ifs with hbusy
    · exact hs
    · refine ⟨hs.shape, hs.known, hs.fifo, ?_⟩
      intro unsettled hmem
      rcases List.mem_append.1 hmem with hold | hlast
      · exact hs.drains unsettled hold
      · rw [List.mem_singleton.1 hlast]
        exact hs.unsettled_nil horderly hbusy

/-! ## Runs -/

/-- The runs whose steps all keep to the order. -/
def OrderlyRun : Registry κ ω → Registry κ ω → Prop :=
  Relation.ReflTransGen fun s s' => ∃ event, s.Orderly event ∧ s.step event = some s'

theorem ordered_empty : (empty : Registry κ ω).Ordered := by
  refine ⟨?_, ?_, ?_, ?_⟩ <;> simp [empty, objectOf, worksOf, queueOf]

theorem OrderlyRun.ordered (hs : s.Ordered) (h : OrderlyRun s s') : s'.Ordered := by
  induction h with
  | refl => exact hs
  | tail _ hstep ih =>
    obtain ⟨event, horderly, h⟩ := hstep
    exact ih.step horderly h

omit [DecidableEq κ] in
/-- Where at most one of the lists has an element, their concatenation has at most one. -/
theorem length_flatMap_le_one {α β : Type} {f : α → List β} : ∀ {xs : List α},
    (∀ x ∈ xs, (f x).length ≤ 1) →
    (∀ (i j : Nat) (x y : α), xs[i]? = some x → xs[j]? = some y → f x ≠ [] → f y ≠ [] → i = j) →
    (xs.flatMap f).length ≤ 1 := by
  intro xs hone hunique
  induction xs with
  | nil => simp
  | cons x xs ih =>
    have hrest : (xs.flatMap f).length ≤ 1 := by
      refine ih (fun y hy => hone y (List.mem_cons_of_mem _ hy)) ?_
      intro i j y z hy hz hfy hfz
      have hsucc := hunique (i + 1) (j + 1) y z hy hz hfy hfz
      omega
    rw [List.flatMap_cons, List.length_append]
    by_cases hx : f x = []
    · simp only [hx, List.length_nil]
      omega
    · have hnone : xs.flatMap f = [] := by
        refine List.flatMap_eq_nil_iff.2 ?_
        intro y hy
        by_contra hfy
        obtain ⟨j, hj⟩ := List.mem_iff_getElem?.1 hy
        have hzero := hunique 0 (j + 1) x y rfl hj hx hfy
        omega
      rw [hnone]
      exact hone x (List.mem_cons_self ..)

theorem Held.runningOf_le_one (hs : s.Held) (key : κ) : (s.runningOf key).length ≤ 1 := by
  refine length_flatMap_le_one ?_ ?_
  · intro slot hmem
    obtain ⟨i, hslot⟩ := List.mem_iff_getElem?.1 hmem
    have hone := (hs.shape i slot hslot).running_le_one
    split_ifs
    · rwa [List.length_map]
    · exact Nat.zero_le 1
  · intro i j slot other hslot hother hrunning hrunning'
    have hheld : ∀ (k : Nat) (x : Slot κ ω), s.objects[k]? = some x →
        (if x.key = key then x.running.map Turn.work else []) ≠ [] → s.objectOf key = some k := by
      intro k x hx hne
      split_ifs at hne with hkey
      · have hlive : x.Live := .inr (by simpa using hne)
        rw [← hkey]
        exact hs.objectOf hx hlive
      · exact absurd rfl hne
    have hi := hheld i slot hslot hrunning
    have hj := hheld j other hother hrunning'
    rw [hi] at hj
    exact Option.some.inj hj

/-- In every run of submissions, settling works, closing and drains whose steps keep to the order:
a key has at most one running work, its accepted works start in the order of their submission and
the others wait in that order, all of them have started once nothing is left to come, and a drain
returns only when nothing is unsettled. -/
theorem turns_in_order (hrun : OrderlyRun empty s) :
    (∀ key, (s.runningOf key).length ≤ 1) ∧
    (∀ key, worksOf key s.accepted = worksOf key s.started ++ s.queueOf key) ∧
    ((∀ slot ∈ s.objects, slot.continuations = [] ∧ slot.running = []) →
      ∀ key, worksOf key s.started = worksOf key s.accepted) ∧
    (∀ unsettled ∈ s.drains, unsettled = []) := by
  have hs : s.Ordered := OrderlyRun.ordered ordered_empty hrun
  refine ⟨Held.runningOf_le_one hs.held, hs.fifo, ?_, hs.drains⟩
  intro hover key
  have hqueue : s.queueOf key = [] := by
    cases hheld : s.objectOf key with
    | none => simp [queueOf, hheld]
    | some i =>
      obtain ⟨slot, hslot, _, hlive | hnone⟩ := (hs.known key i).1 hheld
      · obtain ⟨hcontinuations, hrunning⟩ := hover slot (List.mem_of_getElem? hslot)
        exact absurd hlive (by simp [Slot.Live, hcontinuations, hrunning])
      · cases hnone
  rw [hs.fifo key, hqueue, List.append_nil]

end Registry

/-! ## Three works and a drain -/

namespace TestRegistry

open Registry

/-- Two works of one key and one of another; the registry closes while they run. -/
def orderlyEvents : List (RegistryEvent String Nat) :=
  [.submit "conversation-1" 1, .submit "conversation-1" 2, .submit "conversation-2" 3, .close,
    .submit "conversation-1" 4, .drainCheck, .settle 0 0, .proceed 0, .proceed 0, .throwNow 0 0,
    .settle 1 0, .proceed 1, .proceed 1, .proceed 0, .proceed 0, .drainCheck]

/-- The order as a test on one event. -/
def keepsOrder (s : Registry String Nat) : RegistryEvent String Nat → Bool
  | .submit key _ => ((s.objectOf key).bind fun i => s.objects[i]?).all fun slot =>
      slot.active || slot.drain || slot.queue.isEmpty
  | .throwNow i _ => (s.objects[i]?).all fun slot => slot.continuations.isEmpty
  | .drainCheck => s.objects.all fun slot => slot.active || slot.drain || slot.queue.isEmpty
  | _ => true

theorem orderly_of_keepsOrder {s : Registry String Nat} {event : RegistryEvent String Nat}
    (h : keepsOrder s event = true) : s.Orderly event := by
  cases event with
  | submit key work =>
    intro i slot hheld hslot hfree
    simpa [keepsOrder, hheld, hslot, hfree] using h
  | throwNow i n =>
    intro slot hslot
    simpa [keepsOrder, hslot] using h
  | drainCheck =>
    intro key i slot _ hslot hfree
    have hone := List.all_eq_true.1 h slot (List.mem_of_getElem? hslot)
    simpa [hfree] using hone
  | settle | proceed | close => trivial

/-- Play the events that keep to the order. -/
def playOrderly : List (RegistryEvent String Nat) → Registry String Nat →
    Option (Registry String Nat)
  | [], s => some s
  | event :: events, s =>
    if keepsOrder s event then (s.step event).bind (playOrderly events) else none

theorem orderlyRun_of_play {events : List (RegistryEvent String Nat)} {s s' : Registry String Nat}
    (h : playOrderly events s = some s') : OrderlyRun s s' := by
  induction events generalizing s with
  | nil =>
    cases h
    exact .refl
  | cons event events ih =>
    simp only [playOrderly] at h
    split_ifs at h with horder
    obtain ⟨next, hstep, hrest⟩ := Option.bind_eq_some_iff.1 h
    exact .head ⟨event, orderly_of_keepsOrder horder, hstep⟩ (ih hrest)

theorem turns_in_order_closed :
    ∃ s, playOrderly orderlyEvents empty = some s ∧
      worksOf "conversation-1" s.started = [1, 2] ∧ s.drains = [[]] ∧
      (∀ key, (s.runningOf key).length ≤ 1) ∧
      ∀ key, worksOf key s.accepted = worksOf key s.started ++ s.queueOf key := by
  have hplayed : ((playOrderly orderlyEvents empty).map fun s =>
      (worksOf "conversation-1" s.started, s.drains)) = some ([1, 2], [[]]) := by
    decide +kernel
  obtain ⟨s, hs, hstate⟩ := Option.map_eq_some_iff.1 hplayed
  simp only [Prod.mk.injEq] at hstate
  obtain ⟨hrunning, hfifo, _, _⟩ := turns_in_order (orderlyRun_of_play hs)
  exact ⟨s, hs, hstate.1, hstate.2, hrunning, hfifo⟩

/-- The first turn is over and its callback still waits: a submission at that moment starts before
the work that was queued earlier, and a drain finds nothing to wait for. -/
theorem submitted_between_turns :
    ((play [.submit "conversation-1" 1, .submit "conversation-1" 2, .settle 0 0, .proceed 0,
        .drainCheck, .submit "conversation-1" 3] (empty : Registry String Nat)).map fun s =>
      (worksOf "conversation-1" s.accepted, worksOf "conversation-1" s.started, s.drains)) =
      some ([1, 2, 3], [1, 3], [[2]]) := by
  decide +kernel

end TestRegistry

end PlusOne
