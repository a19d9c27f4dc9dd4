import PlusOne.Gateway.Registry

/-! # No accepted work is lost

An accepted work has either started or waits in the queue of a slot, and a slot whose
queue is not empty still has something to come. Both hold in every run of works that do
not throw before they return a promise, in whatever order the continuations run. -/

namespace PlusOne

/-- Replacing one list of a family of lists changes the count by the difference of the two. -/
theorem count_flatMap_set {α β : Type} [BEq β] {f : α → List β} {x y : α} (b : β) :
    ∀ {xs : List α} {i : Nat}, xs[i]? = some x →
      ((xs.set i y).flatMap f).count b + (f x).count b = (xs.flatMap f).count b + (f y).count b := by
  intro xs
  induction xs with
  | nil =>
    intro i h
    cases h
  | cons z xs ih =>
    intro i h
    cases i with
    | zero =>
      have hx : z = x := Option.some.inj h
      simp only [List.set_cons_zero, List.flatMap_cons, List.count_append, hx]
      omega
    | succ i =>
      have hrest := ih (i := i) (by simpa using h)
      simp only [List.set_cons_succ, List.flatMap_cons, List.count_append]
      omega

/-! ## Slots -/

/-- The continuations of the drain loop. -/
def Continuation.ofDrain {ω : Type} : Continuation ω → Bool
  | resume turn => turn.draining
  | drainNext | drainDone => true
  | turnDone => false

namespace Slot

variable {κ ω : Type} {slot : Slot κ ω}

/-- What a slot waits for is still to come. -/
structure Flowing (slot : Slot κ ω) : Prop where
  active : slot.active = true → slot.running ≠ [] ∨ ∃ turn, .resume turn ∈ slot.continuations
  drain : slot.drain = true → (∃ turn ∈ slot.running, turn.draining = true) ∨
    ∃ continuation ∈ slot.continuations, continuation.ofDrain = true
  queue : slot.queue ≠ [] → slot.running ≠ [] ∨ slot.continuations ≠ []

theorem Flowing.queue_nil (h : slot.Flowing) (hcontinuations : slot.continuations = [])
    (hrunning : slot.running = []) : slot.queue = [] := by
  by_contra hqueue
  have hlater := h.queue hqueue
  simp [hcontinuations, hrunning] at hlater

theorem flowing_new (key : κ) : (Slot.new (ω := ω) key).Flowing :=
  ⟨by simp [new], by simp [new], by simp [new]⟩

theorem later_of_busy (hactive : slot.active = true → slot.running ≠ [] ∨
      ∃ turn, .resume turn ∈ slot.continuations)
    (hdrain : slot.drain = true → (∃ turn ∈ slot.running, turn.draining = true) ∨
      ∃ continuation ∈ slot.continuations, continuation.ofDrain = true)
    (hbusy : (slot.active || slot.drain) = true) : slot.running ≠ [] ∨ slot.continuations ≠ [] := by
  rcases Bool.or_eq_true_iff.1 hbusy with h | h
  · refine (hactive h).imp_right ?_
    rintro ⟨turn, hmem⟩
    exact List.ne_nil_of_mem hmem
  · rcases hdrain h with ⟨turn, hmem, _⟩ | ⟨continuation, hmem, _⟩
    · exact .inl (List.ne_nil_of_mem hmem)
    · exact .inr (List.ne_nil_of_mem hmem)

theorem Flowing.run (h : slot.Flowing) (work : ω) (draining : Bool) :
    (slot.run work draining).Flowing := by
  have hrunning : (slot.run work draining).running ≠ [] := by simp [Slot.run]
  refine ⟨fun _ => .inl hrunning, ?_, fun _ => .inl hrunning⟩
  intro hdrain
  rcases h.drain hdrain with ⟨turn, hturn, hdraining⟩ | hlater
  · exact .inl ⟨turn, List.mem_append_left _ hturn, hdraining⟩
  · exact .inr hlater

theorem flowing_drain (work : ω) :
    ({ slot.run work true with drain := true } : Slot κ ω).Flowing := by
  have hrunning : (slot.run work true).running ≠ [] := by simp [Slot.run]
  have hmem : ⟨work, true⟩ ∈ (slot.run work true).running := by simp [Slot.run]
  exact ⟨fun _ => .inl hrunning, fun _ => .inl ⟨⟨work, true⟩, hmem, rfl⟩, fun _ => .inl hrunning⟩

theorem Flowing.push (h : slot.Flowing) (work : ω) (hbusy : (slot.active || slot.drain) = true) :
    ({ slot with queue := slot.queue ++ [work] } : Slot κ ω).Flowing :=
  ⟨h.active, h.drain, fun _ => later_of_busy h.active h.drain hbusy⟩

/-- A settled work leaves the continuation of its `await`. -/
theorem Flowing.settle (h : slot.Flowing) {n : Nat} {turn : Turn ω}
    (hturn : slot.running[n]? = some turn) :
    ({ slot with
      running := slot.running.eraseIdx n
      continuations := slot.continuations ++ [.resume turn] } : Slot κ ω).Flowing := by
  refine ⟨fun _ => .inr ⟨turn, by simp⟩, ?_, fun _ => .inr (by simp)⟩
  intro hdrain
  rcases h.drain hdrain with ⟨other, hother, hdraining⟩ | ⟨continuation, hmem, hdraining⟩
  · by_cases hsame : other = turn
    · exact .inr ⟨.resume turn, by simp, hsame ▸ hdraining⟩
    · obtain ⟨m, hm⟩ := List.mem_iff_getElem?.1 hother
      have hne : m ≠ n := by
        rintro rfl
        rw [hturn] at hm
        exact hsame (Option.some.inj hm).symm
      exact .inl ⟨other, List.mem_eraseIdx_iff_getElem?.2 ⟨m, hne, hm⟩, hdraining⟩
  · exact .inr ⟨continuation, List.mem_append_left _ hmem, hdraining⟩

theorem flowing_scheduleDrain (hactive : slot.active = true → slot.running ≠ [] ∨
      ∃ turn, .resume turn ∈ slot.continuations)
    (hdrain : slot.drain = true → (∃ turn ∈ slot.running, turn.draining = true) ∨
      ∃ continuation ∈ slot.continuations, continuation.ofDrain = true) :
    slot.scheduleDrain.slot.Flowing := by
  cases hqueue : slot.queue with
  | nil =>
    simp only [scheduleDrain, hqueue]
    exact ⟨hactive, hdrain, fun h => absurd hqueue h⟩
  | cons work rest =>
    simp only [scheduleDrain, hqueue]
    split_ifs with hbusy
    · exact ⟨hactive, hdrain, fun _ => later_of_busy hactive hdrain hbusy⟩
    · exact flowing_drain work

/-- The first continuation runs. -/
theorem Flowing.proceed (h : slot.Flowing) {continuation : Continuation ω}
    {rest : List (Continuation ω)} (hfirst : slot.continuations = continuation :: rest) :
    (({ slot with continuations := rest } : Slot κ ω).proceed continuation).slot.Flowing := by
  have hactive : (∀ turn, continuation ≠ .resume turn) → slot.active = true →
      slot.running ≠ [] ∨ ∃ turn, .resume turn ∈ rest := by
    intro hother hbusy
    refine (h.active hbusy).imp_right ?_
    rintro ⟨turn, hmem⟩
    rw [hfirst] at hmem
    rcases List.mem_cons.1 hmem with heq | hrest
    · exact absurd heq.symm (hother turn)
    · exact ⟨turn, hrest⟩
  have hdrain : continuation.ofDrain = false → slot.drain = true →
      (∃ turn ∈ slot.running, turn.draining = true) ∨ ∃ c ∈ rest, c.ofDrain = true := by
    intro hother hbusy
    refine (h.drain hbusy).imp_right ?_
    rintro ⟨c, hmem, hc⟩
    rw [hfirst] at hmem
    rcases List.mem_cons.1 hmem with rfl | hrest
    · rw [hother] at hc
      cases hc
    · exact ⟨c, hrest, hc⟩
  cases continuation with
  | resume turn =>
    refine ⟨?_, ?_, ?_⟩
    · intro hbusy
      simp [Slot.proceed, Slot.resume] at hbusy
    · intro hbusy
      cases hdraining : turn.draining with
      | true => exact .inr ⟨.drainNext, by simp [Slot.proceed, Slot.resume, hdraining], rfl⟩
      | false =>
        refine (hdrain hdraining hbusy).imp_right ?_
        rintro ⟨c, hmem, hc⟩
        exact ⟨c, List.mem_append_left _ hmem, hc⟩
    · intro _
      exact .inr (by simp [Slot.proceed, Slot.resume])
  | turnDone => exact flowing_scheduleDrain (hactive (by simp)) (hdrain rfl)
  | drainNext =>
    cases hqueue : slot.queue with
    | nil =>
      simp only [Slot.proceed, drainNext]
      refine ⟨?_, fun _ => .inr ⟨.drainDone, by simp, rfl⟩, fun _ => .inr (by simp)⟩
      intro hbusy
      refine (hactive (by simp) hbusy).imp_right ?_
      rintro ⟨turn, hmem⟩
      exact ⟨turn, List.mem_append_left _ hmem⟩
    | cons work waiting =>
      simp only [Slot.proceed, drainNext]
      have hrunning : (slot.run work true).running ≠ [] := by simp [Slot.run]
      have hmem : ⟨work, true⟩ ∈ (slot.run work true).running := by simp [Slot.run]
      exact ⟨fun _ => .inl hrunning, fun _ => .inl ⟨⟨work, true⟩, hmem, rfl⟩, fun _ => .inl hrunning⟩
  | drainDone =>
    simp only [Slot.proceed, drainDone]
    split_ifs with hqueue
    · refine ⟨hactive (by simp), by simp, ?_⟩
      intro hne
      exact absurd (List.isEmpty_iff.1 hqueue) hne
    · exact flowing_scheduleDrain (hactive (by simp)) (by simp)

theorem queue_scheduleDrain (slot : Slot κ ω) :
    slot.scheduleDrain.started.toList ++ slot.scheduleDrain.slot.queue = slot.queue := by
  cases hqueue : slot.queue with
  | nil => simp [scheduleDrain, hqueue]
  | cons work rest =>
    simp only [scheduleDrain, hqueue]
    split_ifs
    · simp [hqueue]
    · rfl

theorem queue_proceed (slot : Slot κ ω) (continuation : Continuation ω) :
    (slot.proceed continuation).started.toList ++ (slot.proceed continuation).slot.queue =
      slot.queue := by
  cases continuation with
  | resume turn => rfl
  | turnDone => exact queue_scheduleDrain slot
  | drainNext =>
    cases hqueue : slot.queue with
    | nil => simp [proceed, drainNext, hqueue]
    | cons work rest => simp [proceed, drainNext, hqueue, run]
  | drainDone =>
    simp only [proceed, drainDone]
    split_ifs
    · rfl
    · exact queue_scheduleDrain _

end Slot

/-! ## The registry -/

namespace Registry

variable {κ ω : Type} [DecidableEq κ] {s s' : Registry κ ω}

/-- The works that have started or wait. -/
def works (s : Registry κ ω) : List ω := s.started.map Prod.snd ++ s.objects.flatMap Slot.queue

theorem works_eq_started (h : ∀ slot ∈ s.objects, slot.queue = []) :
    s.works = s.started.map Prod.snd := by
  rw [works, List.flatMap_eq_nil_iff.2 h, List.append_nil]

/-- Every slot has something to come while works wait in it. -/
def Flowing (s : Registry κ ω) : Prop := ∀ slot ∈ s.objects, slot.Flowing

theorem Flowing.put (h : s.Flowing) {i : Nat} {progress : SlotProgress κ ω}
    (hslot : progress.slot.Flowing) : (s.put i progress).Flowing := by
  intro slot hmem
  rcases List.mem_or_eq_of_mem_set hmem with hold | hnew
  · exact h slot hold
  · exact hnew ▸ hslot

theorem count_works_put [BEq ω] {i : Nat} {slot : Slot κ ω} {progress : SlotProgress κ ω}
    {added : List ω} (hslot : s.objects[i]? = some slot)
    (hqueue : (progress.started.toList ++ progress.slot.queue).Perm (slot.queue ++ added)) (work : ω) :
    (s.put i progress).works.count work = s.works.count work + added.count work := by
  have hset := count_flatMap_set (f := Slot.queue) (y := progress.slot) work hslot
  have hcount := hqueue.count_eq work
  have hstarted : (progress.started.toList.map fun started => (progress.slot.key, started)).map
      Prod.snd = progress.started.toList := by
    simp [List.map_map, Function.comp_def]
  simp only [works, Registry.put, List.map_append, List.count_append, hstarted] at hset hcount ⊢
  omega

/-- The events of a registry whose works are async functions, between its submissions. -/
def inner : RegistryEvent κ ω → Bool
  | .submit .. | .throwNow .. => false
  | .settle .. | .proceed _ | .close | .drainCheck => true

/-- An event between submissions neither adds a work nor loses one. -/
theorem inner_step [BEq ω] {event : RegistryEvent κ ω} (hinner : inner event = true)
    (hs : s.Flowing) (h : s.step event = some s') :
    s'.Flowing ∧ ∀ work, s'.works.count work = s.works.count work + [].count work := by
  cases event with
  | submit | throwNow => cases hinner
  | settle i n =>
    obtain ⟨slot, hslot, h⟩ := Option.bind_eq_some_iff.1 h
    obtain ⟨turn, hturn, rfl⟩ := Option.map_eq_some_iff.1 h
    have hflowing := (hs slot (List.mem_of_getElem? hslot)).settle hturn
    refine ⟨hs.put hflowing, count_works_put hslot ?_⟩
    rw [List.append_nil]
    exact .refl _
  | proceed i =>
    obtain ⟨slot, hslot, h⟩ := Option.bind_eq_some_iff.1 h
    split at h
    · cases h
    · rename_i continuation rest hfirst
      cases h
      have hflowing := (hs slot (List.mem_of_getElem? hslot)).proceed hfirst
      refine ⟨hs.put hflowing, count_works_put hslot ?_⟩
      rw [Slot.queue_proceed, List.append_nil]
  | close =>
    cases h
    exact ⟨hs, fun _ => rfl⟩
  | drainCheck =>
    simp only [Registry.step, Option.some.injEq] at h
    subst h
    split_ifs
    · exact ⟨hs, fun _ => rfl⟩
    · exact ⟨hs, fun _ => rfl⟩

theorem submitTo_works [BEq ω] {i : Nat} {slot : Slot κ ω} {work : ω} (hs : s.Flowing)
    (hslot : s.objects[i]? = some slot) :
    (s.submitTo i slot work).Flowing ∧
      ∀ other, (s.submitTo i slot work).works.count other =
        s.works.count other + [work].count other := by
  have hflowing := hs slot (List.mem_of_getElem? hslot)
  have haccepted : (s.accept slot.key [work]).Flowing := hs
  unfold submitTo
  split_ifs with hbusy
  · exact ⟨haccepted.put (hflowing.push work hbusy), count_works_put hslot (.refl _)⟩
  · exact ⟨haccepted.put (hflowing.run work false), count_works_put hslot List.perm_append_comm⟩

/-- A submission to an open registry adds its work. -/
theorem submit_works [BEq ω] {key : κ} {work : ω} (hs : s.Flowing) (hopen : s.accepting = true)
    (h : s.submit key work = some s') :
    s'.Flowing ∧ ∀ other, s'.works.count other = s.works.count other + [work].count other := by
  simp only [Registry.submit, hopen, Bool.not_true, Bool.false_eq_true, if_false] at h
  split at h
  · obtain ⟨slot, hslot, rfl⟩ := Option.map_eq_some_iff.1 h
    exact submitTo_works hs hslot
  · cases h
    have hadded : (s.add key).Flowing := by
      intro slot hmem
      rcases List.mem_append.1 hmem with hold | hnew
      · exact hs slot hold
      · rw [List.mem_singleton.1 hnew]
        exact Slot.flowing_new key
    have hworks : (s.add key).works = s.works := by simp [works, Registry.add, Slot.new]
    have hnew : (s.add key).objects[s.objects.length]? = some (Slot.new key) := by
      simp [Registry.add]
    rw [← hworks]
    exact submitTo_works hadded hnew

end Registry

end PlusOne
