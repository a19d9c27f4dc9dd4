import PlusOne.Gateway.TurnOrder
import PlusOne.Gateway.Turns

/-! # Turns that do not overlap

Works that are async functions never throw before they return a promise, so a key has
at most one work running whenever works are submitted. A turn that is over has nothing
left in progress as long as its deadline only strikes where the orchestrator's run
observes the signal: then no two runs of a conversation overlap. -/

namespace PlusOne

/-! ## Slots -/

namespace Slot

variable {κ ω : Type} {slot : Slot κ ω}

/-- What starts runs, and what ran runs on. -/
structure Runs (slot : Slot κ ω) (added : List ω) (progress : SlotProgress κ ω) : Prop where
  started : ∀ work, progress.started = some work →
    work ∈ progress.slot.running.map Turn.work ∧ (work ∈ slot.queue ∨ work ∈ added)
  running : ∀ turn ∈ slot.running, turn ∈ progress.slot.running
  queue : ∀ work ∈ progress.slot.queue, work ∈ slot.queue ∨ work ∈ added

theorem runs_scheduleDrain : slot.Runs [] slot.scheduleDrain := by
  cases hqueue : slot.queue with
  | nil =>
    simp only [scheduleDrain, hqueue]
    exact ⟨by simp, fun _ h => h, by simp [hqueue]⟩
  | cons work rest =>
    simp only [scheduleDrain, hqueue]
    split_ifs
    · exact ⟨by simp, fun _ h => h, by simp [hqueue]⟩
    · refine ⟨by simp [run, hqueue], fun turn h => List.mem_append_left _ h, ?_⟩
      intro other hother
      exact .inl (by rw [hqueue]; exact List.mem_cons_of_mem _ hother)

theorem runs_proceed (continuation : Continuation ω) : slot.Runs [] (slot.proceed continuation) := by
  cases continuation with
  | resume turn => exact ⟨by simp [proceed], fun _ h => h, fun _ h => .inl h⟩
  | turnDone => exact runs_scheduleDrain
  | drainNext =>
    cases hqueue : slot.queue with
    | nil =>
      simp only [proceed, drainNext, hqueue]
      exact ⟨by simp, fun _ h => h, by simp [hqueue]⟩
    | cons work rest =>
      simp only [proceed, drainNext, hqueue]
      refine ⟨by simp [run, hqueue], fun turn h => List.mem_append_left _ h, ?_⟩
      intro other hother
      exact .inl (by rw [hqueue]; exact List.mem_cons_of_mem _ hother)
  | drainDone =>
    simp only [proceed, drainDone]
    split_ifs
    · exact ⟨by simp, fun _ h => h, fun _ h => .inl h⟩
    · have hruns : ({ slot with drain := false } : Slot κ ω).Runs [] _ := runs_scheduleDrain
      exact ⟨hruns.started, hruns.running, hruns.queue⟩

theorem runs_enqueue (work : ω) :
    slot.Runs [work] ⟨{ slot with queue := slot.queue ++ [work] }, none, false⟩ := by
  refine ⟨by simp, fun _ h => h, ?_⟩
  intro other hother
  exact List.mem_append.1 hother

theorem runs_start (work : ω) : slot.Runs [work] ⟨slot.run work false, some work, false⟩ :=
  ⟨by simp [run], fun turn h => List.mem_append_left _ h, fun _ h => .inl h⟩

end Slot

/-! ## The registry -/

namespace Registry

variable {κ ω : Type} [DecidableEq κ] {s s' : Registry κ ω}

theorem mem_runningOf {key : κ} {work : ω} :
    work ∈ s.runningOf key ↔
      ∃ (i : Nat) (slot : Slot κ ω), s.objects[i]? = some slot ∧ slot.key = key ∧ work ∈ slot.running.map Turn.work := by
  simp only [runningOf, List.mem_flatMap]
  constructor
  · rintro ⟨slot, hmem, hwork⟩
    obtain ⟨i, hslot⟩ := List.mem_iff_getElem?.1 hmem
    split_ifs at hwork with hkey
    · exact ⟨i, slot, hslot, hkey, hwork⟩
    · cases hwork
  · rintro ⟨i, slot, hslot, hkey, hwork⟩
    exact ⟨slot, List.mem_of_getElem? hslot, by rwa [if_pos hkey]⟩

/-- What a submission, or a continuation of a slot, does to the works. -/
structure Advances (s s' : Registry κ ω) (added : List (κ × ω)) : Prop where
  started : ∃ new : Option (κ × ω), s'.started = s.started ++ new.toList ∧
    ∀ entry, new = some entry → entry.2 ∈ s'.runningOf entry.1 ∧
      (entry ∈ added ∨ ∃ slot ∈ s.objects, slot.key = entry.1 ∧ entry.2 ∈ slot.queue)
  running : ∀ key, ∀ work ∈ s.runningOf key, work ∈ s'.runningOf key
  queue : ∀ slot' ∈ s'.objects, ∀ work ∈ slot'.queue,
    (slot'.key, work) ∈ added ∨ ∃ slot ∈ s.objects, slot.key = slot'.key ∧ work ∈ slot.queue

theorem advances_refl : s.Advances s [] := by
  refine ⟨⟨none, by simp, by simp⟩, fun _ _ h => h, ?_⟩
  intro slot hslot work hwork
  exact .inr ⟨slot, hslot, rfl, hwork⟩

theorem advances_put {i : Nat} {slot : Slot κ ω} {added : List ω} {progress : SlotProgress κ ω}
    (hslot : s.objects[i]? = some slot) (hkey : progress.slot.key = slot.key)
    (hruns : slot.Runs added progress) :
    s.Advances (s.put i progress) (added.map fun work => (slot.key, work)) := by
  have hobjects : ∀ j, (s.put i progress).objects[j]? =
      if j = i then some progress.slot else s.objects[j]? := getElem?_put hslot
  have hmem : slot ∈ s.objects := List.mem_of_getElem? hslot
  refine ⟨⟨progress.started.map fun work => (progress.slot.key, work), ?_, ?_⟩, ?_, ?_⟩
  · cases hstarted : progress.started <;> simp [Registry.put, hstarted]
  · intro entry hentry
    obtain ⟨work, hstarted, rfl⟩ := Option.map_eq_some_iff.1 hentry
    obtain ⟨hrunning, hqueue⟩ := hruns.started work hstarted
    refine ⟨mem_runningOf.2 ⟨i, progress.slot, by rw [hobjects, if_pos rfl], rfl, hrunning⟩, ?_⟩
    rcases hqueue with hqueue | hadded
    · exact .inr ⟨slot, hmem, hkey.symm, hqueue⟩
    · exact .inl (List.mem_map.2 ⟨work, hadded, by rw [hkey]⟩)
  · intro key work hwork
    obtain ⟨j, other, hother, hotherKey, hrunning⟩ := mem_runningOf.1 hwork
    by_cases hji : j = i
    · subst hji
      rw [hslot] at hother
      cases hother
      obtain ⟨turn, hturn, rfl⟩ := List.mem_map.1 hrunning
      exact mem_runningOf.2 ⟨j, progress.slot, by rw [hobjects, if_pos rfl], hkey.trans hotherKey,
        List.mem_map_of_mem (hruns.running turn hturn)⟩
    · exact mem_runningOf.2 ⟨j, other, by rw [hobjects, if_neg hji, hother], hotherKey, hrunning⟩
  · intro slot' hslot' work hwork
    rcases List.mem_or_eq_of_mem_set hslot' with hold | rfl
    · exact .inr ⟨slot', hold, rfl, hwork⟩
    · rcases hruns.queue work hwork with hqueue | hadded
      · exact .inr ⟨slot, hmem, hkey.symm, hqueue⟩
      · exact .inl (List.mem_map.2 ⟨work, hadded, by rw [hkey]⟩)

theorem Held.put (hs : s.Held) {i : Nat} {slot : Slot κ ω} (hslot : s.objects[i]? = some slot)
    (hlive : slot.Live) {progress : SlotProgress κ ω} (hkeeps : slot.Keeps progress) :
    (s.put i progress).Held :=
  HeldBut.put hs hslot (hs.objectOf hslot hlive) (by simp) hkeeps

theorem Held.proceed (hs : s.Held) {i : Nat} (h : s.step (.proceed i) = some s') :
    s'.Held ∧ s.Advances s' [] := by
  obtain ⟨slot, hslot, h⟩ := Option.bind_eq_some_iff.1 h
  split at h
  · cases h
  · rename_i continuation rest hwaiting
    cases h
    have hlive : slot.Live := .inl (by simp [hwaiting])
    have hmoves := Slot.moves_proceed (hs.shape i slot hslot) hwaiting
    have hruns : ({ slot with continuations := rest } : Slot κ ω).Runs [] _ := Slot.runs_proceed continuation
    have hgoes : slot.Runs [] _ := ⟨hruns.started, hruns.running, hruns.queue⟩
    exact ⟨hs.put hslot hlive hmoves.keeps, advances_put hslot hmoves.key hgoes⟩

theorem HeldBut.submitTo {spare : Option Nat} (hs : s.HeldBut spare) {i : Nat} {slot : Slot κ ω}
    {work : ω} (hslot : s.objects[i]? = some slot) (hknown : s.objectOf slot.key = some i)
    (hspare : ∀ j, spare = some j → j = i) :
    (s.submitTo i slot work).Held ∧ s.Advances (s.submitTo i slot work) [(slot.key, work)] := by
  have hshape := hs.shape i slot hslot
  have haccepted : (s.accept slot.key [work]).HeldBut spare := ⟨hs.shape, hs.known⟩
  have hadvances : ∀ {progress : SlotProgress κ ω}, progress.slot.key = slot.key →
      slot.Runs [work] progress →
      s.Advances ((s.accept slot.key [work]).put i progress) [(slot.key, work)] := by
    intro progress hkey hruns
    have hput := advances_put hslot hkey hruns
    exact ⟨hput.started, hput.running, hput.queue⟩
  unfold Registry.submitTo
  split_ifs with hbusy
  · have hmoves : slot.Moves [work] _ := Slot.moves_enqueue hshape hbusy
    exact ⟨haccepted.put hslot hknown hspare hmoves.keeps, hadvances rfl (Slot.runs_enqueue work)⟩
  · have hfree : (slot.active || slot.drain) = false := by simpa using hbusy
    exact ⟨haccepted.put hslot hknown hspare (Slot.keeps_start hshape hfree),
      hadvances rfl (Slot.runs_start work)⟩

/-- A submission, wherever the turns of the key stand. -/
theorem Held.submit (hs : s.Held) {key : κ} {work : ω} (h : s.submit key work = some s') :
    s'.Held ∧ s.Advances s' [(key, work)] := by
  unfold Registry.submit at h
  split at h
  · cases h
    have hsame : s.Advances s [] := advances_refl
    refine ⟨hs, hsame.started.imp ?_, hsame.running, fun slot hslot other hother => .inr ⟨slot, hslot, rfl, hother⟩⟩
    rintro new ⟨hnew, hentry⟩
    refine ⟨hnew, fun entry hsome => ?_⟩
    obtain ⟨hrunning, hfrom⟩ := hentry entry hsome
    exact ⟨hrunning, hfrom.imp_left fun hmem => by cases hmem⟩
  · split at h
    · rename_i i hheld
      obtain ⟨slot, hslot, rfl⟩ := Option.map_eq_some_iff.1 h
      obtain ⟨held, hheldSlot, hkey, _⟩ := (hs.known key i).1 hheld
      rw [hslot] at hheldSlot
      cases hheldSlot
      rw [← hkey] at hheld ⊢
      exact HeldBut.submitTo hs hslot hheld (by simp)
    · rename_i hnone
      cases h
      have hnew : (s.add key).objects[s.objects.length]? = some (Slot.new key) := by
        simp [Registry.add]
      have hknown : (s.add key).objectOf (Slot.new key : Slot κ ω).key = some s.objects.length := by
        rw [objectOf_add hnone]
        exact if_pos rfl
      obtain ⟨hheld, hadvances⟩ := (Held.add hs hnone).submitTo hnew hknown
        fun j hj => (Option.some.inj hj).symm
      have hslots : ∀ slot ∈ (s.add key).objects, slot ∈ s.objects ∨ slot = Slot.new key := by
        intro slot hslot
        exact (List.mem_append.1 hslot).imp_right fun hlast => List.mem_singleton.1 hlast
      have hback : ∀ {k : κ} {other : ω}, (∃ slot ∈ (s.add key).objects, slot.key = k ∧ other ∈ slot.queue) →
          ∃ slot ∈ s.objects, slot.key = k ∧ other ∈ slot.queue := by
        rintro k other ⟨slot, hslot, hslotKey, hother⟩
        rcases hslots slot hslot with hold | rfl
        · exact ⟨slot, hold, hslotKey, hother⟩
        · cases hother
      refine ⟨hheld, ?_, ?_, ?_⟩
      · obtain ⟨new, hstarted, hentry⟩ := hadvances.started
        refine ⟨new, hstarted, fun entry hsome => ?_⟩
        obtain ⟨hrunning, hfrom⟩ := hentry entry hsome
        exact ⟨hrunning, hfrom.imp_right hback⟩
      · intro k other hother
        obtain ⟨j, slot, hslot, hslotKey, hrunning⟩ := mem_runningOf.1 hother
        exact hadvances.running k other
          (mem_runningOf.2 ⟨j, slot, getElem?_add.2 (.inl hslot), hslotKey, hrunning⟩)
      · intro slot' hslot' other hother
        exact (hadvances.queue slot' hslot' other hother).imp_right hback

/-- A work of an async function settles; the others run on. -/
theorem Held.settle (hs : s.Held) {i n : Nat} {slot : Slot κ ω} {turn : Turn ω}
    (hslot : s.objects[i]? = some slot) (hturn : slot.running[n]? = some turn)
    (h : s.step (.settle i n) = some s') :
    s'.Held ∧ s'.started = s.started ∧
      (∀ key, ∀ work ∈ s.runningOf key, work ≠ turn.work → work ∈ s'.runningOf key) ∧
      ∀ slot' ∈ s'.objects, ∀ work ∈ slot'.queue, ∃ slot ∈ s.objects, slot.key = slot'.key ∧ work ∈ slot.queue := by
  simp only [Registry.step, hslot, Option.bind_some, hturn, Option.map_some, Option.some.injEq] at h
  subst h
  have hlive : slot.Live := .inr (List.ne_nil_of_mem (List.mem_of_getElem? hturn))
  have hmoves := Slot.moves_settle (hs.shape i slot hslot) hturn
  generalize hmoved : ({ slot with
    running := slot.running.eraseIdx n
    continuations := slot.continuations ++ [.resume turn] } : Slot κ ω) = moved at hmoves ⊢
  have hkey : moved.key = slot.key := by rw [← hmoved]
  have hrest : moved.running = slot.running.eraseIdx n := by rw [← hmoved]
  have hqueue : moved.queue = slot.queue := by rw [← hmoved]
  have hobjects : ∀ j, (s.put i ⟨moved, none, false⟩).objects[j]? =
      if j = i then some moved else s.objects[j]? := getElem?_put hslot
  refine ⟨hs.put hslot hlive hmoves.keeps, by simp [Registry.put], ?_, ?_⟩
  · intro key work hwork hne
    obtain ⟨j, other, hother, hotherKey, hrunning⟩ := mem_runningOf.1 hwork
    by_cases hji : j = i
    · subst hji
      rw [hslot] at hother
      cases hother
      obtain ⟨held, hheld, rfl⟩ := List.mem_map.1 hrunning
      obtain ⟨m, hm⟩ := List.mem_iff_getElem?.1 hheld
      have hmn : m ≠ n := by
        rintro rfl
        rw [hturn] at hm
        exact hne (congrArg Turn.work (Option.some.inj hm)).symm
      have hleft : held ∈ moved.running := by
        rw [hrest]
        exact List.mem_eraseIdx_iff_getElem?.2 ⟨m, hmn, hm⟩
      exact mem_runningOf.2 ⟨j, moved, by rw [hobjects, if_pos rfl], hkey.trans hotherKey,
        List.mem_map_of_mem hleft⟩
    · exact mem_runningOf.2 ⟨j, other, by rw [hobjects, if_neg hji, hother], hotherKey, hrunning⟩
  · intro slot' hslot' work hwork
    rcases List.mem_or_eq_of_mem_set hslot' with hold | rfl
    · exact ⟨slot', hold, rfl, hwork⟩
    · exact ⟨slot, List.mem_of_getElem? hslot, hkey.symm, hqueue ▸ hwork⟩

end Registry

/-! ## One turn -/

namespace ChannelTurn

variable {turn : ChannelTurn} {progress : ChannelTurn × List TurnRecord}

/-- The orchestrator's run is in progress only while the turn waits for it. -/
def Sound (turn : ChannelTurn) : Prop :=
  turn.execution.inProgress = true → turn.phase = .orchestrating

/-- The turn has been reported as failed by its deadline. -/
def Reported (turn : ChannelTurn) : Prop :=
  turn.aborted = true ∧ (turn.phase = .closing .timedOut ∨ turn.phase = .ended .timedOut)

theorem Reported.quiet (h : turn.Reported) (hsound : turn.Sound) :
    turn.execution.inProgress = false := by
  by_contra hrunning
  have hphase : turn.phase = .orchestrating := hsound (by simpa using hrunning)
  rcases h.2 with hclosing | hover
  · rw [hphase] at hclosing
    cases hclosing
  · rw [hphase] at hover
    cases hover

/-- What a step of a turn leaves. -/
structure Steps (turn : ChannelTurn) (progress : ChannelTurn × List TurnRecord) : Prop where
  conversation : progress.1.conversation = turn.conversation
  sound : progress.1.Sound
  inProgress : progress.1.execution.inProgress = true → turn.execution.inProgress = true
  waiting : turn.phase = .waiting → progress.1.phase = .waiting
  records : progress.2 = [] ∨ (progress.2 = [.timedOut] ∧ progress.1.Reported) ∨
    ∃ effect, progress.2 = [effect] ∧ effect.isEffect = true ∧ ¬turn.Reported
  reported : turn.Reported → progress.1.Reported

theorem steps_reportTimeout (hsound : turn.Sound) (haborted : turn.aborted = true)
    (hphase : turn.phase ≠ .waiting) (horchestrating : turn.phase ≠ .orchestrating) :
    turn.Steps turn.reportTimeout := by
  have hquiet : turn.execution.inProgress = false := by
    by_contra hrunning
    exact horchestrating (hsound (by simpa using hrunning))
  have hsound' : turn.reportTimeout.1.Sound := by
    intro hrunning
    simp [reportTimeout, hquiet] at hrunning
  refine ⟨rfl, hsound', ?_, fun h => absurd h hphase, .inr (.inl ⟨rfl, haborted, .inl rfl⟩), ?_⟩
  · intro hrunning
    simp [reportTimeout, hquiet] at hrunning
  · intro _
    exact ⟨haborted, .inl rfl⟩

theorem steps_phase (hsound : turn.Sound) {phase : TurnPhase} {delivery : DeliveryStage}
    (hphase : turn.phase ≠ .waiting) (horchestrating : turn.phase ≠ .orchestrating)
    (hreported : ¬turn.Reported) : turn.Steps ({ turn with phase, delivery }, []) := by
  have hquiet : turn.execution.inProgress = false := by
    by_contra hrunning
    exact horchestrating (hsound (by simpa using hrunning))
  refine ⟨rfl, ?_, fun h => h, fun h => absurd h hphase, .inl rfl, fun h => absurd h hreported⟩
  intro hrunning
  simp [hquiet] at hrunning

theorem steps_deadline (hsound : turn.Sound) (hobserves : turn.execution ≠ .running false)
    (h : turn.deadline = some progress) : turn.Steps progress := by
  have hquiet : (if turn.execution = .running true then Execution.ended else turn.execution).inProgress =
      false := by
    split_ifs with hrunning
    · rfl
    · cases hexecution : turn.execution with
      | running observes =>
        cases observes with
        | true => exact absurd hexecution hrunning
        | false => exact absurd hexecution hobserves
      | none => rfl
      | ended => rfl
  unfold deadline at h
  split at h
  · cases h
  · rename_i haborted
    obtain rfl := Option.some.inj h
    refine ⟨rfl, ?_, ?_, ?_, .inl rfl, fun h => absurd h.1 haborted⟩
    · intro hrunning
      exact absurd (hquiet.symm.trans hrunning) Bool.false_ne_true
    · intro hrunning
      exact absurd (hquiet.symm.trans hrunning) Bool.false_ne_true
    · intro hwaiting
      simp only [hwaiting]

theorem steps_resume (hsound : turn.Sound) {flag : Bool} (h : turn.resume flag = some progress) :
    turn.Steps progress := by
  have hreported : ∀ phase, turn.phase = phase → (∀ result, phase ≠ .closing result ∧ phase ≠ .ended result) →
      ¬turn.Reported := by
    rintro phase rfl hother ⟨_, hclosing | hover⟩
    · exact (hother _).1 hclosing
    · exact (hother _).2 hover
  unfold resume at h
  split at h
  · rename_i hphase
    have hnot := hreported _ hphase (by simp)
    split_ifs at h with haborted
    · cases h
      exact steps_reportTimeout hsound haborted (by simp [hphase]) (by simp [hphase])
    · cases h
      exact steps_phase hsound (by simp [hphase]) (by simp [hphase]) hnot
    · cases h
      exact steps_phase hsound (by simp [hphase]) (by simp [hphase]) hnot
  · rename_i hphase
    have hnot := hreported _ hphase (by simp)
    split_ifs at h with haborted
    · cases h
      exact steps_reportTimeout hsound haborted (by simp [hphase]) (by simp [hphase])
    · cases h
      exact steps_phase hsound (by simp [hphase]) (by simp [hphase]) hnot
  · rename_i hphase
    have hnot := hreported _ hphase (by simp)
    split_ifs at h with haborted
    · cases h
      exact steps_reportTimeout hsound haborted (by simp [hphase]) (by simp [hphase])
    · cases h
      exact steps_phase hsound (by simp [hphase]) (by simp [hphase]) hnot
    · cases h
      exact steps_phase hsound (by simp [hphase]) (by simp [hphase]) hnot
  · rename_i hphase
    have hnot := hreported _ hphase (by simp)
    split_ifs at h with haborted
    · cases h
      exact steps_reportTimeout hsound haborted (by simp [hphase]) (by simp [hphase])
    · cases h
      exact steps_phase hsound (by simp [hphase]) (by simp [hphase]) hnot
  · rename_i result hphase
    have hnot := hreported _ hphase (by simp)
    split_ifs at h with haborted
    · cases h
      simp only [Bool.and_eq_true] at haborted
      exact steps_reportTimeout hsound haborted.1 (by simp [hphase]) (by simp [hphase])
    · cases h
      exact steps_phase hsound (by simp [hphase]) (by simp [hphase]) hnot
  · cases h

/-- A step of the orchestrator's run, which a reported turn has none of. -/
theorem steps_execute (hsound : turn.Sound) {checks effect observes : Bool}
    (h : turn.execute checks effect observes = some progress) : turn.Steps progress := by
  unfold execute at h
  split at h
  · rename_i hrunning
    have hphase := hsound hrunning
    split at h
    · cases h
      exact ⟨rfl, fun h => (by cases h), fun h => (by cases h), fun h => h, .inl rfl, fun h => h⟩
    · cases h
      refine ⟨rfl, fun _ => hphase, fun _ => hrunning, fun h => h, ?_, fun h => h⟩
      cases effect with
      | false => exact .inl rfl
      | true =>
        refine .inr (.inr ⟨.mutation, rfl, rfl, ?_⟩)
        intro hreported
        rw [hreported.quiet hsound] at hrunning
        cases hrunning
  · cases h

theorem steps_finish (hsound : turn.Sound) {ok : Bool} (h : turn.finish ok = some progress) :
    turn.Steps progress := by
  unfold finish at h
  split at h
  · rename_i hrunning
    have hphase := hsound hrunning
    obtain rfl := Option.some.inj h
    refine ⟨rfl, fun h => (by cases h), fun h => (by cases h), ?_, .inl rfl, ?_⟩
    · intro hwaiting
      rw [hphase] at hwaiting
      cases hwaiting
    · intro hreported
      rw [hreported.quiet hsound] at hrunning
      cases hrunning
  · cases h

theorem steps_delivery (hsound : turn.Sound) {phase : TurnPhase} {delivery : DeliveryStage}
    {records : List TurnRecord} (hphase : phase = turn.phase ∨ turn.phase = .delivering)
    (hrecords : records = [] ∨ records = [.send] ∧ turn.aborted = false) :
    turn.Steps ({ turn with phase, delivery }, records) := by
  refine ⟨rfl, ?_, fun h => h, ?_, ?_, ?_⟩
  · intro hrunning
    have horchestrating := hsound hrunning
    rcases hphase with hsame | hdelivering
    · exact hsame.trans horchestrating
    · rw [horchestrating] at hdelivering
      cases hdelivering
  · intro hwaiting
    rcases hphase with hsame | hdelivering
    · exact hsame.trans hwaiting
    · rw [hwaiting] at hdelivering
      cases hdelivering
  · rcases hrecords with rfl | ⟨rfl, haborted⟩
    · exact .inl rfl
    · refine .inr (.inr ⟨.send, rfl, rfl, ?_⟩)
      intro hreported
      rw [hreported.1] at haborted
      cases haborted
  · rintro ⟨haborted, hreported⟩
    rcases hphase with rfl | hdelivering
    · exact ⟨haborted, hreported⟩
    · simp [hdelivering] at hreported

theorem steps_settleDelivery (hsound : turn.Sound) (result : Option TurnEnd) :
    turn.Steps (turn.settleDelivery result) := by
  refine steps_delivery hsound ?_ (.inl rfl)
  split_ifs with hdelivering
  · exact .inr hdelivering
  · exact .inl rfl

theorem steps_deliver (hsound : turn.Sound) {answer : DeliveryAnswer}
    (h : turn.deliver answer = some progress) : turn.Steps progress := by
  unfold deliver at h
  split at h
  · split_ifs at h with haborted
    · cases h
      exact steps_settleDelivery hsound _
    · cases h
      exact steps_delivery hsound (.inl rfl) (.inr ⟨rfl, by simpa using haborted⟩)
  · cases h
    exact steps_settleDelivery hsound _
  · cases h
    exact steps_settleDelivery hsound _
  · cases h
    exact steps_delivery hsound (.inl rfl) (.inl rfl)
  · cases h
    exact steps_settleDelivery hsound _
  · cases h
    exact steps_delivery hsound (.inl rfl) (.inl rfl)
  · cases h
    exact steps_delivery hsound (.inl rfl) (.inl rfl)
  · cases h
    exact steps_settleDelivery hsound _
  · cases h
    exact steps_settleDelivery hsound _
  · cases h

theorem steps_told (hsound : turn.Sound) (h : turn.told = some progress) : turn.Steps progress := by
  unfold told at h
  split at h
  · rename_i result hphase
    cases h
    refine steps_phase hsound (by simp [hphase]) (by simp [hphase]) ?_
    rintro ⟨_, hclosing | hover⟩
    · simp [hphase] at hclosing
    · simp [hphase] at hover
  · cases h

theorem steps_step (hsound : turn.Sound) {event : TurnEvent}
    (hobserves : event = .deadline → turn.execution ≠ .running false)
    (h : turn.step event = some progress) : turn.Steps progress := by
  cases event with
  | deadline => exact steps_deadline hsound (hobserves rfl) h
  | resume flag => exact steps_resume hsound h
  | execute checks effect observes => exact steps_execute hsound h
  | finish ok => exact steps_finish hsound h
  | deliver answer => exact steps_deliver hsound h
  | told => exact steps_told hsound h

theorem sound_new (conversation : String) : (new conversation).Sound := fun h => by cases h

end ChannelTurn

/-! ## The turns of a gateway -/

namespace Gateway

variable {g g' : Gateway}

/-- The turns and the registry fit together, and the log holds what was promised of it. -/
structure Inv (g : Gateway) : Prop where
  held : g.registry.Held
  flowing : g.registry.Flowing
  once : ∀ i, g.registry.works.count i ≤ 1
  known : ∀ i ∈ g.registry.works, i < g.turns.length
  begun : ∀ (i : Nat) (turn : ChannelTurn), g.turns[i]? = some turn → turn.phase ≠ .waiting →
    i ∈ g.registry.started.map Prod.snd
  queued : ∀ slot ∈ g.registry.objects, ∀ i ∈ slot.queue, ∀ turn, g.turns[i]? = some turn →
    turn.conversation = slot.key
  running : ∀ (i : Nat) (turn : ChannelTurn), g.turns[i]? = some turn →
    turn.execution.inProgress = true → i ∈ g.registry.runningOf turn.conversation
  sound : ∀ (i : Nat) (turn : ChannelTurn), g.turns[i]? = some turn → turn.Sound
  reported : ∀ i, (i, .timedOut) ∈ g.log → ∃ turn, g.turns[i]? = some turn ∧ turn.Reported
  quiet : g.QuietAfterTimeout

/-- Where at most one element of a list satisfies a test, the filtered list has at most one. -/
theorem length_filter_le_one {α : Type} {p : α → Bool} {xs : List α}
    (h : ∀ (i j : Nat) (x y : α), xs[i]? = some x → xs[j]? = some y → p x = true → p y = true → i = j) :
    (xs.filter p).length ≤ 1 := by
  induction xs with
  | nil => exact Nat.zero_le 1
  | cons x xs ih =>
    have hrest : (xs.filter p).length ≤ 1 := by
      refine ih ?_
      intro i j y z hy hz hpy hpz
      have hsucc := h (i + 1) (j + 1) y z hy hz hpy hpz
      omega
    by_cases hx : p x = true
    · have hnone : xs.filter p = [] := by
        rw [List.filter_eq_nil_iff]
        intro y hy hpy
        obtain ⟨j, hj⟩ := List.mem_iff_getElem?.1 hy
        have hzero := h 0 (j + 1) x y rfl hj hx hpy
        omega
      simp [List.filter_cons, hx, hnone]
    · simpa [List.filter_cons, hx] using hrest

theorem Inv.exclusive (hg : g.Inv) : g.Exclusive := by
  intro conversation
  refine length_filter_le_one ?_
  intro i j turn other hturn hother hp hq
  simp only [Bool.and_eq_true, beq_iff_eq] at hp hq
  have hi := hg.running i turn hturn hp.2
  have hj := hg.running j other hother hq.2
  rw [hp.1] at hi
  rw [hq.1] at hj
  have hone := hg.held.runningOf_le_one conversation
  match hrunning : g.registry.runningOf conversation with
  | [] => simp [hrunning] at hi
  | [work] =>
    rw [hrunning, List.mem_singleton] at hi hj
    exact hi.trans hj.symm
  | _ :: _ :: _ => simp [hrunning] at hone

/-- A step of one turn. -/
theorem Inv.record (hg : g.Inv) {i : Nat} {turn : ChannelTurn}
    {progress : ChannelTurn × List TurnRecord} (hturn : g.turns[i]? = some turn)
    (hconversation : progress.1.conversation = turn.conversation) (hsound : progress.1.Sound)
    (hrunning : progress.1.execution.inProgress = true →
      i ∈ g.registry.runningOf turn.conversation)
    (hbegun : progress.1.phase ≠ .waiting → i ∈ g.registry.started.map Prod.snd)
    (hrecords : progress.2 = [] ∨ (progress.2 = [.timedOut] ∧ progress.1.Reported) ∨
      ∃ effect, progress.2 = [effect] ∧ effect.isEffect = true ∧ ¬turn.Reported)
    (hreported : turn.Reported → progress.1.Reported) : (g.record i progress).Inv := by
  have hlt : i < g.turns.length := (List.getElem?_eq_some_iff.1 hturn).1
  have hturns : ∀ j, (g.turns.set i progress.1)[j]? = if j = i then some progress.1 else g.turns[j]? := by
    intro j
    simp only [List.getElem?_set, eq_comm (a := j)]
    split_ifs <;> rfl
  have hstays : ∀ j, (j, .timedOut) ∈ g.log →
      ∃ turn, (g.turns.set i progress.1)[j]? = some turn ∧ turn.Reported := by
    intro j hj
    obtain ⟨other, hother, hdone⟩ := hg.reported j hj
    by_cases hji : j = i
    · subst hji
      rw [hturn] at hother
      cases hother
      exact ⟨progress.1, by rw [hturns, if_pos rfl], hreported hdone⟩
    · exact ⟨other, by rw [hturns, if_neg hji, hother], hdone⟩
  refine ⟨hg.held, hg.flowing, hg.once, ?_, ?_, ?_, ?_, ?_, ?_, ?_⟩
  · intro j hj
    have hold := hg.known j hj
    simpa [Gateway.record] using hold
  · intro j other hother hphase
    simp only [Gateway.record, hturns] at hother
    split_ifs at hother with hji
    · cases hother
      exact hji ▸ hbegun hphase
    · exact hg.begun j other hother hphase
  · intro slot hslot j hj other hother
    simp only [Gateway.record, hturns] at hother
    split_ifs at hother with hji
    · cases hother
      rw [hconversation]
      exact hg.queued slot hslot i (hji ▸ hj) turn hturn
    · exact hg.queued slot hslot j hj other hother
  · intro j other hother hprogress
    simp only [Gateway.record, hturns] at hother
    split_ifs at hother with hji
    · cases hother
      rw [hconversation, hji]
      exact hrunning hprogress
    · exact hg.running j other hother hprogress
  · intro j other hother
    simp only [Gateway.record, hturns] at hother
    split_ifs at hother with hji
    · cases hother
      exact hsound
    · exact hg.sound j other hother
  · intro j hj
    rcases List.mem_append.1 hj with hold | hnew
    · exact hstays j hold
    · obtain ⟨entry, hentry, hpair⟩ := List.mem_map.1 hnew
      cases hpair
      rcases hrecords with hnone | ⟨_, hdone⟩ | ⟨effect, hsome, heffect, _⟩
      · rw [hnone] at hentry
        cases hentry
      · exact ⟨progress.1, by rw [Gateway.record, hturns, if_pos rfl], hdone⟩
      · rw [hsome, List.mem_singleton] at hentry
        rw [← hentry] at heffect
        cases heffect
  · refine List.pairwise_append.2 ⟨hg.quiet, ?_, ?_⟩
    · rcases hrecords with hnone | ⟨hsome, _⟩ | ⟨effect, hsome, _, _⟩
      · simp [hnone]
      · simp [hsome]
      · simp [hsome]
    · rintro ⟨j, earlier⟩ hearlier later hlater htimedOut hsame
      obtain ⟨entry, hentry, rfl⟩ := List.mem_map.1 hlater
      cases htimedOut
      cases hsame
      obtain ⟨other, hother, hdone⟩ := hg.reported i hearlier
      rw [hturn] at hother
      cases hother
      rcases hrecords with hnone | ⟨hsome, _⟩ | ⟨effect, _, _, hnot⟩
      · rw [hnone] at hentry
        cases hentry
      · rw [hsome, List.mem_singleton] at hentry
        rw [hentry]
        rfl
      · exact absurd hdone hnot

/-- A turn that the registry calls. -/
theorem Inv.callTurn (hg : g.Inv) {i : Nat} {observes : Bool}
    (hstarted : i ∈ g.registry.started.map Prod.snd)
    (hcalled : ∀ turn, g.turns[i]? = some turn →
      turn.phase = .waiting ∧ i ∈ g.registry.runningOf turn.conversation) :
    (g.callTurn observes i).Inv := by
  unfold Gateway.callTurn
  cases hturn : g.turns[i]? with
  | none => exact hg
  | some turn =>
    obtain ⟨hwaiting, hrunning⟩ := hcalled turn hturn
    have hsound := hg.sound i turn hturn
    have hquiet : turn.execution.inProgress = false := by
      by_contra hprogress
      have hphase := hsound (by simpa using hprogress)
      rw [hwaiting] at hphase
      cases hphase
    have hnot : ¬turn.Reported := by
      rintro ⟨_, hclosing | hover⟩
      · simp [hwaiting] at hclosing
      · simp [hwaiting] at hover
    simp only [Option.elim_some, ChannelTurn.call]
    split
    · rename_i haborted
      refine hg.record hturn rfl ?_ (fun _ => hrunning) (fun _ => hstarted)
        (.inr (.inl ⟨rfl, haborted, .inl rfl⟩)) (fun h => absurd h hnot)
      intro hprogress
      simp [ChannelTurn.reportTimeout, hquiet] at hprogress
    · exact hg.record hturn rfl (fun _ => rfl) (fun _ => hrunning) (fun _ => hstarted) (.inl rfl)
        fun h => absurd h hnot

/-- The registry moves on, and the turn it starts is called. -/
theorem Inv.move (hg : g.Inv) {registry : Registry String Nat} {observes : Bool}
    {added : List (String × Nat)} (hheld : registry.Held) (hflowing : registry.Flowing)
    (hadvances : g.registry.Advances registry added)
    (honce : ∀ i, registry.works.count i ≤ 1) (hknown : ∀ i ∈ registry.works, i < g.turns.length)
    (hadded : ∀ entry ∈ added, ∀ turn, g.turns[entry.2]? = some turn →
      turn.conversation = entry.1 ∧ turn.phase = .waiting) : (g.move registry observes).Inv := by
  obtain ⟨new, hstarted, hnew⟩ := hadvances.started
  have hmoved : ({ g with registry } : Gateway).Inv := by
    refine ⟨hheld, hflowing, honce, hknown, ?_, ?_, ?_, hg.sound, hg.reported, hg.quiet⟩
    · intro i turn hturn hphase
      have hold := hg.begun i turn hturn hphase
      rw [show ({ g with registry } : Gateway).registry.started = g.registry.started ++ new.toList from hstarted,
        List.map_append]
      exact List.mem_append_left _ hold
    · intro slot hslot i hi turn hturn
      rcases hadvances.queue slot hslot i hi with hentry | ⟨old, hold, hkey, hi'⟩
      · exact (hadded _ hentry turn hturn).1
      · exact (hg.queued old hold i hi' turn hturn).trans hkey
    · intro i turn hturn hprogress
      exact hadvances.running _ i (hg.running i turn hturn hprogress)
  have hdrop : registry.started.drop g.registry.started.length = new.toList := by
    rw [hstarted, List.drop_left]
  simp only [Gateway.move, hdrop]
  cases hsome : new with
  | none => exact hmoved
  | some entry =>
    obtain ⟨hrunning, hfrom⟩ := hnew entry hsome
    have hlast : registry.started.map Prod.snd = g.registry.started.map Prod.snd ++ [entry.2] := by
      rw [hstarted, hsome]
      simp
    refine hmoved.callTurn ?_ ?_
    · rw [show ({ g with registry } : Gateway).registry.started.map Prod.snd = _ from hlast]
      simp
    · intro turn hturn
      have hfresh : entry.2 ∉ g.registry.started.map Prod.snd := by
        intro hmem
        have hone := honce entry.2
        rw [Registry.works, hlast, List.count_append, List.count_append] at hone
        have hbefore := List.count_pos_iff.2 hmem
        simp at hone
        omega
      have hwaiting : turn.phase = .waiting := by
        by_contra hphase
        exact hfresh (hg.begun entry.2 turn hturn hphase)
      have hconversation : turn.conversation = entry.1 := by
        rcases hfrom with hentry | ⟨slot, hslot, hkey, hqueue⟩
        · exact (hadded entry hentry turn hturn).1
        · exact (hg.queued slot hslot entry.2 hqueue turn hturn).trans hkey
      exact ⟨hwaiting, hconversation ▸ hrunning⟩

theorem Inv.inbound (hg : g.Inv) {conversation : String} {observes : Bool}
    (h : g.step (.inbound conversation observes) = some g') : g'.Inv := by
  obtain ⟨registry, hsubmit, rfl⟩ := Option.map_eq_some_iff.1 h
  have hfresh : g.turns.length ∉ g.registry.works := by
    intro hmem
    exact absurd (hg.known _ hmem) (Nat.lt_irrefl _)
  have hturns : ∀ (i : Nat) (turn : ChannelTurn), (g.turns ++ [ChannelTurn.new conversation])[i]? = some turn →
      g.turns[i]? = some turn ∨ i = g.turns.length ∧ turn = .new conversation := by
    intro i turn hturn
    by_cases hlt : i < g.turns.length
    · rw [List.getElem?_append_left hlt] at hturn
      exact .inl hturn
    · rw [List.getElem?_append_right (by omega)] at hturn
      have hi := (List.getElem?_eq_some_iff.1 hturn).1
      simp only [List.length_singleton] at hi
      have heq : i = g.turns.length := by omega
      subst heq
      simp only [Nat.sub_self, List.getElem?_cons_zero, Option.some.injEq] at hturn
      exact .inr ⟨rfl, hturn.symm⟩
  have haccepted : ({ g with turns := g.turns ++ [ChannelTurn.new conversation] } : Gateway).Inv := by
    refine ⟨hg.held, hg.flowing, hg.once, ?_, ?_, ?_, ?_, ?_, ?_, hg.quiet⟩
    · intro i hi
      have hold := hg.known i hi
      simp only [List.length_append, List.length_singleton]
      omega
    · intro i turn hturn hphase
      rcases hturns i turn hturn with hold | ⟨_, rfl⟩
      · exact hg.begun i turn hold hphase
      · exact absurd rfl hphase
    · intro slot hslot i hi turn hturn
      rcases hturns i turn hturn with hold | ⟨rfl, _⟩
      · exact hg.queued slot hslot i hi turn hold
      · exact absurd (List.mem_append_right _ (List.mem_flatMap.2 ⟨slot, hslot, hi⟩)) hfresh
    · intro i turn hturn hprogress
      rcases hturns i turn hturn with hold | ⟨_, rfl⟩
      · exact hg.running i turn hold hprogress
      · cases hprogress
    · intro i turn hturn
      rcases hturns i turn hturn with hold | ⟨_, rfl⟩
      · exact hg.sound i turn hold
      · exact ChannelTurn.sound_new conversation
    · intro i hi
      obtain ⟨turn, hturn, hdone⟩ := hg.reported i hi
      have hlt := (List.getElem?_eq_some_iff.1 hturn).1
      exact ⟨turn, by rw [List.getElem?_append_left hlt, hturn], hdone⟩
  obtain ⟨hheld, hadvances⟩ := hg.held.submit hsubmit
  have hworks : registry.Flowing ∧ ∀ i, registry.works.count i ≤ g.registry.works.count i +
      [g.turns.length].count i := by
    cases hopen : g.registry.accepting with
    | true =>
      obtain ⟨hflowing, hcount⟩ := Registry.submit_works hg.flowing hopen hsubmit
      exact ⟨hflowing, fun i => Nat.le_of_eq (hcount i)⟩
    | false =>
      simp only [Registry.submit, hopen, Bool.not_false, if_true, Option.some.injEq] at hsubmit
      subst hsubmit
      exact ⟨hg.flowing, fun i => Nat.le_add_right _ _⟩
  have honly : ∀ i ∈ registry.works, i ∈ g.registry.works ∨ i = g.turns.length := by
    intro i hi
    have hcount := hworks.2 i
    have hpos := List.count_pos_iff.2 hi
    by_cases heq : i = g.turns.length
    · exact .inr heq
    · rw [List.count_singleton, if_neg (by simpa using Ne.symm heq)] at hcount
      exact .inl (List.count_pos_iff.1 (by omega))
  refine haccepted.move hheld hworks.1 hadvances ?_ ?_ ?_
  · intro i
    have hcount := hworks.2 i
    have hone := hg.once i
    by_cases heq : i = g.turns.length
    · subst heq
      rw [List.count_eq_zero.2 hfresh, List.count_singleton_self] at hcount
      omega
    · rw [List.count_singleton, if_neg (by simpa using Ne.symm heq)] at hcount
      omega
  · intro i hi
    simp only [List.length_append, List.length_singleton]
    rcases honly i hi with hold | rfl
    · have hlt := hg.known i hold
      omega
    · omega
  · intro entry hentry turn hturn
    rw [List.mem_singleton.1 hentry] at hturn ⊢
    simp only [List.getElem?_append_right (Nat.le_refl _), Nat.sub_self, List.getElem?_cons_zero,
      Option.some.injEq] at hturn
    subst hturn
    exact ⟨rfl, rfl⟩

theorem Inv.proceed (hg : g.Inv) {i : Nat} {observes : Bool}
    (h : g.step (.proceed i observes) = some g') : g'.Inv := by
  obtain ⟨registry, hproceed, rfl⟩ := Option.map_eq_some_iff.1 h
  obtain ⟨hheld, hadvances⟩ := hg.held.proceed hproceed
  obtain ⟨hflowing, hcount⟩ := Registry.inner_step rfl hg.flowing hproceed
  have hsame : ∀ j, registry.works.count j = g.registry.works.count j := by
    intro j
    simpa using hcount j
  refine hg.move hheld hflowing hadvances ?_ ?_ (fun entry hentry => by cases hentry)
  · intro j
    rw [hsame]
    exact hg.once j
  · intro j hj
    have hpos := List.count_pos_iff.2 hj
    rw [hsame] at hpos
    exact hg.known j (List.count_pos_iff.1 hpos)

/-- The registry goes on without calling a turn. -/
theorem Inv.registry (hg : g.Inv) {registry : Registry String Nat} (hheld : registry.Held)
    (hflowing : registry.Flowing) (hstarted : registry.started = g.registry.started)
    (hcount : ∀ i, registry.works.count i = g.registry.works.count i)
    (hqueue : ∀ slot' ∈ registry.objects, ∀ i ∈ slot'.queue,
      ∃ slot ∈ g.registry.objects, slot.key = slot'.key ∧ i ∈ slot.queue)
    (hrunning : ∀ (i : Nat) (turn : ChannelTurn), g.turns[i]? = some turn →
      turn.execution.inProgress = true → i ∈ registry.runningOf turn.conversation) :
    ({ g with registry } : Gateway).Inv := by
  refine ⟨hheld, hflowing, ?_, ?_, ?_, ?_, hrunning, hg.sound, hg.reported, hg.quiet⟩
  · intro i
    have hone := hg.once i
    rwa [← hcount] at hone
  · intro i hi
    have hpos := List.count_pos_iff.2 hi
    rw [hcount] at hpos
    exact hg.known i (List.count_pos_iff.1 hpos)
  · intro i turn hturn hphase
    have hold := hg.begun i turn hturn hphase
    rwa [← hstarted] at hold
  · intro slot' hslot' i hi turn hturn
    obtain ⟨slot, hslot, hkey, hold⟩ := hqueue slot' hslot' i hi
    exact (hg.queued slot hslot i hold turn hturn).trans hkey

/-- The promise of a turn settles. -/
theorem Inv.settle (hg : g.Inv) {i n : Nat} (h : g.step (.settle i n) = some g') : g'.Inv := by
  obtain ⟨slot, hslot, h⟩ := Option.bind_eq_some_iff.1 h
  obtain ⟨running, hrunning, h⟩ := Option.bind_eq_some_iff.1 h
  obtain ⟨turn, hturn, h⟩ := Option.bind_eq_some_iff.1 h
  obtain ⟨turn', hsettle, h⟩ := Option.bind_eq_some_iff.1 h
  obtain ⟨registry, hregistry, rfl⟩ := Option.map_eq_some_iff.1 h
  unfold ChannelTurn.settle at hsettle
  split at hsettle
  · rename_i result hphase
    obtain rfl := Option.some.inj hsettle
    have hsound := hg.sound _ turn hturn
    have hquiet : turn.execution.inProgress = false := by
      by_contra hprogress
      have horchestrating := hsound (by simpa using hprogress)
      rw [hphase] at horchestrating
      cases horchestrating
    have hturned : (g.record running.work ({ turn with phase := .ended result }, [])).Inv := by
      refine hg.record hturn rfl ?_ ?_ ?_ (.inl rfl) ?_
      · intro hprogress
        simp [hquiet] at hprogress
      · intro hprogress
        simp [hquiet] at hprogress
      · intro _
        exact hg.begun _ turn hturn (by simp [hphase])
      · rintro ⟨haborted, hclosing | hover⟩
        · rw [hphase] at hclosing
          obtain rfl := TurnPhase.closing.inj hclosing
          exact ⟨haborted, .inr rfl⟩
        · simp [hphase] at hover
    obtain ⟨hheld, hstarted, hothers, hqueue⟩ := hg.held.settle hslot hrunning hregistry
    obtain ⟨hflowing, hcount⟩ := Registry.inner_step rfl hg.flowing hregistry
    have hcount' : ∀ j, registry.works.count j = g.registry.works.count j := by
      intro j
      simpa using hcount j
    have hsettled := hturned.registry hheld hflowing hstarted hcount' hqueue ?_
    · simpa [Gateway.record] using hsettled
    · intro j other hother hprogress
      have hne : j ≠ running.work := by
        rintro rfl
        have hlt := (List.getElem?_eq_some_iff.1 hturn).1
        simp only [Gateway.record, List.getElem?_set_self hlt, Option.some.injEq] at hother
        simp [← hother, hquiet] at hprogress
      exact hothers _ j (hturned.running j other hother hprogress) hne
  · cases hsettle

theorem Inv.close (hg : g.Inv) (h : g.step .close = some g') : g'.Inv := by
  simp only [Gateway.step, Registry.step, Option.map_some, Option.some.injEq] at h
  subst h
  exact hg.registry ⟨hg.held.shape, hg.held.known⟩ hg.flowing rfl (fun _ => rfl)
    (fun slot hslot i hi => ⟨slot, hslot, rfl, hi⟩) hg.running

theorem Inv.drainCheck (hg : g.Inv) (h : g.step .drainCheck = some g') : g'.Inv := by
  simp only [Gateway.step, Registry.step, Option.map_some, Option.some.injEq] at h
  subst h
  split_ifs
  · exact hg
  · exact hg.registry ⟨hg.held.shape, hg.held.known⟩ hg.flowing rfl (fun _ => rfl)
      (fun slot hslot i hi => ⟨slot, hslot, rfl, hi⟩) hg.running

/-- The deadline of a turn strikes only while nothing of its orchestrator's run is in progress, or
where the run observes the signal and ends with it. -/
def Observed (g : Gateway) : GatewayEvent → Prop
  | .turn i .deadline => ∀ turn, g.turns[i]? = some turn → turn.execution ≠ .running false
  | _ => True

theorem Inv.turn (hg : g.Inv) {i : Nat} {event : TurnEvent} (hobserved : g.Observed (.turn i event))
    (h : g.step (.turn i event) = some g') : g'.Inv := by
  obtain ⟨turn, hturn, h⟩ := Option.bind_eq_some_iff.1 h
  obtain ⟨progress, hprogress, rfl⟩ := Option.map_eq_some_iff.1 h
  have hobserves : event = .deadline → turn.execution ≠ .running false := by
    rintro rfl
    exact hobserved turn hturn
  have hsteps := ChannelTurn.steps_step (hg.sound i turn hturn) hobserves hprogress
  refine hg.record hturn hsteps.conversation hsteps.sound ?_ ?_ hsteps.records hsteps.reported
  · intro hrunning
    exact hg.running i turn hturn (hsteps.inProgress hrunning)
  · intro hphase
    exact hg.begun i turn hturn fun hwaiting => hphase (hsteps.waiting hwaiting)

theorem Inv.step (hg : g.Inv) {event : GatewayEvent} (hobserved : g.Observed event)
    (h : g.step event = some g') : g'.Inv := by
  cases event with
  | inbound conversation observes => exact hg.inbound h
  | proceed i observes => exact hg.proceed h
  | settle i n => exact hg.settle h
  | close => exact hg.close h
  | drainCheck => exact hg.drainCheck h
  | turn i event => exact hg.turn hobserved h

theorem inv_empty : Gateway.empty.Inv := by
  have hheld : (Registry.empty : Registry String Nat).Held := Registry.ordered_empty.held
  refine ⟨hheld, ?_, ?_, ?_, ?_, ?_, ?_, ?_, ?_, ?_⟩ <;>
    simp [Gateway.empty, Registry.empty, Registry.Flowing, Registry.works, QuietAfterTimeout]

/-! ## Runs -/

/-- The runs whose deadlines are all observed. -/
def ObservedRun : Gateway → Gateway → Prop :=
  Relation.ReflTransGen fun g g' => ∃ event, g.Observed event ∧ g.step event = some g'

theorem ObservedRun.inv (hg : g.Inv) (h : ObservedRun g g') : g'.Inv := by
  induction h with
  | refl => exact hg
  | tail _ hstep ih =>
    obtain ⟨event, hobserved, h⟩ := hstep
    exact ih.step hobserved h

end Gateway

/-! ## Two messages of one conversation -/

namespace TestGateway

open Gateway

/-- The condition as a test on one event. -/
def observesDeadline (g : Gateway) : GatewayEvent → Bool
  | .turn i .deadline => (g.turns[i]?).all fun turn => turn.execution != .running false
  | _ => true

theorem observed_of_observesDeadline {g : Gateway} {event : GatewayEvent}
    (h : observesDeadline g event = true) : g.Observed event := by
  unfold Observed
  split
  · intro turn hturn
    simpa [observesDeadline, hturn] using h
  · trivial

/-- Play the events whose deadlines are observed. -/
def playObserved : List GatewayEvent → Gateway → Option Gateway
  | [], g => some g
  | event :: events, g =>
    if observesDeadline g event then (g.step event).bind (playObserved events) else none

theorem observedRun_of_play {events : List GatewayEvent} {g g' : Gateway}
    (h : playObserved events g = some g') : ObservedRun g g' := by
  induction events generalizing g with
  | nil =>
    cases h
    exact .refl
  | cons event events ih =>
    simp only [playObserved] at h
    split_ifs at h with hobserves
    obtain ⟨next, hstep, hrest⟩ := Option.bind_eq_some_iff.1 h
    exact .head ⟨event, observed_of_observesDeadline hobserves, hstep⟩ (ih hrest)

/-- The deadline of the first turn strikes while the run waits for the model; the second turn starts
after the report and changes the chart, and its own deadline strikes before it delivers. -/
def observedEvents : List GatewayEvent :=
  [.inbound "conversation-1" true, .inbound "conversation-1" true, .turn 0 .deadline,
    .turn 0 (.resume false), .settle 0 0, .proceed 0 true, .proceed 0 true,
    .turn 1 (.execute true true false), .turn 1 (.finish true), .turn 1 (.resume false),
    .turn 1 .deadline, .turn 1 (.resume false)]

/-- The deadline of the first turn strikes while its run waits for the database: the turn is
reported as failed, the second turn's run starts beside the first one's, and the first one's
change happens after the report. -/
def abandonedEvents : List GatewayEvent :=
  [.inbound "conversation-1" false, .inbound "conversation-1" true, .turn 0 .deadline,
    .turn 0 (.resume false), .settle 0 0, .proceed 0 true, .proceed 0 true,
    .turn 0 (.execute false true false)]

end TestGateway

end PlusOne
