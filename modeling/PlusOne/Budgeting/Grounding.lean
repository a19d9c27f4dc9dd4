import PlusOne.Budgeting.Request
import PlusOne.Relational.Computed

/-! # Budget facts are grounded

Where the facts of a prepared request come from, slot by slot. -/

namespace PlusOne

/-- The quote occurs in the message at its offsets, or as a non-empty piece of the instruction up
to letter case, punctuation and the suffix for thousands. -/
def Occurs (E : EvidenceEngine) (message : InboundMessage) (instruction : String) (span : BudgetingEvidenceSpan) : Prop :=
  spanIsGrounded message span = true ∨
    (normalizedEvidenceText E span.sourceQuote ≠ "" ∧ spanIsContainedInInstruction E instruction span = true)

/-- Evidence of the request that occurs covers the slot. -/
def Covered (E : EvidenceEngine) (message : InboundMessage) (request : BudgetingDelegateRequest)
    (slot : BudgetSlot) : Prop :=
  ∃ span ∈ request.known.evidence.getD [],
    evidencePathCovers slot.path span.path = true ∧ Occurs E message request.instruction span

/-- What a compatible continuation has retained. -/
def retainedKnown (request : BudgetingDelegateRequest) (continuation : Option BudgetingContinuation) :
    BudgetingKnownInputs :=
  match continuation.filter fun continuation => budgetingContinuationIsCompatible continuation request with
  | none => noBudgetFacts
  | some continuation => continuation.known

/-- Every fact of the result is retained or covered, and every fact retained is there or has given
way to a covered one. -/
structure FactsGrounded (E : EvidenceEngine) (message : InboundMessage) (request : BudgetingDelegateRequest)
    (retained result : BudgetingKnownInputs) : Prop where
  grounded : ∀ slot fact, result.fact? slot = some fact →
    retained.fact? slot = some fact ∨ Covered E message request slot
  kept : ∀ slot fact, retained.fact? slot = some fact →
    ∃ fact', result.fact? slot = some fact' ∧ (fact' = fact ∨ Covered E message request slot)

/-! ## Slots and paths -/

namespace BudgetFact

/-- Against what is retained in its slot, the fact is nothing new. -/
def unchanged (fact : BudgetFact) (previous : Option BudgetFact) : Bool :=
  match fact, previous with
  | category next, some (category previous) => categoryEqual next (some previous)
  | fact, previous => previous == some fact

/-- What stands in the slot after the merge. -/
def mergedOver (fact previous : BudgetFact) : BudgetFact :=
  match fact, previous with
  | category next, category previous => category (mergeCategory previous next)
  | fact, _ => fact

theorem over_of_unchanged {fact previous : BudgetFact} (h : fact.unchanged (some previous) = true) :
    fact.mergedOver previous = previous := by
  cases fact with
  | category next =>
    cases previous with
    | category previous =>
      simp only [unchanged, categoryEqual, moneyEqual, Bool.and_eq_true, Bool.or_eq_true, beq_iff_eq] at h
      obtain ⟨hname, hamount⟩ := h
      obtain ⟨name, amount⟩ := next
      cases amount with
      | none => simp_all [mergedOver, mergeCategory]
      | some amount => simp_all [mergedOver, mergeCategory]
    | _ => simp [unchanged] at h
  | _ =>
    simp only [unchanged, beq_iff_eq, Option.some.injEq] at h
    exact h.symm ▸ rfl

theorem over_ne_of_changed {fact previous : BudgetFact} (h : fact.unchanged (some previous) = false) :
    fact.mergedOver previous ≠ previous := by
  cases fact with
  | category next =>
    cases previous with
    | category previous =>
      intro heq
      obtain ⟨name, amount⟩ := next
      obtain ⟨name', amount'⟩ := previous
      cases amount with
      | none => simp_all [unchanged, categoryEqual, mergedOver, mergeCategory]
      | some amount => simp_all [unchanged, categoryEqual, moneyEqual, mergedOver, mergeCategory]
    | _ => simp [mergedOver]
  | _ =>
    intro heq
    simp only [unchanged, beq_eq_false_iff_ne, ne_eq, Option.some.injEq] at h
    exact h heq.symm

end BudgetFact

variable {α : Type}

theorem mem_mapIdx_path {values : List α} {path : Nat → String} {text : String} :
    text ∈ values.mapIdx (fun index _ => path index) ↔ ∃ index, (values[index]?).isSome = true ∧ text = path index := by
  rw [List.mem_iff_getElem?]
  constructor
  · rintro ⟨index, hindex⟩
    rw [List.getElem?_mapIdx] at hindex
    obtain ⟨value, hvalue, rfl⟩ := Option.map_eq_some_iff.1 hindex
    exact ⟨index, by simp [hvalue], rfl⟩
  · rintro ⟨index, hindex, htext⟩
    obtain ⟨value, hvalue⟩ := Option.isSome_iff_exists.1 hindex
    exact ⟨index, by simp [List.getElem?_mapIdx, hvalue, htext]⟩

variable {known : BudgetingKnownInputs}

/-- The required paths are those of the slots that hold a fact. -/
theorem mem_requiredBudgetEvidencePaths {path : String} :
    path ∈ requiredBudgetEvidencePaths known ↔ ∃ slot, (known.fact? slot).isSome = true ∧ path = slot.path := by
  obtain ⟨priorities, timeframe, targetAmount, categories, evidence⟩ := known
  simp only [requiredBudgetEvidencePaths, List.mem_append, mem_mapIdx_path]
  constructor
  · intro h
    rcases h with ((⟨index, hindex, rfl⟩ | h) | h) | ⟨index, hindex, rfl⟩
    · exact ⟨.priority index, by simpa [BudgetingKnownInputs.fact?] using hindex, rfl⟩
    · cases timeframe with
      | none => simp at h
      | some timeframe =>
        rcases List.mem_cons.1 h with rfl | h
        · exact ⟨.timeframeStart, rfl, rfl⟩
        · obtain ⟨start, stop⟩ := timeframe
          cases stop with
          | none => simp at h
          | some stop => exact ⟨.timeframeEnd, rfl, by simpa using h⟩
    · cases targetAmount with
      | none => simp at h
      | some amount => exact ⟨.targetAmount, rfl, by simpa using h⟩
    · exact ⟨.category index, by simpa [BudgetingKnownInputs.fact?] using hindex, rfl⟩
  · rintro ⟨slot, hslot, hpath⟩
    cases slot with
    | priority index => exact .inl (.inl (.inl ⟨index, by simpa [BudgetingKnownInputs.fact?] using hslot, hpath⟩))
    | timeframeStart =>
      cases timeframe with
      | none => simp [BudgetingKnownInputs.fact?] at hslot
      | some timeframe => exact .inl (.inl (.inr (by simp [hpath])))
    | timeframeEnd =>
      cases timeframe with
      | none => simp [BudgetingKnownInputs.fact?] at hslot
      | some timeframe =>
        obtain ⟨start, stop⟩ := timeframe
        cases stop with
        | none => simp [BudgetingKnownInputs.fact?] at hslot
        | some stop => exact .inl (.inl (.inr (by simp [hpath])))
    | targetAmount =>
      cases targetAmount with
      | none => simp [BudgetingKnownInputs.fact?] at hslot
      | some amount => exact .inl (.inr (by simp [hpath]))
    | category index => exact .inr ⟨index, by simpa [BudgetingKnownInputs.fact?] using hslot, hpath⟩

theorem mem_changedIndexes {path : Nat → String} {equal : α → Option α → Bool} {current retained : Option (List α)}
    {text : String} (hnone : ∀ value, equal value none = false) :
    text ∈ changedIndexes path equal current retained ↔ ∃ index value,
      (current.getD [])[index]? = some value ∧ equal value (retained.getD [])[index]? = false ∧ text = path index := by
  cases current with
  | none => simp [changedIndexes]
  | some current =>
    cases retained with
    | none =>
      simp only [changedIndexes, mem_mapIdx_path, Option.getD_some, Option.getD_none, List.getElem?_nil]
      constructor
      · rintro ⟨index, hindex, htext⟩
        obtain ⟨value, hvalue⟩ := Option.isSome_iff_exists.1 hindex
        exact ⟨index, value, hvalue, hnone value, htext⟩
      · rintro ⟨index, value, hvalue, _, htext⟩
        exact ⟨index, by simp [hvalue], htext⟩
    | some retained =>
      simp only [changedIndexes, List.mem_flatten, Option.getD_some]
      constructor
      · rintro ⟨texts, htexts, hmem⟩
        obtain ⟨index, hindex⟩ := List.mem_iff_getElem?.1 htexts
        rw [List.getElem?_mapIdx] at hindex
        obtain ⟨value, hvalue, rfl⟩ := Option.map_eq_some_iff.1 hindex
        cases hequal : equal value retained[index]? with
        | true => simp [hequal] at hmem
        | false => exact ⟨index, value, hvalue, hequal, by simpa [hequal] using hmem⟩
      · rintro ⟨index, value, hvalue, hequal, htext⟩
        refine ⟨[path index], List.mem_iff_getElem?.2 ⟨index, ?_⟩, by simp [htext]⟩
        simp [List.getElem?_mapIdx, hvalue, hequal]

theorem unchanged_category (next : BudgetCategory) (previous : Option BudgetCategory) :
    BudgetFact.unchanged (.category next) (previous.map .category) = categoryEqual next previous := by
  cases previous <;> rfl

theorem unchanged_map [BEq α] [LawfulBEq α] {make : α → BudgetFact} (hmake : Function.Injective make)
    (hkind : ∀ value category, make value ≠ .category category) (value : α) (previous : Option α) :
    BudgetFact.unchanged (make value) (previous.map make) = (previous == some value) := by
  have hunfold : BudgetFact.unchanged (make value) (previous.map make) = (previous.map make == some (make value)) := by
    unfold BudgetFact.unchanged
    split
    · rename_i heq _
      exact absurd heq (hkind value _)
    · rfl
  rw [hunfold, Bool.eq_iff_iff]
  cases previous with
  | none => simp
  | some previous => simp [hmake.eq_iff]

theorem unchanged_text (value : String) (previous : Option String) :
    BudgetFact.unchanged (.text value) (previous.map .text) = (previous == some value) :=
  unchanged_map (fun _ _ h => BudgetFact.text.inj h) (fun _ _ h => by cases h) value previous

theorem unchanged_date (value : LocalDate) (previous : Option LocalDate) :
    BudgetFact.unchanged (.date value) (previous.map .date) = (previous == some value) :=
  unchanged_map (fun _ _ h => BudgetFact.date.inj h) (fun _ _ h => by cases h) value previous

theorem unchanged_money (value : Money) (previous : Option Money) :
    BudgetFact.unchanged (.money value) (previous.map .money) = (previous == some value) :=
  unchanged_map (fun _ _ h => BudgetFact.money.inj h) (fun _ _ h => by cases h) value previous

/-- The fact in the slot is new against what is retained there. -/
def IsNew (current retained : BudgetingKnownInputs) (slot : BudgetSlot) : Prop :=
  ∃ fact, current.fact? slot = some fact ∧ fact.unchanged (retained.fact? slot) = false

section

variable {current retained : BudgetingKnownInputs} {index : Nat}

theorem isNew_priority : IsNew current retained (.priority index) ↔ ∃ value,
    (current.priorities.getD [])[index]? = some value ∧
      ((retained.priorities.getD [])[index]? == some value) = false := by
  simp [IsNew, BudgetingKnownInputs.fact?, unchanged_text]

theorem isNew_timeframeStart : IsNew current retained .timeframeStart ↔ ∃ timeframe,
    current.timeframe = some timeframe ∧ retained.timeframe.map BudgetTimeframe.start ≠ some timeframe.start := by
  have hmap : (retained.timeframe.map fun timeframe => BudgetFact.date timeframe.start) =
      (retained.timeframe.map BudgetTimeframe.start).map .date := by
    rw [Option.map_map]
    rfl
  simp [IsNew, BudgetingKnownInputs.fact?, hmap, unchanged_date, -Option.map_map]

theorem isNew_timeframeEnd : IsNew current retained .timeframeEnd ↔ ∃ stop,
    current.timeframe.bind BudgetTimeframe.stop = some stop ∧
      retained.timeframe.bind BudgetTimeframe.stop ≠ some stop := by
  simp [IsNew, BudgetingKnownInputs.fact?, unchanged_date, -Option.map_bind]

theorem isNew_targetAmount : IsNew current retained .targetAmount ↔ ∃ amount,
    current.targetAmount = some amount ∧ retained.targetAmount ≠ some amount := by
  simp [IsNew, BudgetingKnownInputs.fact?, unchanged_money]

theorem isNew_category : IsNew current retained (.category index) ↔ ∃ value,
    (current.categories.getD [])[index]? = some value ∧
      categoryEqual value (retained.categories.getD [])[index]? = false := by
  simp [IsNew, BudgetingKnownInputs.fact?, unchanged_category]

end

/-- The changed paths are those of the slots whose fact is new. -/
theorem mem_changedBudgetFactPaths {current retained : BudgetingKnownInputs} {path : String} :
    path ∈ changedBudgetFactPaths current retained ↔ ∃ slot, IsNew current retained slot ∧ path = slot.path := by
  simp only [changedBudgetFactPaths, List.mem_append]
  rw [mem_changedIndexes (by simp), mem_changedIndexes (by simp [categoryEqual])]
  constructor
  · intro h
    rcases h with ((⟨index, value, hvalue, hequal, rfl⟩ | h) | h) | ⟨index, value, hvalue, hequal, rfl⟩
    · exact ⟨.priority index, isNew_priority.2 ⟨value, hvalue, hequal⟩, rfl⟩
    · cases htimeframe : current.timeframe with
      | none => simp [changedTimeframe, htimeframe] at h
      | some timeframe =>
        simp only [changedTimeframe, htimeframe, List.mem_append] at h
        rcases h with h | h
        · split at h
          · rename_i hstart
            exact ⟨.timeframeStart, isNew_timeframeStart.2 ⟨timeframe, htimeframe, hstart⟩, by simpa using h⟩
          · simp at h
        · split at h
          · rename_i hstop
            obtain ⟨stop, hsome⟩ := Option.isSome_iff_exists.1 hstop.1
            refine ⟨.timeframeEnd, isNew_timeframeEnd.2 ⟨stop, by simp [htimeframe, hsome], ?_⟩, by simpa using h⟩
            exact hsome ▸ hstop.2
          · simp at h
    · split at h
      · rename_i hamount
        cases htarget : current.targetAmount with
        | none => simp [htarget] at hamount
        | some amount =>
          refine ⟨.targetAmount, isNew_targetAmount.2 ⟨amount, htarget, ?_⟩, by simpa using h⟩
          intro heq
          simp [htarget, heq, moneyEqual] at hamount
      · simp at h
    · exact ⟨.category index, isNew_category.2 ⟨value, hvalue, hequal⟩, rfl⟩
  · rintro ⟨slot, hnew, hpath⟩
    cases slot with
    | priority index =>
      obtain ⟨value, hvalue, hequal⟩ := isNew_priority.1 hnew
      exact .inl (.inl (.inl ⟨index, value, hvalue, hequal, hpath⟩))
    | timeframeStart =>
      obtain ⟨timeframe, htimeframe, hstart⟩ := isNew_timeframeStart.1 hnew
      exact .inl (.inl (.inr (by simp [changedTimeframe, htimeframe, hstart, hpath])))
    | timeframeEnd =>
      obtain ⟨stop, hstop, hne⟩ := isNew_timeframeEnd.1 hnew
      obtain ⟨timeframe, htimeframe, hsome⟩ := Option.bind_eq_some_iff.1 hstop
      exact .inl (.inl (.inr (by simp [changedTimeframe, htimeframe, hsome, hne, hpath])))
    | targetAmount =>
      obtain ⟨amount, hamount, hne⟩ := isNew_targetAmount.1 hnew
      exact .inl (.inr (by simp [hamount, moneyEqual, Ne.symm hne, hpath]))
    | category index =>
      obtain ⟨value, hvalue, hequal⟩ := isNew_category.1 hnew
      exact .inr ⟨index, value, hvalue, hequal, hpath⟩

/-! ## The merge -/

variable {f : Nat → Option α}

theorem length_filterMap_range {n : Nat} (h : ∀ i < n, (f i).isSome = true) :
    ((List.range n).filterMap f).length = n := by
  have hsome : ∀ i ∈ List.range n, (f i).isSome = true := fun i hi => h i (List.mem_range.1 hi)
  rw [List.length_filterMap_eq_countP, List.countP_eq_length.2 hsome, List.length_range]

theorem getElem?_filterMap_range {n : Nat} (h : ∀ i < n, (f i).isSome = true) (index : Nat) :
    ((List.range n).filterMap f)[index]? = if index < n then f index else none := by
  induction n with
  | zero => simp
  | succ n ih =>
    have hlength : ((List.range n).filterMap f).length = n :=
      length_filterMap_range fun i hi => h i (Nat.lt_succ_of_lt hi)
    obtain ⟨value, hvalue⟩ := Option.isSome_iff_exists.1 (h n (Nat.lt_succ_self n))
    have hrange : (List.range (n + 1)).filterMap f = (List.range n).filterMap f ++ [value] := by
      rw [List.range_succ, List.filterMap_append]
      simp [hvalue]
    rw [hrange, List.getElem?_append, hlength]
    have hprefix := ih fun i hi => h i (Nat.lt_succ_of_lt hi)
    by_cases hlt : index < n
    · rw [if_pos hlt, hprefix, if_pos hlt, if_pos (Nat.lt_succ_of_lt hlt)]
    · rw [if_neg hlt]
      by_cases heq : index = n
      · subst heq
        simp [hvalue]
      · have hge : ¬index < n + 1 := by omega
        have hsub : index - n ≠ 0 := by omega
        simp [hge, hsub]

theorem isSome_or_getElem? {retained current : List α} {i : Nat} (h : i < max retained.length current.length) :
    (current[i]?.or retained[i]?).isSome = true := by
  rcases Nat.lt_or_ge i current.length with hlt | hge
  · simp [List.getElem?_eq_getElem hlt]
  · have hlt : i < retained.length := by omega
    simp [List.getElem?_eq_getElem hlt]

theorem getElem?_mergeIndexedValues (retained current : Option (List α)) (index : Nat) :
    ((mergeIndexedValues retained current).getD [])[index]? =
      ((current.getD [])[index]?).or (retained.getD [])[index]? := by
  unfold mergeIndexedValues
  split
  · rename_i hnone
    simp_all
  · rw [Option.getD_some, getElem?_filterMap_range]
    · split
      · rfl
      · rename_i hge
        rw [List.getElem?_eq_none (by omega), List.getElem?_eq_none (by omega)]
        rfl
    · exact fun i hi => isSome_or_getElem? hi

theorem getElem?_mergeCategories (retained current : Option (List BudgetCategory)) (index : Nat) :
    ((mergeCategories retained current).getD [])[index]? =
      match (retained.getD [])[index]?, (current.getD [])[index]? with
      | none, next => next
      | previous, none => previous
      | some previous, some next => some (mergeCategory previous next) := by
  unfold mergeCategories
  split
  · simp
  · cases hprevious : (retained.getD [])[index]? <;> simp_all
  · rename_i retained current
    simp only [Option.getD_some]
    rw [getElem?_filterMap_range]
    · split
      · rfl
      · rename_i hge
        rw [List.getElem?_eq_none (by omega), List.getElem?_eq_none (by omega)]
    · intro i hi
      rcases Nat.lt_or_ge i retained.length with hlt | hge
      · rw [List.getElem?_eq_getElem hlt]
        cases current[i]? <;> rfl
      · rw [List.getElem?_eq_none hge, List.getElem?_eq_getElem (by omega)]
        rfl

/-- What stands in a slot after the merge. -/
theorem fact?_mergedBudgetFacts (retained current : BudgetingKnownInputs) (slot : BudgetSlot) :
    (mergedBudgetFacts retained current).fact? slot =
      match current.fact? slot, retained.fact? slot with
      | none, previous => previous
      | some fact, none => some fact
      | some fact, some previous => some (fact.mergedOver previous) := by
  cases slot with
  | priority index =>
    simp only [BudgetingKnownInputs.fact?, mergedBudgetFacts, getElem?_mergeIndexedValues]
    cases (current.priorities.getD [])[index]? with
    | none => rfl
    | some value => cases (retained.priorities.getD [])[index]? <;> rfl
  | timeframeStart =>
    obtain ⟨_, timeframe, _, _, _⟩ := current
    obtain ⟨_, timeframe', _, _, _⟩ := retained
    cases timeframe <;> cases timeframe' <;> rfl
  | timeframeEnd =>
    obtain ⟨_, timeframe, _, _, _⟩ := current
    obtain ⟨_, timeframe', _, _, _⟩ := retained
    cases timeframe with
    | none => rfl
    | some timeframe =>
      obtain ⟨start, stop⟩ := timeframe
      cases timeframe' with
      | none => cases stop <;> rfl
      | some timeframe' =>
        obtain ⟨start', stop'⟩ := timeframe'
        cases stop <;> cases stop' <;> rfl
  | targetAmount =>
    obtain ⟨_, _, amount, _, _⟩ := current
    obtain ⟨_, _, amount', _, _⟩ := retained
    cases amount <;> cases amount' <;> rfl
  | category index =>
    simp only [BudgetingKnownInputs.fact?, mergedBudgetFacts, getElem?_mergeCategories]
    cases (current.categories.getD [])[index]? with
    | none => cases (retained.categories.getD [])[index]? <;> rfl
    | some value => cases (retained.categories.getD [])[index]? <;> rfl

variable {retained current : BudgetingKnownInputs} {slot : BudgetSlot}

/-- A fact of the merge is retained or stands in a slot whose fact is new. -/
theorem retained_or_isNew {fact : BudgetFact} (h : (mergedBudgetFacts retained current).fact? slot = some fact) :
    retained.fact? slot = some fact ∨ IsNew current retained slot := by
  rw [fact?_mergedBudgetFacts] at h
  cases hcurrent : current.fact? slot with
  | none => exact .inl (by simpa [hcurrent] using h)
  | some next =>
    cases hretained : retained.fact? slot with
    | none => exact .inr ⟨next, hcurrent, by simp [hretained, BudgetFact.unchanged]⟩
    | some previous =>
      simp only [hcurrent, hretained, Option.some.injEq] at h
      cases hunchanged : next.unchanged (some previous) with
      | true => exact .inl (by rw [← h, BudgetFact.over_of_unchanged hunchanged])
      | false => exact .inr ⟨next, hcurrent, by rw [hretained, hunchanged]⟩

theorem exists_fact?_of_isNew (h : IsNew current retained slot) :
    ∃ fact, (mergedBudgetFacts retained current).fact? slot = some fact ∧ retained.fact? slot ≠ some fact := by
  obtain ⟨next, hcurrent, hchanged⟩ := h
  rw [fact?_mergedBudgetFacts, hcurrent]
  cases hretained : retained.fact? slot with
  | none => exact ⟨next, rfl, by simp⟩
  | some previous =>
    rw [hretained] at hchanged
    refine ⟨next.mergedOver previous, rfl, ?_⟩
    intro heq
    exact BudgetFact.over_ne_of_changed hchanged (Option.some.inj heq).symm

theorem exists_fact?_of_retained {retained : BudgetingKnownInputs} (current : BudgetingKnownInputs)
    {fact : BudgetFact} (h : retained.fact? slot = some fact) :
    ∃ fact', (mergedBudgetFacts retained current).fact? slot = some fact' := by
  rw [fact?_mergedBudgetFacts, h]
  cases current.fact? slot with
  | none => exact ⟨fact, rfl⟩
  | some next => exact ⟨next.mergedOver fact, rfl⟩

/-! ## The merge is valid -/

/-- An optional list of the schema. -/
def listValid {α : Type} (hi : Nat) (check : α → Bool) (values : Option (List α)) : Bool :=
  values.all fun values => isCountBetween 1 hi values && values.all check

variable {check : α → Bool} {hi : Nat}

theorem listValid_some {values : List α} :
    listValid hi check (some values) = true ↔
      (1 ≤ values.length ∧ values.length ≤ hi) ∧ ∀ value ∈ values, check value = true := by
  simp [listValid, isCountBetween]

theorem getD_of_listValid {values : Option (List α)} (h : listValid hi check values = true) :
    (values.getD []).length ≤ hi ∧ ∀ value ∈ values.getD [], check value = true := by
  cases values with
  | none => simp
  | some values =>
    rw [listValid_some] at h
    exact ⟨h.1.2, h.2⟩

theorem one_le_of_listValid {values : Option (List α)} (h : listValid hi check values = true)
    (hsome : values.isSome = true) : 1 ≤ (values.getD []).length := by
  obtain ⟨values, rfl⟩ := Option.isSome_iff_exists.1 hsome
  exact (listValid_some.1 h).1.1

theorem listValid_filterMap_range {hi n : Nat} (hsome : ∀ i < n, (f i).isSome = true) (hone : 1 ≤ n) (hhi : n ≤ hi)
    (hcheck : ∀ i value, f i = some value → check value = true) :
    listValid hi check (some ((List.range n).filterMap f)) = true := by
  rw [listValid_some, length_filterMap_range hsome]
  refine ⟨⟨hone, hhi⟩, ?_⟩
  intro value hvalue
  obtain ⟨i, -, hi⟩ := List.mem_filterMap.1 hvalue
  exact hcheck i value hi

theorem listValid_mergeIndexedValues {retained current : Option (List α)}
    (hretained : listValid hi check retained = true) (hcurrent : listValid hi check current = true) :
    listValid hi check (mergeIndexedValues retained current) = true := by
  obtain ⟨hlength, hall⟩ := getD_of_listValid hretained
  obtain ⟨hlength', hall'⟩ := getD_of_listValid hcurrent
  unfold mergeIndexedValues
  split
  · rfl
  · rename_i hsome
    apply listValid_filterMap_range
    · exact fun i hi => isSome_or_getElem? hi
    · simp only [Bool.and_eq_true, Option.isNone_iff_eq_none, not_and_or, ← ne_eq, ← Option.isSome_iff_ne_none] at hsome
      rcases hsome with hsome | hsome
      · have hone := one_le_of_listValid hretained hsome
        omega
      · have hone := one_le_of_listValid hcurrent hsome
        omega
    · omega
    · intro i value hvalue
      rcases Option.or_eq_some_iff.1 hvalue with hfound | ⟨-, hfound⟩
      · exact hall' value (List.mem_of_getElem? hfound)
      · exact hall value (List.mem_of_getElem? hfound)

def categoryValid (category : BudgetCategory) : Bool := isBudgetText category.name

theorem listValid_mergeCategories {retained current : Option (List BudgetCategory)}
    (hretained : listValid hi categoryValid retained = true) (hcurrent : listValid hi categoryValid current = true) :
    listValid hi categoryValid (mergeCategories retained current) = true := by
  unfold mergeCategories
  split
  · exact hcurrent
  · exact hretained
  · rename_i retained current
    obtain ⟨⟨hone, hhi⟩, hall⟩ := listValid_some.1 hretained
    obtain ⟨⟨hone', hhi'⟩, hall'⟩ := listValid_some.1 hcurrent
    apply listValid_filterMap_range
    · intro i hi
      have hsome := isSome_or_getElem? hi
      cases hprevious : retained[i]? <;> cases hnext : current[i]? <;> simp_all
    · omega
    · omega
    · intro i value hvalue
      cases hprevious : retained[i]? with
      | none =>
        simp only [hprevious] at hvalue
        exact hall' value (List.mem_of_getElem? hvalue)
      | some previous =>
        cases hnext : current[i]? with
        | none =>
          simp only [hprevious, hnext, Option.some.injEq] at hvalue
          exact hvalue ▸ hall previous (List.mem_of_getElem? hprevious)
        | some next =>
          simp only [hprevious, hnext, Option.some.injEq] at hvalue
          exact hvalue ▸ hall' next (List.mem_of_getElem? hnext)

theorem BudgetingKnownInputs.valid_iff :
    known.valid = true ↔ listValid 20 isBudgetText known.priorities = true ∧
      listValid 100 categoryValid known.categories = true ∧
      known.evidence.all (fun evidence => decide (evidence.length ≤ 200) &&
        evidence.all BudgetingEvidenceSpan.valid) = true := by
  simp only [BudgetingKnownInputs.valid, Bool.and_eq_true, and_assoc]
  rfl

theorem mergedBudgetFacts_valid (hretained : retained.valid = true) (hcurrent : current.valid = true) :
    (mergedBudgetFacts retained current).valid = true := by
  obtain ⟨hpriorities, hcategories, -⟩ := BudgetingKnownInputs.valid_iff.1 hretained
  obtain ⟨hpriorities', hcategories', -⟩ := BudgetingKnownInputs.valid_iff.1 hcurrent
  rw [BudgetingKnownInputs.valid_iff]
  exact ⟨listValid_mergeIndexedValues hpriorities hpriorities', listValid_mergeCategories hcategories hcategories', rfl⟩

theorem BudgetingKnownInputs.parse_eq (h : known.valid = true) :
    known.parse = .ok known := by
  simp [BudgetingKnownInputs.parse, h]

section Prepared

variable {request : BudgetingDelegateRequest}

theorem BudgetingDelegateRequest.parse_eq (h : request.valid = true) :
    request.parse = .ok request := by
  simp [BudgetingDelegateRequest.parse, h]

theorem requestWithKnown_eq (hrequest : request.valid = true) (hknown : known.valid = true) :
    requestWithKnown request known = .ok { request with known } := by
  have hvalid : BudgetingDelegateRequest.valid { request with known } = true := by
    simp only [BudgetingDelegateRequest.valid, Bool.and_eq_true] at hrequest ⊢
    exact ⟨hrequest.1, hknown⟩
  rw [requestWithKnown, BudgetingKnownInputs.parse_eq hknown]
  exact BudgetingDelegateRequest.parse_eq hvalid

/-! ## The prepared request -/

/-- The evidence is grounded in the message or in the instruction, and covers the paths. -/
def evidencePasses (E : EvidenceEngine) (message : InboundMessage) (instruction : String)
    (evidence : List BudgetingEvidenceSpan) (paths : List String) : Bool :=
  (budgetingEvidenceIsGroundedForSpans message evidence ||
    budgetingEvidenceIsContainedInInstructionForSpans E instruction evidence) &&
    budgetingEvidenceCoversPaths evidence paths

/-- The evidence that is weighed and the paths it has to cover. -/
def weighed (request : BudgetingDelegateRequest) (continuation : Option BudgetingContinuation) :
    List BudgetingEvidenceSpan × List String :=
  match continuation.filter fun continuation => budgetingContinuationIsCompatible continuation request with
  | none => (request.known.evidence.getD [], requiredBudgetEvidencePaths request.known)
  | some continuation =>
      let changedPaths := changedBudgetFactPaths request.known continuation.known
      ((request.known.evidence.getD []).filter fun span =>
        changedPaths.any fun path => evidencePathCovers path span.path, changedPaths)

/-- Nothing of the quote is left when it is normalised, and it does not stand at its offsets. -/
def IsBlank (E : EvidenceEngine) (message : InboundMessage) (span : BudgetingEvidenceSpan) : Prop :=
  normalizedEvidenceText E span.sourceQuote = "" ∧ spanIsGrounded message span = false

theorem occurs_iff_of_evidencePasses {E : EvidenceEngine} {message : InboundMessage} {instruction : String}
    {evidence : List BudgetingEvidenceSpan} {paths : List String} {span : BudgetingEvidenceSpan}
    (h : evidencePasses E message instruction evidence paths = true) (hspan : span ∈ evidence) :
    Occurs E message instruction span ↔ ¬IsBlank E message span := by
  simp only [evidencePasses, Bool.and_eq_true, Bool.or_eq_true, budgetingEvidenceIsGroundedForSpans,
    budgetingEvidenceIsContainedInInstructionForSpans, List.all_eq_true] at h
  rcases h.1 with hgrounded | hcontained
  · simp [Occurs, IsBlank, hgrounded span hspan]
  · have hin := hcontained span hspan
    cases hat : spanIsGrounded message span with
    | true => simp [Occurs, IsBlank, hat]
    | false => simp [Occurs, IsBlank, hat, hin]

theorem fact?_noBudgetFacts (slot : BudgetSlot) : noBudgetFacts.fact? slot = none := by
  cases slot <;> rfl

theorem fact?_of_not_hasBudgetFacts (h : hasBudgetFacts known = false) (slot : BudgetSlot) :
    known.fact? slot = none := by
  simp only [hasBudgetFacts, Bool.or_eq_false_iff, Option.isSome_eq_false_iff, Option.isNone_iff_eq_none] at h
  obtain ⟨⟨⟨hpriorities, htimeframe⟩, hamount⟩, hcategories⟩ := h
  cases slot <;> simp [BudgetingKnownInputs.fact?, hpriorities, htimeframe, hamount, hcategories]

theorem isNew_noBudgetFacts :
    IsNew known noBudgetFacts slot ↔ (known.fact? slot).isSome = true := by
  rw [IsNew, fact?_noBudgetFacts, Option.isSome_iff_exists]
  simp [BudgetFact.unchanged]

theorem fact?_mergedBudgetFacts_noBudgetFacts (known : BudgetingKnownInputs) (slot : BudgetSlot) :
    (mergedBudgetFacts noBudgetFacts known).fact? slot = known.fact? slot := by
  rw [fact?_mergedBudgetFacts, fact?_noBudgetFacts]
  cases known.fact? slot <;> rfl

theorem mem_weighed_evidence {continuation : Option BudgetingContinuation} {span : BudgetingEvidenceSpan}
    (hnew : IsNew request.known (retainedKnown request continuation) slot)
    (hspan : span ∈ request.known.evidence.getD []) (hcovers : evidencePathCovers slot.path span.path = true) :
    span ∈ (weighed request continuation).1 := by
  unfold retainedKnown at hnew
  unfold weighed
  cases hfilter : continuation.filter fun continuation => budgetingContinuationIsCompatible continuation request with
  | none => exact hspan
  | some continuation =>
    rw [hfilter] at hnew
    simp only [List.mem_filter, List.any_eq_true]
    exact ⟨hspan, slot.path, mem_changedBudgetFactPaths.2 ⟨slot, hnew, rfl⟩, hcovers⟩

/-- The result has what is retained, where the evidence does not pass or there is nothing new, and
otherwise the merge. -/
def Prepares (retained result : BudgetingKnownInputs) (request : BudgetingDelegateRequest) (passes : Bool) : Prop :=
  ((passes = false ∨ ∀ slot, ¬IsNew request.known retained slot) ∧ ∀ slot, result.fact? slot = retained.fact? slot) ∨
    (passes = true ∧ ∀ slot, result.fact? slot = (mergedBudgetFacts retained request.known).fact? slot)

theorem canonicalBudgetingDraft_prepares (E : EvidenceEngine) (message : InboundMessage)
    (hrequest : request.valid = true) :
    ∃ result, canonicalBudgetingDraft E message request = .ok result ∧
      Prepares noBudgetFacts result.known request (evidencePasses E message request.instruction
        (request.known.evidence.getD []) (requiredBudgetEvidencePaths request.known)) := by
  have hstripped : BudgetingDelegateRequest.valid { request with known := noBudgetFacts } = true := by
    simp only [BudgetingDelegateRequest.valid, Bool.and_eq_true] at hrequest ⊢
    exact ⟨hrequest.1, rfl⟩
  have hparse : (stripUngroundedBudgetFacts >>= fun stripped =>
      BudgetingDelegateRequest.parse { request with known := stripped }) =
      .ok { request with known := noBudgetFacts } := BudgetingDelegateRequest.parse_eq hstripped
  have hcanonical : canonicalBudgetingDraft E message request =
      if hasBudgetFacts request.known = false then .ok request
      else if (request.known.evidence.isSome && evidencePasses E message request.instruction
        (request.known.evidence.getD []) (requiredBudgetEvidencePaths request.known)) = true then .ok request
      else .ok { request with known := noBudgetFacts } := by
    rw [canonicalBudgetingDraft, BudgetingDelegateRequest.parse_eq hrequest]
    change (if (!hasBudgetFacts request.known) = true then _ else _) = _
    rw [← hparse]
    cases hasBudgetFacts request.known with
    | false => rfl
    | true =>
      simp only [evidencePasses, ← Bool.and_assoc]
      rfl
  rw [hcanonical]
  split
  · rename_i hnone
    refine ⟨request, rfl, .inl ⟨.inr ?_, ?_⟩⟩
    · intro slot
      rw [isNew_noBudgetFacts, fact?_of_not_hasBudgetFacts hnone]
      simp
    · intro slot
      rw [fact?_of_not_hasBudgetFacts hnone, fact?_noBudgetFacts]
  · split
    · rename_i hpasses
      refine ⟨request, rfl, .inr ⟨(Bool.and_eq_true_iff.1 hpasses).2, ?_⟩⟩
      intro slot
      rw [fact?_mergedBudgetFacts_noBudgetFacts]
    · rename_i hnot
      refine ⟨_, rfl, .inl ⟨?_, fun _ => rfl⟩⟩
      cases hevidence : request.known.evidence with
      | some evidence =>
        simp only [hevidence, Option.isSome_some, Bool.true_and, Bool.not_eq_true] at hnot
        exact .inl hnot
      | none =>
        by_cases hempty : ∀ slot, ¬IsNew request.known noBudgetFacts slot
        · exact .inr hempty
        · obtain ⟨slot, hnew⟩ := not_forall_not.1 hempty
          have hpath : slot.path ∈ requiredBudgetEvidencePaths request.known :=
            mem_requiredBudgetEvidencePaths.2 ⟨slot, isNew_noBudgetFacts.1 hnew, rfl⟩
          have hcovers : budgetingEvidenceCoversPaths [] (requiredBudgetEvidencePaths request.known) = false := by
            rw [budgetingEvidenceCoversPaths, List.all_eq_false]
            exact ⟨slot.path, hpath, by simp⟩
          exact .inl (by simp [evidencePasses, hcovers])

theorem not_isNew_of_isEmpty {current retained : BudgetingKnownInputs}
    (h : (changedBudgetFactPaths current retained).isEmpty = true) (slot : BudgetSlot) :
    ¬IsNew current retained slot := by
  intro hnew
  have hmem := mem_changedBudgetFactPaths.2 ⟨slot, hnew, rfl⟩
  rw [List.isEmpty_iff.1 h] at hmem
  cases hmem

theorem prepareBudgetingDraft_prepares (E : EvidenceEngine) (message : InboundMessage)
    {continuation : Option BudgetingContinuation} (hrequest : request.valid = true)
    (hcontinuation : continuation.all BudgetingContinuation.valid = true) :
    ∃ result, prepareBudgetingDraft E message request continuation = .ok result ∧
      Prepares (retainedKnown request continuation) result.known request
        (evidencePasses E message request.instruction (weighed request continuation).1
          (weighed request continuation).2) := by
  have hprepare : prepareBudgetingDraft E message request continuation =
      match continuation.filter fun continuation => budgetingContinuationIsCompatible continuation request with
      | none => canonicalBudgetingDraft E message request
      | some continuation => budgetingKnownInputs continuation >>= fun retained =>
        if (changedBudgetFactPaths request.known retained).isEmpty = true then requestWithKnown request retained
        else if (!evidencePasses E message request.instruction
            ((request.known.evidence.getD []).filter fun span =>
              (changedBudgetFactPaths request.known retained).any fun path => evidencePathCovers path span.path)
            (changedBudgetFactPaths request.known retained)) = true then requestWithKnown request retained
        else mergeBudgetFacts retained request.known >>= requestWithKnown request := by
    rw [prepareBudgetingDraft, BudgetingDelegateRequest.parse_eq hrequest]
    simp only [evidencePasses, Bool.not_and]
    rfl
  rw [hprepare]
  unfold retainedKnown weighed
  cases hfilter : continuation.filter fun continuation => budgetingContinuationIsCompatible continuation request with
  | none => exact canonicalBudgetingDraft_prepares E message hrequest
  | some compatible =>
    have hcompatible : compatible.valid = true := by
      obtain ⟨hsome, -⟩ := Option.filter_eq_some_iff.1 hfilter
      simpa [hsome] using hcontinuation
    have hknown : compatible.known.valid = true := by
      simp only [BudgetingContinuation.valid, Bool.and_eq_true] at hcompatible
      exact hcompatible.1.2
    have hrequestKnown : request.known.valid = true := by
      simp only [BudgetingDelegateRequest.valid, Bool.and_eq_true] at hrequest
      exact hrequest.2
    have hretained : budgetingKnownInputs compatible = .ok compatible.known := BudgetingKnownInputs.parse_eq hknown
    have hkeep : requestWithKnown request compatible.known = .ok { request with known := compatible.known } :=
      requestWithKnown_eq hrequest hknown
    simp only [hretained]
    change ∃ result, (if (changedBudgetFactPaths request.known compatible.known).isEmpty = true then _ else _) = _ ∧ _
    split
    · rename_i hempty
      exact ⟨_, hkeep, .inl ⟨.inr (not_isNew_of_isEmpty hempty), fun _ => rfl⟩⟩
    · split
      · rename_i hfails
        exact ⟨_, hkeep, .inl ⟨.inl (by simpa using hfails), fun _ => rfl⟩⟩
      · rename_i hpasses
        have hmerged := mergedBudgetFacts_valid hknown hrequestKnown
        have hmerge : (mergeBudgetFacts compatible.known request.known >>= requestWithKnown request) =
            .ok { request with known := mergedBudgetFacts compatible.known request.known } := by
          rw [mergeBudgetFacts, BudgetingKnownInputs.parse_eq hmerged]
          exact requestWithKnown_eq hrequest hmerged
        exact ⟨_, hmerge, .inr ⟨by simpa using hpasses, fun _ => rfl⟩⟩

/-- Where the evidence passes, every new fact is covered by evidence that is not blank. -/
def NewFactsHaveText (E : EvidenceEngine) (message : InboundMessage) (request : BudgetingDelegateRequest)
    (continuation : Option BudgetingContinuation) : Prop :=
  evidencePasses E message request.instruction (weighed request continuation).1 (weighed request continuation).2 = true →
    ∀ slot, IsNew request.known (retainedKnown request continuation) slot →
      ∃ span ∈ request.known.evidence.getD [],
        evidencePathCovers slot.path span.path = true ∧ ¬IsBlank E message span

end Prepared

namespace TestBudgeting

/-- The engine, as far as ASCII texts and whole numbers go. -/
def evidenceEngine : EvidenceEngine where
  toLocaleLowerCase text := String.ofList (text.toList.map Char.toLower)
  timesThousand digits := digits ++ ['0', '0', '0']

def message : InboundMessage where
  conversationId := ⟨"01JNZQ4A9B8C7D6E5F4G3H2J1K", Eq.refl true⟩
  householdId := ⟨"01JNZQ4A9B8C7D6E5F4G3H2J0K", Eq.refl true⟩
  channel := .telegram
  externalMessageId := "telegram:42:1"
  receivedAt := "2026-01-01T00:00:00.000Z"
  speaker := ⟨"telegram:user:7", some "Ana"⟩
  body := "Plan my budget"
  attachments := []
  metadata := ⟨[], Eq.refl true⟩

def amount : Money := ⟨⟨false, 999, 0⟩, ⟨"USD", by decide⟩⟩

/-- A request for an amount, with a quote as its evidence. -/
def request (sourceQuote : String) : BudgetingDelegateRequest where
  intent := .budgetPlan "monthly"
  instruction := "Plan my budget"
  known := ⟨none, none, some amount, none, some [⟨"targetAmount", sourceQuote, 0, 3⟩]⟩

end TestBudgeting

end PlusOne
