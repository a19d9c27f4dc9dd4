import PlusOne.Memory.Canonical
import PlusOne.Memory.Session

/-! # What the readback of a mutation checks

A write of the working memory is verified against the document that is read back: the entry it names is
compared with the entry it was to write, without their stamps. -/

namespace PlusOne

variable {T : TimeFormats}

/-! ## Documents up to their stamps -/

/-- The two documents have the same entries, up to their lifecycles. -/
def SameUpToStamps (entries others : MemoryEntries) : Prop :=
  ∀ entryId, Option.Rel (fun entry other => WorkingMemoryEntry.sameFacts entry other = true)
    (entries.entryOf entryId) (others.entryOf entryId)

/-- The entry that is named is found as it was to be written; after a clear nothing is found. -/
def NamedAsWritten (after : MemoryEntries) : ResolvedMutation → Prop
  | .create entryId entry | .replace entryId entry =>
    ∃ found, after.entryOf entryId = some found ∧ found.sameFacts entry.trimmed = true
  | .delete entryId => after.entryOf entryId = none
  | .clear => after = []

/-- The entries that are not named are found as they were. -/
def OthersKept (before after : MemoryEntries) : ResolvedMutation → Prop
  | .create entryId _ | .replace entryId _ | .delete entryId => ∀ other, other ≠ entryId →
    Option.Rel (fun entry other => WorkingMemoryEntry.sameFacts entry other = true)
      (after.entryOf other) (before.entryOf other)
  | .clear => True

/-- The mutation changes the document, and the summary it brings is trimmed. -/
def ChangesTrimmed (before : MemoryEntries) : ResolvedMutation → Prop
  | .create _ entry => entry.trimmed = entry
  | .replace entryId entry => entry.trimmed = entry ∧
    ∀ old, before.entryOf entryId = some old → old.sameFacts entry = false
  | .delete _ => True
  | .clear => before ≠ []

/-! ## Comparing -/

namespace WorkingMemoryEntry

variable {entry other : WorkingMemoryEntry}

/-- The text an entry is compared by. -/
def factsText (entry : WorkingMemoryEntry) : String := canonicalText (record entry.facts)

theorem sameFacts_iff : entry.sameFacts other = true ↔ entry.factsText = other.factsText :=
  canonicalText_facts_iff.symm

theorem rel_sameFacts_iff {a b : Option WorkingMemoryEntry} :
    Option.Rel (fun entry other => sameFacts entry other = true) a b ↔ a.map factsText = b.map factsText := by
  cases a with
  | none => cases b <;> simp
  | some a =>
    cases b with
    | none => simp
    | some b => simp [sameFacts_iff]

theorem facts_allowed (entry : WorkingMemoryEntry) : ∀ field ∈ entry.facts,
    dangerousWorkingMemoryKeys.contains field.1 = false := by
  intro field hfield
  simp only [facts, List.mem_cons, List.not_mem_nil, or_false] at hfield
  rcases hfield with rfl | rfl | rfl | rfl | rfl <;> rfl

/-- A valid entry is compared by its canonical text. -/
theorem comparable_ok (h : entry.valid T = true) : comparableWorkingMemoryEntry entry = .ok entry.factsText := by
  have hvalue : isWorkingMemoryValue 0 entry.value = true := by
    simp only [valid, Bool.and_eq_true] at h
    exact h.1.1.2
  have hcanonical : canonicalizeWorkingMemoryValue (record entry.facts) = .ok (sortJson (record entry.facts)) := by
    refine canonicalize_obj ?_ ?_
    · intro field hfield
      exact facts_allowed entry _ (mem_record.1 hfield)
    · intro field hfield
      have hmem := mem_record.1 hfield
      simp only [facts, List.mem_cons, Prod.mk.injEq, List.not_mem_nil, or_false] at hmem
      rcases hmem with ⟨-, hfact⟩ | ⟨-, hfact⟩ | ⟨-, hfact⟩ | ⟨-, hfact⟩ | ⟨-, hfact⟩
      · rw [Option.some.inj hfact]
        rfl
      · rw [Option.some.inj hfact]
        rfl
      · rw [Option.some.inj hfact]
        rfl
      · obtain ⟨owner, -, howner⟩ := Option.map_eq_some_iff.1 hfact.symm
        rw [← howner]
        rfl
      · rw [Option.some.inj hfact]
        exact canonicalize_ok entry.value 0 hvalue
  rw [comparableWorkingMemoryEntry, toJson_unstamped, hcanonical]
  simp only [Except.map, stringify_sortJson, factsText]

theorem sameComparable_ok (hentry : entry.valid T = true) (hother : other.valid T = true) :
    sameComparable (some entry) other = .ok (entry.sameFacts other) := by
  simp only [sameComparable, comparable_ok hentry, comparable_ok hother]
  have hsame : (entry.factsText == other.factsText) = entry.sameFacts other := by
    rw [Bool.eq_iff_iff, beq_iff_eq, sameFacts_iff]
  rw [← hsame]
  rfl

theorem trimmed_of_sameFacts (hentry : entry.parsed T = true) (h : entry.sameFacts other = true) :
    other.trimmed = other := by
  have htrimmed := congrArg summary (trimmed_of_parsed hentry)
  simp only [sameFacts, Bool.and_eq_true, beq_iff_eq] at h
  have hsummary : entry.summary = other.summary := h.1.1.1.2
  have hother : trim other.summary = other.summary := by
    rw [← hsummary]
    exact htrimmed
  cases other
  simp only [trimmed] at hother ⊢
  rw [hother]

theorem sameFacts_iff_trimmed (hentry : entry.parsed T = true) :
    entry.sameFacts other = true ↔ entry.sameFacts other.trimmed = true ∧ other.trimmed = other := by
  constructor
  · intro h
    have htrimmed := trimmed_of_sameFacts hentry h
    rw [htrimmed]
    exact ⟨h, rfl⟩
  · rintro ⟨h, htrimmed⟩
    rw [htrimmed] at h
    exact h

theorem valid_of_parsed (h : entry.parsed T = true) : entry.valid T = true := by
  simp only [parsed, Bool.and_eq_true] at h
  exact h.1

end WorkingMemoryEntry

/-! ## What is applied -/

/-- One entry is written, or left out, and all others are what they were. -/
structure WrittenAt (before applied : MemoryEntries) (entryId : WorkingMemoryEntryId)
    (entry : Option WorkingMemoryEntry) : Prop where
  named : applied.entryOf entryId = entry
  others : ∀ other, other ≠ entryId → applied.entryOf other = before.entryOf other

section Applied

variable {before applied : FlexibleWorkingMemory T} {principalRef now : String}
  {entryId : WorkingMemoryEntryId} {entry stamped : WorkingMemoryEntry} {entries : MemoryEntries}

theorem entries_of_reparsed {distinct : (entries.map Prod.fst).Nodup}
    (h : reparsed T entries distinct = .succeeded applied) : applied.entries = entries.trimmed := by
  unfold reparsed at h
  split at h
  · next document hparsed =>
    cases h
    exact FlexibleWorkingMemory.entries_of_safeParse hparsed
  · cases h

theorem stamped_of_lifecycle {existing : Option WorkingMemoryLifecycle}
    (h : withMutationLifecycle T entry existing now = .ok stamped) :
    ∃ lifecycle, stamped = { entry.trimmed with lifecycle } := by
  unfold withMutationLifecycle at h
  simp only at h
  split_ifs at h
  cases h
  exact ⟨_, rfl⟩

theorem writtenAt_put {existing : Option WorkingMemoryLifecycle} {distinct}
    (hstamped : withMutationLifecycle T entry.trimmed existing now = .ok stamped)
    (h : reparsed T (before.entries.put entryId stamped) distinct = .succeeded applied) :
    ∃ lifecycle, WrittenAt before.entries applied.entries entryId (some { entry.trimmed with lifecycle }) := by
  obtain ⟨lifecycle, rfl⟩ := stamped_of_lifecycle hstamped
  refine ⟨lifecycle, ?_, ?_⟩
  · rw [entries_of_reparsed h, MemoryEntries.entryOf_trimmed, MemoryEntries.entryOf_put_self]
    simp [WorkingMemoryEntry.trimmed, trim_trim]
  · intro other hne
    rw [entries_of_reparsed h, MemoryEntries.entryOf_trimmed, MemoryEntries.entryOf_put_of_ne hne,
      ← MemoryEntries.entryOf_trimmed, MemoryEntries.trimmed_of_parsed]

theorem writtenAt_drop {distinct}
    (h : reparsed T (before.entries.drop entryId) distinct = .succeeded applied) :
    WrittenAt before.entries applied.entries entryId none := by
  constructor
  · rw [entries_of_reparsed h, MemoryEntries.entryOf_trimmed, MemoryEntries.entryOf_drop_self]
    rfl
  · intro other hne
    rw [entries_of_reparsed h, MemoryEntries.entryOf_trimmed, MemoryEntries.entryOf_drop_of_ne hne,
      ← MemoryEntries.entryOf_trimmed, MemoryEntries.trimmed_of_parsed]

/-- What is known of the two documents when a mutation is accepted. -/
def Accepted (T : TimeFormats) (before applied : MemoryEntries) : ResolvedMutation → Prop
  | .create entryId entry => entry.valid T = true ∧ before.entryOf entryId = none ∧
    ∃ lifecycle, WrittenAt before applied entryId (some { entry.trimmed with lifecycle })
  | .replace entryId entry => entry.valid T = true ∧ (before.entryOf entryId).isSome = true ∧
    ∃ lifecycle, WrittenAt before applied entryId (some { entry.trimmed with lifecycle })
  | .delete entryId => (before.entryOf entryId).isSome = true ∧ WrittenAt before applied entryId none
  | .clear => applied = []

theorem accepted_of_apply {mutation : ResolvedMutation}
    (h : applyResolvedWorkingMemoryMutation before mutation principalRef now = .ok (.succeeded applied)) :
    Accepted T before.entries applied.entries mutation := by
  unfold applyResolvedWorkingMemoryMutation at h
  split_ifs at h with hvalid
  · cases h
  simp only [Bool.not_eq_true, Bool.not_eq_false'] at hvalid
  cases mutation with
  | clear =>
    cases h
    rfl
  | create entryId entry =>
    simp only [ResolvedMutation.mapEntry] at h
    split_ifs at h with hfound haccess
    · cases h
    · cases h
    · obtain ⟨stamped, hstamped, h⟩ := Relational.bind_eq_ok.1 h
      rw [Relational.pure_eq_ok] at h
      have habsent : before.entries.entryOf entryId = none := by
        simpa using hfound
      exact ⟨hvalid, habsent, writtenAt_put hstamped h⟩
  | delete entryId =>
    simp only [ResolvedMutation.mapEntry] at h
    split at h
    · cases h
    · next existing hexisting =>
      rw [Relational.pure_eq_ok] at h
      have hfound := (accessibleEntry_eq_ok.1 hexisting).1
      exact ⟨by rw [hfound]; rfl, writtenAt_drop h⟩
  | replace entryId entry =>
    simp only [ResolvedMutation.mapEntry] at h
    split at h
    · cases h
    · next existing hexisting =>
      split_ifs at h
      · cases h
      · obtain ⟨stamped, hstamped, h⟩ := Relational.bind_eq_ok.1 h
        rw [Relational.pure_eq_ok] at h
        have hfound := (accessibleEntry_eq_ok.1 hexisting).1
        exact ⟨hvalid, by rw [hfound]; rfl, writtenAt_put hstamped h⟩

end Applied

/-! ## What is found -/

section Found

variable {before after applied : FlexibleWorkingMemory T} {mutation : ResolvedMutation}

theorem rel_none_iff {found : Option WorkingMemoryEntry} :
    Option.Rel (fun found entry => WorkingMemoryEntry.sameFacts found entry = true) found none ↔ found = none := by
  cases found <;> simp

theorem isEmpty_of_entryOf {entries : MemoryEntries} (h : ∀ entryId, entries.entryOf entryId = none) :
    entries = [] := by
  cases entries with
  | nil => rfl
  | cons item rest =>
    have hitem := h item.1
    simp [MemoryEntries.entryOf_cons] at hitem

/-- A document is the one that was applied when the entry that is named and all others are as expected. -/
theorem WrittenAt.same_iff {entries before applied : MemoryEntries} {entryId : WorkingMemoryEntryId}
    {entry : Option WorkingMemoryEntry} (h : WrittenAt before applied entryId entry) :
    SameUpToStamps entries applied ↔
      Option.Rel (fun found entry => WorkingMemoryEntry.sameFacts found entry = true)
        (entries.entryOf entryId) entry ∧
      ∀ other, other ≠ entryId → Option.Rel (fun found entry => WorkingMemoryEntry.sameFacts found entry = true)
        (entries.entryOf other) (before.entryOf other) := by
  constructor
  · intro hsame
    constructor
    · have hnamed := hsame entryId
      rw [h.named] at hnamed
      exact hnamed
    · intro other hne
      have hother := hsame other
      rw [h.others other hne] at hother
      exact hother
  · rintro ⟨hnamed, hothers⟩ other
    by_cases hne : other = entryId
    · rw [hne, h.named]
      exact hnamed
    · rw [h.others other hne]
      exact hothers other hne

theorem named_iff {found : Option WorkingMemoryEntry} {entry : WorkingMemoryEntry}
    {lifecycle : Option WorkingMemoryLifecycle} :
    Option.Rel (fun found entry => WorkingMemoryEntry.sameFacts found entry = true) found
        (some { entry with lifecycle }) ↔
      ∃ existing, found = some existing ∧ existing.sameFacts entry = true := by
  cases found with
  | none => simp
  | some existing => simp [WorkingMemoryEntry.sameFacts]

theorem same_iff (h : Accepted T before.entries applied.entries mutation) :
    SameUpToStamps after.entries applied.entries ↔
      NamedAsWritten after.entries mutation ∧ OthersKept before.entries after.entries mutation := by
  cases mutation with
  | create entryId entry | replace entryId entry =>
    obtain ⟨-, -, lifecycle, hwritten⟩ := h
    rw [hwritten.same_iff, named_iff]
    rfl
  | delete entryId =>
    obtain ⟨-, hwritten⟩ := h
    rw [hwritten.same_iff, rel_none_iff]
    rfl
  | clear =>
    have hnone : applied.entries = [] := h
    simp only [SameUpToStamps, hnone, MemoryEntries.entryOf_nil, rel_none_iff, NamedAsWritten, OthersKept,
      and_true]
    constructor
    · exact isEmpty_of_entryOf
    · intro hafter entryId
      rw [hafter]
      rfl

theorem sameComparable_found (after : FlexibleWorkingMemory T) (entryId : WorkingMemoryEntryId)
    {entry : WorkingMemoryEntry} (hentry : entry.valid T = true) :
    ∃ same, sameComparable (after.entries.entryOf entryId) entry = .ok same ∧
      (same = true ↔ ∃ found, after.entries.entryOf entryId = some found ∧ found.sameFacts entry = true) := by
  cases hfound : after.entries.entryOf entryId with
  | none => exact ⟨false, rfl, by simp⟩
  | some found =>
    have hparsed := after.parsed_entry hfound
    have hvalid := WorkingMemoryEntry.valid_of_parsed hparsed
    exact ⟨_, WorkingMemoryEntry.sameComparable_ok hvalid hentry, by simp⟩

theorem found_iff {entryId : WorkingMemoryEntryId} {entry : WorkingMemoryEntry} :
    (∃ found, after.entries.entryOf entryId = some found ∧ found.sameFacts entry = true) ↔
      (∃ found, after.entries.entryOf entryId = some found ∧ found.sameFacts entry.trimmed = true) ∧
        entry.trimmed = entry := by
  constructor
  · rintro ⟨found, hfound, hsame⟩
    have hparsed := after.parsed_entry hfound
    have htrimmed := (WorkingMemoryEntry.sameFacts_iff_trimmed hparsed).1 hsame
    exact ⟨⟨found, hfound, htrimmed.1⟩, htrimmed.2⟩
  · rintro ⟨⟨found, hfound, hsame⟩, htrimmed⟩
    rw [htrimmed] at hsame
    exact ⟨found, hfound, hsame⟩

theorem verify_iff (after : FlexibleWorkingMemory T)
    (h : Accepted T before.entries applied.entries mutation) :
    ∃ found, verifyWorkingMemoryReadback before.entries after.entries mutation = .ok found ∧
      (found = true ↔ NamedAsWritten after.entries mutation ∧ ChangesTrimmed before.entries mutation) := by
  cases mutation with
  | create entryId entry =>
    obtain ⟨hvalid, habsent, -⟩ := h
    obtain ⟨same, hsame, hiff⟩ := sameComparable_found after entryId hvalid
    rw [found_iff] at hiff
    refine ⟨same, ?_, hiff⟩
    simp only [verifyWorkingMemoryReadback, hsame, habsent]
    cases same <;> rfl
  | replace entryId entry =>
    obtain ⟨hvalid, hpresent, -⟩ := h
    obtain ⟨existing, hexisting⟩ := Option.isSome_iff_exists.1 hpresent
    obtain ⟨same, hsame, hiff⟩ := sameComparable_found after entryId hvalid
    obtain ⟨unchanged, hunchanged, hunchangediff⟩ := sameComparable_found before entryId hvalid
    rw [found_iff] at hiff
    refine ⟨!unchanged && same, ?_, ?_⟩
    · rw [hexisting] at hunchanged
      simp only [verifyWorkingMemoryReadback, hsame, hunchanged, hexisting]
      cases unchanged <;> rfl
    · have hchanged : unchanged = false ↔
          ∀ old, before.entries.entryOf entryId = some old → old.sameFacts entry = false := by
        rw [← Bool.not_eq_true, hunchangediff]
        simp
      rw [Bool.and_eq_true, Bool.not_eq_true', hiff, hchanged]
      constructor
      · rintro ⟨hold, hnamed, htrimmed⟩
        exact ⟨hnamed, htrimmed, hold⟩
      · rintro ⟨hnamed, htrimmed, hold⟩
        exact ⟨hold, hnamed, htrimmed⟩
  | delete entryId =>
    obtain ⟨hpresent, -⟩ := h
    refine ⟨_, rfl, ?_⟩
    simp [hpresent, NamedAsWritten, ChangesTrimmed]
  | clear =>
    refine ⟨_, rfl, ?_⟩
    simp [NamedAsWritten, ChangesTrimmed]

end Found

/-- The readback is exact when, with the entry that is named found as it was to be written, the mutation
changes the document and is trimmed if and only if the other entries are found as they were. -/
theorem readback_exact_iff {before applied : FlexibleWorkingMemory T} {mutation : ResolvedMutation}
    {principalRef now : String} (after : FlexibleWorkingMemory T)
    (h : applyResolvedWorkingMemoryMutation before mutation principalRef now = .ok (.succeeded applied)) :
    (verifyWorkingMemoryReadback before.entries after.entries mutation = .ok true ↔
        SameUpToStamps after.entries applied.entries) ↔
      (NamedAsWritten after.entries mutation →
        (ChangesTrimmed before.entries mutation ↔ OthersKept before.entries after.entries mutation)) := by
  have haccepted := accepted_of_apply h
  obtain ⟨found, hfound, hiff⟩ := verify_iff after haccepted
  have hverify : verifyWorkingMemoryReadback before.entries after.entries mutation = .ok true ↔
      NamedAsWritten after.entries mutation ∧ ChangesTrimmed before.entries mutation := by
    rw [← hiff, hfound]
    simp
  rw [hverify, same_iff haccepted]
  tauto

open TestMemory TestInteraction in
/-- Deleting the shared entry is read back exactly when Ben's entry is left. -/
theorem readback_exact_delete :
    (∃ applied, applyResolvedWorkingMemoryMutation fullDocument (.delete sharedId) "principal:ana" now =
        .ok (.succeeded applied) ∧
      (verifyWorkingMemoryReadback fullDocument.entries applied.entries (.delete sharedId) = .ok true ↔
        SameUpToStamps applied.entries applied.entries)) ∧
    NamedAsWritten [(privateId, privateEntry)] (.delete sharedId) ∧
    OthersKept fullDocument.entries [(privateId, privateEntry)] (.delete sharedId) := by
  have happlied : applyResolvedWorkingMemoryMutation fullDocument (.delete sharedId) "principal:ana" now =
      .ok (.succeeded ⟨[(privateId, privateEntry)], by decide, by decide +kernel, by decide +kernel⟩) := by
    decide +kernel
  have hnamed : NamedAsWritten [(privateId, privateEntry)] (.delete sharedId) := rfl
  have hothers : OthersKept fullDocument.entries [(privateId, privateEntry)] (.delete sharedId) := by
    intro other hne
    have hfull : fullDocument.entries.entryOf other =
        MemoryEntries.entryOf other [(privateId, privateEntry)] := by
      rw [fullDocument, MemoryEntries.entryOf_cons, if_neg (Ne.symm hne)]
    rw [hfull, WorkingMemoryEntry.rel_sameFacts_iff]
  refine ⟨⟨_, happlied, ?_⟩, hnamed, hothers⟩
  refine (readback_exact_iff _ happlied).2 ?_
  intro _
  exact ⟨fun _ => hothers, fun _ => trivial⟩

open TestMemory TestInteraction in
/-- The deletion of the shared entry is reported as succeeded when it took Ben's entry with it, and the
clearing of an empty document as failed when nothing went wrong. -/
theorem readback_inexact :
    (∃ applied, applyResolvedWorkingMemoryMutation fullDocument (.delete sharedId) "principal:ana" now =
        .ok (.succeeded applied) ∧
      verifyWorkingMemoryReadback fullDocument.entries (emptyWorkingMemoryDocument times).entries
        (.delete sharedId) = .ok true ∧
      ¬SameUpToStamps (emptyWorkingMemoryDocument times).entries applied.entries) ∧
    (∃ applied, applyResolvedWorkingMemoryMutation (emptyWorkingMemoryDocument times) .clear "principal:ana" now =
        .ok (.succeeded applied) ∧
      verifyWorkingMemoryReadback (emptyWorkingMemoryDocument times).entries
        (emptyWorkingMemoryDocument times).entries .clear = .ok false ∧
      SameUpToStamps (emptyWorkingMemoryDocument times).entries applied.entries) := by
  have happlied : applyResolvedWorkingMemoryMutation fullDocument (.delete sharedId) "principal:ana" now =
      .ok (.succeeded ⟨[(privateId, privateEntry)], by decide, by decide +kernel, by decide +kernel⟩) := by
    decide +kernel
  refine ⟨⟨_, happlied, rfl, ?_⟩, ⟨emptyWorkingMemoryDocument times, rfl, rfl, ?_⟩⟩
  · intro hsame
    have hprivate := hsame privateId
    rw [WorkingMemoryEntry.rel_sameFacts_iff] at hprivate
    simp [emptyWorkingMemoryDocument, MemoryEntries.entryOf_cons] at hprivate
  · intro entryId
    rw [WorkingMemoryEntry.rel_sameFacts_iff]

end PlusOne
