import PlusOne.Interactions.LifecycleRuns
import PlusOne.Memory.Review
import PlusOne.Relational.Computed

/-! # Isolation of the members' entries

What a mutation leaves of the entries its principal may not access, and what the readers of a
document show of them. -/

namespace PlusOne

variable {T : TimeFormats}

/-! ## Mutations -/

section Mutations

variable {document document' : FlexibleWorkingMemory T} {principalRef now : String}
  {entryId other : WorkingMemoryEntryId} {entry existing stamped : WorkingMemoryEntry}

theorem accessibleEntry_eq_ok :
    accessibleEntry document principalRef entryId = .ok existing ↔
      document.entries.entryOf entryId = some existing ∧ existing.canAccess principalRef = true := by
  unfold accessibleEntry
  cases hfound : document.entries.entryOf entryId with
  | none => simp
  | some found =>
    cases haccess : found.canAccess principalRef with
    | false =>
      constructor
      · intro h
        simp [haccess] at h
      · rintro ⟨h, hexisting⟩
        cases h
        rw [haccess] at hexisting
        cases hexisting
    | true =>
      constructor
      · intro h
        simp only [haccess, if_true, Except.ok.injEq] at h
        subst h
        exact ⟨rfl, haccess⟩
      · rintro ⟨h, -⟩
        cases h
        simp [haccess]

theorem reparsed_keeps {entries : MemoryEntries} {distinct : (entries.map Prod.fst).Nodup}
    (h : reparsed T entries distinct = .succeeded document') (hentry : entry.parsed T = true)
    (hfound : entries.entryOf entryId = some entry) : document'.entries.entryOf entryId = some entry := by
  unfold reparsed at h
  split at h
  · next parsed hparsed =>
    cases h
    have hentries := FlexibleWorkingMemory.entries_of_safeParse hparsed
    rw [hentries, MemoryEntries.entryOf_trimmed, hfound, Option.map_some,
      WorkingMemoryEntry.trimmed_of_parsed hentry]
  · cases h

/-- What an accepted mutation did to the entries before they were parsed again, a clearing apart. -/
inductive Changed (document : FlexibleWorkingMemory T) (principalRef : String) : MemoryEntries → Prop
  | created {entryId : WorkingMemoryEntryId} {entry : WorkingMemoryEntry}
      (absent : document.entries.entryOf entryId = none) :
      Changed document principalRef (document.entries.put entryId entry)
  | replaced {entryId : WorkingMemoryEntryId} {entry existing : WorkingMemoryEntry}
      (found : document.entries.entryOf entryId = some existing)
      (access : existing.canAccess principalRef = true) :
      Changed document principalRef (document.entries.put entryId entry)
  | deleted {entryId : WorkingMemoryEntryId} {existing : WorkingMemoryEntry}
      (found : document.entries.entryOf entryId = some existing)
      (access : existing.canAccess principalRef = true) :
      Changed document principalRef (document.entries.drop entryId)

/-- A changed document holds every entry its principal may not access. -/
theorem Changed.keeps {entries : MemoryEntries} (h : Changed document principalRef entries)
    (hfound : document.entries.entryOf other = some entry)
    (hhidden : entry.canAccess principalRef = false) : entries.entryOf other = some entry := by
  have hne : ∀ {entryId existing}, document.entries.entryOf entryId = some existing →
      existing.canAccess principalRef = true → other ≠ entryId := by
    rintro entryId existing hexisting haccess rfl
    rw [hfound] at hexisting
    cases hexisting
    rw [hhidden] at haccess
    cases haccess
  cases h with
  | created absent =>
    have hother : ∀ {entryId}, document.entries.entryOf entryId = none → other ≠ entryId := by
      rintro entryId habsent rfl
      rw [hfound] at habsent
      cases habsent
    rw [MemoryEntries.entryOf_put_of_ne (hother absent)]
    exact hfound
  | replaced found access =>
    rw [MemoryEntries.entryOf_put_of_ne (hne found access)]
    exact hfound
  | deleted found access =>
    rw [MemoryEntries.entryOf_drop_of_ne (hne found access)]
    exact hfound

/-- What a mutation that is accepted does: it empties the document or changes one entry. -/
theorem apply_succeeded {mutation : ResolvedMutation}
    (h : applyResolvedWorkingMemoryMutation document mutation principalRef now = .ok (.succeeded document')) :
    (mutation = .clear ∧ document' = emptyWorkingMemoryDocument T) ∨
    ∃ entries distinct, Changed document principalRef entries ∧
      reparsed T entries distinct = .succeeded document' := by
  unfold applyResolvedWorkingMemoryMutation at h
  split_ifs at h
  · cases h
  cases mutation with
  | clear =>
    cases h
    exact Or.inl ⟨rfl, rfl⟩
  | create entryId entry =>
    simp only [ResolvedMutation.mapEntry] at h
    split_ifs at h with hfound haccess
    · cases h
    · cases h
    · right
      obtain ⟨stamped, -, h⟩ := Relational.bind_eq_ok.1 h
      rw [Relational.pure_eq_ok] at h
      have habsent : document.entries.entryOf entryId = none := by
        simpa using hfound
      exact ⟨_, _, .created habsent, h⟩
  | delete entryId =>
    simp only [ResolvedMutation.mapEntry] at h
    split at h
    · cases h
    · next existing hexisting =>
      right
      rw [Relational.pure_eq_ok] at h
      obtain ⟨hfound, haccess⟩ := accessibleEntry_eq_ok.1 hexisting
      exact ⟨_, _, .deleted hfound haccess, h⟩
  | replace entryId entry =>
    simp only [ResolvedMutation.mapEntry] at h
    split at h
    · cases h
    · next existing hexisting =>
      split_ifs at h
      · cases h
      · right
        obtain ⟨stamped, -, h⟩ := Relational.bind_eq_ok.1 h
        rw [Relational.pure_eq_ok] at h
        obtain ⟨hfound, haccess⟩ := accessibleEntry_eq_ok.1 hexisting
        exact ⟨_, _, .replaced hfound haccess, h⟩

theorem apply_keeps_hidden {mutation : ResolvedMutation}
    (h : applyResolvedWorkingMemoryMutation document mutation principalRef now = .ok (.succeeded document'))
    (hclear : mutation ≠ .clear) (hfound : document.entries.entryOf entryId = some entry)
    (hhidden : entry.canAccess principalRef = false) :
    document'.entries.entryOf entryId = some entry := by
  rcases apply_succeeded h with ⟨heq, -⟩ | ⟨entries, distinct, hchanged, hparsed⟩
  · exact absurd heq hclear
  · have hkept := hchanged.keeps hfound hhidden
    have hentry := document.parsed_entry hfound
    exact reparsed_keeps hparsed hentry hkept

/-- A mutation resolved for a principal clears everything, or is about an entry the principal may
access. -/
theorem resolve_accessible {P : Platform} {nextEntryId : WorkingMemoryEntryId} {draft : MutationDraft}
    {outcome : ResolvedOutcome}
    (h : resolveWorkingMemoryMutation P document principalRef nextEntryId draft = .ok outcome) :
    match outcome.mutation with
    | .create _ entry => entry.canAccess principalRef = true
    | .replace entryId _ | .delete entryId => ∃ existing,
        document.entries.entryOf entryId = some existing ∧ existing.canAccess principalRef = true
    | .clear => True := by
  unfold resolveWorkingMemoryMutation at h
  split_ifs at h
  cases draft with
  | create _ kind summary scope value value_keyed =>
    cases h
    cases scope <;> simp [WorkingMemoryEntry.canAccess]
  | clear _ =>
    cases h
    trivial
  | delete _ entryId =>
    obtain ⟨existing, hexisting, h⟩ := Relational.bind_eq_ok.1 h
    cases h
    exact ⟨existing, accessibleEntry_eq_ok.1 hexisting⟩
  | replace _ entryId kind summary value value_keyed =>
    obtain ⟨existing, hexisting, h⟩ := Relational.bind_eq_ok.1 h
    cases h
    exact ⟨existing, accessibleEntry_eq_ok.1 hexisting⟩

end Mutations

/-! ## Readers -/

section Readers

variable {document other : FlexibleWorkingMemory T} {principalRef : String}

theorem visible_congr (h : document.accessible principalRef = other.accessible principalRef) :
    visibleWorkingMemoryEntries document principalRef = visibleWorkingMemoryEntries other principalRef := by
  rw [visibleWorkingMemoryEntries, visibleWorkingMemoryEntries, h]

theorem prompt_congr (h : document.accessible principalRef = other.accessible principalRef) :
    projectWorkingMemoryForPrompt document principalRef =
      projectWorkingMemoryForPrompt other principalRef := by
  rw [projectWorkingMemoryForPrompt, projectWorkingMemoryForPrompt, visible_congr h]

/-- What a review finds, without the revision its findings are bound to. -/
def reviewed (T : TimeFormats) (E : ReviewEngine) (document : FlexibleWorkingMemory T)
    (principalRef now : String) : Except Thrown (List Observation) :=
  (reviewWorkingMemoryDocument T E document principalRef now).map fun report =>
    report.findings.map ReviewFinding.toObservation

/-- The findings are computed from the entries the principal may access alone. -/
theorem reviewed_eq (E : ReviewEngine) (document : FlexibleWorkingMemory T) (principalRef now : String) :
    reviewed T E document principalRef now =
      (observe T E (document.accessible principalRef) now).bind fun observations =>
        if (observations.all Observation.valid && T.isUtcInstant now) = true then
          .ok (observations.map Observation.trimmed)
        else .error .zodError := by
  unfold reviewed reviewWorkingMemoryDocument
  cases hobserved : observe T E (document.accessible principalRef) now with
  | error e => rfl
  | ok observations =>
    by_cases hvalid : (observations.all Observation.valid && T.isUtcInstant now) = true
    · have hfindings : (observations.map fun observation =>
          ({ toObservation := observation.trimmed
             basedOnRevision := workingMemoryRevision E.toPlatform document } : ReviewFinding)).map
            ReviewFinding.toObservation = observations.map Observation.trimmed := by
        simp [Function.comp_def]
      simp only [bind, Except.bind, if_pos hvalid, pure, Except.pure, Except.map, hfindings]
    · simp only [bind, Except.bind, if_neg hvalid, throw, throwThe, MonadExceptOf.throw, Except.map]

theorem reviewed_congr {E : ReviewEngine} {now : String}
    (h : document.accessible principalRef = other.accessible principalRef) :
    reviewed T E document principalRef now = reviewed T E other principalRef now := by
  rw [reviewed_eq, reviewed_eq, h]

end Readers

/-- A mutation accepted for a principal either clears the document or leaves every entry the principal
may not access as it is; and documents with the same accessible entries are shown, prompted with and
reviewed alike, but for the revision the findings are bound to. -/
theorem members_isolated (T : TimeFormats) (E : ReviewEngine) (principalRef now : String) :
    (∀ (document document' : FlexibleWorkingMemory T) (mutation : ResolvedMutation),
      applyResolvedWorkingMemoryMutation document mutation principalRef now =
        .ok (.succeeded document') →
      (mutation = .clear ∧ document' = emptyWorkingMemoryDocument T) ∨
      ∀ entryId entry, document.entries.entryOf entryId = some entry →
        entry.canAccess principalRef = false → document'.entries.entryOf entryId = some entry) ∧
    (∀ (document : FlexibleWorkingMemory T) nextEntryId draft outcome,
      resolveWorkingMemoryMutation E.toPlatform document principalRef nextEntryId draft = .ok outcome →
      match outcome.mutation with
      | .create _ entry => entry.canAccess principalRef = true
      | .replace entryId _ | .delete entryId => ∃ existing,
          document.entries.entryOf entryId = some existing ∧ existing.canAccess principalRef = true
      | .clear => True) ∧
    ∀ document other : FlexibleWorkingMemory T,
      document.accessible principalRef = other.accessible principalRef →
      visibleWorkingMemoryEntries document principalRef =
        visibleWorkingMemoryEntries other principalRef ∧
      projectWorkingMemoryForPrompt document principalRef =
        projectWorkingMemoryForPrompt other principalRef ∧
      reviewed T E document principalRef now = reviewed T E other principalRef now := by
  constructor
  · intro document document' mutation h
    by_cases hclear : mutation = .clear
    · left
      rcases apply_succeeded h with heq | ⟨entries, distinct, hchanged, hparsed⟩
      · exact heq
      · subst hclear
        cases h
        exact ⟨rfl, rfl⟩
    · right
      intro entryId entry hfound hhidden
      exact apply_keeps_hidden h hclear hfound hhidden
  constructor
  · intro document nextEntryId draft outcome h
    exact resolve_accessible h
  · intro document other h
    exact ⟨visible_congr h, prompt_congr h, reviewed_congr h⟩

namespace TestMemory

open TestInteraction (times)
open TestCommand (suffix proposalHash recordHash)

def engine : ReviewEngine where
  canonicalize := stringify
  sha256 text := if text.utf8ByteSize < 250 then recordHash else proposalHash
  localeCompare := compare
  jsonIn _ := none
  sort _ comparison items := items.insertionSort fun left right => comparison left right != .gt

def now : String := "2026-01-01T00:05:00.000Z"

def sharedId : WorkingMemoryEntryId := ⟨suffix, by decide⟩

def privateId : WorkingMemoryEntryId := ⟨"01K00000000000000000000001", by decide⟩

/-- Context of a member that is stored for the household, which the review finds. -/
def sharedEntry : WorkingMemoryEntry where
  kind := .member_context
  summary := "Lives in Lisbon."
  scope := .household
  ownerPrincipalRef := none
  value := .str "Lisbon"
  value_keyed := by decide
  lifecycle := none

def privateEntry : WorkingMemoryEntry where
  kind := .goal
  summary := "Leave the job next year."
  scope := .member
  ownerPrincipalRef := some "principal:ben"
  value := .str "leave"
  value_keyed := by decide
  lifecycle := none

def sharedDocument : FlexibleWorkingMemory times where
  entries := [(sharedId, sharedEntry)]
  distinct := by decide
  parsed := by decide +kernel
  bounded := by
    rw [MemoryEntries.bounded_eq]
    decide +kernel

def fullDocument : FlexibleWorkingMemory times where
  entries := [(sharedId, sharedEntry), (privateId, privateEntry)]
  distinct := by decide
  parsed := by decide +kernel
  bounded := by
    rw [MemoryEntries.bounded_eq]
    decide +kernel

end TestMemory

open TestMemory TestCommand in
theorem engine_sha256 (text : String) :
    engine.sha256 text = recordHash ∨ engine.sha256 text = proposalHash :=
  ite_eq_or_eq _ _ _

open TestMemory TestInteraction TestCommand in
/-- Ana's request to clear everything is accepted and takes Ben's private entry with it, and the
revision that Ana's review findings carry tells whether Ben has one. -/
theorem member_isolation_fails :
    (∃ outcome, resolveWorkingMemoryMutation engine.toPlatform fullDocument "principal:ana" sharedId
        (.clear (workingMemoryRevision engine.toPlatform fullDocument).hex) = .ok outcome ∧
      outcome.mutation = .clear) ∧
    (∃ document', applyResolvedWorkingMemoryMutation fullDocument .clear "principal:ana" now =
        .ok (.succeeded document') ∧
      fullDocument.entries.entryOf privateId = some privateEntry ∧
      privateEntry.canAccess "principal:ana" = false ∧
      document'.entries.entryOf privateId = none) ∧
    sharedDocument.accessible "principal:ana" = fullDocument.accessible "principal:ana" ∧
    (reviewWorkingMemoryDocument times engine sharedDocument "principal:ana" now).map
        ReviewReport.findings ≠
      (reviewWorkingMemoryDocument times engine fullDocument "principal:ana" now).map
        ReviewReport.findings := by
  have hhash : workingMemoryRevision engine.toPlatform fullDocument = recordHash ∨
      workingMemoryRevision engine.toPlatform fullDocument = proposalHash := by
    rw [workingMemoryRevision, hashArtifact]
    exact engine_sha256 _
  have hcleared : resolveWorkingMemoryMutation engine.toPlatform fullDocument "principal:ana" sharedId
      (.clear (workingMemoryRevision engine.toPlatform fullDocument).hex) = .ok ⟨.clear, true⟩ := by
    unfold resolveWorkingMemoryMutation
    generalize workingMemoryRevision engine.toPlatform fullDocument = hash at hhash ⊢
    rcases hhash with rfl | rfl <;> decide +kernel
  refine ⟨⟨⟨.clear, true⟩, hcleared, rfl⟩, ⟨emptyWorkingMemoryDocument times, rfl, ?_, ?_, rfl⟩, ?_, ?_⟩ <;>
    decide +kernel

open TestMemory TestInteraction in
/-- Deleting the shared entry leaves Ben's, and Ana's review is the same with it and without. -/
theorem members_isolated_delete :
    (∃ document', applyResolvedWorkingMemoryMutation fullDocument (.delete sharedId) "principal:ana"
        now = .ok (.succeeded document') ∧
      document'.entries.entryOf privateId = some privateEntry) ∧
    reviewed times engine sharedDocument "principal:ana" now =
      reviewed times engine fullDocument "principal:ana" now := by
  have happlied : applyResolvedWorkingMemoryMutation fullDocument (.delete sharedId) "principal:ana"
      now = .ok (.succeeded ⟨[(privateId, privateEntry)], by decide, by decide +kernel,
        by decide +kernel⟩) := by
    decide +kernel
  obtain ⟨hmutations, -, hreaders⟩ := members_isolated times engine "principal:ana" now
  constructor
  · rcases hmutations _ _ _ happlied with ⟨hclear, -⟩ | hkept
    · cases hclear
    · exact ⟨_, happlied, hkept privateId privateEntry (by decide) (by decide)⟩
  · exact (hreaders sharedDocument fullDocument (by decide)).2.2

end PlusOne
