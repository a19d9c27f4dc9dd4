import PlusOne.Memory.Isolation
import PlusOne.Memory.MutexRuns
import PlusOne.Memory.Stored

/-! # Mutations of the working memory

What `applyWorkingMemoryMutation` does while it has the mutex of its resource: it reads the document,
migrates it when an older version stored it, checks the revision, writes, and reads back. -/

namespace PlusOne

open Interleaving

variable {T : TimeFormats}

/-! ## Comparing entries -/

/-- `comparableWorkingMemoryEntry` -/
def comparableWorkingMemoryEntry (entry : WorkingMemoryEntry) : Except Thrown String :=
  (canonicalizeWorkingMemoryValue { entry with lifecycle := none }.toJson).map stringify

/-- `comparable(entry) === comparable(other)` for an entry that may be missing. -/
def sameComparable (entry : Option WorkingMemoryEntry) (other : WorkingMemoryEntry) :
    Except Thrown Bool :=
  match entry with
  | none => .ok false
  | some entry => do
    let left ← comparableWorkingMemoryEntry entry
    let right ← comparableWorkingMemoryEntry other
    return left == right

def verifyWorkingMemoryReadback (before after : MemoryEntries) :
    ResolvedMutation → Except Thrown Bool
  | .create entryId entry => do
    if !(← sameComparable (after.entryOf entryId) entry) then return false
    return (before.entryOf entryId).isNone
  | .replace entryId entry => do
    if (before.entryOf entryId).isNone then return false
    if ← sameComparable (before.entryOf entryId) entry then return false
    sameComparable (after.entryOf entryId) entry
  | .delete entryId => .ok ((before.entryOf entryId).isSome && (after.entryOf entryId).isNone)
  | .clear => .ok (after.isEmpty && !before.isEmpty)

/-! ## Outcomes -/

inductive MutationOperation
  | create | replace | delete | clear

def ResolvedMutation.operation : ResolvedMutation → MutationOperation
  | create .. => .create
  | replace .. => .replace
  | delete _ => .delete
  | clear => .clear

inductive OperationStatus
  | succeeded | failed

/-- `WorkingMemoryOperationOutcome` -/
structure MemoryOutcome where
  operation : String
  status : OperationStatus
  code : String
  category : Option ErrorCategory
  retry : Option RetryDirective

/-- `WorkingMemoryMutationOutcome` -/
inductive MutationOutcome (T : TimeFormats)
  | succeeded (operation : MutationOperation) (code : String) (document : FlexibleWorkingMemory T)
      (outcome : MemoryOutcome)
  | failed (operation : MutationOperation) (code : String) (category : ErrorCategory)
      (retry : RetryDirective) (outcome : MemoryOutcome) (error : PlusOneError)

def newMemoryError (code : String) (category : ErrorCategory) (retry : RetryDirective) : PlusOneError :=
  { category, code
    message := "Working Memory operation failed."
    retry
    receiptLookupRequired := false
    details := [("operation", .text "working_memory")] }

def mutationSuccess (operation : MutationOperation) (code : String) (document : FlexibleWorkingMemory T)
    (outcomeOperation : String) : MutationOutcome T :=
  .succeeded operation code document ⟨outcomeOperation, .succeeded, code, none, none⟩

/-- `mutationFailure`; a cause that is a `PlusOneError` is the error itself. -/
def mutationFailure (operation : MutationOperation) (code : String) (category : ErrorCategory)
    (retry : RetryDirective) (cause : Option Thrown) : MutationOutcome T :=
  .failed operation code category retry ⟨"mutate", .failed, code, some category, some retry⟩
    (match cause with
    | some (.plusOne error) => error
    | _ => newMemoryError code category retry)

def mutationFailureCategory (code : MutationFailure) : ErrorCategory :=
  if code = .entry_forbidden then .policy_rejected else .validation_rejected

/-! ## The operation -/

structure MutationInput where
  principalRef : String
  basedOnRevision : ArtifactHash
  mutation : ResolvedMutation

section Operation

variable (P : Platform) (contentOf : String → StoredContent T)

def canonicalWorkingMemoryJson (document : FlexibleWorkingMemory T) : String :=
  P.canonicalize document.entries.toJson

def loadFlexibleWorkingMemory : MemoryProgram (Except PlusOneError (DecodedWorkingMemory T)) :=
  (Prog.perform MemoryCall.get).handle
    (fun stored => do
      let now ← Prog.perform MemoryCall.now
      match ← decodeStoredWorkingMemory contentOf stored now with
      | some decoded => return .ok decoded
      | none => return .error (newMemoryError "working_memory_read_failed" .validation_rejected .never))
    fun _ => .ret (.error (newMemoryError "working_memory_read_failed" .storage_unavailable .after_backoff))

def persistAndVerifyMigration (document : FlexibleWorkingMemory T) :
    MemoryProgram (Except PlusOneError (FlexibleWorkingMemory T)) :=
  (Prog.perform (MemoryCall.update (canonicalWorkingMemoryJson P document))).handle
    (fun _ => do
      let mismatch := newMemoryError "working_memory_readback_mismatch" .readback_mismatch .after_backoff
      match ← loadFlexibleWorkingMemory contentOf with
      | .error _ => return .error mismatch
      | .ok readback =>
        if readback.migrated ∨
            workingMemoryRevision P readback.document ≠ workingMemoryRevision P document then
          return .error mismatch
        else return .ok readback.document)
    fun _ =>
      .ret (.error (newMemoryError "working_memory_write_failed" .storage_unavailable .after_backoff))

def loadCurrentFlexibleWorkingMemory : MemoryProgram (Except PlusOneError (FlexibleWorkingMemory T)) := do
  match ← loadFlexibleWorkingMemory contentOf with
  | .error error => return .error error
  | .ok loaded =>
    if !loaded.migrated then return .ok loaded.document
    else persistAndVerifyMigration P contentOf loaded.document

def readbackMismatch (operation : MutationOperation) : MutationOutcome T :=
  mutationFailure operation "working_memory_readback_mismatch" .readback_mismatch .after_backoff none

/-- The write of a mutation, and the read that confirms it. -/
def writeMutation (input : MutationInput) (document applied : FlexibleWorkingMemory T) :
    MemoryProgram (MutationOutcome T) :=
  (Prog.perform (MemoryCall.update (canonicalWorkingMemoryJson P applied))).handle
    (fun _ => do
      match ← loadFlexibleWorkingMemory contentOf with
      | .error _ => return readbackMismatch input.mutation.operation
      | .ok readback =>
        if readback.migrated then return readbackMismatch input.mutation.operation
        else
          let verified ← Prog.ofExcept
            (verifyWorkingMemoryReadback document.entries readback.document.entries input.mutation)
          if verified then
            return mutationSuccess input.mutation.operation "working_memory_mutation_succeeded"
              readback.document "mutate"
          else return readbackMismatch input.mutation.operation)
    fun error => .ret (mutationFailure input.mutation.operation "working_memory_write_failed"
      .storage_unavailable .after_backoff (some error))

/-- The operation of `applyWorkingMemoryMutation`. -/
def applyWorkingMemoryMutation (input : MutationInput) : MemoryProgram (MutationOutcome T) := do
  match ← loadCurrentFlexibleWorkingMemory P contentOf with
  | .error error =>
    return mutationFailure input.mutation.operation error.code error.category error.retry
      (some (.plusOne error))
  | .ok document =>
    if workingMemoryRevision P document ≠ input.basedOnRevision then
      return mutationFailure input.mutation.operation "working_memory_revision_stale"
        .serialization_conflict .after_state_resolution none
    else
      let now ← Prog.perform MemoryCall.now
      match ← Prog.ofExcept
          (applyResolvedWorkingMemoryMutation document input.mutation input.principalRef now) with
      | .failed code =>
        return mutationFailure input.mutation.operation code.code (mutationFailureCategory code) .never none
      | .succeeded applied => writeMutation P contentOf input document applied

end Operation

/-! ## What an operation writes -/

/-- A write puts what the mutation makes of the document then stored, at the revision that the
mutation is based on, or migrates what is stored. -/
def WriteAllowed (P : Platform) (contentOf : String → StoredContent T) (input : MutationInput) :
    MemoryCall → Option String → Prop
  | .update text, stored =>
    (∃ document applied now, storedDocument contentOf stored = some document ∧
      workingMemoryRevision P document = input.basedOnRevision ∧
      applyResolvedWorkingMemoryMutation document input.mutation input.principalRef now =
        .ok (.succeeded applied) ∧
      text = canonicalWorkingMemoryJson P applied) ∨
    ∃ document now, Exec memoryCell (decodeStoredWorkingMemory contentOf stored now) stored
        (.ok (some ⟨document, true⟩)) stored ∧
      text = canonicalWorkingMemoryJson P document
  | .get, _ | .now, _ | .nextEntryId _, _ => True

/-- Calls that leave the stored text as it is. -/
def MemoryCall.reads : MemoryCall → Bool
  | .update _ => false
  | .get | .now | .nextEntryId _ => true

section Writes

variable {P : Platform} {contentOf : String → StoredContent T} {input : MutationInput}
  {stored stored' : Option String} {document : FlexibleWorkingMemory T}

theorem memoryCell_reads (op : MemoryCall) (choice : MemoryChoice) (r : Except Thrown (MemoryReply op))
    (d d' : Option String) (hreads : op.reads = true) (h : memoryCell.run op choice d = some (r, d')) :
    d' = d := by
  cases op with
  | update text => cases hreads
  | get =>
    cases choice <;> cases h
    · rfl
    · rfl
  | now =>
    cases choice <;> cases h
    rfl
  | nextEntryId taken =>
    cases choice with
    | entryId entryId =>
      simp only [memoryCell] at h
      split_ifs at h
      cases h
      rfl
    | answer => cases h
    | fail error => cases h
    | time now => cases h

theorem decode_reads (stored : Option String) (now : String) :
    (decodeStoredWorkingMemory contentOf stored now).Calls fun op => op.reads = true := by
  apply (decodeStoredWorkingMemory_calls contentOf stored now).mono
  intro op h
  obtain ⟨taken, rfl⟩ := h
  rfl

theorem now_reads : (Prog.perform MemoryCall.now : MemoryProgram String).Calls fun op =>
    op.reads = true :=
  Prog.Calls.perform (P := fun op : MemoryCall => op.reads = true) rfl

theorem load_reads : (loadFlexibleWorkingMemory contentOf).Calls fun op => op.reads = true := by
  have hget : (Prog.perform MemoryCall.get : MemoryProgram (Option String)).Calls fun op =>
      op.reads = true :=
    Prog.Calls.perform (P := fun op : MemoryCall => op.reads = true) rfl
  apply hget.handle
  · intro stored
    apply now_reads.bind
    intro now
    apply (decode_reads stored now).bind
    intro decoded
    cases decoded with
    | none => exact .ret _
    | some decoded => exact .ret _
  · exact fun _ => .ret _

theorem safe_of_reads {α : Type} {p : MemoryProgram α} (h : p.Calls fun op => op.reads = true)
    (d : Option String) : p.Safe memoryCell (WriteAllowed P contentOf input) d := by
  apply Prog.Safe.of_calls
  apply h.mono
  intro op hreads d
  cases op with
  | update text => cases hreads
  | get => trivial
  | now => trivial
  | nextEntryId taken => trivial

/-! ## What is read -/

/-- What a load gives is what the stored text reads as. -/
theorem load_inv {out : Except Thrown (Except PlusOneError (DecodedWorkingMemory T))}
    (h : Exec memoryCell (loadFlexibleWorkingMemory contentOf) stored out stored') :
    stored' = stored ∧ ∀ decoded, out = .ok (.ok decoded) → ∃ now,
      Exec memoryCell (decodeStoredWorkingMemory contentOf stored now) stored (.ok (some decoded)) stored := by
  have hsame : stored' = stored := h.unchanged memoryCell_reads load_reads
  subst hsame
  refine ⟨rfl, ?_⟩
  intro decoded hout
  subst hout
  rcases h.handle_inv with ⟨text, d₁, hget, hrest⟩ | ⟨e, d₁, _, hrest⟩
  · obtain ⟨choice, hget⟩ := hget.perform_inv
    cases choice <;> cases hget
    rcases hrest.bind_inv with ⟨now, d₂, hnow, hdecode⟩ | ⟨e, _, hout⟩
    · have hd₂ : d₂ = stored' := hnow.unchanged memoryCell_reads now_reads
      subst hd₂
      rcases hdecode.bind_inv with ⟨found, d₃, hfound, hend⟩ | ⟨e, _, hout⟩
      · cases found with
        | none => cases hend
        | some found =>
          cases hend
          exact ⟨now, hfound⟩
      · cases hout
    · cases hout
  · cases hrest

/-- An older document is always migrated. -/
theorem decodeLegacy_migrated {known : LegacyHouseholdWorkingMemory} {unknown : List (String × Json)}
    {unknown_keyed : (Json.obj unknown).keyed = true} {lifecycle : WorkingMemoryLifecycle}
    {decoded : DecodedWorkingMemory T}
    (h : Exec memoryCell (decodeLegacy T known unknown unknown_keyed lifecycle) stored
      (.ok (some decoded)) stored') : decoded.migrated = true := by
  have hdocument : ∀ entries : DistinctEntries, migratedDocument T entries = some decoded →
      decoded.migrated = true := by
    intro entries hentries
    obtain ⟨document, _, rfl⟩ := Option.map_eq_some_iff.1 hentries
    rfl
  rcases h.bind_inv with ⟨entries, d₁, _, hrest⟩ | ⟨e, _, hout⟩
  · split_ifs at hrest with hempty hvalue
    · generalize hend : migratedDocument T entries = result at hrest
      cases hrest
      exact hdocument entries hend
    · rcases hrest.bind_inv with ⟨entries', d₂, _, hlast⟩ | ⟨e, _, hout⟩
      · generalize hend : migratedDocument T entries' = result at hlast
        cases hlast
        exact hdocument entries' hend
      · cases hout
    · cases hrest
  · cases hout

/-- A text that is read without a migration stands for the document it is read as. -/
theorem storedDocument_of_decode {now : String} {decoded : DecodedWorkingMemory T}
    (h : Exec memoryCell (decodeStoredWorkingMemory contentOf stored now) stored
      (.ok (some decoded)) stored') (hmigrated : decoded.migrated = false) :
    storedDocument contentOf stored = some decoded.document := by
  rcases h.bind_inv with ⟨lifecycle, d₁, _, hrest⟩ | ⟨e, _, hout⟩
  · cases stored with
    | none =>
      cases hrest
      rfl
    | some text =>
      simp only at hrest
      simp only [storedDocument]
      split at hrest
      · cases hrest
      · next found hcontent =>
        rw [hcontent]
        cases hfilled : decodeFlexible found lifecycle with
        | error e =>
          rw [hfilled] at hrest
          cases hrest
        | ok filled =>
          rw [hfilled] at hrest
          cases hrest
          have hstamped : found.unstamped = false := by
            rw [← migrated_of_decodeFlexible hfilled]
            exact hmigrated
          simp only [hstamped, Bool.false_eq_true, if_false,
            decodeFlexible_of_stamped hstamped hfilled]
      · next known unknown keyed hcontent =>
        have htrue := decodeLegacy_migrated hrest
        rw [hmigrated] at htrue
        cases htrue
  · cases hout

theorem storedDocument_of_load {decoded : DecodedWorkingMemory T}
    (h : Exec memoryCell (loadFlexibleWorkingMemory contentOf) stored (.ok (.ok decoded)) stored')
    (hmigrated : decoded.migrated = false) :
    storedDocument contentOf stored' = some decoded.document := by
  obtain ⟨rfl, hdecoded⟩ := load_inv h
  obtain ⟨now, hdecode⟩ := hdecoded decoded rfl
  exact storedDocument_of_decode hdecode hmigrated

theorem persist_inv {migration current : FlexibleWorkingMemory T}
    (h : Exec memoryCell (persistAndVerifyMigration P contentOf migration) stored
      (.ok (.ok current)) stored') : storedDocument contentOf stored' = some current := by
  rcases h.handle_inv with ⟨_, d₁, _, hrest⟩ | ⟨e, d₁, _, hrest⟩
  · rcases hrest.bind_inv with ⟨loaded, d₂, hload, hend⟩ | ⟨e, _, hout⟩
    · cases loaded with
      | error e => cases hend
      | ok readback =>
        simp only at hend
        split_ifs at hend with hbad
        · cases hend
        · cases hend
          have hmigrated : readback.migrated = false := by
            cases hmark : readback.migrated with
            | false => rfl
            | true => exact absurd (.inl hmark) hbad
          exact storedDocument_of_load hload hmigrated
    · cases hout
  · cases hrest

theorem loadCurrent_inv (h : Exec memoryCell (loadCurrentFlexibleWorkingMemory P contentOf) stored
    (.ok (.ok document)) stored') : storedDocument contentOf stored' = some document := by
  rcases h.bind_inv with ⟨loaded, d₁, hload, hend⟩ | ⟨e, _, hout⟩
  · cases loaded with
    | error e => cases hend
    | ok loaded =>
      simp only at hend
      split_ifs at hend with hmark
      · cases hend
        have hmigrated : loaded.migrated = false := by simpa using hmark
        exact storedDocument_of_load hload hmigrated
      · exact persist_inv hend
  · cases hout

/-! ## What is written -/

theorem loadCurrent_safe (d : Option String) :
    (loadCurrentFlexibleWorkingMemory P contentOf).Safe memoryCell (WriteAllowed P contentOf input) d := by
  apply (safe_of_reads load_reads d).bind
  intro loaded d₁ hload
  cases loaded with
  | error e => trivial
  | ok loaded =>
    simp only
    split_ifs with hmark
    · trivial
    · have hmigrated : loaded.migrated = true := by simpa using hmark
      obtain ⟨rfl, hdecoded⟩ := load_inv hload
      obtain ⟨now, hdecode⟩ := hdecoded loaded rfl
      have hwrite : WriteAllowed P contentOf input
          (.update (canonicalWorkingMemoryJson P loaded.document)) d₁ := by
        right
        rw [show loaded = ⟨loaded.document, true⟩ by rw [← hmigrated]] at hdecode
        exact ⟨loaded.document, now, hdecode, rfl⟩
      have hperform : (Prog.perform (MemoryCall.update (canonicalWorkingMemoryJson P loaded.document)) :
          MemoryProgram Unit).Safe memoryCell (WriteAllowed P contentOf input) d₁ := by
        refine ⟨hwrite, ?_⟩
        intro choice r d' _
        cases r <;> trivial
      apply hperform.handle
      · intro _ d₂ _
        apply (safe_of_reads load_reads d₂).bind
        intro readback d₃ _
        cases readback with
        | error e => trivial
        | ok readback =>
          simp only
          split_ifs <;> trivial
      · exact fun _ _ _ => trivial

/-- Whatever is stored when the operation starts, it writes only what it may. -/
theorem applyWorkingMemoryMutation_safe (d : Option String) :
    (applyWorkingMemoryMutation P contentOf input).Safe memoryCell (WriteAllowed P contentOf input) d := by
  apply (loadCurrent_safe d).bind
  intro loaded d₁ hload
  cases loaded with
  | error e => trivial
  | ok document =>
    simp only
    split_ifs with hrevision
    · trivial
    · have hstored := loadCurrent_inv hload
      apply (safe_of_reads now_reads d₁).bind
      intro now d₂ hnow
      have hd₂ : d₂ = d₁ := hnow.unchanged memoryCell_reads now_reads
      subst hd₂
      cases happlied : applyResolvedWorkingMemoryMutation document input.mutation input.principalRef now with
      | error e => trivial
      | ok result =>
        cases result with
        | failed code => trivial
        | succeeded applied =>
          have hwrite : WriteAllowed P contentOf input
              (.update (canonicalWorkingMemoryJson P applied)) d₂ :=
            .inl ⟨document, applied, now, hstored, not_not.1 hrevision, happlied, rfl⟩
          have hperform : (Prog.perform (MemoryCall.update (canonicalWorkingMemoryJson P applied)) :
              MemoryProgram Unit).Safe memoryCell (WriteAllowed P contentOf input) d₂ := by
            refine ⟨hwrite, ?_⟩
            intro choice r d' _
            cases r <;> trivial
          apply hperform.handle
          · intro _ d₃ _
            apply (safe_of_reads load_reads d₃).bind
            intro readback d₄ _
            cases readback with
            | error e => trivial
            | ok readback =>
              simp only
              split_ifs
              · trivial
              · cases hverified : verifyWorkingMemoryReadback document.entries
                    readback.document.entries input.mutation with
                | error e => trivial
                | ok verified => cases verified <;> trivial
          · exact fun _ _ _ => trivial

end Writes

/-! ## All interleavings of calls -/

/-- The operation of each call and the resource it is made on. -/
def mutationCalls {ι : Type} (P : Platform) (contentOf : String → StoredContent T)
    (calls : ι → String × MutationInput) : ι → String × MemoryProgram (MutationOutcome T) :=
  fun i => ((calls i).1, applyWorkingMemoryMutation P contentOf (calls i).2)

/-- In every state that an interleaving of calls reaches: what is stored for a resource none of whose
calls is pending is what these calls leave when they run one at a time in the order in which they were
made, and the mutex has no entry for it; every write is allowed; and a call goes on when those made
before it on its resource are over, however they ended. -/
theorem no_lost_update {ι : Type} [DecidableEq ι] (P : Platform) (contentOf : String → StoredContent T)
    (calls : ι → String × MutationInput) (d₀ : String → Option String)
    (c : MutexConfig ι String MemoryReply Thrown (MutationOutcome T) (Option String))
    (hrun : Reachable (Guard.all (mutexSystem memoryCell ι String))
      (startCalls d₀ (mutationCalls P contentOf calls)) c) :
    (∀ resourceId, (∀ i ∈ c.state.made resourceId, IsOver c i) →
      (∀ i, i ∈ c.state.made resourceId ↔ (calls i).1 = resourceId ∧ IsOver c i) ∧
      (∃ log : List (ι × Except Thrown (MutationOutcome T)),
        log.map Prod.fst = c.state.made resourceId ∧
        (∀ entry ∈ log, c.threads entry.1 = .finished entry.2) ∧
        Serial memoryCell (fun i => applyWorkingMemoryMutation P contentOf (calls i).2) log
          (d₀ resourceId) (c.state.value resourceId)) ∧
      c.state.tails resourceId = none) ∧
    (∀ i resourceId op k, c.threads i = .running (.call (.inside resourceId op) k) →
      WriteAllowed P contentOf (calls i).2 op (c.state.value resourceId)) ∧
    ∀ i call k, c.threads i = .running (.call call k) → (∀ resourceId op, call ≠ .inside resourceId op) →
      (∀ resourceId, i ∈ c.state.made resourceId → ∀ j ∈ MutexOk.earlier c resourceId i, IsOver c j) →
      ∃ answer s, MutexSys.run memoryCell i call .sync c.state = some (.ok answer, s) := by
  have hok : MutexOk memoryCell d₀ (fun i => WriteAllowed P contentOf (calls i).2)
      (mutationCalls P contentOf calls) c :=
    mutexOk_of_reachable (fun i d => applyWorkingMemoryMutation_safe d) hrun
  refine ⟨?_, ?_, ?_⟩
  · intro resourceId hover
    refine ⟨?_, hok.serial hover, hok.no_tail hover⟩
    intro i
    constructor
    · intro hmade
      exact ⟨(hok.served_of_isOver (hover i hmade) hmade).1, hover i hmade⟩
    · intro hdone
      rw [← hdone.1]
      exact hok.made_of_isOver hdone.2
  · intro i resourceId op k hi
    exact hok.step_safe hi
  · intro i call k hi houtside hearlier
    exact hok.goes_on hi houtside hearlier

namespace TestMemory

open TestInteraction (times)

/-- The shared entry with a lifecycle, so that nothing has to be migrated. -/
def stampedDocument : FlexibleWorkingMemory times where
  entries := [(sharedId, { sharedEntry with lifecycle := some ⟨now, now, none, none⟩ })]
  distinct := by decide
  parsed := by decide +kernel
  bounded := by
    rw [MemoryEntries.bounded_eq]
    decide +kernel

def stampedText : String := canonicalWorkingMemoryJson engine.toPlatform stampedDocument

def contentOf (text : String) : StoredContent times :=
  if text = stampedText then .flexible stampedDocument
  else .flexible (emptyWorkingMemoryDocument times)

/-- Two requests to clear the document. -/
def clearings (_ : Fin 2) : String × MutationInput :=
  ("household", ⟨"principal:ana", workingMemoryRevision engine.toPlatform stampedDocument, .clear⟩)

def clearingStart : MutexConfig (Fin 2) String MemoryReply Thrown (MutationOutcome times) (Option String) :=
  startCalls (fun _ => some stampedText) (mutationCalls engine.toPlatform contentOf clearings)

attribute [local instance] Interleaving.twoThreads in
/-- The storage fails the first call; the second was made meanwhile, and clears the document. -/
def clearingRun : List (Event (Fin 2) (MutexChoice memoryCell) Empty) :=
  [.call 0 .sync, .call 1 .sync, .call 0 .sync, .call 0 (.inside (.fail (.error "down"))),
    .call 0 .sync, .finish 0,
    .call 1 .sync, .call 1 (.inside .answer), .call 1 (.inside (.time now)),
    .call 1 (.inside (.time now)), .call 1 (.inside .answer), .call 1 (.inside .answer),
    .call 1 (.inside (.time now)), .call 1 .sync, .finish 1]

end TestMemory

open TestMemory in
theorem no_lost_update_clearings :
    ∃ c, clearingStart.play (mutexSystem memoryCell (Fin 2) String) clearingRun = some c ∧
      c.state.value "household" =
        some (canonicalWorkingMemoryJson engine.toPlatform (emptyWorkingMemoryDocument TestInteraction.times)) ∧
      (∃ log, log.map Prod.fst = [0, 1] ∧ Serial memoryCell
        (fun i => applyWorkingMemoryMutation engine.toPlatform contentOf (clearings i).2) log
        (some stampedText) (c.state.value "household")) ∧
      c.state.tails "household" = none := by
  have hplayed : (clearingStart.play (mutexSystem memoryCell (Fin 2) String) clearingRun).isSome = true := by
    decide +kernel
  obtain ⟨c, hc⟩ := Option.isSome_iff_exists.1 hplayed
  have hmade : (clearingStart.play (mutexSystem memoryCell (Fin 2) String) clearingRun).map
      (fun c => c.state.made "household") = some [0, 1] := by
    decide +kernel
  have hvalue : (clearingStart.play (mutexSystem memoryCell (Fin 2) String) clearingRun).map
      (fun c => c.state.value "household") = some (some (canonicalWorkingMemoryJson engine.toPlatform
        (emptyWorkingMemoryDocument TestInteraction.times))) := by
    decide +kernel
  have hdone : (clearingStart.play (mutexSystem memoryCell (Fin 2) String) clearingRun).map
      (fun c => ((c.threads 0).value?.isSome, (c.threads 1).value?.isSome)) = some (true, true) := by
    decide +kernel
  rw [hc] at hmade hvalue hdone
  simp only [Option.map_some, Option.some.injEq, Prod.mk.injEq] at hmade hvalue hdone
  have hover : ∀ i ∈ c.state.made "household", IsOver c i := by
    intro i _
    have hi : (c.threads i).value?.isSome = true := by
      match i with
      | 0 => exact hdone.1
      | 1 => exact hdone.2
    obtain ⟨outcome, houtcome⟩ := Option.isSome_iff_exists.1 hi
    exact ⟨.ok outcome, Thread.value?_eq_some.1 houtcome⟩
  obtain ⟨hserial, _, _⟩ := no_lost_update engine.toPlatform contentOf clearings
    (fun _ => some stampedText) c (Reachable.of_play_all hc)
  obtain ⟨_, ⟨log, hlog, _, hexec⟩, htails⟩ := hserial "household" hover
  exact ⟨c, hc, hvalue, ⟨log, hlog.trans hmade, hexec⟩, htails⟩

end PlusOne
