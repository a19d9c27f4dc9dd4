import PlusOne.Ingestion.Confirmations
import PlusOne.Ingestion.ReconciliationReadback

/-! # Reading the outcome of a batch back

What a confirmed batch reads back as, and when that is what its proposal expects. -/

namespace PlusOne

open Relational
open List (Forall₂)

/-! ## Told apart as JSON -/

theorem ImportBatchState.text_injective : Function.Injective ImportBatchState.text := by
  intro state other h
  cases state <;> cases other <;> first | rfl | simp [text] at h

theorem ImportAction.text_injective : Function.Injective ImportAction.text := by
  intro action other h
  cases action <;> cases other <;> first | rfl | simp [text] at h

theorem RowOutcome.faithful : Faithful RowOutcome.json := by
  apply Faithful.of_record
  · intro outcome
    constructor
    · simp [entries]
    · simp [entries, Json.keyed]
  · intro outcome other
    simp [entries]
  · rintro ⟨rowId, action⟩ ⟨rowId', action'⟩
    simp [entries, SameEntry, sameJson, OpaqueId.text_injective.eq_iff, ImportAction.text_injective.eq_iff]

theorem faithful_nullableBool : Faithful nullableBool where
  keyed := by
    intro value
    cases value <;> rfl
  same_iff := by
    intro value other
    cases value <;> cases other <;> simp [nullableBool, sameJson]

theorem BatchOutcome.faithful : Faithful BatchOutcome.json := by
  have hdecisions := RowOutcome.faithful.arr
  apply Faithful.of_record
  · intro outcome
    have hkeyed := hdecisions.keyed outcome.decisions
    have hkeyed' := faithful_nullableBool.keyed outcome.allRowsBoundToCheckedArtifact
    constructor
    · simp [entries]
    · simp only [entries, List.forall_mem_cons]
      simp [Json.keyed] at hkeyed ⊢
      exact ⟨hkeyed, hkeyed'⟩
  · intro outcome other
    simp [entries]
  · intro outcome other
    have hsame := hdecisions.same_iff outcome.decisions other.decisions
    have hsame' := faithful_nullableBool.same_iff outcome.allRowsBoundToCheckedArtifact
      other.allRowsBoundToCheckedArtifact
    cases outcome
    cases other
    simp only [entries, List.forall₂_cons, List.forall₂_nil_left_iff, SameEntry, Option.rel_some_some,
      hsame, hsame', true_and]
    simp [sameJson, OpaqueId.text_injective.eq_iff, ImportBatchState.text_injective.eq_iff]

/-! ## NULL in aggregates -/

theorem sqlAnd_eq_true {a b : Option Bool} : sqlAnd a b = some true ↔ a = some true ∧ b = some true := by
  cases a with
  | none => cases b with
    | none => simp [sqlAnd]
    | some b => cases b <;> simp [sqlAnd]
  | some a => cases a <;> cases b with
    | none => simp [sqlAnd]
    | some b => cases b <;> simp [sqlAnd]

/-- An aggregate over one value, however often. -/
theorem boolAnd_of_forall {values : List (Option Bool)} {value : Option Bool} (hne : values ≠ [])
    (h : ∀ v ∈ values, v = value) : boolAnd values = value := by
  obtain ⟨first, rest, rfl⟩ := List.exists_cons_of_ne_nil hne
  have hfirst : first = value := h first (by simp)
  have hmem : ∀ v, v ∈ first :: rest ↔ v = value := by
    intro v
    constructor
    · exact h v
    · rintro rfl
      simp [hfirst]
  simp only [boolAnd, hmem]
  cases value with
  | none => simp
  | some value => cases value <;> simp

/-! ## What is committed -/

namespace IngestionRepository

variable {d d' : IngestionDb} {importBatchId id : ImportBatchId} {old new : ImportBatchState}

theorem movedBatch_id (batch : ImportBatchRow) :
    (movedBatch importBatchId old new batch).importBatchId = batch.importBatchId := by
  unfold movedBatch
  split <;> rfl

theorem lockBatch_moved :
    lockBatch { d with importBatches := d.importBatches.map (movedBatch importBatchId old new) } id =
      (lockBatch d id).map (movedBatch importBatchId old new) :=
  find_map movedBatch_id

theorem transitionBatch_ok (h : transitionBatch d importBatchId old new = .ok d') :
    (∃ batch, lockBatch d importBatchId = some batch ∧ batch.state = old) ∧
      d' = { d with importBatches := d.importBatches.map (movedBatch importBatchId old new) } := by
  rw [transitionBatch, require_bind_eq_ok, require_bind_eq_ok] at h
  obtain ⟨hbatch, -, h⟩ := h
  cases h
  constructor
  · simpa [Option.any_eq_true] using hbatch
  · rfl

/-- A batch in the old state is in the new one; the others are as they were. -/
theorem lockBatch_transition (h : transitionBatch d importBatchId old new = .ok d') :
    (∃ batch, lockBatch d importBatchId = some batch ∧ batch.state = old ∧
      lockBatch d' importBatchId = some { batch with state := new }) ∧
      ∀ id, id ≠ importBatchId → lockBatch d' id = lockBatch d id := by
  obtain ⟨⟨batch, hbatch, hstate⟩, rfl⟩ := transitionBatch_ok h
  have hid : batch.importBatchId = importBatchId := (find_some hbatch).2
  constructor
  · refine ⟨batch, hbatch, hstate, ?_⟩
    rw [lockBatch_moved, hbatch]
    simp [movedBatch, hid, hstate]
  · intro id hne
    rw [lockBatch_moved]
    cases hother : lockBatch d id with
    | none => rfl
    | some other =>
      have hotherId : other.importBatchId = id := (find_some hother).2
      simp [movedBatch, hotherId, hne]

/-- What the reconciliations are read from is left alone. -/
structure SameReconciliations (d d' : IngestionDb) : Prop where
  reconciliations : d'.reconciliations = d.reconciliations
  items : d'.reconciliationItems = d.reconciliationItems
  evidence : d'.reconciliationEvidence = d.reconciliationEvidence

theorem SameReconciliations.trans {d₁ d₂ d₃ : IngestionDb} (h : SameReconciliations d₁ d₂)
    (h' : SameReconciliations d₂ d₃) : SameReconciliations d₁ d₃ where
  reconciliations := h'.reconciliations.trans h.reconciliations
  items := h'.items.trans h.items
  evidence := h'.evidence.trans h.evidence

end IngestionRepository

namespace ConfirmImportBatch

open IngestionRepository

variable {Draft : Type} {post : Posting Draft} {d d' : IngestionDb} {importBatchId : ImportBatchId}
  {context : CheckedCommand} {records : List CommittedRecordReference}

/-- The row made of a decision, up to the journal it refers to. -/
structure DecisionMade (importBatchId : ImportBatchId) (context : CheckedCommand)
    (decision : ImportRowDecision Draft) (row : ImportRowDecisionRow) : Prop where
  importBatchId : row.importBatchId = importBatchId
  normalizedRowId : row.normalizedRowId = decision.normalizedRowId
  checkedArtifactId : row.checkedArtifactId = context.checkedProposalId
  checkedArtifactHash : row.checkedArtifactHash = context.checkedProposalHash
  action : row.action = decision.choice.action

/-- What the statements on rows change of the tables the outcome of a batch is read from. -/
structure DecisionsAdded (d d' : IngestionDb) (rows : List ImportRowDecisionRow) : Prop where
  importBatches : d'.importBatches = d.importBatches
  rowDecisions : d'.rowDecisions = d.rowDecisions ++ rows
  reconciliations : SameReconciliations d d'

theorem linkJournalSource_ok {link : JournalSourceLinkRow} (h : linkJournalSource d link = .ok d') :
    d' = { d with sourceLinks := d.sourceLinks ++ [link] } := by
  rw [linkJournalSource, require_bind_eq_ok, require_bind_eq_ok] at h
  obtain ⟨-, -, h⟩ := h
  cases h
  rfl

theorem insertRowDecision_ok {row : ImportRowDecisionRow} (h : insertRowDecision d row = .ok d') :
    ∃ target, d' = { d with rowDecisions := d.rowDecisions ++ [{ row with targetJournalId := target }] } := by
  rw [insertRowDecision, require_bind_eq_ok, require_bind_eq_ok, require_bind_eq_ok] at h
  obtain ⟨-, -, -, h⟩ := h
  cases h
  exact ⟨_, rfl⟩

theorem applyDecision_ok {decision : ImportRowDecision Draft}
    (h : applyDecision post importBatchId context decision d = .ok (records, d')) :
    ∃ row, DecisionMade importBatchId context decision row ∧ DecisionsAdded d d' [row] := by
  rw [applyDecision] at h
  obtain ⟨d₁, hinsert, h⟩ := bind_eq_ok.1 h
  obtain ⟨target, rfl⟩ := insertRowDecision_ok hinsert
  refine ⟨{ decisionRow importBatchId context decision with targetJournalId := target },
    ⟨rfl, rfl, rfl, rfl, rfl⟩, ?_⟩
  cases hchoice : decision.choice with
  | post draft =>
    simp only [hchoice] at h
    obtain ⟨⟨journalId, ledger⟩, -, h⟩ := bind_eq_ok.1 h
    obtain ⟨d₂, hlink, h⟩ := bind_eq_ok.1 h
    cases h
    obtain rfl := linkJournalSource_ok hlink
    exact ⟨rfl, rfl, rfl, rfl, rfl⟩
  | link_existing existingJournalId =>
    simp only [hchoice] at h
    obtain ⟨d₂, hlink, h⟩ := bind_eq_ok.1 h
    cases h
    obtain rfl := linkJournalSource_ok hlink
    exact ⟨rfl, rfl, rfl, rfl, rfl⟩
  | defer | reject =>
    simp only [hchoice] at h
    cases h
    exact ⟨rfl, rfl, rfl, rfl, rfl⟩

theorem applyDecisions_ok {decisions : List (ImportRowDecision Draft)}
    (h : applyDecisions post importBatchId context decisions d = .ok (records, d')) :
    ∃ rows, Forall₂ (DecisionMade importBatchId context) decisions rows ∧ DecisionsAdded d d' rows := by
  induction decisions generalizing d records with
  | nil =>
    cases h
    exact ⟨[], .nil, rfl, by simp, rfl, rfl, rfl⟩
  | cons decision decisions ih =>
    rw [applyDecisions] at h
    obtain ⟨⟨first, d₁⟩, hfirst, h⟩ := bind_eq_ok.1 h
    obtain ⟨⟨others, d₂⟩, hrest, h⟩ := bind_eq_ok.1 h
    cases h
    obtain ⟨row, hrow, hadded⟩ := applyDecision_ok hfirst
    obtain ⟨rows, hrows, hothers⟩ := ih hrest
    refine ⟨row :: rows, .cons hrow hrows, hothers.importBatches.trans hadded.importBatches, ?_,
      hadded.reconciliations.trans hothers.reconciliations⟩
    rw [hothers.rowDecisions, hadded.rowDecisions]
    simp

variable {proposal : ConfirmImportBatchProposal Draft} {output : MutationExecutionOutput}
  {batch : ImportBatchRow} {rows : List ImportRowDecisionRow}

/-- What a command leaves behind: the batch in its last state, and a row for each decision. -/
structure Committed (d d' : IngestionDb) (proposal : ConfirmImportBatchProposal Draft)
    (context : CheckedCommand) (batch : ImportBatchRow) (rows : List ImportRowDecisionRow) : Prop where
  awaiting : lockBatch d proposal.importBatchId = some batch ∧ batch.state = .awaiting_confirmation
  decided : Forall₂ (DecisionMade proposal.importBatchId context) proposal.decisions rows
  rowDecisions : d'.rowDecisions = d.rowDecisions ++ rows
  finished : lockBatch d' proposal.importBatchId =
    some { batch with state := terminalState proposal.decisions }
  others : ∀ id, id ≠ proposal.importBatchId → lockBatch d' id = lockBatch d id
  reconciliations : SameReconciliations d d'

theorem execute_ok (h : execute post d proposal context = .ok (output, d')) :
    output.expectedState = (expectedOutcome proposal).json ∧
      ∃ batch rows, Committed d d' proposal context batch rows := by
  rw [execute, require_bind_eq_ok] at h
  obtain ⟨-, h⟩ := h
  obtain ⟨d₁, happroved, h⟩ := bind_eq_ok.1 h
  obtain ⟨d₂, hposting, h⟩ := bind_eq_ok.1 h
  obtain ⟨⟨records, d₃⟩, hdecisions, h⟩ := bind_eq_ok.1 h
  obtain ⟨d₄, hfinished, h⟩ := bind_eq_ok.1 h
  cases h
  obtain ⟨⟨batch, hbatch, hawaiting, hfirst⟩, hothers₁⟩ := lockBatch_transition happroved
  obtain ⟨⟨batch₁, hbatch₁, -, hsecond⟩, hothers₂⟩ := lockBatch_transition hposting
  obtain ⟨rows, hrows, hadded⟩ := applyDecisions_ok hdecisions
  obtain ⟨⟨batch₃, hbatch₃, -, hlast⟩, hothers₄⟩ := lockBatch_transition hfinished
  have hlock : ∀ id, lockBatch d₃ id = lockBatch d₂ id := by
    intro id
    rw [lockBatch, lockBatch, hadded.importBatches]
  obtain rfl : batch₁ = { batch with state := .approved } :=
    Option.some.inj (hbatch₁.symm.trans hfirst)
  obtain rfl : batch₃ = { batch with state := .posting } := by
    rw [hlock, hsecond] at hbatch₃
    exact (Option.some.inj hbatch₃).symm
  obtain ⟨-, rfl⟩ := transitionBatch_ok happroved
  obtain ⟨-, rfl⟩ := transitionBatch_ok hposting
  obtain ⟨-, rfl⟩ := transitionBatch_ok hfinished
  refine ⟨rfl, batch, rows, ⟨hbatch, hawaiting⟩, hrows, hadded.rowDecisions, hlast, ?_, ?_⟩
  · intro id hne
    rw [hothers₄ id hne, hlock, hothers₂ id hne, hothers₁ id hne]
  · exact ⟨hadded.reconciliations.reconciliations, hadded.reconciliations.items,
      hadded.reconciliations.evidence⟩

/-! ## What is read -/

def outcomeOrder (outcome : RowOutcome) : List Nat :=
  ReconciliationRepository.idOrder outcome.normalizedRowId

def rowOutcome (decision : ImportRowDecision Draft) : RowOutcome :=
  ⟨decision.normalizedRowId, decision.choice.action⟩

/-- The rows that come back are those of the command, where none were there before. -/
theorem decisionsOf_committed (h : Committed d d' proposal context batch rows)
    (hfirst : ∀ row ∈ d.rowDecisions, row.importBatchId ≠ proposal.importBatchId) :
    decisionsOf d' proposal.importBatchId = rows := by
  have hnone : d.rowDecisions.filter (fun row => row.importBatchId == proposal.importBatchId) = [] := by
    rw [List.filter_eq_nil_iff]
    intro row hrow
    simpa using hfirst row hrow
  have hall : rows.filter (fun row => row.importBatchId == proposal.importBatchId) = rows := by
    rw [List.filter_eq_self]
    intro row hrow
    obtain ⟨decision, -, hmade⟩ := forall₂_mem_left h.decided.flip hrow
    simpa using hmade.importBatchId
  rw [decisionsOf, h.rowDecisions, List.filter_append, hnone, hall, List.nil_append]

theorem outcomes_made {decisions : List (ImportRowDecision Draft)}
    (h : Forall₂ (DecisionMade importBatchId context) decisions rows) :
    rows.map (fun row => (⟨row.normalizedRowId, row.action⟩ : RowOutcome)) = decisions.map rowOutcome := by
  induction h with
  | nil => rfl
  | cons hmade _ ih => simp [rowOutcome, hmade.normalizedRowId, hmade.action, ih]

theorem readBatchOutcome_committed (h : Committed d d' proposal context batch rows)
    (hfirst : ∀ row ∈ d.rowDecisions, row.importBatchId ≠ proposal.importBatchId) :
    readBatchOutcome d' proposal.importBatchId = .ok
      { importBatchId := proposal.importBatchId
        state := terminalState proposal.decisions
        decisions := orderBy outcomeOrder (proposal.decisions.map rowOutcome)
        allRowsBoundToCheckedArtifact := sqlAnd
          (batch.checkedArtifactId.map (· == context.checkedProposalId))
          (batch.checkedArtifactHash.map (· == context.checkedProposalHash)) } := by
  have hid : batch.importBatchId = proposal.importBatchId := (find_some h.awaiting.1).2
  have hrows := decisionsOf_committed h hfirst
  have hdecisions : (orderBy rowOrder rows).map (fun row => (⟨row.normalizedRowId, row.action⟩ : RowOutcome)) =
      orderBy outcomeOrder (proposal.decisions.map rowOutcome) := by
    rw [← outcomes_made h.decided]
    symm
    exact orderBy_map fun row => rfl
  have hbound : boolAnd (rows.map (bound { batch with state := terminalState proposal.decisions })) = sqlAnd
      (batch.checkedArtifactId.map (· == context.checkedProposalId))
      (batch.checkedArtifactHash.map (· == context.checkedProposalHash)) := by
    apply boolAnd_of_forall
    · have hlength := h.decided.length_eq
      have hpos := List.length_pos_iff.2 proposal.decided
      intro hnil
      have hzero : rows.length = 0 := by simpa using congrArg List.length hnil
      omega
    · intro value hvalue
      obtain ⟨row, hrow, rfl⟩ := List.mem_map.1 hvalue
      obtain ⟨decision, -, hmade⟩ := forall₂_mem_left h.decided.flip hrow
      rw [bound, hmade.checkedArtifactId, hmade.checkedArtifactHash]
  rw [readBatchOutcome, h.finished]
  simp only [hrows, hdecisions, hbound]
  rw [hid]

/-- The decisions in the order of their rows, under the artifact the batch was checked with. -/
structure ReadsBack (d : IngestionDb) (proposal : ConfirmImportBatchProposal Draft)
    (context : CheckedCommand) : Prop where
  decisions : Ascending (fun decision : ImportRowDecision Draft =>
    ReconciliationRepository.idOrder decision.normalizedRowId) proposal.decisions
  checked : ∃ batch, lockBatch d proposal.importBatchId = some batch ∧
    batch.checkedArtifactId = some context.checkedProposalId ∧
    batch.checkedArtifactHash = some context.checkedProposalHash

theorem committed_passes_iff
    (hfirst : ∀ row ∈ d.rowDecisions, row.importBatchId ≠ proposal.importBatchId)
    (h : execute post d proposal context = .ok (output, d')) :
    ReadbackPasses (readback d' proposal output.expectedState.jsonb) ↔
      ReadsBack d proposal context := by
  obtain ⟨hexpected, batch, rows, hcommitted⟩ := execute_ok h
  have hread := readBatchOutcome_committed hcommitted hfirst
  generalize hbound : sqlAnd (batch.checkedArtifactId.map (· == context.checkedProposalId))
    (batch.checkedArtifactHash.map (· == context.checkedProposalHash)) = checked at hread
  have htext : canonicalText (BatchOutcome.json ⟨proposal.importBatchId, terminalState proposal.decisions,
      orderBy outcomeOrder (proposal.decisions.map rowOutcome), checked⟩) =
        canonicalText output.expectedState.jsonb ↔
      orderBy outcomeOrder (proposal.decisions.map rowOutcome) = proposal.decisions.map rowOutcome ∧
        checked = some true := by
    have hkeyed := BatchOutcome.faithful.keyed (expectedOutcome proposal)
    have houtcome : expectedOutcome proposal = ⟨proposal.importBatchId, terminalState proposal.decisions,
      proposal.decisions.map rowOutcome, some true⟩ := rfl
    rw [hexpected, canonicalText_jsonb hkeyed, BatchOutcome.faithful.canonicalText_iff, houtcome,
      BatchOutcome.mk.injEq]
    simp
  have hpasses : ReadbackPasses (readback d' proposal output.expectedState.jsonb) ↔
      orderBy outcomeOrder (proposal.decisions.map rowOutcome) = proposal.decisions.map rowOutcome ∧
        checked = some true := by
    rw [← htext]
    simp only [ReadbackPasses, readback, hread, bind, Except.bind, pure, Except.pure,
      LedgerReadback.readbackCheck]
    by_cases htrue : checked = some true
    · simp [htrue]
      split <;> simp_all
    · have hnot := htext.not.2 (fun h => htrue h.2)
      simp [htrue, hnot]
  have hordered : orderBy outcomeOrder (proposal.decisions.map rowOutcome) = proposal.decisions.map rowOutcome ↔
      Ascending (fun decision : ImportRowDecision Draft =>
        ReconciliationRepository.idOrder decision.normalizedRowId) proposal.decisions := by
    rw [orderBy_eq_self_iff]
    apply ReconciliationRepository.ascending_of_keys
    simp [outcomeOrder, rowOutcome]
  rw [hpasses, hordered, ← hbound, sqlAnd_eq_true]
  constructor
  · rintro ⟨hascending, hid, hhash⟩
    exact ⟨hascending, batch, hcommitted.awaiting.1, by simpa using hid, by simpa using hhash⟩
  · rintro ⟨hascending, other, hother, hid, hhash⟩
    obtain rfl : batch = other := Option.some.inj (hcommitted.awaiting.1.symm.trans hother)
    exact ⟨hascending, by simp [hid], by simp [hhash]⟩

end ConfirmImportBatch

end PlusOne
