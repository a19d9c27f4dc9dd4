import PlusOne.Ingestion.Reconciliations

/-! # Reading a reconciliation back

What a committed proposal reads back as, and when that is the proposal again. -/

namespace PlusOne

open Numeric Relational
open List (Forall₂)

/-! ## Told apart as JSON -/

theorem CompletionStatus.text_injective : Function.Injective CompletionStatus.text := by
  intro status other h
  cases status <;> cases other <;> first | rfl | simp [text] at h

theorem ReconciliationItemStatus.text_injective : Function.Injective ReconciliationItemStatus.text := by
  intro status other h
  cases status <;> cases other <;> first | rfl | simp [text] at h

theorem CurrencyCode.code_injective : Function.Injective CurrencyCode.code := by
  intro currency other h
  cases currency
  cases other
  simpa using h

theorem faithful_id {kind : IdKind} : Faithful fun id : OpaqueId kind => .str id.text :=
  .str OpaqueId.text_injective

theorem faithful_string : Faithful Json.str := .str Function.injective_id

theorem Discrepancy.faithful : Faithful Discrepancy.json := by
  apply Faithful.of_record
  · intro discrepancy
    constructor
    · simp [entries]
    · simp [entries, Json.keyed]
  · intro discrepancy other
    rfl
  · rintro ⟨discrepancyId, code, detail⟩ ⟨discrepancyId', code', detail'⟩
    simp [entries, SameEntry, sameJson, OpaqueId.text_injective.eq_iff]

theorem ReconciliationItem.faithful : Faithful ReconciliationItem.json := by
  apply Faithful.of_record
  · intro item
    constructor
    · simp [entries]
    · simp only [entries, List.forall_mem_cons]
      simp [Json.keyed]
  · intro item other
    rfl
  · intro item other
    cases item
    cases other
    simp [entries, SameEntry, sameJson, OpaqueId.text_injective.eq_iff, faithful_id.rel_map_iff,
      faithful_string.rel_map_iff, decimalStringText_injective.eq_iff,
      ReconciliationItemStatus.text_injective.eq_iff]

theorem ReconciliationState.faithful : Faithful ReconciliationState.json := by
  have hevidence := (@faithful_id .artifact).arr
  have hitems := ReconciliationItem.faithful.arr
  have hdiscrepancies := Discrepancy.faithful.arr
  apply Faithful.of_record
  · intro state
    constructor
    · simp [entries]
    · have hkeyed := hevidence.keyed state.evidenceArtifactIds
      have hkeyed' := hitems.keyed state.items
      have hkeyed'' := hdiscrepancies.keyed state.unresolvedDiscrepancies
      simp only [entries, List.forall_mem_cons]
      simp [Json.keyed] at hkeyed hkeyed' hkeyed'' ⊢
      exact ⟨rfl, hkeyed, hkeyed', hkeyed''⟩
  · intro state other
    simp [entries]
  · intro state other
    have hsame := hevidence.same_iff state.evidenceArtifactIds other.evidenceArtifactIds
    have hsame' := hitems.same_iff state.items other.items
    have hsame'' := hdiscrepancies.same_iff state.unresolvedDiscrepancies other.unresolvedDiscrepancies
    obtain ⟨facts, ⟨_, _, _, _⟩, _, _⟩ := state
    obtain ⟨facts', ⟨_, _, _, _⟩, _, _⟩ := other
    cases facts
    cases facts'
    simp only [entries, List.forall₂_cons, List.forall₂_nil_left_iff, SameEntry, Option.rel_some_some,
      hsame, hsame', hsame'', true_and]
    simp [sameJson, OpaqueId.text_injective.eq_iff, decimalStringText_injective.eq_iff,
      LocalDate.text_injective.eq_iff, CompletionStatus.text_injective.eq_iff,
      CurrencyCode.code_injective.eq_iff]
    tauto

/-! ## What is committed -/

/-- Items and evidence belong to a stored reconciliation. -/
structure IngestionDb.Referenced (d : IngestionDb) : Prop where
  items : ∀ item ∈ d.reconciliationItems, ∃ row ∈ d.reconciliations,
    row.reconciliationId = item.reconciliationId
  evidence : ∀ link ∈ d.reconciliationEvidence, ∃ row ∈ d.reconciliations,
    row.reconciliationId = link.reconciliationId

namespace ReconciliationRepository

variable {d d' : IngestionDb} {reconciliationId : ReconciliationId}

/-- A column holds an amount as it was given. -/
def StoredAs (amount : DecimalString) (column : DecimalAmount) : Prop := Fixed.store amount = some column

structure BalancesStored (balances : Balances DecimalString) (columns : Balances DecimalAmount) : Prop where
  ledgerOpeningBalance : StoredAs balances.ledgerOpeningBalance columns.ledgerOpeningBalance
  ledgerClosingBalance : StoredAs balances.ledgerClosingBalance columns.ledgerClosingBalance
  statementOpeningBalance : StoredAs balances.statementOpeningBalance columns.statementOpeningBalance
  statementClosingBalance : StoredAs balances.statementClosingBalance columns.statementClosingBalance

theorem storedBalances_ok {balances : Balances DecimalString} {columns : Balances DecimalAmount}
    (h : storedBalances balances = .ok columns) : BalancesStored balances columns := by
  unfold storedBalances at h
  obtain ⟨ledgerOpening, hledgerOpening, h⟩ := bind_eq_ok.1 h
  obtain ⟨ledgerClosing, hledgerClosing, h⟩ := bind_eq_ok.1 h
  obtain ⟨statementOpening, hstatementOpening, h⟩ := bind_eq_ok.1 h
  obtain ⟨statementClosing, hstatementClosing, h⟩ := bind_eq_ok.1 h
  cases h
  exact ⟨stored_eq_ok.1 hledgerOpening, stored_eq_ok.1 hledgerClosing, stored_eq_ok.1 hstatementOpening,
    stored_eq_ok.1 hstatementClosing⟩

/-- The row of a reconciliation is new, and the only change. -/
theorem insertReconciliation_ok {state : ReconciliationState} {makerArtifactId checkerArtifactId : ArtifactId}
    (h : insertReconciliation d state makerArtifactId checkerArtifactId = .ok d') :
    ∃ columns, BalancesStored state.balances columns ∧
      (∀ old ∈ d.reconciliations, old.reconciliationId ≠ state.reconciliationId) ∧
      d' = { d with reconciliations := d.reconciliations ++
        [⟨state.toReconciliationFacts, columns, makerArtifactId, checkerArtifactId⟩] } := by
  rw [insertReconciliation, require_bind_eq_ok] at h
  obtain ⟨-, h⟩ := h
  obtain ⟨columns, hcolumns, h⟩ := bind_eq_ok.1 h
  rw [require_bind_eq_ok, require_bind_eq_ok, require_bind_eq_ok] at h
  obtain ⟨hfresh, -, -, h⟩ := h
  cases h
  refine ⟨columns, storedBalances_ok hcolumns, ?_, rfl⟩
  simpa using hfresh

/-- An item and the row made of it. -/
def ItemMade (d : IngestionDb) (reconciliationId : ReconciliationId) (item : ReconciliationItem DecimalString)
    (row : ReconciliationItemRow) : Prop :=
  ∃ column, StoredAs item.amountDifference column ∧ row = joinedItem d reconciliationId item column

theorem insertItem_ok {item : ReconciliationItem DecimalString}
    (h : insertItem d reconciliationId item = .ok d') :
    ∃ row, ItemMade d reconciliationId item row ∧
      d' = { d with reconciliationItems := d.reconciliationItems ++ [row] } := by
  rw [insertItem, require_bind_eq_ok] at h
  obtain ⟨-, h⟩ := h
  obtain ⟨column, hcolumn, h⟩ := bind_eq_ok.1 h
  rw [require_bind_eq_ok] at h
  obtain ⟨-, h⟩ := h
  cases h
  exact ⟨_, ⟨column, stored_eq_ok.1 hcolumn, rfl⟩, rfl⟩

/-- The rows of the items follow one another. The joins find what they found before the first. -/
theorem insertItems_ok {items : List (ReconciliationItem DecimalString)}
    (h : insertItems reconciliationId items d = .ok d') :
    ∃ rows, Forall₂ (ItemMade d reconciliationId) items rows ∧
      d' = { d with reconciliationItems := d.reconciliationItems ++ rows } := by
  induction items generalizing d with
  | nil =>
    cases h
    exact ⟨[], .nil, by simp⟩
  | cons item items ih =>
    rw [insertItems] at h
    obtain ⟨d₁, hinsert, h⟩ := bind_eq_ok.1 h
    obtain ⟨row, hrow, rfl⟩ := insertItem_ok hinsert
    obtain ⟨rows, hrows, rfl⟩ := ih h
    have hsame : Forall₂ (ItemMade d reconciliationId) items rows := hrows
    exact ⟨row :: rows, .cons hrow hsame, by simp⟩

theorem insertEvidenceLinks_ok {artifactIds : List ArtifactId}
    (h : insertEvidenceLinks d reconciliationId artifactIds = .ok d') :
    d' = { d with reconciliationEvidence := d.reconciliationEvidence ++
      artifactIds.map fun artifactId => ⟨reconciliationId, artifactId⟩ } := by
  rw [insertEvidenceLinks] at h
  obtain ⟨links, hlinks, h⟩ := bind_eq_ok.1 h
  cases h
  obtain ⟨rfl, -⟩ := linkAll_eq_ok hlinks
  rfl

end ReconciliationRepository

namespace RecordReconciliation

open ReconciliationRepository

variable {d d' : IngestionDb} {proposal : ReconciliationProposal} {context : CheckedCommand}
  {output : MutationExecutionOutput}

/-- What a command leaves behind: the row, the items and the evidence of its proposal. -/
structure Committed (d d' : IngestionDb) (proposal : ReconciliationProposal) (context : CheckedCommand)
    (columns : Balances DecimalAmount) (rows : List ReconciliationItemRow) : Prop where
  balances : BalancesStored proposal.balances columns
  fresh : ∀ old ∈ d.reconciliations, old.reconciliationId ≠ proposal.reconciliationId
  items : Forall₂ (ItemMade d proposal.reconciliationId) proposal.items rows
  state : d' = { d with
    reconciliations := d.reconciliations ++ [⟨proposal.toReconciliationFacts, columns,
      context.checkedProposalId, context.checkedProposalId⟩]
    reconciliationItems := d.reconciliationItems ++ rows
    reconciliationEvidence := d.reconciliationEvidence ++
      proposal.evidenceArtifactIds.map fun artifactId => ⟨proposal.reconciliationId, artifactId⟩ }

theorem execute_ok (h : execute d proposal context = .ok (output, d')) :
    output.expectedState = proposal.toReconciliationState.json ∧
      ∃ columns rows, Committed d d' proposal context columns rows := by
  rw [execute] at h
  obtain ⟨d₁, hrow, h⟩ := bind_eq_ok.1 h
  obtain ⟨d₂, hitems, h⟩ := bind_eq_ok.1 h
  obtain ⟨d₃, hevidence, h⟩ := bind_eq_ok.1 h
  cases h
  obtain ⟨columns, hbalances, hfresh, rfl⟩ := insertReconciliation_ok hrow
  obtain ⟨rows, hrows, rfl⟩ := insertItems_ok hitems
  have hstate := insertEvidenceLinks_ok hevidence
  have hmade : Forall₂ (ItemMade d proposal.reconciliationId) proposal.items rows := hrows
  exact ⟨rfl, columns, rows, hbalances, hfresh, hmade, hstate⟩

end RecordReconciliation

/-! ## What is read -/

/-- The amount is spelled the way the query prints amounts: two fraction digits, no negative zero. -/
def PrintedAsIs (amount : DecimalString) : Prop := amount.scale = 2 ∧ ¬amount.NegativeZero

/-- The identifiers an item names are those of rows. -/
structure ItemKnown (d : IngestionDb) (item : ReconciliationItem DecimalString) : Prop where
  statementLine : ∀ id ∈ item.statementLineId, ∃ line ∈ d.statementLines, line.statementLineId = id
  normalizedRow : ∀ id ∈ item.normalizedRowId, ∃ row ∈ d.normalizedRows, row.normalizedRowId = id
  journal : ∀ id ∈ item.journalId, ∃ journal ∈ d.journals, journal.journalId = id

theorem filter_eq_self_iff {α : Type*} {p : α → Bool} {o : Option α} :
    o.filter p = o ↔ ∀ a ∈ o, p a = true := by
  cases o with
  | none => simp
  | some a => simp

namespace ReconciliationRepository

variable {d : IngestionDb} {reconciliationId : ReconciliationId}

theorem amountText_eq_iff {amount : DecimalString} {column : DecimalAmount} (h : StoredAs amount column) :
    amountText column = amount ↔ PrintedAsIs amount :=
  Fixed.printed_eq_iff (by omega) h

theorem balances_eq_iff {balances : Balances DecimalString} {columns : Balances DecimalAmount}
    (h : BalancesStored balances columns) :
    columns.map amountText = balances ↔ balances.All PrintedAsIs := by
  have hledgerOpening := amountText_eq_iff h.ledgerOpeningBalance
  have hledgerClosing := amountText_eq_iff h.ledgerClosingBalance
  have hstatementOpening := amountText_eq_iff h.statementOpeningBalance
  have hstatementClosing := amountText_eq_iff h.statementClosingBalance
  cases balances
  simp only [Balances.map, Balances.mk.injEq, hledgerOpening, hledgerClosing, hstatementOpening,
    hstatementClosing]
  constructor
  · rintro ⟨h₁, h₂, h₃, h₄⟩
    exact ⟨h₁, h₂, h₃, h₄⟩
  · rintro ⟨h₁, h₂, h₃, h₄⟩
    exact ⟨h₁, h₂, h₃, h₄⟩

theorem readItem_eq_iff {item : ReconciliationItem DecimalString} {row : ReconciliationItemRow}
    (h : ItemMade d reconciliationId item row) :
    readItem row = item ↔ ItemKnown d item ∧ PrintedAsIs item.amountDifference := by
  obtain ⟨column, hcolumn, rfl⟩ := h
  have hamount := amountText_eq_iff hcolumn
  obtain ⟨itemId, lineId, rowId, journalId, status, amountDifference, explanation⟩ := item
  simp only [readItem, joinedItem, ReconciliationItem.mk.injEq, filter_eq_self_iff, hamount,
    List.any_eq_true, beq_iff_eq, true_and, and_true]
  constructor
  · rintro ⟨hline, hrow, hjournal, hprinted⟩
    exact ⟨⟨hline, hrow, hjournal⟩, hprinted⟩
  · rintro ⟨⟨hline, hrow, hjournal⟩, hprinted⟩
    exact ⟨hline, hrow, hjournal, hprinted⟩

theorem itemId_made {item : ReconciliationItem DecimalString} {row : ReconciliationItemRow}
    (h : ItemMade d reconciliationId item row) :
    row.reconciliationItemId = item.reconciliationItemId ∧ row.reconciliationId = reconciliationId := by
  obtain ⟨column, -, rfl⟩ := h
  exact ⟨rfl, rfl⟩

def itemOrder {Amount : Type} (item : ReconciliationItem Amount) : List Nat :=
  idOrder item.reconciliationItemId

theorem ascending_of_keys {R S K : Type*} [LinearOrder K] {key : R → K} {keyS : S → K} {rows : List R}
    {others : List S} (h : rows.map key = others.map keyS) : Ascending key rows ↔ Ascending keyS others := by
  have hrows : Ascending key rows ↔ (rows.map key).Pairwise (· ≤ ·) := List.pairwise_map.symm
  have hothers : Ascending keyS others ↔ (others.map keyS).Pairwise (· ≤ ·) := List.pairwise_map.symm
  rw [hrows, hothers, h]

/-- The items come back as they were given exactly when they were in order and each of them does. -/
theorem items_eq_iff {items : List (ReconciliationItem DecimalString)} {rows : List ReconciliationItemRow}
    (h : Forall₂ (ItemMade d reconciliationId) items rows) :
    orderBy itemOrder (rows.map readItem) = items ↔
      Ascending itemOrder items ∧
        ∀ item ∈ items, ItemKnown d item ∧ PrintedAsIs item.amountDifference := by
  have hback : rows.map readItem = items ↔
      ∀ item ∈ items, ItemKnown d item ∧ PrintedAsIs item.amountDifference := by
    induction h with
    | nil => simp
    | cons hmade _ ih => simp [readItem_eq_iff hmade, ih]
  have hkeys : (rows.map readItem).map itemOrder = items.map itemOrder := by
    clear hback
    induction h with
    | nil => rfl
    | cons hmade _ ih =>
      have hid := (itemId_made hmade).1
      simp [itemOrder, readItem, hid] at ih ⊢
      exact ih
  have hordered := ascending_of_keys hkeys
  constructor
  · intro heq
    have hascending : Ascending itemOrder items := by
      rw [← heq]
      exact ascending_orderBy
    have hsame : orderBy itemOrder (rows.map readItem) = rows.map readItem :=
      orderBy_eq_self_iff.2 (hordered.2 hascending)
    exact ⟨hascending, hback.1 (hsame.symm.trans heq)⟩
  · rintro ⟨hascending, hitems⟩
    rw [hback.2 hitems]
    exact orderBy_eq_self_iff.2 hascending

end ReconciliationRepository

/-- Every check of a read-back passes. -/
def ReadbackPasses (result : Except Thrown DomainReadbackOutput) : Prop :=
  ∃ out, result = .ok out ∧ ∀ check ∈ out.checks, check.status = .passed

namespace RecordReconciliation

open ReconciliationRepository

variable {d d' : IngestionDb} {proposal : ReconciliationProposal} {context : CheckedCommand}
  {output : MutationExecutionOutput} {columns : Balances DecimalAmount} {rows : List ReconciliationItemRow}

/-- What the proposal reads back as. -/
theorem readReconciliation_committed (hd : d.Referenced)
    (h : Committed d d' proposal context columns rows) :
    readReconciliation d' proposal.reconciliationId = .ok
      { toReconciliationFacts := proposal.toReconciliationFacts
        balances := columns.map amountText
        evidenceArtifactIds := orderBy idOrder proposal.evidenceArtifactIds
        items := orderBy itemOrder (rows.map readItem) } := by
  have hfound : find (fun row : ReconciliationRow => row.reconciliationId) proposal.reconciliationId
      d'.reconciliations = some ⟨proposal.toReconciliationFacts, columns, context.checkedProposalId,
        context.checkedProposalId⟩ := by
    have hnone := find_eq_none.2 h.fresh
    rw [h.state]
    unfold find at hnone ⊢
    rw [List.find?_append, hnone]
    simp
  have hold : ∀ item ∈ d.reconciliationItems, item.reconciliationId ≠ proposal.reconciliationId := by
    intro item hitem heq
    obtain ⟨row, hrow, hid⟩ := hd.items item hitem
    exact h.fresh row hrow (hid.trans heq)
  have hlinks : ∀ link ∈ d.reconciliationEvidence, link.reconciliationId ≠ proposal.reconciliationId := by
    intro link hlink heq
    obtain ⟨row, hrow, hid⟩ := hd.evidence link hlink
    exact h.fresh row hrow (hid.trans heq)
  have hitems : itemsOf d' proposal.reconciliationId = rows := by
    have hnone := List.filter_eq_nil_iff.2 (fun item hitem => by
      simpa using hold item hitem : ∀ item ∈ d.reconciliationItems,
        ¬((item.reconciliationId == proposal.reconciliationId) = true))
    have hall : rows.filter (fun row => row.reconciliationId == proposal.reconciliationId) = rows := by
      rw [List.filter_eq_self]
      intro row hrow
      obtain ⟨item, -, hmade⟩ := forall₂_mem_left h.items.flip hrow
      simpa using (itemId_made hmade).2
    rw [itemsOf, h.state]
    simp only [List.filter_append, hnone, hall, List.nil_append]
  have hevidence : evidenceOf d' ⟨proposal.toReconciliationFacts, columns, context.checkedProposalId,
      context.checkedProposalId⟩ = proposal.evidenceArtifactIds := by
    have hnone := List.filter_eq_nil_iff.2 (fun link hlink => by
      simpa using hlinks link hlink : ∀ link ∈ d.reconciliationEvidence,
        ¬((link.reconciliationId == proposal.reconciliationId) = true))
    rw [evidenceOf, h.state]
    simp only [List.filter_append, hnone, List.nil_append, List.filter_map]
    simp [Function.comp_def]
  have horder : (orderBy (fun item : ReconciliationItemRow => idOrder item.reconciliationItemId) rows).map
      readItem = orderBy itemOrder (rows.map readItem) := by
    symm
    exact orderBy_map fun row => rfl
  rw [readReconciliation, hfound]
  simp only [hitems, horder, hevidence]

/-- Evidence and items in the order of their identifiers, every amount with two fraction digits and
no negative zero, every identifier that of a row. -/
structure ReadsBack (d : IngestionDb) (proposal : ReconciliationProposal) : Prop where
  evidence : Ascending idOrder proposal.evidenceArtifactIds
  items : Ascending itemOrder proposal.items
  balances : proposal.balances.All PrintedAsIs
  amounts : ∀ item ∈ proposal.items, PrintedAsIs item.amountDifference
  known : ∀ item ∈ proposal.items, ItemKnown d item

theorem committed_passes_iff (hd : d.Referenced) (h : execute d proposal context = .ok (output, d')) :
    ReadbackPasses (readback d' proposal output.expectedState.jsonb) ↔ ReadsBack d proposal := by
  obtain ⟨hexpected, columns, rows, hcommitted⟩ := execute_ok h
  have hread := readReconciliation_committed hd hcommitted
  generalize hstate : ({ toReconciliationFacts := proposal.toReconciliationFacts
                         balances := columns.map amountText
                         evidenceArtifactIds := orderBy idOrder proposal.evidenceArtifactIds
                         items := orderBy itemOrder (rows.map readItem) } : ReconciliationState) = state
    at hread
  have htext : canonicalText state.json = canonicalText output.expectedState.jsonb ↔
      state = proposal.toReconciliationState := by
    have hkeyed := ReconciliationState.faithful.keyed proposal.toReconciliationState
    rw [hexpected, canonicalText_jsonb hkeyed, ReconciliationState.faithful.canonicalText_iff]
  have hevidence : state.evidenceArtifactIds.length = proposal.evidenceArtifactIds.length := by
    rw [← hstate]
    exact orderBy_perm.length_eq
  have hpasses : ReadbackPasses (readback d' proposal output.expectedState.jsonb) ↔
      state = proposal.toReconciliationState := by
    rw [← htext]
    simp [ReadbackPasses, readback, hread, bind, Except.bind, pure, Except.pure, hevidence,
      LedgerReadback.readbackCheck]
    split <;> simp_all
  have hbalances := balances_eq_iff hcommitted.balances
  have hitems := items_eq_iff hcommitted.items
  have hlinks : orderBy idOrder proposal.evidenceArtifactIds = proposal.evidenceArtifactIds ↔
      Ascending idOrder proposal.evidenceArtifactIds := orderBy_eq_self_iff
  rw [hpasses, ← hstate]
  obtain ⟨⟨facts, balances, evidenceArtifactIds, items⟩, hvalid⟩ := proposal
  simp only [ReconciliationState.mk.injEq, true_and] at hbalances hitems hlinks ⊢
  rw [hbalances, hitems, hlinks]
  constructor
  · rintro ⟨hplain, hsorted, hordered, hall⟩
    exact ⟨hsorted, hordered, hplain, fun item hitem => (hall item hitem).2,
      fun item hitem => (hall item hitem).1⟩
  · intro h
    exact ⟨h.balances, h.evidence, h.items, fun item hitem => ⟨h.known item hitem, h.amounts item hitem⟩⟩

end RecordReconciliation

end PlusOne
