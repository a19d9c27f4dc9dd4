import PlusOne.Interactions.Lifecycle
import PlusOne.Mutations.ExactlyOnce

/-! # Interactions in runs

Every caller of the repository runs its own program over the statements, and replies may
be lost. In every order of their steps the table keeps its invariant, provided that each
statement that writes a row writes one that decodes. -/

namespace PlusOne

open Interleaving

/-! ## What a claim returns -/

def ClaimResult.value : ClaimResult → PendingInteraction
  | claimed interaction => interaction
  | replay interaction => interaction

/-- The interaction without what its resolution has recorded since the claim. -/
def PendingInteraction.atClaim (interaction : PendingInteraction) : PendingInteraction :=
  { interaction with
    status := .resolving
    version := if interaction.status = .resolving then interaction.version else interaction.version - 1
    resolutionCode := none, resolutionResponse := none, resolvedAt := none }

namespace InteractionRow

variable {T : TimeFormats} {row row' : InteractionRow} {interaction : PendingInteraction}

theorem decode_some (h : row.decode T = some interaction) :
    interaction = { row.interaction T with
      pendingWorkingMemoryMutation := row.payload.mapEntry WorkingMemoryEntry.trimmed } := by
  unfold decode PendingInteraction.parse at h
  split_ifs at h
  cases h
  rfl

theorem atClaim_of_resolving (h : row.decode T = some interaction) (hstatus : row.status = .resolving) :
    interaction.atClaim = interaction := by
  have hsome : (row.decode T).isSome = true := by rw [h]; rfl
  obtain ⟨_, _, _, _, _, _, hevidence⟩ := isSome_decode_iff.1 hsome
  simp only [evidenced, hstatus, Bool.and_eq_true, Option.isNone_iff_eq_none] at hevidence
  obtain ⟨⟨⟨_, hcode⟩, hresponse⟩, hresolved⟩ := hevidence
  rw [decode_some h]
  simp [PendingInteraction.atClaim, InteractionRow.interaction, hstatus, hcode, hresponse, hresolved]

/-- What a claimed row gives once its resolution is left out. -/
def atClaim (T : TimeFormats) (row : InteractionRow) : PendingInteraction :=
  { row.interaction T with
    pendingWorkingMemoryMutation := row.payload.mapEntry WorkingMemoryEntry.trimmed }.atClaim

theorem decode_atClaim (h : row.decode T = some interaction) :
    interaction.atClaim = row.atClaim T := by
  rw [decode_some h]
  rfl

theorem Advanced.atClaim (h : row.Advanced row') (hstatus : row.status ≠ .pending) {message : String}
    (hmessage : row.resolutionExternalMessageId = some message) : row'.atClaim T = row.atClaim T := by
  have hresolving : row.status = .resolving := by
    have hopen := h.wasOpen
    cases hrow : row.status <;> simp_all [InteractionStatus.isOpen]
  have hclosed : row'.status ≠ .resolving := by
    rcases h.edge with ⟨hpending, _⟩ | hclosed
    · exact absurd hpending hstatus
    · intro hrow'
      rw [hrow'] at hclosed
      cases hclosed
  have hkey := Prod.ext_iff.1 h.key
  have hscope := Prod.ext_iff.1 h.scope
  have hplace := Prod.ext_iff.1 hscope.2
  simp only [InteractionRow.key] at hkey
  simp only [InteractionRow.scope] at hplace
  have hmessage' := h.message message hmessage
  have hdecision := h.decision hresolving
  simp [InteractionRow.atClaim, PendingInteraction.atClaim, InteractionRow.interaction, hkey.1, hkey.2,
    hplace.1, hplace.2, h.payload, h.instants.1, h.instants.2, hmessage, hmessage', hdecision,
    hresolving, hclosed, h.version]

end InteractionRow

/-- The row is bound to the message of its claim, and gives the returned value. -/
def Returned (T : TimeFormats) (input : ClaimInput) (result : ClaimResult) (db : InteractionDb) : Prop :=
  ∃ row, db.find input.key = some row ∧ row.status ≠ .pending ∧
    row.resolutionExternalMessageId = some input.externalMessageId ∧
    result.value.atClaim = row.atClaim T ∧
    ∀ interaction, result = .claimed interaction → interaction.atClaim = interaction

/-- The interaction has been claimed by the message of the input. -/
def ClaimedBy (input : ClaimInput) (db : InteractionDb) : Prop :=
  ∃ row, db.find input.key = some row ∧ row.status ≠ .pending ∧
    row.resolutionExternalMessageId = some input.externalMessageId

theorem ClaimedBy.moves {input : ClaimInput} {db db' : InteractionDb} (hmoves : db.Moves db')
    (h : ClaimedBy input db) : ClaimedBy input db' :=
  hmoves.claimed h

theorem Returned.moves {T : TimeFormats} {input : ClaimInput} {result : ClaimResult}
    {db db' : InteractionDb} (hmoves : db.Moves db') (h : Returned T input result db) :
    Returned T input result db' := by
  obtain ⟨row, hfind, hstatus, hmessage, hvalue, hclaimed⟩ := h
  obtain ⟨row', hfind', hrow⟩ := hmoves input.key row hfind
  obtain ⟨again, hagain, hstatus', hmessage'⟩ := hmoves.claimed ⟨row, hfind, hstatus, hmessage⟩
  rw [hfind'] at hagain
  cases hagain
  refine ⟨row', hfind', hstatus', hmessage', ?_, hclaimed⟩
  rcases hrow with rfl | hadvanced
  · exact hvalue
  · rw [hvalue, hadvanced.atClaim hstatus hmessage]

/-! ## The programs issue checked statements -/

namespace PendingInteractionRepository

variable {P : Platform} {T : TimeFormats}

theorem mapPendingInteraction_checked (row : InteractionRow) :
    (mapPendingInteraction T row).Calls (InteractionCall.Checked T) := by
  unfold mapPendingInteraction
  split
  · exact .ret _
  · exact .throw _

theorem mapFound_checked (row : Option InteractionRow) :
    (mapFound T row).Calls (InteractionCall.Checked T) := by
  cases row with
  | none => exact .ret _
  | some row => exact (mapPendingInteraction_checked row).bind fun _ => .ret _

theorem query_checked {call : InteractionCall} (hcall : call.Checked T) :
    (query call).Calls (InteractionCall.Checked T) :=
  Prog.Calls.perform hcall

theorem found_checked {call : InteractionCall} (hcall : call.Checked T) :
    ((query call).bind (mapFound T)).Calls (InteractionCall.Checked T) :=
  (query_checked hcall).bind mapFound_checked

theorem create_checked (candidate : PendingInteraction) :
    (create P T candidate).Calls (InteractionCall.Checked T) := by
  unfold create
  split
  · exact .throw _
  · rename_i input hparse
    refine Prog.Calls.tryCatch ?_ ?_
    · have hinsert : (query (.insert input)).Calls (InteractionCall.Checked T) :=
        query_checked ⟨candidate, hparse⟩
      refine hinsert.bind ?_
      intro row
      cases row with
      | some row => exact mapPendingInteraction_checked row
      | none =>
        have hfind : (findById T (input.householdId, input.interactionId)).Calls
            (InteractionCall.Checked T) := found_checked trivial
        refine hfind.bind ?_
        intro existing
        cases existing with
        | none => exact .throw _
        | some existing =>
          simp only
          split_ifs
          · exact .ret _
          · exact .throw _
    · intro error
      split_ifs
      · exact .throw _
      · exact .throw _

theorem claim_checked (input : ClaimInput) :
    (claim T input).Calls (InteractionCall.Checked T) := by
  have hclaim : (query (.claim input)).Calls (InteractionCall.Checked T) := query_checked trivial
  refine hclaim.bind ?_
  intro row
  cases row with
  | some row => exact (mapPendingInteraction_checked row).bind fun _ => .ret _
  | none =>
    have hfind : (findById T input.key).Calls (InteractionCall.Checked T) := found_checked trivial
    refine hfind.bind ?_
    intro existing
    cases existing with
    | none => exact .throw _
    | some existing =>
      simp only [replayOf]
      split_ifs
      · exact .ret _
      · exact .throw _

theorem moved_checked (interactionId : WorkingMemoryProposalId) (expectedVersion : Nat)
    (row : Option InteractionRow) :
    (moved T interactionId expectedVersion row).Calls (InteractionCall.Checked T) := by
  cases row with
  | none => exact .throw _
  | some row => exact mapPendingInteraction_checked row

theorem expire_checked (input : ExpireInput) :
    (expire T input).Calls (InteractionCall.Checked T) := by
  unfold expire
  split_ifs with hvalid
  · have hquery : (query (.expire input)).Calls (InteractionCall.Checked T) := query_checked hvalid
    exact hquery.bind (moved_checked _ _)
  · exact .throw _

theorem complete_checked (input : CompleteInput) :
    (complete T input).Calls (InteractionCall.Checked T) := by
  unfold complete
  split_ifs with hvalid
  · have hquery : (query (.complete input)).Calls (InteractionCall.Checked T) := query_checked hvalid
    exact hquery.bind (moved_checked _ _)
  · exact .throw _

end PendingInteractionRepository

open PendingInteractionRepository in
theorem InteractionOperation.program_checked (P : Platform) (T : TimeFormats)
    (operation : InteractionOperation) :
    (operation.program P T).Calls (InteractionCall.Checked T) := by
  cases operation with
  | create candidate => exact (create_checked candidate).bind fun _ => .ret _
  | claim input => exact (claim_checked input).bind fun _ => .ret _
  | expire input => exact (expire_checked input).bind fun _ => .ret _
  | complete input => exact (complete_checked input).bind fun _ => .ret _
  | findById | findOpen | findExpired | findByResolutionMessage =>
    refine Prog.Calls.bind (found_checked ?_) fun _ => .ret _
    trivial

/-! ## The program of a claim -/

section Claim

variable {ι : Type} {T : TimeFormats} {i : ι}

/-- Claims under the step relation of the table. -/
abbrev interactionDiscipline (ι : Type) (T : TimeFormats) :=
  (interactionStore T).discipline ι Thrown.pg (InteractionCall.Checked T) (InteractionCall.Clean T)
    (InteractionDb.WellFormed T) InteractionDb.Moves

theorem query_triple {call : InteractionCall} {P : InteractionDb → Prop}
    {Q : Option InteractionRow → InteractionDb → Prop} {E : Thrown → Prop} (hcall : call.Checked T)
    (hP : ∀ db db', db.Moves db' → P db → P db')
    (hok : ∀ db answer db', call.Clean T db → db.WellFormed T → P db →
      call.perform T db = .ok (answer, db') → db'.WellFormed T → Q answer db')
    (herr : ∀ failure, E (.pg failure)) :
    (interactionDiscipline ι T).Triple i (fun s => P s.current) (query call)
      (fun answer s => Q answer s.current) (fun e _ => E e) :=
  Store.triple_perform (S := interactionStore T) (B := InteractionCall.Checked T)
    (A := InteractionCall.Clean T) (I := InteractionDb.WellFormed T) (T := InteractionDb.Moves)
    (Q := Q) (E := fun e _ => E e) hcall hP (fun db answer db' => hok db answer db')
    fun failure _ => herr failure

/-- A repeated claim fails for reasons of the database only. -/
def RepeatFails (again : Prop) (e : Thrown) : Prop := again → ∃ failure, e = .pg failure

theorem mapPendingInteraction_triple {P : InteractionDb → Prop} {row : InteractionRow} {again : Prop}
    (hdecode : ∀ db, P db → (row.decode T).isSome = true) :
    (interactionDiscipline ι T).Triple i (fun s => P s.current)
      (PendingInteractionRepository.mapPendingInteraction T row)
      (fun interaction s => P s.current ∧ row.decode T = some interaction)
      (fun e _ => RepeatFails again e) := by
  unfold PendingInteractionRepository.mapPendingInteraction
  split
  · rename_i interaction hinteraction
    exact Discipline.Triple.ret fun _ _ hP => ⟨hP, hinteraction⟩
  · rename_i hnone
    refine Discipline.Triple.throw fun s _ hP => ?_
    have hsome := hdecode s.current hP
    rw [hnone] at hsome
    cases hsome

/-- What the first statement of a claim leaves behind. -/
def AfterClaim (T : TimeFormats) (input : ClaimInput) (again : Prop) (answer : Option InteractionRow)
    (db : InteractionDb) : Prop :=
  match answer with
  | some row => ¬again ∧ db.find input.key = some row ∧ row.status = .resolving ∧
      row.resolutionExternalMessageId = some input.externalMessageId ∧ (row.decode T).isSome = true
  | none => again → ClaimedBy input db

/-- What reading the interaction afterwards shows. -/
def AfterFind (T : TimeFormats) (input : ClaimInput) (again : Prop) (answer : Option InteractionRow)
    (db : InteractionDb) : Prop :=
  match answer with
  | some row => db.find input.key = some row ∧ (row.decode T).isSome = true ∧
      (row.status = .pending → row.resolutionExternalMessageId = none) ∧
      (again → row.resolutionExternalMessageId = some input.externalMessageId)
  | none => ¬again

theorem claim_statement {input : ClaimInput} {again : Prop} :
    (interactionDiscipline ι T).Triple i (fun s => again → ClaimedBy input s.current)
      (query (.claim input)) (fun answer s => AfterClaim T input again answer s.current)
      (fun e _ => RepeatFails again e) := by
  refine query_triple (P := fun db => again → ClaimedBy input db) (Q := AfterClaim T input again) ?_ ?_ ?_ ?_
  · trivial
  · exact fun db db' hmoves hclaimed hagain => (hclaimed hagain).moves hmoves
  · intro db answer db' _ hdb hclaimed hok hdb'
    rcases InteractionDb.claim_ok hok with ⟨rfl, rfl⟩ | ⟨row, hfind, hstatus, hversion, rfl, rfl⟩
    · exact hclaimed
    · have hresolved : { db.claimedRow row input with resolvedAt := none } = db.claimedRow row input := by
        have hrow := hdb.decodes row (InteractionDb.find_some hfind).1
        obtain ⟨_, _, _, _, _, _, hevidence⟩ := InteractionRow.isSome_decode_iff.1 hrow
        simp only [InteractionRow.evidenced, hstatus, Bool.and_eq_true,
          Option.isNone_iff_eq_none] at hevidence
        simp [InteractionDb.claimedRow, hevidence.2]
      have hfound : (db.replaceRow (db.claimedRow row input)).find input.key =
          some (db.claimedRow row input) := InteractionDb.find_replaced hfind rfl hdb.ids
      rw [hresolved]
      refine ⟨?_, hfound, rfl, rfl, ?_⟩
      · intro hagain
        obtain ⟨old, hold, hnot, _⟩ := hclaimed hagain
        rw [hfind] at hold
        cases hold
        exact hnot hstatus
      · exact hdb'.decodes _ (InteractionDb.find_some hfound).1
  · exact fun failure _ => ⟨failure, rfl⟩

theorem find_statement {input : ClaimInput} {again : Prop} :
    (interactionDiscipline ι T).Triple i (fun s => again → ClaimedBy input s.current)
      (query (.findById input.key)) (fun answer s => AfterFind T input again answer s.current)
      (fun e _ => RepeatFails again e) := by
  refine query_triple (P := fun db => again → ClaimedBy input db) (Q := AfterFind T input again) ?_ ?_ ?_ ?_
  · trivial
  · exact fun db db' hmoves hclaimed hagain => (hclaimed hagain).moves hmoves
  · intro db answer db' _ hdb hclaimed hok _
    cases hok
    cases hfind : db.find input.key with
    | none =>
      intro hagain
      obtain ⟨row, hrow, _⟩ := hclaimed hagain
      rw [hfind] at hrow
      cases hrow
    | some row =>
      have hmem := (InteractionDb.find_some hfind).1
      refine ⟨hfind, hdb.decodes row hmem, hdb.decodes.unclaimed hmem, ?_⟩
      intro hagain
      obtain ⟨old, hold, _, hmessage⟩ := hclaimed hagain
      rw [hfind] at hold
      cases hold
      exact hmessage
  · exact fun failure _ => ⟨failure, rfl⟩

/-- What is known of a repeated claim that finds nothing to claim, once it has looked the row up. -/
def FoundAgain (T : TimeFormats) (input : ClaimInput) (again : Prop) : Option PendingInteraction → InteractionDb → Prop
  | some interaction, db => ∃ row, AfterFind T input again (some row) db ∧ row.decode T = some interaction
  | none, _ => ¬again

/-- A claim returns the value its row stands for, and a repeated one returns it as a replay. -/
theorem claim_triple {input : ClaimInput} {again : Prop} :
    (interactionDiscipline ι T).Triple i (fun s => again → ClaimedBy input s.current)
      (PendingInteractionRepository.claim T input)
      (fun result s => Returned T input result s.current ∧
        (again → ∃ interaction, result = .replay interaction))
      (fun e _ => RepeatFails again e) := by
  refine claim_statement.bind ?_
  intro answer
  cases answer with
  | some row =>
    refine (mapPendingInteraction_triple (P := AfterClaim T input again (some row))
      fun _ h => h.2.2.2.2).bind ?_
    intro interaction
    refine Discipline.Triple.ret ?_
    rintro s _ ⟨⟨hfirst, hfind, hstatus, hmessage, _⟩, hdecode⟩
    refine ⟨⟨row, hfind, ?_, hmessage, InteractionRow.decode_atClaim hdecode, ?_⟩,
      fun hagain => absurd hagain hfirst⟩
    · simp [hstatus]
    · intro claimed hclaimed
      cases hclaimed
      exact InteractionRow.atClaim_of_resolving hdecode hstatus
  | none =>
    refine Discipline.Triple.bind (R := fun found s => FoundAgain T input again found s.current) ?_ ?_
    · refine find_statement.bind ?_
      intro answer
      cases answer with
      | none => exact Discipline.Triple.ret fun _ _ h => h
      | some row =>
        refine (mapPendingInteraction_triple (P := AfterFind T input again (some row))
          fun _ h => h.2.1).bind ?_
        intro interaction
        exact Discipline.Triple.ret fun _ _ h => ⟨row, h⟩
    · intro found
      cases found with
      | none => exact Discipline.Triple.throw fun _ _ h hagain => absurd hagain h
      | some interaction =>
        simp only [PendingInteractionRepository.replayOf]
        split_ifs with hsame
        · refine Discipline.Triple.ret ?_
          rintro s _ ⟨row, ⟨hfind, _, hunclaimed, _⟩, hdecode⟩
          have hmessage : row.resolutionExternalMessageId = some input.externalMessageId := by
            rw [InteractionRow.decode_some hdecode] at hsame
            exact hsame
          refine ⟨⟨row, hfind, ?_, hmessage, InteractionRow.decode_atClaim hdecode, ?_⟩, ?_⟩
          · intro hpending
            rw [hunclaimed hpending] at hmessage
            cases hmessage
          · intro claimed hclaimed
            cases hclaimed
          · exact fun _ => ⟨interaction, rfl⟩
        · refine Discipline.Triple.throw ?_
          rintro s _ ⟨row, ⟨_, _, _, hbound⟩, hdecode⟩ hagain
          rw [InteractionRow.decode_some hdecode] at hsame
          exact absurd (hbound hagain) hsame

end Claim

/-! ## Runs -/

section Runs

variable {ι : Type} {P : Platform} {T : TimeFormats}

/-- What is known of a finished operation: a claim has returned its row's value. -/
def Outcome (T : TimeFormats) (operation : InteractionOperation) (again : Prop)
    (result : InteractionResult) (db : InteractionDb) : Prop :=
  ∀ input, operation = .claim input → ∃ claimed, result = .claim claimed ∧
    Returned T input claimed db ∧ (again → ∃ interaction, claimed = .replay interaction)

def Failure (operation : InteractionOperation) (again : Prop) (e : Thrown) : Prop :=
  ∀ input, operation = .claim input → RepeatFails again e

theorem operation_triple {i : ι} {operation : InteractionOperation} {again : Prop} :
    (interactionDiscipline ι T).Triple i
      (fun s => again → ∀ input, operation = .claim input → ClaimedBy input s.current)
      (operation.program P T) (fun result s => Outcome T operation again result s.current)
      (fun e _ => Failure operation again e) := by
  by_cases hclaims : ∃ input, operation = .claim input
  · obtain ⟨input, rfl⟩ := hclaims
    have hclaim : (interactionDiscipline ι T).Triple i (fun s => again → ClaimedBy input s.current)
        ((InteractionOperation.claim input).program P T)
        (fun result s => Outcome T (.claim input) again result s.current)
        (fun e _ => RepeatFails again e) := by
      refine claim_triple.bind ?_
      intro claimed
      refine Discipline.Triple.ret ?_
      rintro s _ ⟨hreturned, hreplay⟩ other hother
      cases hother
      exact ⟨claimed, rfl, hreturned, hreplay⟩
    refine hclaim.conseq (fun s _ h hagain => h hagain input rfl) (fun _ _ _ h => h) ?_
    intro e s _ hfails other hother
    exact hfails
  · have hany : (interactionDiscipline ι T).Triple i (fun _ => True) (operation.program P T)
        (fun _ _ => True) (fun _ _ => True) :=
      Discipline.Triple.of_calls (operation.program_checked P T) (fun _ _ _ _ _ => trivial)
        (fun _ hcall _ _ _ => hcall) (fun _ _ _ _ _ _ _ _ _ _ _ => trivial)
    refine hany.conseq (fun _ _ _ => trivial) ?_ ?_
    · intro result s _ _ input hinput
      exact absurd ⟨input, hinput⟩ hclaims
    · intro e s _ _ input hinput
      exact absurd ⟨input, hinput⟩ hclaims

abbrev interactionSystem (ι : Type) (T : TimeFormats) := (interactionStore T).system ι Thrown.pg

/-- The runs in which a statement that writes a row writes one that decodes. -/
abbrev decodingRuns (ι : Type) (T : TimeFormats) : Guard (interactionSystem ι T) :=
  (interactionStore T).guard ι Thrown.pg (InteractionCall.Clean T)

abbrev InteractionConfig (ι : Type) := Config ι InteractionCall (fun _ => Option InteractionRow) Thrown
  InteractionResult (Stored InteractionCall InteractionDb)

/-- Every caller at the start of its operation. -/
def startInteractions (P : Platform) (T : TimeFormats) (operations : ι → InteractionOperation)
    (db : InteractionDb) : InteractionConfig ι :=
  .initial ⟨db, []⟩ fun i => (operations i).program P T

variable [DecidableEq ι] {operations : ι → InteractionOperation} {db₀ : InteractionDb}
  {c c' : InteractionConfig ι}

theorem interactions_ok (h₀ : db₀.WellFormed T)
    (hrun : Reachable (decodingRuns ι T) (startInteractions P T operations db₀) c) :
    (interactionDiscipline ι T).ConfigOk (fun _ _ _ => True) (fun _ _ _ => True) c :=
  (InteractionDb.steps T).reachable (fun i => (operations i).program_checked P T) ⟨h₀, by simp⟩ hrun

/-- From wherever a run has led, an operation that starts there keeps its promise to the end. -/
theorem outcome_of_start (again : Prop) {j : ι} (h₀ : db₀.WellFormed T)
    (hrun : Reachable (decodingRuns ι T) (startInteractions P T operations db₀) c)
    (hstart : c.threads j = .running ((operations j).program P T))
    (hagain : again → ∀ input, operations j = .claim input → ClaimedBy input c.state.current)
    (hrest : Reachable (decodingRuns ι T) c c') :
    (interactionDiscipline ι T).ThreadOk j
      (fun result s => Outcome T (operations j) again result s.current)
      (fun e _ => Failure (operations j) again e) c'.state (c'.threads j) := by
  have hok := interactions_ok h₀ hrun
  -- the others are of no interest from here on
  have hfrom : (interactionDiscipline ι T).ConfigOk
      (fun i result s => i = j → Outcome T (operations i) again result s.current)
      (fun i e _ => i = j → Failure (operations i) again e) c := by
    refine ⟨hok.1, fun i => ?_⟩
    by_cases hij : i = j
    · subst hij
      rw [hstart]
      have hwp := operation_triple (P := P) (i := i) c.state hok.1 hagain
      exact Discipline.wp_mono hok.1 (fun _ _ _ h _ => h) (fun _ _ _ h _ => h) hwp
    · have hthread := hok.2 i
      cases hi : c.threads i with
      | running p =>
        rw [hi] at hthread
        exact Discipline.wp_mono hok.1 (fun _ _ _ _ h => absurd h hij) (fun _ _ _ _ h => absurd h hij)
          hthread
      | finished r => cases r <;> exact fun h => absurd h hij
      | crashed => trivial
  have hstable : ∀ i result, (interactionDiscipline ι T).Stable i
      fun s => i = j → Outcome T (operations i) again result s.current := by
    intro i result
    refine Store.stable_of_steps
      (P := fun db => i = j → Outcome T (operations i) again result db) ?_
    intro db db' hmoves houtcome hij input hinput
    obtain ⟨claimed, hclaimed, hreturned, hreplay⟩ := houtcome hij input hinput
    exact ⟨claimed, hclaimed, hreturned.moves hmoves, hreplay⟩
  have hend := hfrom.run (InteractionDb.steps T).sound hstable (fun _ _ _ _ _ _ h => h)
    (fun _ _ _ _ h => h) (fun _ _ _ _ h => h) hrest
  have hthread := hend.2 j
  cases hj : c'.threads j with
  | running p =>
    rw [hj] at hthread
    exact Discipline.wp_mono hend.1 (fun _ _ _ h => h rfl) (fun _ _ _ h => h rfl) hthread
  | finished r =>
    rw [hj] at hthread
    cases r <;> exact hthread rfl
  | crashed => trivial

theorem returned_of_finished (h₀ : db₀.WellFormed T)
    (hrun : Reachable (decodingRuns ι T) (startInteractions P T operations db₀) c) {i : ι}
    {input : ClaimInput} {claimed : ClaimResult} (hinput : operations i = .claim input)
    (hi : c.threads i = .finished (.ok (.claim claimed))) :
    Returned T input claimed c.state.current := by
  have hthread := outcome_of_start (j := i) False h₀ .refl rfl (fun h => h.elim) hrun
  rw [hi] at hthread
  obtain ⟨result, hresult, hreturned, _⟩ := hthread input hinput
  cases hresult
  exact hreturned

/-- In every run whose written rows decode: one open interaction a scope, one claim an interaction,
rows that decode; a step leaves a row alone or advances an open one by a version; claims that have
returned agree on the message and on the claimed value; and a claim that starts after its message
has claimed the interaction is answered with a replay, unless the database fails. -/
theorem interaction_lifecycle (h₀ : db₀.WellFormed T)
    (hrun : Reachable (decodingRuns ι T) (startInteractions P T operations db₀) c) :
    c.state.current.WellFormed T ∧
    (∀ c', Step (decodingRuns ι T) c c' → ∀ key row, c.state.current.find key = some row →
      ∃ row', c'.state.current.find key = some row' ∧
        (row' = row ∨ row.status.isOpen = true ∧ row'.version = row.version + 1)) ∧
    (∀ i j input other result result', operations i = .claim input → operations j = .claim other →
      c.threads i = .finished (.ok (.claim result)) → c.threads j = .finished (.ok (.claim result')) →
      input.key = other.key → input.externalMessageId = other.externalMessageId ∧
        ∀ interaction, result = .claimed interaction → result'.value.atClaim = interaction) ∧
    (∀ c', Reachable (decodingRuns ι T) c c' → ∀ j input r, operations j = .claim input →
      ClaimedBy input c.state.current → c.threads j = .running ((operations j).program P T) →
      c'.threads j = .finished r → (∃ interaction, r = .ok (.claim (.replay interaction))) ∨
        ∃ failure, r = .error (.pg failure)) := by
  have hok := interactions_ok h₀ hrun
  refine ⟨hok.1.current, ?_, ?_, ?_⟩
  · intro c' hstep key row hfind
    have hmoves : c.state.current.Moves c'.state.current := (InteractionDb.steps T).step hok hstep
    obtain ⟨row', hfind', hrow⟩ := hmoves key row hfind
    exact ⟨row', hfind', hrow.imp_right fun h => ⟨h.wasOpen, h.version⟩⟩
  · intro i j input other result result' hinput hother hi hj hkey
    obtain ⟨row, hfind, _, hmessage, hvalue, hclaimed⟩ := returned_of_finished h₀ hrun hinput hi
    obtain ⟨row', hfind', _, hmessage', hvalue', _⟩ := returned_of_finished h₀ hrun hother hj
    rw [hkey, hfind'] at hfind
    cases hfind
    rw [hmessage] at hmessage'
    refine ⟨Option.some.inj hmessage', ?_⟩
    intro interaction hresult
    rw [hvalue', ← hvalue, hresult]
    exact hclaimed interaction hresult
  · intro c' hrest j input r hinput hclaimed hstart hend
    have hbefore : True → ∀ other, operations j = .claim other → ClaimedBy other c.state.current := by
      intro _ other hother
      rw [hinput] at hother
      cases hother
      exact hclaimed
    have hthread := outcome_of_start True h₀ hrun hstart hbefore hrest
    rw [hend] at hthread
    cases r with
    | ok result =>
      obtain ⟨claimed, rfl, _, hreplay⟩ := hthread input hinput
      obtain ⟨interaction, rfl⟩ := hreplay trivial
      exact .inl ⟨interaction, rfl⟩
    | error e =>
      obtain ⟨failure, rfl⟩ := hthread input hinput trivial
      exact .inr ⟨failure, rfl⟩

end Runs

/-! ## One interaction, claimed twice and completed -/

namespace TestInteraction

open TestCommand (householdId suffix platform)

def interactionId : WorkingMemoryProposalId := ⟨suffix, by decide⟩

def conversationId : ConversationId := ⟨suffix, by decide⟩

/-- Instants as they are written, with the microseconds of the epoch they stand for. -/
def instants : List (String × Nat) :=
  [("2026-01-01T00:00:00.000Z", 1767225600000000), ("2026-01-01T00:05:00.000Z", 1767225900000000),
    ("2026-01-01T00:10:00.000Z", 1767226200000000), ("2026-01-01T00:00:00Z", 1767225600000000)]

/-- The formats on these instants; they are printed with three digits after the second. -/
def times : TimeFormats where
  datetime text := (instants.map Prod.fst).contains text
  dateParse text := (instants.lookup text).map fun microseconds => (microseconds / 1000 : Nat)
  timestamptz text := instants.lookup text
  toChar microseconds := ((instants.find? fun instant => instant.2 == microseconds).map Prod.fst).getD ""

/-- A proposal to clear the working memory, made at an instant. -/
def candidate (createdAt : String) : PendingInteraction where
  interactionId := interactionId
  householdId := householdId
  conversationId := conversationId
  speakerPrincipalRef := "principal:ana"
  pendingWorkingMemoryMutation :=
    { proposalId := interactionId, householdId, conversationId
      speakerPrincipalRef := "principal:ana", mutation := .clear
      basedOnRevision := TestCommand.recordHash, createdAt
      expiresAt := "2026-01-01T00:10:00.000Z" }
  status := .pending
  version := 1
  resolutionExternalMessageId := none
  resolutionDecision := none
  resolutionCode := none
  resolutionResponse := none
  createdAt := createdAt
  expiresAt := "2026-01-01T00:10:00.000Z"
  resolvedAt := none

def unused : InteractionDb := ⟨[householdId], [], [], 1767225600000000⟩

theorem unused_wellFormed : unused.WellFormed times := by
  refine ⟨?_, ?_, ?_, ?_, ?_⟩ <;> simp [unused, InteractionDb.AllDecode]

/-- An instant without milliseconds passes the schema, but the database prints it with them: the
interaction is stored, open, and no longer decodes. -/
theorem create_undecodable :
    ((candidate "2026-01-01T00:00:00Z").parse times).isSome = true ∧
    ((startInteractions platform times (fun _ : Fin 1 => .create (candidate "2026-01-01T00:00:00Z"))
        unused).play (interactionSystem (Fin 1) times) [.call 0 .answered, .finish 0]).map (fun c =>
      c.state.current.rows.map fun row => (row.status, (row.decode times).isSome)) =
        some [(.pending, false)] := by
  decide +kernel

def response : FinalResponse where
  responseId := "response_1"
  householdId := householdId
  conversationId := conversationId
  taskId := none
  body := "The working memory was cleared."
  policyBoundary := .operational
  citations := [⟨"working memory", none, none⟩]
  assumptions := []
  freshness := ["2026-01-01"]
  disclaimer := "None."
  unsupportedCapabilities := []
  recommendationActions := []
  delivery := ⟨.telegram, ⟨[], by decide⟩, .plain_text⟩
  responseHash := TestCommand.recordHash
  createdAt := "2026-01-01T00:05:00.000Z"

def claimOf (externalMessageId : String) : ClaimInput :=
  ⟨householdId, interactionId, externalMessageId, .approve, 1⟩

/-- The interaction is created, claimed, completed and claimed again by the same message, while
another message comes too late. -/
def callers : Fin 5 → InteractionOperation
  | 0 => .create (candidate "2026-01-01T00:00:00.000Z")
  | 1 | 2 => .claim (claimOf "telegram-7")
  | 3 => .claim (claimOf "telegram-8")
  | 4 => .complete ⟨householdId, interactionId, 2, .applied, "memory_cleared", response,
      "2026-01-01T00:05:00.000Z"⟩

/-- The other claim never comes through, and the reply to the completion is lost. -/
def rivalry : List (Event (Fin 5) (Ending PgFailure) (StoreMove InteractionMove)) :=
  [.call 0 .answered, .finish 0, .call 3 (.unfinished ⟨some "08006", none, "connection failure"⟩),
    .call 1 .answered, .finish 1, .env (.resolve 0 false), .finish 3,
    .call 4 (.unheard ⟨some "08006", none, "connection failure"⟩), .finish 4,
    .call 2 .answered, .call 2 .answered, .finish 2]

def rivals : InteractionConfig (Fin 5) := startInteractions platform times callers unused

theorem rivalry_admitted : Admitted (decodingRuns (Fin 5) times) rivals rivalry := by
  have hcheck : ∀ (call : InteractionCall) db, decide (call.Decodable times db) = true →
      call.Clean times db := fun call db hpass _ _ => of_decide_eq_true hpass
  refine Store.admitted_of_check hcheck (by decide) ?_
  decide +kernel

def isClaimed : Option InteractionResult → Bool
  | some (.claim (.claimed _)) => true
  | _ => false

def isReplayed : Option InteractionResult → Bool
  | some (.claim (.replay _)) => true
  | _ => false

theorem interaction_lifecycle_rivalry :
    ∃ c, rivals.play (interactionSystem (Fin 5) times) rivalry = some c ∧
      c.state.current.rows.map (fun row => (row.status, row.version)) = [(.applied, 3)] ∧
      c.state.current.WellFormed times ∧
      ∃ claimed replayed, c.threads 1 = .finished (.ok (.claim (.claimed claimed))) ∧
        c.threads 2 = .finished (.ok (.claim (.replay replayed))) ∧ replayed.atClaim = claimed := by
  have hplayed : ((rivals.play (interactionSystem (Fin 5) times) rivalry).map fun c =>
      (c.state.current.rows.map (fun row => (row.status, row.version)),
        isClaimed (c.threads 1).value?, isReplayed (c.threads 2).value?)) =
      some ([(.applied, 3)], true, true) := by
    decide +kernel
  obtain ⟨c, hc, hrows⟩ := Option.map_eq_some_iff.1 hplayed
  simp only [Prod.mk.injEq] at hrows
  obtain ⟨hrows, hfirst, hsecond⟩ := hrows
  have hrun : Reachable (decodingRuns (Fin 5) times)
      (startInteractions platform times callers unused) c := .of_play rivalry_admitted hc
  obtain ⟨hwell, _, hclaims, _⟩ := interaction_lifecycle unused_wellFormed hrun
  unfold isClaimed at hfirst
  unfold isReplayed at hsecond
  split at hfirst
  · rename_i claimed hclaimed
    split at hsecond
    · rename_i replayed hreplayed
      have hone := Thread.value?_eq_some.1 hclaimed
      have htwo := Thread.value?_eq_some.1 hreplayed
      have hsame := hclaims 1 2 _ _ _ _ rfl rfl hone htwo rfl
      exact ⟨c, hc, hrows, hwell, claimed, replayed, hone, htwo, hsame.2 claimed rfl⟩
    · cases hsecond
  · cases hfirst

end TestInteraction

end PlusOne
