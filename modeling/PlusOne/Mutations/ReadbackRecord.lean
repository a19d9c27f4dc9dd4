import PlusOne.Interleaving.Solo
import PlusOne.Mutations.ExactlyOnce

/-! # The record of a read-back

What a handler's read-back returns or throws becomes one row of `mutation_readbacks`.
The read-back of a committed command is run from its connection to the reconciliation
after it, with the database answering and the handler arbitrary. -/

namespace PlusOne

open Interleaving

variable {α : Type}

/-- Where a handler's code ends when its statements are answered by `replies`. -/
def HandlerBody.outcome (replies : Query → Except PgFailure (List Json)) :
    HandlerBody α → Except Thrown α
  | done output => .ok output
  | fail error => .error error
  | query layer statement k =>
    match replies statement with
    | .ok rows => (k rows).outcome replies
    | .error failure => .error (layer.wrap (.pg failure))

/-! ## What is concluded from an outcome -/

namespace Readback

/-- The stored receipt, when it passes its schema. -/
def readable (persisted : Option MutationReceipt) : Option MutationReceipt :=
  persisted.filter MutationReceipt.valid

/-- The check the executor adds to those of the handler. -/
def receiptCheck (command : CheckedCommand) (receipt : MutationReceipt)
    (persisted : Option MutationReceipt) : ReadbackCheck :=
  let receiptOk := receiptMatches command receipt persisted
  ⟨.idempotency_receipt, if receiptOk then .passed else .failed,
    if receiptOk then none else some "receipt_identity_mismatch"⟩

def allChecks (command : CheckedCommand) (receipt : MutationReceipt)
    (persisted : Option MutationReceipt) (domain : DomainReadbackOutput) : List ReadbackCheck :=
  domain.checks ++ [receiptCheck command receipt persisted]

/-- The candidate that `performReadback` hands to the schema. -/
def candidate (P : Platform) (command : CheckedCommand) (required : List ReadbackCheckKind)
    (receipt : MutationReceipt) (persisted : Option MutationReceipt)
    (readbackId : MutationReadbackId) (domain : DomainReadbackOutput) : ReadbackResult :=
  let checks := allChecks command receipt persisted domain
  let mismatches := domain.mismatches ++ requiredFailures required checks
  { readbackId, commandId := command.commandId, receiptId := receipt.receiptId
    ok := mismatches.isEmpty, checks, mismatches
    observedStateHash := hashArtifact P (.obj [("domain", domain.observedState),
      ("receipt", (persisted.map MutationReceipt.toJson).getD .null)]) }

/-- The candidate that `failedReadback` hands to the schema. -/
def failure (P : Platform) (command : CheckedCommand) (required : List ReadbackCheckKind)
    (receipt : MutationReceipt) (readbackId : MutationReadbackId) (failureCode : String) :
    ReadbackResult :=
  { readbackId, commandId := command.commandId, receiptId := receipt.receiptId, ok := false
    checks := allReadbackKinds.map fun kind =>
      if kind ∈ required then ⟨kind, .failed, some failureCode⟩ else ⟨kind, .not_applicable, none⟩
    mismatches := ["readback_error." ++ failureCode]
    observedStateHash := hashArtifact P (.obj [("failureCode", .str failureCode)]) }

/-- Every required kind is there and passed, no check failed, no kind comes twice, nothing is listed
as a mismatch, and the stored receipt is the one in hand. -/
structure Passes (command : CheckedCommand) (required : List ReadbackCheckKind)
    (receipt : MutationReceipt) (persisted : Option MutationReceipt)
    (domain : DomainReadbackOutput) : Prop where
  required : ∀ kind ∈ required, ∃ check ∈ allChecks command receipt persisted domain,
    check.kind = kind ∧ check.status = .passed
  noneFailed : ∀ check ∈ allChecks command receipt persisted domain, check.status ≠ .failed
  unique : ((allChecks command receipt persisted domain).map ReadbackCheck.kind).Nodup
  noMismatch : domain.mismatches = []
  identity : receiptMatches command receipt persisted = true

/-- `z.string().min(1).max(128).optional()` -/
def detailFits (check : ReadbackCheck) : Bool :=
  check.detailCode.all fun code =>
    decide (1 ≤ Json.utf16Length code) && decide (Json.utf16Length code ≤ 128)

section Conclusions

variable {P : Platform} {command : CheckedCommand} {required : List ReadbackCheckKind}
variable {receipt : MutationReceipt} {persisted : Option MutationReceipt}
variable {readbackId : MutationReadbackId} {domain : DomainReadbackOutput}

theorem receiptCheck_passed : (receiptCheck command receipt persisted).status = .passed ↔
    receiptMatches command receipt persisted = true := by
  unfold receiptCheck
  cases receiptMatches command receipt persisted <;> simp

theorem receiptCheck_mem :
    receiptCheck command receipt persisted ∈ allChecks command receipt persisted domain := by
  simp [allChecks]

theorem requiredFailures_eq_nil {checks : List ReadbackCheck} : requiredFailures required checks = [] ↔
    ∀ kind ∈ required, ∃ check, (checks.find? fun check => check.kind == kind) = some check ∧
      check.status = .passed := by
  unfold requiredFailures
  rw [List.flatMap_eq_nil_iff]
  refine forall₂_congr fun kind _ => ?_
  cases hfind : checks.find? fun check => check.kind == kind with
  | none => simp
  | some check => simp

theorem find?_kind {checks : List ReadbackCheck} (hunique : (checks.map ReadbackCheck.kind).Nodup)
    {check : ReadbackCheck} (hcheck : check ∈ checks) :
    (checks.find? fun other => other.kind == check.kind) = some check := by
  have hsome : (checks.find? fun other => other.kind == check.kind).isSome := by
    rw [List.find?_isSome]
    exact ⟨check, hcheck, by simp⟩
  obtain ⟨found, hfound⟩ := Option.isSome_iff_exists.1 hsome
  have hmem : found ∈ checks := List.mem_of_find?_eq_some hfound
  have hkind : found.kind = check.kind := by simpa using List.find?_some hfound
  have hsame : found = check := List.inj_on_of_nodup_map hunique hmem hcheck hkind
  rw [hfound, hsame]

theorem valid_iff {result : ReadbackResult} : result.valid = true ↔
    result.checks ≠ [] ∧ (∀ check ∈ result.checks, check.valid = true) ∧
    (∀ mismatch ∈ result.mismatches,
      1 ≤ Json.utf16Length mismatch ∧ Json.utf16Length mismatch ≤ 256) ∧
    (result.checks.map ReadbackCheck.kind).Nodup ∧
    (result.ok = true → (∀ check ∈ result.checks, check.status ≠ .failed) ∧ result.mismatches = []) ∧
    (result.ok = false → (∃ check ∈ result.checks, check.status = .failed) ∨
      result.mismatches ≠ []) := by
  unfold ReadbackResult.valid
  cases hok : result.ok with
  | true => simp [and_assoc, List.isEmpty_iff]
  | false => simp [and_assoc]

theorem check_valid {check : ReadbackCheck} : check.valid = true ↔
    detailFits check = true ∧ (check.status = .failed → check.detailCode.isSome = true) := by
  unfold ReadbackCheck.valid detailFits
  rw [Bool.and_eq_true]
  cases check.status <;> simp

theorem allChecks_ne_nil : allChecks command receipt persisted domain ≠ [] :=
  List.ne_nil_of_mem receiptCheck_mem

theorem candidate_mismatches : (candidate P command required receipt persisted readbackId domain).mismatches =
    domain.mismatches ++ requiredFailures required (allChecks command receipt persisted domain) := rfl

theorem mismatches_of_passes (h : Passes command required receipt persisted domain) :
    domain.mismatches ++ requiredFailures required (allChecks command receipt persisted domain) = [] := by
  have hrequired : requiredFailures required (allChecks command receipt persisted domain) = [] := by
    rw [requiredFailures_eq_nil]
    intro kind hkind
    obtain ⟨check, hcheck, rfl, hpassed⟩ := h.required kind hkind
    exact ⟨check, find?_kind h.unique hcheck, hpassed⟩
  rw [h.noMismatch, hrequired, List.append_nil]

/-- A valid candidate is recorded as verified exactly when everything passes. -/
theorem candidate_ok_iff (hreceipt : .idempotency_receipt ∈ required)
    (hvalid : (candidate P command required receipt persisted readbackId domain).valid = true) :
    (candidate P command required receipt persisted readbackId domain).ok = true ↔
      Passes command required receipt persisted domain := by
  obtain ⟨_, _, _, hunique, hok, _⟩ := valid_iff.1 hvalid
  constructor
  · intro htrue
    have hnil := (hok htrue).2
    rw [candidate_mismatches, List.append_eq_nil_iff, requiredFailures_eq_nil] at hnil
    have hrequired : ∀ kind ∈ required, ∃ check ∈ allChecks command receipt persisted domain,
        check.kind = kind ∧ check.status = .passed := by
      intro kind hkind
      obtain ⟨check, hfind, hpassed⟩ := hnil.2 kind hkind
      have hmem := List.mem_of_find?_eq_some hfind
      exact ⟨check, hmem, by simpa using List.find?_some hfind, hpassed⟩
    have hidentity : receiptMatches command receipt persisted = true := by
      obtain ⟨check, hmem, hkind, hpassed⟩ := hrequired _ hreceipt
      have hsame : check = receiptCheck command receipt persisted :=
        List.inj_on_of_nodup_map hunique hmem receiptCheck_mem hkind
      rw [hsame] at hpassed
      exact receiptCheck_passed.1 hpassed
    exact ⟨hrequired, (hok htrue).1, hunique, hnil.1, hidentity⟩
  · intro hpasses
    change (domain.mismatches ++ requiredFailures required _).isEmpty = true
    rw [mismatches_of_passes hpasses]
    rfl

/-- What passes makes a valid candidate, but for the length of a detail code. -/
theorem candidate_valid_of_passes (h : Passes command required receipt persisted domain) :
    (candidate P command required receipt persisted readbackId domain).valid = true ↔
      ∀ check ∈ domain.checks, detailFits check = true := by
  have hnil := mismatches_of_passes h
  have hfits : ((∀ check ∈ allChecks command receipt persisted domain, check.valid = true) ↔
      ∀ check ∈ domain.checks, detailFits check = true) := by
    constructor
    · intro hall check hcheck
      have hmem : check ∈ allChecks command receipt persisted domain := by simp [allChecks, hcheck]
      exact (check_valid.1 (hall check hmem)).1
    · intro hall check hcheck
      have hstatus := h.noneFailed check hcheck
      rw [check_valid]
      refine ⟨?_, fun hfailed => absurd hfailed hstatus⟩
      rcases List.mem_append.1 hcheck with hdomain | hlast
      · exact hall check hdomain
      · rw [List.mem_singleton.1 hlast]
        simp [receiptCheck, detailFits, h.identity]
  rw [valid_iff, ← hfits]
  have hmismatches : (candidate P command required receipt persisted readbackId domain).mismatches = [] := hnil
  have hok : (candidate P command required receipt persisted readbackId domain).ok = true := by
    change (domain.mismatches ++ requiredFailures required _).isEmpty = true
    rw [hnil]
    rfl
  rw [hmismatches, hok]
  constructor
  · intro hparts
    exact hparts.2.1
  · intro hall
    exact ⟨allChecks_ne_nil, hall, by simp, h.unique, fun _ => ⟨h.noneFailed, rfl⟩, fun h => by cases h⟩

theorem utf16Length_append (s t : String) :
    Json.utf16Length (s ++ t) = Json.utf16Length s + Json.utf16Length t := by
  simp [Json.utf16Length]

/-- A failure is recorded when its code fits a check. -/
theorem failure_valid (hreceipt : .idempotency_receipt ∈ required) {failureCode : String} :
    (failure P command required receipt readbackId failureCode).valid = true ↔
      1 ≤ Json.utf16Length failureCode ∧ Json.utf16Length failureCode ≤ 128 := by
  have hprefix : Json.utf16Length ("readback_error." ++ failureCode) =
      15 + Json.utf16Length failureCode := by
    rw [utf16Length_append]
    rfl
  have hkinds : (failure P command required receipt readbackId failureCode).checks.map
      ReadbackCheck.kind = allReadbackKinds := by
    simp only [failure, List.map_map]
    refine List.map_id'' (fun kind => ?_) allReadbackKinds
    simp only [Function.comp]
    split_ifs <;> rfl
  have hfailed : (⟨.idempotency_receipt, .failed, some failureCode⟩ : ReadbackCheck) ∈
      (failure P command required receipt readbackId failureCode).checks := by
    simp only [failure, List.mem_map]
    exact ⟨.idempotency_receipt, by decide, by rw [if_pos hreceipt]⟩
  rw [valid_iff]
  constructor
  · rintro ⟨_, hchecks, _⟩
    have hfits := (check_valid.1 (hchecks _ hfailed)).1
    simpa [detailFits] using hfits
  · rintro ⟨hlower, hupper⟩
    have hchecks : ∀ check ∈ (failure P command required receipt readbackId failureCode).checks,
        check.valid = true := by
      intro check hcheck
      simp only [failure, List.mem_map] at hcheck
      obtain ⟨kind, _, rfl⟩ := hcheck
      rw [check_valid]
      split_ifs
      · simp [detailFits, hlower, hupper]
      · simp [detailFits]
    have hbounds : ∀ mismatch ∈ (failure P command required receipt readbackId failureCode).mismatches,
        1 ≤ Json.utf16Length mismatch ∧ Json.utf16Length mismatch ≤ 256 := by
      intro mismatch hmismatch
      simp only [failure, List.mem_singleton] at hmismatch
      rw [hmismatch, hprefix]
      omega
    exact ⟨List.ne_nil_of_mem hfailed, hchecks, hbounds, by rw [hkinds]; decide,
      fun h => (by cases h), fun _ => .inr (by simp [failure])⟩

/-- What the schema asks of the checks and the mismatches of a record. -/
structure MeetsSchema (checks : List ReadbackCheck) (mismatches : List String) : Prop where
  valid : ∀ check ∈ checks, check.valid = true
  bounded : ∀ mismatch ∈ mismatches,
    1 ≤ Json.utf16Length mismatch ∧ Json.utf16Length mismatch ≤ 256
  unique : (checks.map ReadbackCheck.kind).Nodup
  explained : mismatches = [] → ∀ check ∈ checks, check.status ≠ .failed

theorem candidate_valid_iff :
    (candidate P command required receipt persisted readbackId domain).valid = true ↔
      MeetsSchema (allChecks command receipt persisted domain)
        (domain.mismatches ++ requiredFailures required (allChecks command receipt persisted domain)) := by
  have hok : (candidate P command required receipt persisted readbackId domain).ok =
      (domain.mismatches ++ requiredFailures required
        (allChecks command receipt persisted domain)).isEmpty := rfl
  rw [valid_iff, candidate_mismatches, hok]
  constructor
  · rintro ⟨_, hchecks, hmismatches, hunique, htrue, _⟩
    refine ⟨hchecks, hmismatches, hunique, fun hnil => (htrue ?_).1⟩
    rw [hnil]
    rfl
  · intro h
    refine ⟨allChecks_ne_nil, h.valid, h.bounded, h.unique, ?_, ?_⟩
    · intro hempty
      have hnil := List.isEmpty_iff.1 hempty
      exact ⟨h.explained hnil, hnil⟩
    · intro hmore
      refine .inr fun hnil => ?_
      rw [hnil] at hmore
      cases hmore

/-! ## Texts the database can hold -/

theorem storableText_append {s t : String} :
    Db.storableText (s ++ t) = (Db.storableText s && Db.storableText t) := by
  simp [Db.storableText]

theorem storableReadback_iff {result : ReadbackResult} : Db.storableReadback result = .ok () ↔
    (∀ check ∈ result.checks, check.detailCode.all Db.storableText = true) ∧
      ∀ mismatch ∈ result.mismatches, Db.storableText mismatch = true := by
  unfold Db.storableReadback
  split_ifs with hchecks hmismatches
  · simp only [Bool.not_eq_true', List.all_eq_false] at hchecks
    obtain ⟨check, hcheck, hbad⟩ := hchecks
    simp only [false_iff]
    exact fun h => hbad (h.1 check hcheck)
  · simp only [Bool.not_eq_true', List.all_eq_false] at hmismatches
    obtain ⟨mismatch, hmismatch, hbad⟩ := hmismatches
    simp only [false_iff]
    exact fun h => hbad (h.2 mismatch hmismatch)
  · simp only [Bool.not_eq_true', Bool.not_eq_false, List.all_eq_true] at hchecks hmismatches
    simpa using ⟨hchecks, hmismatches⟩

/-- The texts a handler returns have no character U+0000. -/
def Storable (domain : DomainReadbackOutput) : Prop :=
  (∀ check ∈ domain.checks, check.detailCode.all Db.storableText = true) ∧
    ∀ mismatch ∈ domain.mismatches, Db.storableText mismatch = true

theorem candidate_storable :
    Db.storableReadback (candidate P command required receipt persisted readbackId domain) = .ok () ↔
      Storable domain := by
  have hown : (receiptCheck command receipt persisted).detailCode.all Db.storableText = true := by
    unfold receiptCheck
    cases receiptMatches command receipt persisted
    · decide
    · rfl
  have hkind : ∀ kind : ReadbackCheckKind, Db.storableText ("required_check." ++ kind.text) = true := by
    intro kind
    cases kind <;> decide
  have hfailures : ∀ mismatch ∈ requiredFailures required (allChecks command receipt persisted domain),
      Db.storableText mismatch = true := by
    intro mismatch hmismatch
    obtain ⟨kind, _, hfrom⟩ := List.mem_flatMap.1 hmismatch
    have hname : mismatch = "required_check." ++ kind.text := by
      split at hfrom
      · split_ifs at hfrom
        · cases hfrom
        · exact List.mem_singleton.1 hfrom
      · exact List.mem_singleton.1 hfrom
    rw [hname]
    exact hkind kind
  rw [storableReadback_iff, candidate_mismatches]
  change ((∀ check ∈ domain.checks ++ [receiptCheck command receipt persisted], _) ∧ _) ↔ _
  simp only [List.forall_mem_append, List.forall_mem_singleton, hown, and_true, Storable]
  exact and_congr_right fun _ => and_iff_left hfailures

theorem failure_storable {failureCode : String} :
    Db.storableReadback (failure P command required receipt readbackId failureCode) = .ok () ↔
      Db.storableText failureCode = true := by
  have hprefix : Db.storableText "readback_error." = true := by decide
  rw [storableReadback_iff]
  simp only [failure, List.forall_mem_singleton, storableText_append, hprefix, Bool.true_and]
  refine and_iff_right_of_imp fun hstorable check hcheck => ?_
  obtain ⟨kind, _, rfl⟩ := List.mem_map.1 hcheck
  split_ifs
  · exact hstorable
  · rfl

end Conclusions

/-! ## The run -/

/-- How the calls end: statements on the reading client as `replies` says, all others normally. -/
def answering (replies : Query → Except PgFailure (List Json)) (readbackId : MutationReadbackId) :
    Call → Choice
  | .readQuery statement =>
    match replies statement with
    | .ok rows => .rows rows
    | .error failure => .fault failure .undone
  | .newReadbackId => .readbackId readbackId
  | _ => .normal

/-- The statements of the executor around the handler's. -/
def ownStatements : List Query :=
  [⟨"BEGIN ISOLATION LEVEL REPEATABLE READ READ ONLY", []⟩,
    ⟨"SELECT set_config('statement_timeout','5000ms',true), set_config('idle_in_transaction_session_timeout','5000ms',true)", []⟩,
    ⟨"COMMIT", []⟩]

section Run

variable {ι : Type} [DecidableEq ι] {jsonIn : String → Option Json} {i : ι}
variable {replies : Query → Except PgFailure (List Json)} {readbackId : MutationReadbackId}

/-- A program run by one caller while the others rest. -/
def runs (jsonIn : String → Option Json) (i : ι) (replies : Query → Except PgFailure (List Json))
    (readbackId : MutationReadbackId) (p : Program α) (s : Sys ι) :
    Option (Except Thrown α × Sys ι) :=
  (mutationSystem ι jsonIn).solo i (answering replies readbackId) p s

variable {s : Sys ι} {command : CheckedCommand} {handler : MutationCommandHandler} {input : Json}
variable {receipt : MutationReceipt} {P : Platform}

theorem runs_readQuery {statement : Query} {rows : List Json} (h : replies statement = .ok rows) :
    runs jsonIn i replies readbackId (issue (.readQuery statement)) s = some (.ok rows, s) := by
  have hchoice : answering replies readbackId (.readQuery statement) = .rows rows := by
    simp only [answering, h]
  refine System.solo_perform_ok ?_
  rw [hchoice]
  rfl

theorem runs_readQuery_error {statement : Query} {failure : PgFailure}
    (h : replies statement = .error failure) :
    runs jsonIn i replies readbackId (issue (.readQuery statement)) s =
      some (.error (.pg failure), s) := by
  have hchoice : answering replies readbackId (.readQuery statement) = .fault failure .undone := by
    simp only [answering, h]
  change (Sys.run jsonIn i (.readQuery statement) _ s).bind _ = _
  rw [hchoice]
  rfl

/-- The handler's code leaves the database alone and ends where its outcome says. -/
theorem runs_handler (body : HandlerBody α) :
    runs jsonIn i replies readbackId body.onReadClient s = some (body.outcome replies, s) := by
  induction body with
  | done output => rfl
  | fail error => rfl
  | query layer statement k ih =>
    unfold HandlerBody.onReadClient HandlerBody.outcome
    cases hreply : replies statement with
    | ok rows =>
      have hquery : runs jsonIn i replies readbackId ((issue (.readQuery statement)).tryCatch
          fun error => .throw (layer.wrap error)) s = some (.ok rows, s) :=
        System.solo_tryCatch_ok (runs_readQuery hreply)
      exact (System.solo_bind_ok hquery).trans (ih rows)
    | error failure =>
      have hquery : runs jsonIn i replies readbackId ((issue (.readQuery statement)).tryCatch
          fun error => .throw (layer.wrap error)) s =
          some (.error (layer.wrap (.pg failure)), s) :=
        System.solo_tryCatch_error (runs_readQuery_error hreply)
      exact System.solo_bind_error hquery

theorem runs_findReceipt {key : CommandKey} :
    runs jsonIn i replies readbackId (findReceiptByCommand key) s =
      some (if (s.db.selectReceipt key).all MutationReceipt.valid then
        .ok (readable (s.db.selectReceipt key)) else .error .zodError, s) := by
  have hquery : runs jsonIn i replies readbackId (issue (.findReceipt key)) s =
      some (.ok (s.db.selectReceipt key), s) := rfl
  refine (System.solo_bind_ok hquery).trans ?_
  cases hstored : s.db.selectReceipt key with
  | none => rfl
  | some stored =>
    cases hvalid : stored.valid with
    | true => simp [hvalid, readable, Option.filter, System.solo]
    | false => simp [hvalid, System.solo]

/-- What the read transaction concludes from the outcome of the handler. -/
def concluded (P : Platform) (command : CheckedCommand) (required : List ReadbackCheckKind)
    (receipt : MutationReceipt) (stored : Option MutationReceipt) (readbackId : MutationReadbackId) :
    Except Thrown DomainReadbackOutput → Except Thrown ReadbackResult
  | .error error => .error error
  | .ok domain =>
    let result := candidate P command required receipt (readable stored) readbackId domain
    if stored.all MutationReceipt.valid && result.valid then .ok result else .error .zodError

theorem runs_parseReadback {result : ReadbackResult} :
    runs jsonIn i replies readbackId (parseReadback result) s =
      some (if result.valid then .ok result else .error .zodError, s) := by
  unfold parseReadback
  split_ifs <;> rfl

theorem runs_newReadbackId :
    runs jsonIn i replies readbackId (issue .newReadbackId) s = some (.ok readbackId, s) := rfl

theorem runs_readbackChecks (hreplies : ∀ statement ∈ ownStatements, ∃ rows, replies statement = .ok rows) :
    runs jsonIn i replies readbackId (readbackChecks P command handler input receipt) s =
      some (concluded P command handler.requiredReadbackChecks receipt
        (s.db.selectReceipt command.key) readbackId ((handler.readback input receipt).outcome replies), s) := by
  obtain ⟨_, hbegin⟩ := hreplies _ (.head _)
  obtain ⟨_, htimeouts⟩ := hreplies _ (.tail _ (.head _))
  obtain ⟨_, hcommit⟩ := hreplies _ (.tail _ (.tail _ (.head _)))
  refine (System.solo_bind_ok (runs_readQuery hbegin)).trans ?_
  refine (System.solo_bind_ok (runs_readQuery htimeouts)).trans ?_
  have hhandler : runs jsonIn i replies readbackId (handler.readback input receipt).onReadClient s =
      some ((handler.readback input receipt).outcome replies, s) := runs_handler _
  cases houtcome : (handler.readback input receipt).outcome replies with
  | error error =>
    rw [houtcome] at hhandler
    exact System.solo_bind_error hhandler
  | ok domain =>
    rw [houtcome] at hhandler
    refine (System.solo_bind_ok hhandler).trans ?_
    have hreceipt : runs jsonIn i replies readbackId (findReceiptByCommand command.key) s = _ :=
      runs_findReceipt
    cases hvalid : (s.db.selectReceipt command.key).all MutationReceipt.valid with
    | false =>
      rw [hvalid] at hreceipt
      refine (System.solo_bind_error hreceipt).trans ?_
      simp only [concluded, hvalid, Bool.false_and]
      rfl
    | true =>
      rw [hvalid] at hreceipt
      refine (System.solo_bind_ok hreceipt).trans ?_
      refine (System.solo_bind_ok (runs_readQuery hcommit)).trans ?_
      refine (System.solo_bind_ok runs_newReadbackId).trans ?_
      refine runs_parseReadback.trans ?_
      simp only [concluded, hvalid, Bool.true_and]
      rfl

theorem runs_performReadback
    (hreplies : ∀ statement ∈ ownStatements, ∃ rows, replies statement = .ok rows) :
    runs jsonIn i replies readbackId (performReadback P command handler input receipt) s =
      some (concluded P command handler.requiredReadbackChecks receipt
        (s.db.selectReceipt command.key) readbackId ((handler.readback input receipt).outcome replies), s) := by
  have hconnect : runs jsonIn i replies readbackId (issue (.readConnect handler.domainRole)) s =
      some (.ok (), s) := rfl
  refine (System.solo_bind_ok hconnect).trans ?_
  have hchecks : runs jsonIn i replies readbackId (readbackChecks P command handler input receipt) s = _ :=
    runs_readbackChecks hreplies
  cases hconcluded : concluded P command handler.requiredReadbackChecks receipt
      (s.db.selectReceipt command.key) readbackId ((handler.readback input receipt).outcome replies) with
  | ok result =>
    rw [hconcluded] at hchecks
    exact System.solo_tryCatch_ok hchecks
  | error error =>
    rw [hconcluded] at hchecks
    refine (System.solo_tryCatch_error hchecks).trans ?_
    have hrollback : runs jsonIn i replies readbackId
        ((issue (.readQuery ⟨"ROLLBACK", []⟩)).tryCatch fun _ => .ret ([] : List Json)) s =
          some (.ok ((replies ⟨"ROLLBACK", []⟩).toOption.getD []), s) := by
      cases hreply : replies ⟨"ROLLBACK", []⟩ with
      | ok rows => exact System.solo_tryCatch_ok (runs_readQuery hreply)
      | error failure => exact System.solo_tryCatch_error (runs_readQuery_error hreply)
    exact System.solo_bind_ok hrollback

/-- What is handed to `recordReadback`, or what `failedReadback` throws. -/
def normalised (P : Platform) (command : CheckedCommand) (required : List ReadbackCheckKind)
    (receipt : MutationReceipt) (readbackId : MutationReadbackId) :
    Except Thrown ReadbackResult → Except Thrown ReadbackResult
  | .ok result => .ok result
  | .error error =>
    let result := failure P command required receipt readbackId (readbackFailureCode error)
    if result.valid then .ok result else .error .zodError

theorem runs_performOrFailed
    (hreplies : ∀ statement ∈ ownStatements, ∃ rows, replies statement = .ok rows) :
    runs jsonIn i replies readbackId
      ((performReadback P command handler input receipt).tryCatch fun error =>
        failedReadback P command receipt handler.requiredReadbackChecks error) s =
      some (normalised P command handler.requiredReadbackChecks receipt readbackId
        (concluded P command handler.requiredReadbackChecks receipt
          (s.db.selectReceipt command.key) readbackId
          ((handler.readback input receipt).outcome replies)), s) := by
  have hperform : runs jsonIn i replies readbackId
      (performReadback P command handler input receipt) s = _ := runs_performReadback hreplies
  cases hconcluded : concluded P command handler.requiredReadbackChecks receipt
      (s.db.selectReceipt command.key) readbackId ((handler.readback input receipt).outcome replies) with
  | ok result =>
    rw [hconcluded] at hperform
    exact System.solo_tryCatch_ok hperform
  | error error =>
    rw [hconcluded] at hperform
    refine (System.solo_tryCatch_error hperform).trans ?_
    refine (System.solo_bind_ok runs_newReadbackId).trans ?_
    exact runs_parseReadback

end Run

end Readback

/-! ## The row -/

namespace Db

variable {db : Db} {householdId : HouseholdId} {result : ReadbackResult}

/-- The database after the record of a command whose row was `row`. -/
def withReadback (db : Db) (householdId : HouseholdId) (row : CommandRow)
    (result : ReadbackResult) : Db :=
  ({ db with readbacks := db.readbacks ++ [⟨householdId, result⟩] } : Db).replaceCommand
    { row with
      status := readbackStatus result.ok, failureCode := readbackFailureCode result.ok
      updatedAt := db.now }

theorem guard_readback {row : CommandRow} (hstatus : row.status = .committed)
    (hevidence : ∃ readback ∈ db.readbacks, readback.key = row.key ∧ readback.result.ok = result.ok) :
    db.guardMutationCommandUpdate row (readbackStatus result.ok) (readbackFailureCode result.ok) =
      .ok { row with
        status := readbackStatus result.ok, failureCode := readbackFailureCode result.ok
        updatedAt := db.now } := by
  obtain ⟨readback, hmem, hkey, hok⟩ := hevidence
  have hany : (db.readbacks.any fun other => other.key == row.key &&
      other.result.ok == decide (readbackStatus result.ok = .readback_verified)) = true := by
    refine List.any_eq_true.2 ⟨readback, hmem, ?_⟩
    rw [hkey, hok]
    cases result.ok <;> simp [readbackStatus]
  unfold guardMutationCommandUpdate
  rw [hany]
  cases result.ok <;> simp [hstatus, readbackStatus, statusTransitionAllowed]

theorem recordReadback_done {row : CommandRow} {stored : ReceiptRow}
    (hrow : db.findCommand (householdId, result.commandId) = some row)
    (hstatus : row.status = .committed)
    (hreceipt : db.findReceipt (householdId, result.commandId) = some stored)
    (hid : stored.receiptId = result.receiptId) (hstorable : storableReadback result = .ok ())
    (hconsistent : result.ok = result.mismatches.isEmpty)
    (hfresh : ∀ readback ∈ db.readbacks, readback.result.readbackId ≠ result.readbackId)
    (hunread : ∀ readback ∈ db.readbacks, readback.key ≠ (householdId, result.commandId)) :
    db.recordReadback householdId result = .ok (1, db.withReadback householdId row result) := by
  have hkey : row.key = (householdId, result.commandId) := (findCommand_some hrow).2
  have hunique : (db.readbacks.any fun readback =>
      readback.result.readbackId == result.readbackId) = false := by
    rw [List.any_eq_false]
    intro readback hmem hsame
    exact hfresh readback hmem (by simpa using hsame)
  have honce : (db.readbacks.any fun readback =>
      readback.key == (householdId, result.commandId)) = false := by
    rw [List.any_eq_false]
    intro readback hmem hsame
    exact hunread readback hmem (by simpa using hsame)
  have hevidence : ∃ readback ∈ db.readbacks ++ [⟨householdId, result⟩],
      readback.key = row.key ∧ readback.result.ok = result.ok :=
    ⟨⟨householdId, result⟩, by simp, hkey.symm, rfl⟩
  have hguard : ({ db with readbacks := db.readbacks ++ [⟨householdId, result⟩] } : Db).guardMutationCommandUpdate
      row (readbackStatus result.ok) (readbackFailureCode result.ok) = .ok { row with
        status := readbackStatus result.ok, failureCode := readbackFailureCode result.ok
        updatedAt := db.now } := guard_readback hstatus hevidence
  have hinserted : ({ db with readbacks := db.readbacks ++ [⟨householdId, result⟩] } : Db).findCommand
      (householdId, result.commandId) = some row := hrow
  simp only [recordReadback, hstorable, bind, Except.bind, hrow, hreceipt, hstatus, hid, and_self,
    if_true, hconsistent, ne_eq, not_true_eq_false, if_false, hunique, honce, Bool.false_eq_true]
  simp only [updateCommand, hinserted, hstatus, if_true, ← hconsistent]
  simp only [hguard, bind, Except.bind, pure, Except.pure]
  rfl

theorem recordReadback_refused {failure : PgFailure}
    (h : storableReadback result = .error failure) :
    db.recordReadback householdId result = .error failure := by
  simp only [recordReadback, h, bind, Except.bind]

end Db

/-! ## The reconciliation afterwards -/

namespace Readback

section Reconciling

variable {ι : Type} [DecidableEq ι] {jsonIn : String → Option Json} {i : ι} {s s' : Sys ι}
variable {replies : Query → Except PgFailure (List Json)} {readbackId : MutationReadbackId}
variable {β : Type} {key : CommandKey}

/-- The same commands and the same read-backs. -/
def SameRecords (s s' : Sys ι) : Prop :=
  s'.db.commands = s.db.commands ∧ s'.db.readbacks = s.db.readbacks

/-- The program comes to an end and has written no command and no read-back. -/
def Keeps (jsonIn : String → Option Json) (i : ι) (replies : Query → Except PgFailure (List Json))
    (readbackId : MutationReadbackId) (p : Program α) (s : Sys ι) : Prop :=
  ∃ out s', runs jsonIn i replies readbackId p s = some (out, s') ∧ SameRecords s s'

theorem Keeps.ret (a : α) : Keeps jsonIn i replies readbackId (.ret a) s :=
  ⟨.ok a, s, rfl, rfl, rfl⟩

theorem Keeps.throw (e : Thrown) : Keeps jsonIn i replies readbackId (.throw e : Program α) s :=
  ⟨.error e, s, rfl, rfl, rfl⟩

theorem Keeps.bind {p : Program α} {f : α → Program β} (hp : Keeps jsonIn i replies readbackId p s)
    (hf : ∀ a s', SameRecords s s' → Keeps jsonIn i replies readbackId (f a) s') :
    Keeps jsonIn i replies readbackId (p.bind f) s := by
  obtain ⟨out, s', hrun, hsame⟩ := hp
  cases out with
  | ok a =>
    obtain ⟨out', s'', hrest, hsame'⟩ := hf a s' hsame
    exact ⟨out', s'', (System.solo_bind_ok hrun).trans hrest, hsame'.1.trans hsame.1,
      hsame'.2.trans hsame.2⟩
  | error e => exact ⟨.error e, s', System.solo_bind_error hrun, hsame⟩

theorem Keeps.of_ok {p : Program α} {f : α → Program β} {a : α}
    (hp : runs jsonIn i replies readbackId p s = some (.ok a, s))
    (hf : Keeps jsonIn i replies readbackId (f a) s) :
    Keeps jsonIn i replies readbackId (p.bind f) s := by
  obtain ⟨out, s', hrest, hsame⟩ := hf
  exact ⟨out, s', (System.solo_bind_ok hp).trans hrest, hsame⟩

theorem Keeps.tryCatch {p : Program α} {h : Thrown → Program α}
    (hp : Keeps jsonIn i replies readbackId p s)
    (hh : ∀ e s', SameRecords s s' → Keeps jsonIn i replies readbackId (h e) s') :
    Keeps jsonIn i replies readbackId (p.tryCatch h) s := by
  obtain ⟨out, s', hrun, hsame⟩ := hp
  cases out with
  | ok a => exact ⟨.ok a, s', System.solo_tryCatch_ok hrun, hsame⟩
  | error e =>
    obtain ⟨out', s'', hrest, hsame'⟩ := hh e s' hsame
    exact ⟨out', s'', (System.solo_tryCatch_error hrun).trans hrest, hsame'.1.trans hsame.1,
      hsame'.2.trans hsame.2⟩

theorem keeps_transition {input : Db.TransitionRecord} {site : ReconcileSite} :
    Keeps jsonIn i replies readbackId (issue (.transition input site)) s := by
  cases htransition : s.db.transition input with
  | ok x =>
    obtain ⟨outcome, db⟩ := x
    have hrun : Sys.run jsonIn i (.transition input site) .normal s =
        some (.ok outcome, { s with db }) := by
      simp only [Sys.run, Sys.autocommit, htransition]
    refine ⟨.ok outcome, { s with db }, System.solo_perform_ok hrun, ?_⟩
    rcases Db.transition_ok htransition with ⟨_, rfl, _⟩ | ⟨_, _, _, _, rfl⟩ | ⟨_, _, _, _, rfl⟩ <;>
      exact ⟨rfl, rfl⟩
  | error failure =>
    have hrun : Sys.run jsonIn i (.transition input site) .normal s =
        some (.error (.pg failure), s) := by
      simp only [Sys.run, Sys.autocommit, htransition]
    exact ⟨.error (.pg failure), s, System.solo_perform_error hrun, rfl, rfl⟩

theorem keeps_alignTask {command : MutationCommandRecord} {site : ReconcileSite}
    {taskStatus : TaskStatus} :
    Keeps jsonIn i replies readbackId (alignTask command site taskStatus) s := by
  unfold alignTask
  simp only
  split_ifs
  · refine Keeps.bind (Keeps.bind keeps_transition fun outcome _ _ => ?_) fun _ _ _ => .ret ()
    cases outcome with
    | notFound => exact .throw _
    | stale actual => exact .throw _
    | done task => exact .ret task
  · exact .ret ()
  · exact .throw _

/-- A command that is past its registration is only read. -/
theorem keeps_reconcileOnce {row : CommandRow} {attempt : Nat} (hrow : s.db.findCommand key = some row)
    (hstatus : row.status ≠ .registered) :
    Keeps jsonIn i replies readbackId (reconcileOnce key attempt) s := by
  have hfound : runs jsonIn i replies readbackId (findByCommandId key) s =
      some (.ok (some (mapCommand row)), s) := by
    have hquery : runs jsonIn i replies readbackId (issue (.findCommand key)) s =
        some (.ok (s.db.findCommand key), s) := rfl
    rw [hrow] at hquery
    exact System.solo_bind_ok hquery
  have hquery : Keeps jsonIn i replies readbackId
      (issue (.findTask key.1 row.taskId ⟨attempt, row.status⟩)) s :=
    ⟨.ok (s.db.findTask key.1 row.taskId), s, rfl, rfl, rfl⟩
  refine Keeps.of_ok hfound (hquery.bind fun task t _ => ?_)
  cases task with
  | none => exact .throw _
  | some task =>
    refine Keeps.bind keeps_alignTask fun _ t' _ => ?_
    have hsettled : settle (mapCommand row) key ⟨attempt, row.status⟩ = .ret (mapCommand row) :=
      if_neg hstatus
    change Keeps jsonIn i replies readbackId (settle (mapCommand row) key ⟨attempt, row.status⟩) t'
    rw [hsettled]
    exact .ret _

theorem keeps_reconcileFrom {row : CommandRow} {left attempt : Nat}
    (hrow : s.db.findCommand key = some row) (hstatus : row.status ≠ .registered) :
    Keeps jsonIn i replies readbackId (reconcileFrom key attempt left) s := by
  induction left generalizing attempt s with
  | zero => exact keeps_reconcileOnce hrow hstatus
  | succ left ih =>
    refine (keeps_reconcileOnce hrow hstatus).tryCatch fun e t hsame => ?_
    have hrow' : t.db.findCommand key = some row := by rw [Db.findCommand_congr hsame.1, hrow]
    split_ifs
    · exact ih hrow'
    · exact .throw e

theorem keeps_reconcile {row : CommandRow} (hrow : s.db.findCommand key = some row)
    (hstatus : row.status ≠ .registered) :
    Keeps jsonIn i replies readbackId (reconcile key) s := keeps_reconcileFrom hrow hstatus

end Reconciling

/-! ## The record of an outcome -/

/-- What is recorded of an outcome, if anything is. -/
def recorded (P : Platform) (command : CheckedCommand) (required : List ReadbackCheckKind)
    (receipt : MutationReceipt) (stored : Option MutationReceipt) (readbackId : MutationReadbackId)
    (outcome : Except Thrown DomainReadbackOutput) : Option ReadbackResult :=
  match normalised P command required receipt readbackId
      (concluded P command required receipt stored readbackId outcome) with
  | .ok result =>
    match Db.storableReadback result with
    | .ok () => some result
    | .error _ => none
  | .error _ => none

/-- The texts of the handler that a record would carry fit into it: the code of an error it throws,
the detail codes of an output that passes, and, for the database, all of them. -/
def Recordable (command : CheckedCommand) (required : List ReadbackCheckKind)
    (receipt : MutationReceipt) (stored : Option MutationReceipt) :
    Except Thrown DomainReadbackOutput → Prop
  | .error error =>
    (1 ≤ Json.utf16Length (readbackFailureCode error) ∧
      Json.utf16Length (readbackFailureCode error) ≤ 128) ∧
      Db.storableText (readbackFailureCode error) = true
  | .ok domain =>
    (Passes command required receipt (readable stored) domain →
      ∀ check ∈ domain.checks, detailFits check = true) ∧
    (stored.all MutationReceipt.valid = true →
      MeetsSchema (allChecks command receipt (readable stored) domain)
        (domain.mismatches ++
          requiredFailures required (allChecks command receipt (readable stored) domain)) →
      Storable domain)

section Recorded

variable {P : Platform} {command : CheckedCommand} {required : List ReadbackCheckKind}
variable {receipt : MutationReceipt} {stored : Option MutationReceipt}
variable {readbackId : MutationReadbackId} {outcome : Except Thrown DomainReadbackOutput}
variable {result : ReadbackResult}

/-- Both records name the command and the receipt, pass the schema, and list a mismatch unless they
are those of a verified command. -/
structure Proper (command : CheckedCommand) (receipt : MutationReceipt)
    (readbackId : MutationReadbackId) (result : ReadbackResult) : Prop where
  commandId : result.commandId = command.commandId
  receiptId : result.receiptId = receipt.receiptId
  readbackId : result.readbackId = readbackId
  consistent : result.ok = result.mismatches.isEmpty
  valid : result.valid = true

theorem proper_of_normalised (h : normalised P command required receipt readbackId
    (concluded P command required receipt stored readbackId outcome) = .ok result) :
    Proper command receipt readbackId result := by
  cases hconcluded : concluded P command required receipt stored readbackId outcome with
  | ok concludedResult =>
    rw [hconcluded] at h
    cases h
    cases outcome with
    | error error => cases hconcluded
    | ok domain =>
      simp only [concluded] at hconcluded
      split_ifs at hconcluded with hvalid
      cases hconcluded
      simp only [Bool.and_eq_true] at hvalid
      exact ⟨rfl, rfl, rfl, rfl, hvalid.2⟩
  | error error =>
    rw [hconcluded] at h
    simp only [normalised] at h
    split_ifs at h with hvalid
    cases h
    exact ⟨rfl, rfl, rfl, rfl, hvalid⟩

theorem recorded_eq_some : recorded P command required receipt stored readbackId outcome = some result ↔
    normalised P command required receipt readbackId
      (concluded P command required receipt stored readbackId outcome) = .ok result ∧
    Db.storableReadback result = .ok () := by
  unfold recorded
  cases normalised P command required receipt readbackId
      (concluded P command required receipt stored readbackId outcome) with
  | error error => simp
  | ok concludedResult =>
    cases hstorable : Db.storableReadback concludedResult with
    | ok =>
      simp only [hstorable, Option.some.injEq, Except.ok.injEq]
      constructor
      · rintro rfl
        exact ⟨rfl, hstorable⟩
      · exact And.left
    | error failure =>
      simp only [hstorable, Except.ok.injEq]
      constructor
      · intro h
        cases h
      · rintro ⟨rfl, hok⟩
        rw [hstorable] at hok
        cases hok

/-- The failure that stands for an error. -/
theorem recorded_failure (hreceipt : .idempotency_receipt ∈ required) {error : Thrown}
    (h : concluded P command required receipt stored readbackId outcome = .error error) :
    (∃ result, recorded P command required receipt stored readbackId outcome = some result ∧
      result.ok = false) ↔
    (1 ≤ Json.utf16Length (readbackFailureCode error) ∧
      Json.utf16Length (readbackFailureCode error) ≤ 128) ∧
      Db.storableText (readbackFailureCode error) = true := by
  have hvalid : (failure P command required receipt readbackId (readbackFailureCode error)).valid = true ↔
      _ := failure_valid hreceipt
  have hstorable : Db.storableReadback
      (failure P command required receipt readbackId (readbackFailureCode error)) = .ok () ↔ _ :=
    failure_storable
  simp only [recorded_eq_some, h, normalised]
  rw [← hvalid, ← hstorable]
  constructor
  · rintro ⟨result, ⟨hresult, hfits⟩, _⟩
    split_ifs at hresult with hpass
    cases hresult
    exact ⟨hpass, hfits⟩
  · rintro ⟨hpass, hfits⟩
    exact ⟨_, ⟨if_pos hpass, hfits⟩, rfl⟩

theorem valid_of_matches (h : receiptMatches command receipt (readable stored) = true) :
    stored.all MutationReceipt.valid = true := by
  cases stored with
  | none => rfl
  | some persisted =>
    cases hvalid : persisted.valid with
    | true => simp [hvalid]
    | false => simp [receiptMatches, readable, Option.filter, hvalid] at h

/-- A record is made, and verifies the command exactly when everything passes, where the texts of
the handler fit. -/
theorem recorded_iff (hreceipt : .idempotency_receipt ∈ required) :
    (∃ result, recorded P command required receipt stored readbackId outcome = some result ∧
      (result.ok = true ↔ ∃ domain, outcome = .ok domain ∧
        Passes command required receipt (readable stored) domain)) ↔
    Recordable command required receipt stored outcome := by
  cases outcome with
  | error error =>
    have hfailed : concluded P command required receipt stored readbackId (.error error) = .error error := rfl
    rw [Recordable, ← recorded_failure hreceipt hfailed]
    simp
  | ok domain =>
    simp only [Except.ok.injEq, exists_eq_left', Recordable]
    have hpure : readbackFailureCode .zodError = "readback_execution_failed" := rfl
    by_cases hcandidate : stored.all MutationReceipt.valid = true ∧
        (candidate P command required receipt (readable stored) readbackId domain).valid = true
    · -- the candidate itself is recorded
      obtain ⟨hstored, hvalid⟩ := hcandidate
      have hconcluded : concluded P command required receipt stored readbackId (.ok domain) =
          .ok (candidate P command required receipt (readable stored) readbackId domain) := by
        simp [concluded, hstored, hvalid]
      have hok := candidate_ok_iff hreceipt hvalid
      have hmeets := candidate_valid_iff.1 hvalid
      have hfits : Passes command required receipt (readable stored) domain →
          ∀ check ∈ domain.checks, detailFits check = true := by
        intro hpasses
        exact (candidate_valid_of_passes hpasses).1 hvalid
      simp only [recorded_eq_some, hconcluded, normalised, Except.ok.injEq]
      constructor
      · rintro ⟨_, ⟨rfl, hstorable⟩, _⟩
        exact ⟨hfits, fun _ _ => candidate_storable.1 hstorable⟩
      · rintro ⟨_, hstorable⟩
        exact ⟨_, ⟨rfl, candidate_storable.2 (hstorable hstored hmeets)⟩, hok⟩
    · -- a failure is recorded in its place
      have hconcluded : concluded P command required receipt stored readbackId (.ok domain) =
          .error .zodError := by
        simp only [concluded]
        rw [if_neg]
        simpa using hcandidate
      have hrecorded := (recorded_failure hreceipt hconcluded).2 (by rw [hpure]; decide)
      obtain ⟨result, hresult, hfalse⟩ := hrecorded
      have hnot : (stored.all MutationReceipt.valid = true →
          MeetsSchema (allChecks command receipt (readable stored) domain)
            (domain.mismatches ++ requiredFailures required
              (allChecks command receipt (readable stored) domain)) → Storable domain) := by
        intro hstored hmeets
        exact absurd ⟨hstored, candidate_valid_iff.2 hmeets⟩ hcandidate
      constructor
      · rintro ⟨other, hother, hiff⟩
        rw [hresult] at hother
        cases hother
        refine ⟨fun hpasses => ?_, hnot⟩
        have htrue := hiff.2 hpasses
        rw [hfalse] at htrue
        cases htrue
      · rintro ⟨hfits, _⟩
        refine ⟨result, hresult, ?_⟩
        rw [hfalse]
        refine ⟨fun h => (by cases h), fun hpasses => ?_⟩
        have hvalid : (candidate P command required receipt (readable stored) readbackId
            domain).valid = true := (candidate_valid_of_passes hpasses).2 (hfits hpasses)
        exact absurd ⟨valid_of_matches hpasses.identity, hvalid⟩ hcandidate

end Recorded

/-! ## From the committed command to its record -/

/-- The command is committed with this receipt, its row is free, and it has not been read back. -/
structure Awaits {ι : Type} (s : Sys ι) (command : CheckedCommand) (receipt : MutationReceipt)
    (readbackId : MutationReadbackId) : Prop where
  committed : ∃ row, s.db.findCommand command.key = some row ∧ row.status = .committed
  receipt : ∃ row, s.db.findReceipt command.key = some row ∧ row.receiptId = receipt.receiptId
  unread : ∀ readback ∈ s.db.readbacks, readback.key ≠ command.key
  fresh : ∀ readback ∈ s.db.readbacks, readback.result.readbackId ≠ readbackId
  unlocked : s.locks command.key = none

/-- One read-back is recorded between the two states: it is valid, it is marked ok when `passes`
holds, and the command ends accordingly. -/
def RecordsOne {ι : Type} (s s' : Sys ι) (command : CheckedCommand) (receipt : MutationReceipt)
    (passes : Prop) : Prop :=
  ∃ result, s'.db.readbacks = s.db.readbacks ++ [⟨command.householdId, result⟩] ∧
    result.commandId = command.commandId ∧ result.receiptId = receipt.receiptId ∧
    result.valid = true ∧ (result.ok = true ↔ passes) ∧
    (s'.db.findCommand command.key).map CommandRow.status = some (Db.readbackStatus result.ok)

section ReadBack

variable {ι : Type} [DecidableEq ι] {jsonIn : String → Option Json} {i : ι} {s : Sys ι}
variable {replies : Query → Except PgFailure (List Json)} {readbackId : MutationReadbackId}
variable {command : CheckedCommand} {receipt : MutationReceipt} {exec : Executor}
variable {prepared : PreparedCommand} {result : ReadbackResult}

theorem runs_record (hawaits : Awaits s command receipt readbackId)
    (hproper : Proper command receipt readbackId result)
    (hstorable : Db.storableReadback result = .ok ()) :
    ∃ row, s.db.findCommand command.key = some row ∧
      runs jsonIn i replies readbackId (recordReadback command.householdId result) s =
        some (.ok (), { s with db := s.db.withReadback command.householdId row result }) := by
  obtain ⟨row, hrow, hstatus⟩ := hawaits.committed
  obtain ⟨stored, hstored, hid⟩ := hawaits.receipt
  have hkey : (command.householdId, result.commandId) = command.key := by
    rw [hproper.commandId]
    rfl
  have hdone : s.db.recordReadback command.householdId result =
      .ok (1, s.db.withReadback command.householdId row result) := by
    refine Db.recordReadback_done (by rw [hkey, hrow]) hstatus (by rw [hkey, hstored])
      (hid.trans hproper.receiptId.symm) hstorable hproper.consistent ?_ ?_
    · rw [hproper.readbackId]
      exact hawaits.fresh
    · rw [hkey]
      exact hawaits.unread
  have hrun : Sys.run jsonIn i (.recordReadback command.householdId result) .normal s =
      some (.ok 1, { s with db := s.db.withReadback command.householdId row result }) := by
    simp only [Sys.run, Sys.updating, hkey, hawaits.unlocked, Option.isSome_none, Bool.and_false,
      Bool.false_eq_true, if_false, Sys.autocommit, hdone]
  refine ⟨row, hrow, ?_⟩
  have hissue : runs jsonIn i replies readbackId
      ((issue (.recordReadback command.householdId result)).tryCatch fun error =>
        .throw (.plusOne (normalizeMutationDatabaseError error))) s = _ :=
    System.solo_tryCatch_ok (System.solo_perform_ok hrun)
  unfold recordReadback
  rw [hproper.valid]
  exact System.solo_bind_ok hissue

theorem runs_record_refused {failure : PgFailure} (hawaits : Awaits s command receipt readbackId)
    (hproper : Proper command receipt readbackId result)
    (hstorable : Db.storableReadback result = .error failure) :
    runs jsonIn i replies readbackId (recordReadback command.householdId result) s =
      some (.error (.plusOne (normalizeMutationDatabaseError (.pg failure))), s) := by
  have hkey : (command.householdId, result.commandId) = command.key := by
    rw [hproper.commandId]
    rfl
  have hrun : Sys.run jsonIn i (.recordReadback command.householdId result) .normal s =
      some (.error (.pg failure), s) := by
    simp only [Sys.run, Sys.updating, hkey, hawaits.unlocked, Option.isSome_none, Bool.and_false,
      Bool.false_eq_true, if_false, Sys.autocommit, Db.recordReadback_refused hstorable]
  have hissue : runs jsonIn i replies readbackId
      ((issue (.recordReadback command.householdId result)).tryCatch fun error =>
        .throw (.plusOne (normalizeMutationDatabaseError error))) s = _ :=
    System.solo_tryCatch_error (System.solo_perform_error hrun)
  unfold recordReadback
  rw [hproper.valid]
  exact System.solo_bind_error hissue

theorem runs_findReadback_none (hawaits : Awaits s command receipt readbackId) :
    runs jsonIn i replies readbackId (findReadbackByCommand command.key) s =
      some (.ok none, s) := by
  have hnone : s.db.selectReadback command.key = none := by
    simp only [Db.selectReadback, Option.map_eq_none_iff, List.find?_eq_none]
    intro readback hmem hsame
    exact hawaits.unread readback hmem (by simpa using hsame)
  have hquery : runs jsonIn i replies readbackId (issue (.findReadback command.key)) s =
      some (.ok (s.db.selectReadback command.key), s) := rfl
  rw [hnone] at hquery
  exact System.solo_bind_ok hquery

/-- The run of `readBack` ends, and what it leaves behind is the record of the handler's outcome. -/
theorem runs_readBack (hawaits : Awaits s command receipt readbackId)
    (hreplies : ∀ statement ∈ ownStatements, ∃ rows, replies statement = .ok rows) :
    ∃ out s', runs jsonIn i replies readbackId (readBack exec command prepared receipt) s =
        some (out, s') ∧
      match recorded exec.platform command prepared.handler.requiredReadbackChecks receipt
        (s.db.selectReceipt command.key) readbackId
        ((prepared.handler.readback prepared.input receipt).outcome replies) with
      | some result => s'.db.readbacks = s.db.readbacks ++ [⟨command.householdId, result⟩] ∧
        (s'.db.findCommand command.key).map CommandRow.status =
          some (Db.readbackStatus result.ok)
      | none => s'.db.readbacks = s.db.readbacks := by
  have hperform : runs jsonIn i replies readbackId
      ((performReadback exec.platform command prepared.handler prepared.input receipt).tryCatch
        fun error => failedReadback exec.platform command receipt
          prepared.handler.requiredReadbackChecks error) s = _ := runs_performOrFailed hreplies
  unfold recorded
  cases hnormalised : normalised exec.platform command prepared.handler.requiredReadbackChecks receipt
      readbackId (concluded exec.platform command prepared.handler.requiredReadbackChecks receipt
        (s.db.selectReceipt command.key) readbackId
        ((prepared.handler.readback prepared.input receipt).outcome replies)) with
  | error error =>
    rw [hnormalised] at hperform
    exact ⟨.error error, s, System.solo_bind_error hperform, rfl⟩
  | ok result =>
    rw [hnormalised] at hperform
    have hproper := proper_of_normalised hnormalised
    cases hstorable : Db.storableReadback result with
    | error failure =>
      simp only [hstorable]
      refine ⟨.error (.plusOne (normalizeMutationDatabaseError (.pg failure))), s, ?_, rfl⟩
      refine (System.solo_bind_ok hperform).trans (System.solo_bind_error ?_)
      refine (System.solo_handle_error (runs_record_refused hawaits hproper hstorable)).trans ?_
      exact System.solo_bind_ok (runs_findReadback_none hawaits)
    | ok =>
      simp only [hstorable]
      obtain ⟨row, hrow, hrecord⟩ : ∃ row, s.db.findCommand command.key = some row ∧
          runs jsonIn i replies readbackId (recordReadback command.householdId result) s = _ :=
        runs_record hawaits hproper hstorable
      have hkey : row.key = command.key := (Db.findCommand_some hrow).2
      have hfind : (s.db.withReadback command.householdId row result).findCommand command.key =
          some { row with
            status := Db.readbackStatus result.ok
            failureCode := Db.readbackFailureCode result.ok, updatedAt := s.db.now } :=
        Db.findCommand_replaceCommand_self hrow hkey
      have hmoved : Db.readbackStatus result.ok ≠ .registered := by
        cases result.ok <;> decide
      obtain ⟨out, s', hreconcile, hcommands, hreadbacks⟩ : Keeps jsonIn i replies readbackId
          (reconcile command.key)
          { s with db := s.db.withReadback command.householdId row result } :=
        keeps_reconcile hfind hmoved
      have hstatus : (s'.db.findCommand command.key).map CommandRow.status =
          some (Db.readbackStatus result.ok) := by
        rw [Db.findCommand_congr hcommands]
        simp only [hfind, Option.map_some]
      cases out with
      | error error =>
        refine ⟨.error error, s', ?_, hreadbacks, hstatus⟩
        refine (System.solo_bind_ok hperform).trans ?_
        refine (System.solo_bind_ok (System.solo_handle_ok hrecord)).trans ?_
        exact System.solo_bind_error hreconcile
      | ok state =>
        have hend : ∃ out, runs jsonIn i replies readbackId
            (if !result.ok || state.status == .readback_failed then
              .throw (.plusOne (mutationReadbackFailed command result.mismatches.length))
            else .ret (⟨receipt, result⟩ : Verified)) s' = some (out, s') := by
          split_ifs
          · exact ⟨_, rfl⟩
          · exact ⟨_, rfl⟩
        obtain ⟨out, hend⟩ := hend
        refine ⟨out, s', ?_, hreadbacks, hstatus⟩
        refine (System.solo_bind_ok hperform).trans ?_
        refine (System.solo_bind_ok (System.solo_handle_ok hrecord)).trans ?_
        exact (System.solo_bind_ok hreconcile).trans hend

/-- The executor records one proper read-back of whatever the handler does, exactly when the texts
the handler hands over fit into the record. -/
theorem readback_recorded_iff (hprepared : exec.registry.prepare command = .ok prepared)
    (hreplies : ∀ statement ∈ ownStatements, ∃ rows, replies statement = .ok rows)
    (hawaits : Awaits s command receipt readbackId) :
    (∃ out s', runs jsonIn i replies readbackId (readBack exec command prepared receipt) s =
        some (out, s') ∧
      RecordsOne s s' command receipt
        (∃ domain, (prepared.handler.readback prepared.input receipt).outcome replies = .ok domain ∧
          Passes command prepared.handler.requiredReadbackChecks receipt
            (readable (s.db.selectReceipt command.key)) domain)) ↔
    Recordable command prepared.handler.requiredReadbackChecks receipt
      (s.db.selectReceipt command.key)
      ((prepared.handler.readback prepared.input receipt).outcome replies) := by
  have hreceipt : .idempotency_receipt ∈ prepared.handler.requiredReadbackChecks :=
    exec.registry.receipts _ (CommandRegistry.prepare_ok hprepared).1
  obtain ⟨out, s', hrun, hleft⟩ : ∃ out s', runs jsonIn i replies readbackId
      (readBack exec command prepared receipt) s = some (out, s') ∧ _ :=
    runs_readBack hawaits hreplies
  have hrecorded_iff : (∃ result, recorded exec.platform command
      prepared.handler.requiredReadbackChecks receipt (s.db.selectReceipt command.key) readbackId
      ((prepared.handler.readback prepared.input receipt).outcome replies) = some result ∧ _) ↔ _ :=
    recorded_iff hreceipt
  rw [← hrecorded_iff]
  constructor
  · rintro ⟨other, t, hother, result, hreadbacks, _, _, _, hok, _⟩
    rw [hrun] at hother
    cases hother
    split at hleft
    · rename_i recordedResult hrecorded
      have hsame : recordedResult = result := by
        have happend := hleft.1.symm.trans hreadbacks
        simpa using happend
      rw [← hsame] at hok
      exact ⟨recordedResult, hrecorded, hok⟩
    · rw [hleft] at hreadbacks
      simp at hreadbacks
  · rintro ⟨result, hrecorded, hok⟩
    rw [hrecorded] at hleft
    have hproper := proper_of_normalised (recorded_eq_some.1 hrecorded).1
    exact ⟨out, s', hrun, result, hleft.1, hproper.commandId, hproper.receiptId, hproper.valid, hok,
      hleft.2⟩

end ReadBack

end Readback

namespace TestCommand

open Readback

def committedRow : CommandRow where
  commandId := checkedCommand.commandId
  householdId := householdId
  taskId := taskId
  commandType := "test_command"
  checkedProposalId := proposalId
  checkedProposalHash := proposalHash
  idempotencyKey := checkedCommand.idempotencyKey
  confirmationRequired := false
  confirmationId := none
  payloadSchema := schema
  payload := proposalPayload.jsonb
  status := .committed
  failureCode := none
  registeredAt := 0
  updatedAt := 0

def storedReceipt : ReceiptRow :=
  ⟨receiptIdOf checkedCommand.commandId, householdId, checkedCommand.commandId,
    [⟨"test.record", "record_1"⟩], recordState, recordHash, 0⟩

/-- The database once the transaction of the command has committed. -/
def committedDb : Db :=
  { seeded with
    tasks := [⟨householdId, taskId, .committed, some (proposalId, proposalHash), none, none, false,
      none, 0⟩]
    commands := [committedRow], receipts := [storedReceipt] }

def committedReceipt : MutationReceipt where
  receiptId := storedReceipt.receiptId
  commandId := checkedCommand.commandId
  householdId := householdId
  taskId := taskId
  checkedProposalId := proposalId
  checkedProposalHash := proposalHash
  commandType := "test_command"
  idempotencyKey := checkedCommand.idempotencyKey
  committedRecords := storedReceipt.committedRecords
  expectedState := recordState
  expectedStateHash := recordHash
  committedAt := 0

theorem committedDb_awaits : Awaits (Sys.atRest committedDb : Sys Unit) checkedCommand
    committedReceipt readbackId where
  committed := ⟨committedRow, by decide +kernel, rfl⟩
  receipt := ⟨storedReceipt, by decide +kernel, rfl⟩
  unread := by simp [Sys.atRest, committedDb, seeded]
  fresh := by simp [Sys.atRest, committedDb, seeded]
  unlocked := rfl

/-- Every statement on the reading client finds nothing. -/
def noRows : Query → Except PgFailure (List Json) := fun _ => .ok []

def namelessError : PlusOneError where
  category := .runtime_failure
  code := ""
  message := "The record is gone"
  retry := .never
  receiptLookupRequired := false
  details := []

/-- The handler with a read-back that throws an error without a code. -/
def namelessHandler : MutationCommandHandler :=
  { handler with readback := fun _ _ => .fail (.plusOne namelessError) }

def namelessExecutor : Executor :=
  { executor with registry := ⟨[namelessHandler], by decide, by decide⟩ }

/-- Nothing is recorded of that error, and the command stays committed. -/
theorem nameless_error_unrecorded :
    namelessExecutor.registry.prepare checkedCommand = .ok ⟨namelessHandler, proposalPayload⟩ ∧
    Awaits (Sys.atRest committedDb : Sys Unit) checkedCommand committedReceipt readbackId ∧
    (runs platform.jsonIn () noRows readbackId (readBack namelessExecutor checkedCommand
      ⟨namelessHandler, proposalPayload⟩ committedReceipt) (Sys.atRest committedDb)).map (fun end_ =>
        (end_.2.db.readbacks.length, (end_.2.db.findCommand checkedCommand.key).map
          CommandRow.status)) = some (0, some .committed) := by
  refine ⟨rfl, committedDb_awaits, ?_⟩
  decide +kernel

theorem passing_readback_recorded :
    ∃ out s', runs platform.jsonIn () noRows readbackId (readBack executor checkedCommand
        ⟨handler, proposalPayload⟩ committedReceipt) (Sys.atRest committedDb) = some (out, s') ∧
      RecordsOne (Sys.atRest committedDb) s' checkedCommand committedReceipt
        (∃ domain, (handler.readback proposalPayload committedReceipt).outcome noRows = .ok domain ∧
          Passes checkedCommand handler.requiredReadbackChecks committedReceipt
            (readable ((Sys.atRest committedDb : Sys Unit).db.selectReceipt checkedCommand.key))
            domain) := by
  have hprepared : executor.registry.prepare checkedCommand = .ok ⟨handler, proposalPayload⟩ := rfl
  have hreplies : ∀ statement ∈ ownStatements, ∃ rows, noRows statement = .ok rows :=
    fun _ _ => ⟨[], rfl⟩
  refine (readback_recorded_iff hprepared hreplies committedDb_awaits).2 ⟨?_, ?_⟩
  · intro _ check hcheck
    rw [List.mem_singleton.1 hcheck]
    rfl
  · intro _ _
    refine ⟨?_, fun _ h => by cases h⟩
    intro check hcheck
    rw [List.mem_singleton.1 hcheck]
    rfl

end TestCommand

end PlusOne
