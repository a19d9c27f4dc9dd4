import PlusOne.Interleaving.Alone
import PlusOne.Pairing.PairingRuns

/-! # Guessing pairing codes

Requests for a code and approvals follow each other, with time passing in between. A code that is tried is
compared with the codes of the pending requests, up to the first that it is, and counts against one of
them. -/

namespace PlusOne

open Interleaving Relational

/-! ## Runs with their wrong guesses -/

/-- The tables, with how many wrong codes have been compared with the current code of each request while
that code could be approved. -/
structure GuessedPairing where
  db : PairingDb
  wrong : Nat → Nat

namespace GuessedPairing

/-- Time passes. -/
def wait (milliseconds : Nat) (s : GuessedPairing) : GuessedPairing :=
  { s with db := { s.db with now := s.db.now + milliseconds } }

/-- A request that is written has a new code, with which nothing has been compared. -/
def createPairingRequest (K : PairingCrypto) (input : CreatePairingRequestInput) (code salt : String)
    (s : GuessedPairing) : GuessedPairing :=
  match pairingStore.alone (TelegramPairingService.createPairingRequest K input code salt) s.db with
  | (.ok (.created _ _), db) =>
    let issued := find PendingChannelPairing.key (.telegram, input.externalUserId, none) db.requests
    { db, wrong := fun id => if issued.map PendingChannelPairing.id = some id then 0 else s.wrong id }
  | (_, db) => { s with db }

end GuessedPairing

section Comparisons

variable (K : PairingCrypto) (db : PairingDb) (code : String)

/-- The requests that a code tried now may be compared with. -/
def PairingDb.guessable : List PendingChannelPairing := db.listPendingRequests .telegram db.now

/-- `constantTimeEqual(hashCode(code, codeSalt), codeHash)` -/
def PairingCrypto.isCodeOf (request : PendingChannelPairing) : Bool :=
  decide (K.hashCode code request.codeSalt = request.codeHash)

/-- The requests whose codes could be approved and are compared with a code that they are not. -/
def wrongComparisons : List PendingChannelPairing :=
  (db.guessable.takeWhile fun request => !K.isCodeOf code request).filter fun request =>
    !request.isApprovalLocked db.now

/-- The request a wrong code counts against. -/
def countedAgainst : Option PendingChannelPairing :=
  if db.guessable.any (K.isCodeOf code) then none
  else db.guessable.find? fun request => !request.isApprovalLocked db.now

/-- Every comparison with a wrong code is counted. -/
def EveryGuessCounted : Prop := ∀ request ∈ wrongComparisons K db code, countedAgainst K db code = some request

instance : Decidable (EveryGuessCounted K db code) := by
  unfold EveryGuessCounted
  infer_instance

end Comparisons

def GuessedPairing.approveCode (K : PairingCrypto) (input : ApproveCodeInput) (s : GuessedPairing) :
    GuessedPairing where
  db := (pairingStore.alone (TelegramPairingService.approveCode K input) s.db).2
  wrong id := s.wrong id + (wrongComparisons K s.db input.code).countP fun request => request.id == id

inductive GuessMove
  | wait (milliseconds : Nat)
  | createPairingRequest (input : CreatePairingRequestInput) (code salt : String)
  | approveCode (input : ApproveCodeInput)

def GuessedPairing.next (K : PairingCrypto) (s : GuessedPairing) : GuessMove → GuessedPairing
  | .wait milliseconds => s.wait milliseconds
  | .createPairingRequest input code salt => s.createPairingRequest K input code salt
  | .approveCode input => s.approveCode K input

/-- At most five wrong codes are compared with a code that could be approved, and after the fifth it
cannot be approved: its request is no longer pending, or locked. -/
structure FewGuesses (s : GuessedPairing) : Prop where
  bounded : ∀ request ∈ s.db.requests, s.wrong request.id ≤ maxFailedAttempts
  locked : ∀ request ∈ s.db.requests, s.wrong request.id = maxFailedAttempts →
    request.isPending s.db.now = false ∨ request.isApprovalLocked s.db.now = true

/-- The moves of a run, each from the state the moves before it lead to, of which those that try a code
satisfy a condition. -/
inductive GuessRun (K : PairingCrypto) (condition : PairingDb → String → Prop) : GuessedPairing → Prop
  | start {db : PairingDb} : db.requests = [] → GuessRun K condition ⟨db, fun _ => 0⟩
  | next {s : GuessedPairing} (move : GuessMove) : GuessRun K condition s →
    (∀ input, move = .approveCode input → condition s.db input.code) → GuessRun K condition (s.next K move)

/-! ## What keeps the guesses few -/

/-- The guesses are counted, and a request is locked for as long as its code is valid once they are used
up. -/
structure GuessesCounted (s : GuessedPairing) : Prop where
  ids : Distinct PendingChannelPairing.id s.db.requests
  valid : ∀ request ∈ s.db.requests, request.expiresAt ≤ s.db.now + codeTtlMs
  counted : ∀ request ∈ s.db.requests, s.wrong request.id = request.failedApprovalAttemptCount
  few : ∀ request ∈ s.db.requests, request.failedApprovalAttemptCount ≤ maxFailedAttempts
  locked : ∀ request ∈ s.db.requests, request.failedApprovalAttemptCount = maxFailedAttempts →
    ∃ lockedUntil, request.approvalLockedUntil = some lockedUntil ∧ request.expiresAt ≤ lockedUntil

theorem isApprovalLocked_of_used {request : PendingChannelPairing} {now lockedUntil : UtcInstant}
    (hlock : request.approvalLockedUntil = some lockedUntil) (hle : request.expiresAt ≤ lockedUntil)
    (hpending : request.isPending now = true) : request.isApprovalLocked now = true := by
  simp only [PendingChannelPairing.isPending, Bool.and_eq_true, decide_eq_true_eq] at hpending
  have hlt : now < lockedUntil := Nat.lt_of_lt_of_le hpending.2 hle
  simp [PendingChannelPairing.isApprovalLocked, hlock, hlt]

variable {s : GuessedPairing}

theorem GuessesCounted.fewGuesses (h : GuessesCounted s) : FewGuesses s where
  bounded request hrequest := by
    rw [h.counted request hrequest]
    exact h.few request hrequest
  locked request hrequest hused := by
    rw [h.counted request hrequest] at hused
    obtain ⟨lockedUntil, hlock, hle⟩ := h.locked request hrequest hused
    cases hpending : request.isPending s.db.now with
    | false => exact .inl rfl
    | true => exact .inr (isApprovalLocked_of_used hlock hle hpending)

theorem GuessesCounted.wait (h : GuessesCounted s) (milliseconds : Nat) :
    GuessesCounted (s.wait milliseconds) where
  ids := h.ids
  valid request hrequest := by
    have hlater : s.db.now + codeTtlMs ≤ s.db.now + milliseconds + codeTtlMs :=
      Nat.add_le_add_right (Nat.le_add_right _ _) _
    exact Nat.le_trans (h.valid request hrequest) hlater
  counted := h.counted
  few := h.few
  locked := h.locked

variable {db : PairingDb}

/-- Rows that a statement changes in no way the guesses depend on. -/
theorem GuessesCounted.of_map (h : GuessesCounted s) {f : PendingChannelPairing → PendingChannelPairing}
    (hrequests : db.requests = s.db.requests.map f) (hnow : db.now = s.db.now)
    (hf : ∀ request, (f request).id = request.id ∧ (f request).expiresAt = request.expiresAt ∧
      (f request).failedApprovalAttemptCount = request.failedApprovalAttemptCount ∧
      (f request).approvalLockedUntil = request.approvalLockedUntil) :
    GuessesCounted { s with db } where
  ids := by
    rw [hrequests]
    exact h.ids.map fun request => (hf request).1
  valid := by
    intro request hrequest
    rw [hrequests] at hrequest
    obtain ⟨row, hrow, rfl⟩ := List.mem_map.1 hrequest
    rw [(hf row).2.1, hnow]
    exact h.valid row hrow
  counted := by
    intro request hrequest
    rw [hrequests] at hrequest
    obtain ⟨row, hrow, rfl⟩ := List.mem_map.1 hrequest
    rw [(hf row).1, (hf row).2.2.1]
    exact h.counted row hrow
  few := by
    intro request hrequest
    rw [hrequests] at hrequest
    obtain ⟨row, hrow, rfl⟩ := List.mem_map.1 hrequest
    rw [(hf row).2.2.1]
    exact h.few row hrow
  locked := by
    intro request hrequest hused
    rw [hrequests] at hrequest
    obtain ⟨row, hrow, rfl⟩ := List.mem_map.1 hrequest
    rw [(hf row).2.2.1] at hused
    obtain ⟨lockedUntil, hlock, hle⟩ := h.locked row hrow hused
    exact ⟨lockedUntil, (hf row).2.2.2.trans hlock, (hf row).2.1 ▸ hle⟩

/-! ### A new code -/

theorem upsertPendingRequest_eq_ok {db db' : PairingDb} {input : UpsertPendingRequestInput}
    {written : PendingChannelPairing} (h : db.upsertPendingRequest input = .ok (written, db')) :
    ∃ requests, upsert PendingChannelPairing.key (PairingDb.replaceRequest (db.newRequest input))
      (db.newRequest input) db.requests = .ok requests ∧ db' = { db with requests } := by
  rw [PairingDb.upsertPendingRequest, require_bind_eq_ok] at h
  obtain ⟨_, h⟩ := h
  obtain ⟨requests, hupsert, h⟩ := bind_eq_ok.1 h
  cases h
  exact ⟨requests, hupsert, rfl⟩

/-- The request that is written has no guesses against it; the others are as they were. -/
theorem GuessesCounted.upsert {input : UpsertPendingRequestInput} {written : PendingChannelPairing}
    (h : GuessesCounted s) (hupsert : s.db.upsertPendingRequest input = .ok (written, db))
    (hvalid : input.expiresAt ≤ s.db.now + codeTtlMs) :
    GuessesCounted ⟨db, fun id =>
      if (find PendingChannelPairing.key (input.channel, input.externalUserId, none) db.requests).map
        PendingChannelPairing.id = some id then 0 else s.wrong id⟩ := by
  obtain ⟨requests, hrows, rfl⟩ := upsertPendingRequest_eq_ok hupsert
  have hmerge : ∀ old merged, PairingDb.replaceRequest (s.db.newRequest input) old = .ok merged →
      merged = { s.db.newRequest input with id := old.id } := by
    intro old merged hmerged
    cases hmerged
    rfl
  have hmergeId : ∀ old merged, PairingDb.replaceRequest (s.db.newRequest input) old = .ok merged →
      merged.id = old.id := by
    intro old merged hmerged
    rw [hmerge old merged hmerged]
  have hmergeKey : ∀ old merged, old.key = (s.db.newRequest input).key →
      PairingDb.replaceRequest (s.db.newRequest input) old = .ok merged →
      merged.key = (s.db.newRequest input).key := by
    intro old merged _ hmerged
    rw [hmerge old merged hmerged]
    rfl
  have hids : Distinct PendingChannelPairing.id requests := by
    unfold Distinct
    rcases map_upsert hmergeId hrows with hsame | hmore
    · rw [hsame]
      exact h.ids
    · rw [hmore]
      have hnew : (s.db.newRequest input).id ∉ s.db.requests.map PendingChannelPairing.id := by
        intro hid
        exact Nat.lt_irrefl _ (lt_nextIdentity hid)
      exact List.Nodup.append h.ids (List.nodup_singleton _) (by simpa using hnew)
  obtain ⟨issued, hfound, hsource, hothers⟩ := upsert_written hmergeKey hrows
  have hissued : issued = { s.db.newRequest input with id := issued.id } := by
    rcases hsource with rfl | ⟨old, _, hmerged⟩
    · rfl
    · rw [hmerge old issued hmerged]
  have hrow : ∀ request ∈ requests, request = issued ∨ request ∈ s.db.requests ∧ request.id ≠ issued.id := by
    intro request hrequest
    by_cases hid : request.id = issued.id
    · have hmem := (find_some hfound).1
      exact .inl (List.inj_on_of_nodup_map hids hrequest hmem hid)
    · rcases hothers request hrequest with hold | hnew
      · exact .inr ⟨hold, hid⟩
      · exact .inl hnew
  have hfresh : (find PendingChannelPairing.key (input.channel, input.externalUserId, none) requests).map
      PendingChannelPairing.id = some issued.id := congrArg (Option.map PendingChannelPairing.id) hfound
  constructor
  · exact hids
  · intro request hrequest
    rcases hrow request hrequest with rfl | ⟨hold, -⟩
    · rw [hissued]
      exact hvalid
    · exact h.valid request hold
  · intro request hrequest
    dsimp only
    rw [hfresh]
    rcases hrow request hrequest with rfl | ⟨hold, hne⟩
    · rw [if_pos rfl, hissued]
      rfl
    · rw [if_neg fun heq => hne (Option.some.inj heq).symm]
      exact h.counted request hold
  · intro request hrequest
    rcases hrow request hrequest with rfl | ⟨hold, -⟩
    · rw [hissued]
      exact Nat.zero_le _
    · exact h.few request hold
  · intro request hrequest hused
    rcases hrow request hrequest with rfl | ⟨hold, -⟩
    · rw [hissued] at hused
      cases hused
    · exact h.locked request hold hused

/-! ### A guess -/

/-- A wrong code counts against the one request that it is compared with while its code could be approved. -/
theorem GuessesCounted.record {first : PendingChannelPairing} {lockUntil : Option UtcInstant} (h : GuessesCounted s)
    (hfirst : first ∈ s.db.requests) (hpending : first.isPending s.db.now = true)
    (hopen : first.isApprovalLocked s.db.now = false)
    (hlock : lockUntil = if maxFailedAttempts ≤ first.failedApprovalAttemptCount + 1 then
      some (s.db.now + lockoutMs) else none) :
    GuessesCounted ⟨{ s.db with requests := s.db.requests.map (PairingDb.countFailure first.id lockUntil) },
      fun id => s.wrong id + if first.id = id then 1 else 0⟩ := by
  have hunused : first.failedApprovalAttemptCount < maxFailedAttempts := by
    refine Nat.lt_of_le_of_ne (h.few first hfirst) ?_
    intro hused
    obtain ⟨lockedUntil, hlocked, hle⟩ := h.locked first hfirst hused
    rw [isApprovalLocked_of_used hlocked hle hpending] at hopen
    cases hopen
  have hrow : ∀ request ∈ s.db.requests.map (PairingDb.countFailure first.id lockUntil),
      (request ∈ s.db.requests ∧ request.id ≠ first.id) ∨
        request = { first with
          failedApprovalAttemptCount := first.failedApprovalAttemptCount + 1
          approvalLockedUntil := lockUntil <|> first.approvalLockedUntil } := by
    intro request hrequest
    obtain ⟨row, hmem, rfl⟩ := List.mem_map.1 hrequest
    unfold PairingDb.countFailure
    split
    · next hid =>
      rw [List.inj_on_of_nodup_map h.ids hmem hfirst hid]
      exact .inr rfl
    · next hid => exact .inl ⟨hmem, hid⟩
  constructor
  · exact h.ids.map fun row => (PairingDb.countFailure_same s.db.now).1
  · intro request hrequest
    rcases hrow request hrequest with ⟨hold, -⟩ | rfl
    · exact h.valid request hold
    · exact h.valid first hfirst
  · intro request hrequest
    rcases hrow request hrequest with ⟨hold, hne⟩ | rfl
    · dsimp only
      rw [if_neg hne.symm]
      exact h.counted request hold
    · dsimp only
      rw [if_pos rfl, h.counted first hfirst]
  · intro request hrequest
    rcases hrow request hrequest with ⟨hold, -⟩ | rfl
    · exact h.few request hold
    · exact hunused
  · intro request hrequest hused
    rcases hrow request hrequest with ⟨hold, -⟩ | rfl
    · exact h.locked request hold hused
    · dsimp only at hused ⊢
      have hlast : maxFailedAttempts ≤ first.failedApprovalAttemptCount + 1 := by omega
      refine ⟨s.db.now + lockoutMs, by rw [hlock, if_pos hlast]; rfl, ?_⟩
      exact h.valid first hfirst

/-! ## Whole runs -/

/-- What a request for a code writes, if it writes. -/
theorem createPairingRequest_alone (K : PairingCrypto) (input : CreatePairingRequestInput) (code salt : String)
    (db : PairingDb) :
    let done := pairingStore.alone (TelegramPairingService.createPairingRequest K input code salt) db
    (done.2 = db ∧ ∀ issued expiresAt, done.1 ≠ .ok (.created issued expiresAt)) ∨
      ∃ upserted written, upserted.channel = .telegram ∧ upserted.externalUserId = input.externalUserId ∧
        upserted.expiresAt = db.now + codeTtlMs ∧ db.upsertPendingRequest upserted = .ok (written, done.2) ∧
        done.1 = .ok (.created code (db.now + codeTtlMs)) := by
  intro done
  have hdone : done = pairingStore.alone (TelegramPairingService.createPairingRequest K input code salt) db := rfl
  unfold TelegramPairingService.createPairingRequest repository at hdone
  simp only [Prog.bind_eq, Prog.pure_eq] at hdone
  have hnow : pairingStore.alone (.perform .now) db = (.ok db.now, db) := Store.alone_perform_ok rfl
  have hlist : pairingStore.alone (.perform (.listPendingRequests .telegram db.now)) db =
      (.ok (db.listPendingRequests .telegram db.now), db) := Store.alone_perform_ok rfl
  rw [Store.alone_bind_ok hnow, Store.alone_bind_ok hlist] at hdone
  split at hdone
  · rw [hdone]
    exact .inl ⟨rfl, by simp⟩
  · split at hdone
    · rw [hdone]
      exact .inl ⟨rfl, by simp⟩
    · set upserted : UpsertPendingRequestInput := {
        channel := .telegram
        externalUserId := input.externalUserId
        externalChatId := input.externalChatId
        codeHash := K.hashCode code salt
        codeSalt := salt
        displayName := input.displayName
        username := input.username
        expiresAt := db.now + codeTtlMs
        lastSentAt := db.now
        metadata := input.metadata } with hupserted
      cases hwrite : db.upsertPendingRequest upserted with
      | error e =>
        rw [Store.alone_bind_error (Store.alone_perform_error hwrite)] at hdone
        rw [hdone]
        exact .inl ⟨rfl, by simp⟩
      | ok reply =>
        obtain ⟨written, db'⟩ := reply
        rw [Store.alone_bind_ok (Store.alone_perform_ok hwrite)] at hdone
        rw [hdone]
        exact .inr ⟨upserted, written, rfl, rfl, rfl, hwrite, rfl⟩

theorem GuessesCounted.createPairingRequest (h : GuessesCounted s) (K : PairingCrypto)
    (input : CreatePairingRequestInput) (code salt : String) :
    GuessesCounted (s.createPairingRequest K input code salt) := by
  unfold GuessedPairing.createPairingRequest
  rcases createPairingRequest_alone K input code salt s.db with ⟨hsame, hnone⟩ | ⟨upserted, written, hchannel,
    huser, hexpires, hwrite, hcreated⟩
  · split
    · next issued expiresAt db hdone => exact absurd (congrArg Prod.fst hdone) (hnone issued expiresAt)
    · next result db _ hdone =>
      have hdb : db = s.db := by
        rw [← hsame, hdone]
      rw [hdb]
      exact h
  · split
    · next issued expiresAt db hdone =>
      rw [hdone] at hwrite
      have hcounted := h.upsert hwrite hexpires.le
      rw [hchannel, huser] at hcounted
      exact hcounted
    · next result db hother hdone =>
      rw [hdone] at hcreated
      exact absurd hcreated (hother code (s.db.now + codeTtlMs))

theorem guessable_mem {request : PendingChannelPairing} (h : request ∈ db.guessable) :
    request ∈ db.requests ∧ request.isPending db.now = true := by
  obtain ⟨hmem, hpass⟩ := List.mem_filter.1 h
  rw [Bool.and_eq_true] at hpass
  exact ⟨hmem, hpass.2⟩

theorem consumePendingAndApprove_eq_ok {db db' : PairingDb} {input : ConsumePendingInput}
    {principal : ChannelPrincipal} (h : db.consumePendingAndApprove input = .ok (principal, db')) :
    db'.now = db.now ∧ db'.requests = db.requests.map (PairingDb.consumeRequest input) := by
  unfold PairingDb.consumePendingAndApprove at h
  split at h
  case h_2 => cases h
  case h_1 request _ =>
    rw [require_bind_eq_ok] at h
    obtain ⟨_, h⟩ := h
    obtain ⟨principals, _, h⟩ := bind_eq_ok.1 h
    cases h
    exact ⟨rfl, rfl⟩

/-- What trying a code leaves behind: nothing new, a consumed request, or a failure counted. -/
theorem approveCode_alone (K : PairingCrypto) (input : ApproveCodeInput) (db : PairingDb) :
    let after := (pairingStore.alone (TelegramPairingService.approveCode K input) db).2
    (countedAgainst K db input.code = none ∧ (after = db ∨ ∃ consumed, after.now = db.now ∧
      after.requests = db.requests.map (PairingDb.consumeRequest consumed))) ∨
    ∃ first, countedAgainst K db input.code = some first ∧
      after = { db with requests := db.requests.map (PairingDb.countFailure first.id
        (if maxFailedAttempts ≤ first.failedApprovalAttemptCount + 1 then some (db.now + lockoutMs) else none)) } := by
  intro after
  have hafter : after = (pairingStore.alone (TelegramPairingService.approveCode K input) db).2 := rfl
  unfold TelegramPairingService.approveCode repository at hafter
  simp only [Prog.bind_eq, Prog.pure_eq] at hafter
  have hnow : pairingStore.alone (.perform .now) db = (.ok db.now, db) := Store.alone_perform_ok rfl
  have hlist : pairingStore.alone (.perform (.listPendingRequests .telegram db.now)) db =
      (.ok db.guessable, db) := Store.alone_perform_ok rfl
  rw [Store.alone_bind_ok hnow, Store.alone_bind_ok hlist] at hafter
  split at hafter
  · next request hfind =>
    have hcode : K.isCodeOf input.code request = true := List.find?_some hfind
    have hany : db.guessable.any (K.isCodeOf input.code) = true :=
      List.any_eq_true.2 ⟨request, List.mem_of_find?_eq_some hfind, hcode⟩
    have hcounted : countedAgainst K db input.code = none := by
      rw [countedAgainst, if_pos hany]
    refine .inl ⟨hcounted, ?_⟩
    split at hafter
    · exact .inl hafter
    · set consumed : ConsumePendingInput := ⟨request.id, input.householdId, input.approvedBy, db.now⟩ with hconsumed
      cases hconsume : db.consumePendingAndApprove consumed with
      | error e =>
        rw [Store.alone_bind_error (Store.alone_perform_error hconsume)] at hafter
        exact .inl hafter
      | ok reply =>
        obtain ⟨principal, db'⟩ := reply
        rw [Store.alone_bind_ok (Store.alone_perform_ok hconsume)] at hafter
        obtain ⟨hsame, hrequests⟩ := consumePendingAndApprove_eq_ok hconsume
        rw [Store.alone_ret] at hafter
        exact .inr ⟨consumed, by rw [hafter, hsame], by rw [hafter, hrequests]⟩
  · next hfind =>
    have hany : ¬db.guessable.any (K.isCodeOf input.code) = true := by
      rw [List.any_eq_true]
      intro hsome
      obtain ⟨request, hrequest, hcode⟩ := hsome
      exact List.find?_eq_none.1 hfind request hrequest hcode
    have hcounted : countedAgainst K db input.code =
        db.guessable.find? fun request => !request.isApprovalLocked db.now := by
      rw [countedAgainst, if_neg hany]
    unfold TelegramPairingService.failedAttempt repository at hafter
    simp only [Prog.bind_eq, Prog.pure_eq] at hafter
    split at hafter
    · next hnone =>
      rw [hnone] at hcounted
      exact .inl ⟨hcounted, .inl hafter⟩
    · next first hfirst =>
      rw [hfirst] at hcounted
      refine .inr ⟨first, hcounted, ?_⟩
      set lockUntil : Option UtcInstant :=
        if maxFailedAttempts ≤ first.failedApprovalAttemptCount + 1 then some (db.now + lockoutMs) else none
      have hmem : first ∈ db.requests := (guessable_mem (List.mem_of_find?_eq_some hfirst)).1
      have hid : find PendingChannelPairing.id first.id db.requests ≠ none := by
        intro hnone
        exact find_eq_none.1 hnone first hmem rfl
      obtain ⟨row, hrow⟩ := Option.ne_none_iff_exists'.1 hid
      have hrecord : db.recordFailedApprovalAttempt first.id lockUntil =
          .ok (PairingDb.countFailure first.id lockUntil row,
            { db with requests := db.requests.map (PairingDb.countFailure first.id lockUntil) }) := by
        unfold PairingDb.recordFailedApprovalAttempt
        rw [hrow]
        rfl
      rw [Store.alone_bind_ok (Store.alone_perform_ok hrecord)] at hafter
      rw [hafter]
      cases lockUntil with
      | some lockedUntil => rfl
      | none =>
        dsimp only
        split
        · rfl
        · rfl

/-- Where every guess is counted, a guess is compared with the one request it counts against. -/
theorem wrongComparisons_eq {K : PairingCrypto} {code : String}
    (hids : Distinct PendingChannelPairing.id db.requests) (hcounted : EveryGuessCounted K db code) :
    wrongComparisons K db code = (countedAgainst K db code).toList := by
  cases hagainst : countedAgainst K db code with
  | none =>
    refine List.eq_nil_iff_forall_not_mem.2 ?_
    intro request hrequest
    have hsome := hcounted request hrequest
    rw [hagainst] at hsome
    cases hsome
  | some first =>
    have hall : ∀ request ∈ wrongComparisons K db code, request = first := by
      intro request hrequest
      have hsome := hcounted request hrequest
      rw [hagainst] at hsome
      exact (Option.some.inj hsome).symm
    have hnodup : (wrongComparisons K db code).Nodup := by
      have hrequests : db.requests.Nodup := List.Nodup.of_map _ hids
      have hsublist : (wrongComparisons K db code).Sublist db.requests :=
        (List.filter_sublist.trans (List.takeWhile_sublist _)).trans List.filter_sublist
      exact hrequests.sublist hsublist
    have hmem : first ∈ wrongComparisons K db code := by
      unfold countedAgainst at hagainst
      split at hagainst
      case isTrue => cases hagainst
      case isFalse hany =>
        have hwrong : db.guessable.takeWhile (fun request => !K.isCodeOf code request) = db.guessable := by
          refine List.takeWhile_eq_self_iff.2 ?_
          intro request hrequest
          rw [Bool.not_eq_true']
          by_contra hcode
          exact hany (List.any_eq_true.2 ⟨request, hrequest, by simpa using hcode⟩)
        rw [wrongComparisons, hwrong, List.mem_filter]
        have hopen := List.find?_some hagainst
        exact ⟨List.mem_of_find?_eq_some hagainst, hopen⟩
    cases hwhole : wrongComparisons K db code with
    | nil =>
      rw [hwhole] at hmem
      cases hmem
    | cons head rest =>
      rw [hwhole] at hall hnodup
      have hhead : head = first := hall head (by simp)
      have hrest : rest = [] := by
        refine List.eq_nil_iff_forall_not_mem.2 ?_
        intro request hrequest
        have hsame : request = head := (hall request (by simp [hrequest])).trans hhead.symm
        exact (List.nodup_cons.1 hnodup).1 (hsame ▸ hrequest)
      rw [hhead, hrest, Option.toList_some]

theorem GuessesCounted.approveCode (h : GuessesCounted s) {K : PairingCrypto} {input : ApproveCodeInput}
    (hcounted : EveryGuessCounted K s.db input.code) :
    GuessesCounted (s.approveCode K input) := by
  have hwrong := wrongComparisons_eq h.ids hcounted
  unfold GuessedPairing.approveCode
  rw [hwrong]
  rcases approveCode_alone K input s.db with ⟨hnone, hsame | ⟨consumed, hnow, hrequests⟩⟩ | ⟨first, hfirst, hafter⟩
  · rw [hnone, hsame]
    exact h
  · rw [hnone]
    refine h.of_map hrequests hnow ?_
    intro request
    unfold PairingDb.consumeRequest
    split
    · exact ⟨rfl, rfl, rfl, rfl⟩
    · exact ⟨rfl, rfl, rfl, rfl⟩
  · have hfind : s.db.guessable.find? (fun request => !request.isApprovalLocked s.db.now) = some first := by
      unfold countedAgainst at hfirst
      split at hfirst
      · cases hfirst
      · exact hfirst
    obtain ⟨hmem, hpending⟩ := guessable_mem (List.mem_of_find?_eq_some hfind)
    have hopen : first.isApprovalLocked s.db.now = false := by
      simpa using List.find?_some hfind
    have hrecorded := h.record hmem hpending hopen rfl
    rw [hfirst, hafter]
    convert hrecorded using 3
    simp [List.countP_cons]

/-- In every run in which each code tried is compared with at most one wrong code that could be approved,
the one it counts against, the guesses stay few. -/
theorem fewGuesses_of_counted {K : PairingCrypto} {s : GuessedPairing} (h : GuessRun K (EveryGuessCounted K) s) :
    FewGuesses s := by
  have hcounted : GuessesCounted s := by
    induction h with
    | start hnone =>
      constructor
      · rw [hnone]
        exact List.nodup_nil
      all_goals simp [hnone]
    | next move _ hcondition ih =>
      cases move with
      | wait milliseconds => exact ih.wait milliseconds
      | createPairingRequest input code salt => exact ih.createPairingRequest K input code salt
      | approveCode input => exact ih.approveCode (hcondition input rfl)
  exact hcounted.fewGuesses

namespace TestGuessing

/-- A digest that tells the two codes from every other text. -/
def crypto : PairingCrypto where
  sha256 text :=
    if text = TestPairing.salt ++ ":ABCDEFGH" then
      ⟨"1111111111111111111111111111111111111111111111111111111111111111", Eq.refl true⟩
    else if text = TestPairing.salt ++ ":JKLMNPQR" then
      ⟨"2222222222222222222222222222222222222222222222222222222222222222", Eq.refl true⟩
    else ⟨"0123456789abcdef0123456789abcdef0123456789abcdef0123456789abcdef", Eq.refl true⟩
  toUpperCase text := text

def ask (externalUserId code : String) : GuessMove :=
  .createPairingRequest ⟨externalUserId, externalUserId, none, none, []⟩ code TestPairing.salt

def guess : GuessMove := .approveCode ⟨"WRONGONE", TestPairing.householdId, "operator"⟩

def start : GuessedPairing := ⟨TestPairing.noRequests, fun _ => 0⟩

/-- The moves of a run, each of which may try any code. -/
def played (moves : List GuessMove) : GuessedPairing := moves.foldl (GuessedPairing.next crypto) start

theorem played_run (moves : List GuessMove) : GuessRun crypto (fun _ _ => True) (played moves) := by
  induction moves using List.reverseRecOn with
  | nil => exact .start rfl
  | append_singleton moves move ih =>
    rw [played, List.foldl_append]
    exact .next move ih fun _ _ => trivial

/-- Six guesses are compared with the second code, and only the last one counts against it. -/
theorem second_code_guessed :
    ¬∀ (K : PairingCrypto) (s : GuessedPairing), GuessRun K (fun _ _ => True) s → FewGuesses s := by
  intro hall
  have hfew := (hall crypto _ (played_run [ask "1" "ABCDEFGH", ask "2" "JKLMNPQR", guess, guess, guess, guess,
    guess, guess])).bounded
  have hwrong : ((played [ask "1" "ABCDEFGH", ask "2" "JKLMNPQR", guess, guess, guess, guess, guess,
      guess]).db.requests.any fun request =>
        decide ((played [ask "1" "ABCDEFGH", ask "2" "JKLMNPQR", guess, guess, guess, guess, guess,
          guess]).wrong request.id = 6)) = true := by
    decide +kernel
  obtain ⟨request, hrequest, hsix⟩ := List.any_eq_true.1 hwrong
  have hfive := hfew request hrequest
  rw [of_decide_eq_true hsix] at hfive
  exact absurd hfive (by decide)

def guessCounted (s : GuessedPairing) : GuessMove → Bool
  | .approveCode input => decide (EveryGuessCounted crypto s.db input.code)
  | .wait _ | .createPairingRequest _ _ _ => true

/-- Every guess of the moves is counted where it is made. -/
def guessesCounted (s : GuessedPairing) : List GuessMove → Bool
  | [] => true
  | move :: moves => guessCounted s move && guessesCounted (s.next crypto move) moves

theorem counted_run {s : GuessedPairing} (hrun : GuessRun crypto (EveryGuessCounted crypto) s)
    {moves : List GuessMove} (h : guessesCounted s moves = true) :
    GuessRun crypto (EveryGuessCounted crypto) (moves.foldl (GuessedPairing.next crypto) s) := by
  induction moves generalizing s with
  | nil => exact hrun
  | cons move moves ih =>
    rw [guessesCounted, Bool.and_eq_true] at h
    refine ih (.next move hrun ?_) h.2
    intro input hmove
    subst hmove
    exact of_decide_eq_true h.1

/-- One request is pending and five wrong codes are tried. -/
def lockedOut : GuessedPairing := played [ask "1" "ABCDEFGH", guess, guess, guess, guess, guess]

theorem lockedOut_fewGuesses :
    (lockedOut.db.requests.any fun request => request.isApprovalLocked lockedOut.db.now) = true ∧
      FewGuesses lockedOut := by
  have hlocked : (lockedOut.db.requests.any fun request => request.isApprovalLocked lockedOut.db.now) = true := by
    decide +kernel
  have hcounted : guessesCounted start [ask "1" "ABCDEFGH", guess, guess, guess, guess, guess] = true := by
    decide +kernel
  exact ⟨hlocked, fewGuesses_of_counted (counted_run (.start rfl) hcounted)⟩

end TestGuessing

end PlusOne
