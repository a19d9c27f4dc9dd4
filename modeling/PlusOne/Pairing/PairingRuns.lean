import PlusOne.Pairing.Service

/-! # Pairing in runs

Any number of callers list the pending requests, decide, and write, each in statements of its own. What
they decided holds where they write as long as nothing they read has gone in between. -/

namespace PlusOne

open Interleaving Relational

inductive PairingOperation
  | findPrincipal (externalUserId : String)
  | createPairingRequest (input : CreatePairingRequestInput) (code salt : String)
  | approveCode (input : ApproveCodeInput)
  | revoke (externalUserId : String)
  | listPending

inductive PairingResult
  | principal (found : Option ChannelPrincipal)
  | request (result : PairingRequestResult)
  | approval (result : PairingApprovalResult)
  | revoked
  | pending (requests : List PendingChannelPairing)

def PairingOperation.program (K : PairingCrypto) : PairingOperation → PairingProgram PairingResult
  | .findPrincipal externalUserId =>
    (TelegramPairingService.findPrincipal externalUserId).bind fun found => .ret (.principal found)
  | .createPairingRequest input code salt =>
    (TelegramPairingService.createPairingRequest K input code salt).bind fun result => .ret (.request result)
  | .approveCode input => (TelegramPairingService.approveCode K input).bind fun result => .ret (.approval result)
  | .revoke externalUserId => (TelegramPairingService.revoke externalUserId).bind fun _ => .ret .revoked
  | .listPending => TelegramPairingService.listPending.bind fun requests => .ret (.pending requests)

namespace PairingDb

variable (db : PairingDb)

/-- How many requests are neither consumed nor expired. -/
def pendingCount : Nat := db.requests.countP (PendingChannelPairing.isPending db.now)

def consumedAt (id : Nat) : Option UtcInstant :=
  (find PendingChannelPairing.id id db.requests).bind PendingChannelPairing.consumedAt

/-- The rows keep their identities apart, and few of them are pending. -/
structure Limited : Prop where
  ids : Distinct PendingChannelPairing.id db.requests
  pending : db.pendingCount ≤ maxPending

end PairingDb

/-- A request that is written replaces a pending one or finds room; a request that is consumed is neither
replaced since its caller saw it, nor locked, nor expired. -/
def PairingCall.Current : PairingCall → PairingDb → Prop
  | .upsertPendingRequest input, db =>
    ((find PendingChannelPairing.key (input.channel, input.externalUserId, none) db.requests).any
      (PendingChannelPairing.isPending db.now) = true) ∨ db.pendingCount < maxPending
  | .consumePendingAndApprove input seen, db => ∀ request ∈ db.requests,
      request.id = input.pendingRequestId → request.consumedAt = none →
        (request.codeHash = seen.codeHash ∧ request.codeSalt = seen.codeSalt) ∧
          db.now < request.expiresAt ∧ request.isApprovalLocked db.now = false
  | _, _ => True

section Steps

variable {ι : Type} (K : PairingCrypto) (operations : ι → PairingOperation)

/-- A consumption is issued for a code that hashes to the code of the request seen. -/
def PairingCall.IssuedBy : PairingCall → Prop
  | .consumePendingAndApprove input seen => ∃ i approval, operations i = .approveCode approval ∧
      K.hashCode approval.code seen.codeSalt = seen.codeHash ∧
      input.householdId = approval.householdId ∧ input.approvedBy = approval.approvedBy
  | _ => True

/-- A caller approved the principal with the code of its request, which was pending and not locked and
is consumed with it. -/
def ApprovedByCode (s t : PairingDb) (principal : ChannelPrincipal) : Prop :=
  ∃ i approval, operations i = .approveCode approval ∧ principal.householdId = approval.householdId ∧
    principal.approvedBy = approval.approvedBy ∧
    ∃ request ∈ s.requests, request.channel = principal.channel ∧
      request.externalUserId = principal.externalUserId ∧
      K.hashCode approval.code request.codeSalt = request.codeHash ∧
      request.isPending s.now = true ∧ request.isApprovalLocked s.now = false ∧
      t.consumedAt request.id = some principal.approvedAt

/-- What a step may do: approve by code, and leave what is consumed as it is. -/
structure PairingStep (s t : PairingDb) : Prop where
  approved : ∀ principal ∈ t.principals, principal.revokedAt = none →
    principal ∈ s.principals ∨ ApprovedByCode K operations s t principal
  consumed : ∀ id instant, s.consumedAt id = some instant → t.consumedAt id = some instant

variable {K operations} {s t : PairingDb}

theorem PairingStep.refl : PairingStep K operations s s where
  approved _ hprincipal _ := .inl hprincipal
  consumed _ _ h := h

namespace PairingDb

theorem consumedAt_of_mem (hids : Distinct PendingChannelPairing.id s.requests) {request : PendingChannelPairing}
    (hrequest : request ∈ s.requests) : s.consumedAt request.id = request.consumedAt := by
  rw [consumedAt, hids.find_eq hrequest]
  rfl

theorem mem_of_consumedAt {id : Nat} {instant : UtcInstant} (h : s.consumedAt id = some instant) :
    ∃ request ∈ s.requests, request.id = id ∧ request.consumedAt = some instant := by
  obtain ⟨request, hfind, hconsumed⟩ := Option.bind_eq_some_iff.1 h
  obtain ⟨hmem, hid⟩ := find_some hfind
  exact ⟨request, hmem, hid, hconsumed⟩

theorem consumedAt_kept (hids : Distinct PendingChannelPairing.id t.requests)
    (hkept : ∀ request ∈ s.requests, request.consumedAt ≠ none → ∃ request' ∈ t.requests,
      request'.id = request.id ∧ request'.consumedAt = request.consumedAt)
    {id : Nat} {instant : UtcInstant} (h : s.consumedAt id = some instant) : t.consumedAt id = some instant := by
  obtain ⟨request, hrequest, rfl, hconsumed⟩ := mem_of_consumedAt h
  have hsome : request.consumedAt ≠ none := by simp [hconsumed]
  obtain ⟨request', hrequest', hid, hsame⟩ := hkept request hrequest hsome
  rw [← hid, consumedAt_of_mem hids hrequest', hsame, hconsumed]

theorem isPending_of_later {now later : UtcInstant} (hle : now ≤ later) {request : PendingChannelPairing}
    (h : request.isPending later = true) : request.isPending now = true := by
  simp only [PendingChannelPairing.isPending, Bool.and_eq_true, decide_eq_true_eq] at h ⊢
  exact ⟨h.1, Nat.lt_of_le_of_lt hle h.2⟩

theorem tick_step {milliseconds : Nat} (hs : s.Limited) (h : s.tick milliseconds = some t) :
    t.Limited ∧ PairingStep K operations s t := by
  cases h
  have hcount : s.requests.countP (PendingChannelPairing.isPending (s.now + milliseconds)) ≤ s.pendingCount := by
    apply List.countP_mono_left
    intro request _ hpending
    exact isPending_of_later (Nat.le_add_right _ _) hpending
  exact ⟨⟨hs.ids, hcount.trans hs.pending⟩, ⟨fun _ hprincipal _ => .inl hprincipal, fun _ _ hconsumed => hconsumed⟩⟩

theorem upsert_step {input : UpsertPendingRequestInput} {written : PendingChannelPairing} (hs : s.Limited)
    (hcurrent : (PairingCall.upsertPendingRequest input).Current s)
    (h : s.upsertPendingRequest input = .ok (written, t)) : t.Limited ∧ PairingStep K operations s t := by
  rw [upsertPendingRequest, require_bind_eq_ok] at h
  obtain ⟨_, h⟩ := h
  obtain ⟨requests, hupsert, h⟩ := bind_eq_ok.1 h
  cases h
  have hids : Distinct PendingChannelPairing.id requests := by
    have hmerge : ∀ old merged, replaceRequest (s.newRequest input) old = .ok merged → merged.id = old.id := by
      intro old merged hmerged
      cases hmerged
      rfl
    unfold Distinct
    rcases map_upsert hmerge hupsert with hsame | hmore
    · rw [hsame]
      exact hs.ids
    · rw [hmore]
      refine List.Nodup.append hs.ids (List.nodup_singleton _) ?_
      intro id hid hnew
      have hlt := lt_nextIdentity hid
      rw [List.mem_singleton.1 hnew] at hlt
      exact Nat.lt_irrefl _ hlt
  have hcount : requests.countP (PendingChannelPairing.isPending s.now) ≤ maxPending := by
    obtain ⟨hmore, hsame⟩ := countP_upsert (PendingChannelPairing.isPending s.now) hupsert
    have hpending := hs.pending
    unfold pendingCount at hpending
    rcases hcurrent with hopen | hroom
    · have hle := hsame hopen
      omega
    · unfold pendingCount at hroom
      omega
  refine ⟨⟨hids, hcount⟩, ⟨fun _ hprincipal _ => .inl hprincipal, ?_⟩⟩
  intro id instant hconsumed
  refine consumedAt_kept hids ?_ hconsumed
  intro request hrequest hsome
  have hne : request.key ≠ (s.newRequest input).key := by
    intro heq
    exact hsome (congrArg (fun key => key.2.2) heq)
  exact ⟨request, mem_of_upsert hupsert hrequest hne, rfl, rfl⟩

theorem consumeRequest_id {input : ConsumePendingInput} {row : PendingChannelPairing} :
    (consumeRequest input row).id = row.id := by
  unfold consumeRequest
  split
  · rfl
  · rfl

theorem consume_step {input : ConsumePendingInput} {seen : PendingChannelPairing} {written : ChannelPrincipal}
    (hs : s.Limited) (hissued : (PairingCall.consumePendingAndApprove input seen).IssuedBy K operations)
    (hcurrent : (PairingCall.consumePendingAndApprove input seen).Current s)
    (h : s.consumePendingAndApprove input = .ok (written, t)) : t.Limited ∧ PairingStep K operations s t := by
  unfold consumePendingAndApprove at h
  split at h
  case h_2 => cases h
  case h_1 request hfind =>
    rw [require_bind_eq_ok] at h
    obtain ⟨_, h⟩ := h
    obtain ⟨principals, hupsert, h⟩ := bind_eq_ok.1 h
    cases h
    have hrequest := List.mem_of_find?_eq_some hfind
    have hmatch := List.find?_some hfind
    simp only [Bool.and_eq_true, beq_iff_eq, Option.isNone_iff_eq_none] at hmatch
    obtain ⟨hid, hopen⟩ := hmatch
    have hids : Distinct PendingChannelPairing.id (s.requests.map (consumeRequest input)) :=
      hs.ids.map fun _ => consumeRequest_id
    have hcount : (s.requests.map (consumeRequest input)).countP (PendingChannelPairing.isPending s.now) ≤
        s.pendingCount := by
      rw [List.countP_map]
      apply List.countP_mono_left
      intro row _ hpending
      simp only [Function.comp_apply, consumeRequest] at hpending
      split at hpending
      · simp [PendingChannelPairing.isPending] at hpending
      · exact hpending
    have hconsumed : consumedAt { s with requests := s.requests.map (consumeRequest input), principals }
        request.id = some input.approvedAt := by
      have hmem := List.mem_map_of_mem (f := consumeRequest input) hrequest
      have hnow := consumedAt_of_mem (s := { s with requests := s.requests.map (consumeRequest input), principals })
        hids hmem
      rw [consumeRequest_id] at hnow
      rw [hnow, consumeRequest, if_pos ⟨hid, hopen⟩]
    refine ⟨⟨hids, hcount.trans hs.pending⟩, ⟨?_, ?_⟩⟩
    · intro principal hprincipal hactive
      obtain ⟨i, approval, hoperation, hhash, hhousehold, happrover⟩ := hissued
      obtain ⟨⟨hsameHash, hsameSalt⟩, hunexpired, hunlocked⟩ := hcurrent request hrequest hid hopen
      have hcode : K.hashCode approval.code request.codeSalt = request.codeHash := by
        rw [hsameHash, hsameSalt]
        exact hhash
      have hpending : request.isPending s.now = true := by
        simp [PendingChannelPairing.isPending, hopen, hunexpired]
      rcases mem_upsert hupsert hprincipal with hold | rfl | ⟨old, _, _, hmerged⟩
      · exact .inl hold
      · exact .inr ⟨i, approval, hoperation, hhousehold, happrover, request, hrequest, rfl, rfl, hcode,
          hpending, hunlocked, hconsumed⟩
      · cases hmerged
        exact .inr ⟨i, approval, hoperation, hhousehold, happrover, request, hrequest, rfl, rfl, hcode,
          hpending, hunlocked, hconsumed⟩
    · intro id instant hearlier
      refine consumedAt_kept hids ?_ hearlier
      intro row hrow hsome
      have hmem := List.mem_map_of_mem (f := consumeRequest input) hrow
      refine ⟨_, hmem, consumeRequest_id, ?_⟩
      rw [consumeRequest, if_neg fun hboth => hsome hboth.2]

theorem countFailure_same {pendingRequestId : Nat} {lockUntil : Option UtcInstant} {row : PendingChannelPairing}
    (now : UtcInstant) :
    (countFailure pendingRequestId lockUntil row).id = row.id ∧
      (countFailure pendingRequestId lockUntil row).consumedAt = row.consumedAt ∧
      (countFailure pendingRequestId lockUntil row).isPending now = row.isPending now := by
  unfold countFailure
  split
  · simp [PendingChannelPairing.isPending]
  · simp

/-- Counting a failed attempt changes neither what is pending nor what is consumed. -/
theorem recordFailed_step {pendingRequestId : Nat} {lockUntil : Option UtcInstant} {written : PendingChannelPairing}
    (hs : s.Limited) (h : s.recordFailedApprovalAttempt pendingRequestId lockUntil = .ok (written, t)) :
    t.Limited ∧ PairingStep K operations s t := by
  unfold recordFailedApprovalAttempt at h
  split at h
  case h_2 => cases h
  case h_1 request _ =>
    cases h
    have hids : Distinct PendingChannelPairing.id (s.requests.map (countFailure pendingRequestId lockUntil)) :=
      hs.ids.map fun _ => (countFailure_same s.now).1
    refine ⟨⟨hids, ?_⟩, ⟨fun _ hprincipal _ => .inl hprincipal, ?_⟩⟩
    · unfold pendingCount
      rw [List.countP_map]
      refine le_trans (List.countP_mono_left ?_) hs.pending
      intro row _ hpending
      rwa [Function.comp_apply, (countFailure_same s.now).2.2] at hpending
    · intro id instant hconsumed
      refine consumedAt_kept hids ?_ hconsumed
      intro row hrow _
      exact ⟨_, List.mem_map_of_mem hrow, (countFailure_same s.now).1, (countFailure_same s.now).2.1⟩

theorem revoke_step {channel : PairableChannel} {externalUserId : String} {revokedAt : UtcInstant}
    (hs : s.Limited) :
    (s.revokePrincipal channel externalUserId revokedAt).Limited ∧
      PairingStep K operations s (s.revokePrincipal channel externalUserId revokedAt) := by
  refine ⟨⟨hs.ids, hs.pending⟩, ⟨?_, fun _ _ hconsumed => hconsumed⟩⟩
  intro principal hprincipal hactive
  obtain ⟨row, hrow, rfl⟩ := List.mem_map.1 hprincipal
  by_cases hrevoked : row.key = (channel, externalUserId, none)
  · rw [if_pos hrevoked] at hactive
    cases hactive
  · rw [if_neg hrevoked]
    exact .inl hrow

end PairingDb

/-! ## Whole runs -/

/-- A statement that was issued by a caller keeps the table limited where it is still current. -/
theorem pairing_steps : pairingStore.Steps (PairingCall.IssuedBy K operations) PairingCall.Current
    PairingDb.Limited (PairingStep K operations) where
  refl _ := .refl
  perform := by
    intro call s reply t hissued hcurrent hs h
    cases call with
    | now =>
      cases h
      exact ⟨hs, .refl⟩
    | findActivePrincipal channel externalUserId =>
      cases h
      exact ⟨hs, .refl⟩
    | upsertPendingRequest input => exact PairingDb.upsert_step hs hcurrent h
    | listPendingRequests channel now =>
      cases h
      exact ⟨hs, .refl⟩
    | consumePendingAndApprove input seen => exact PairingDb.consume_step hs hissued hcurrent h
    | recordFailedApprovalAttempt pendingRequestId lockUntil => exact PairingDb.recordFailed_step hs h
    | revokePrincipal channel externalUserId revokedAt =>
      cases h
      exact PairingDb.revoke_step hs
  outside := fun hs h => PairingDb.tick_step hs h

theorem approveCode_issued {i : ι} {input : ApproveCodeInput} (h : operations i = .approveCode input) :
    (TelegramPairingService.approveCode K input).Calls (PairingCall.IssuedBy K operations) := by
  unfold TelegramPairingService.approveCode
  refine Prog.Calls.bind (Prog.Calls.perform trivial) fun now => ?_
  refine Prog.Calls.bind (Prog.Calls.perform trivial) fun pending => ?_
  split
  · next request hfind =>
    have hcode : K.hashCode input.code request.codeSalt = request.codeHash := by
      simpa using List.find?_some hfind
    split
    · exact .ret _
    · refine Prog.Calls.bind (Prog.Calls.perform ?_) fun principal => .ret _
      exact ⟨i, input, h, hcode, rfl, rfl⟩
  · unfold TelegramPairingService.failedAttempt
    split
    · exact .ret _
    · refine Prog.Calls.bind (Prog.Calls.perform trivial) fun written => ?_
      split
      · exact .ret _
      · exact .ret _

/-- Only an approval consumes, and with its own code. -/
theorem program_issued (i : ι) :
    ((operations i).program K).Calls (PairingCall.IssuedBy K operations) := by
  cases h : operations i with
  | findPrincipal externalUserId =>
    exact Prog.Calls.bind (Prog.Calls.perform trivial) fun _ => .ret _
  | createPairingRequest input code salt =>
    refine Prog.Calls.bind ?_ fun _ => .ret _
    unfold TelegramPairingService.createPairingRequest
    refine Prog.Calls.bind (Prog.Calls.perform trivial) fun now => ?_
    refine Prog.Calls.bind (Prog.Calls.perform trivial) fun pending => ?_
    extract_lets existing
    split
    · exact .ret _
    · split
      · exact .ret _
      · exact Prog.Calls.bind (Prog.Calls.perform trivial) fun _ => .ret _
  | approveCode input => exact Prog.Calls.bind (approveCode_issued h) fun _ => .ret _
  | revoke externalUserId =>
    refine Prog.Calls.bind ?_ fun _ => .ret _
    exact Prog.Calls.bind (Prog.Calls.perform trivial) fun now => Prog.Calls.perform trivial
  | listPending =>
    refine Prog.Calls.bind ?_ fun _ => .ret _
    exact Prog.Calls.bind (Prog.Calls.perform trivial) fun now => Prog.Calls.perform trivial

end Steps

section Runs

variable {ι : Type} [DecidableEq ι]

abbrev pairingSystem (ι : Type) := pairingStore.system ι (id : Thrown → Thrown)

/-- The runs in which what a caller read still holds where it writes. -/
abbrev currentRuns (ι : Type) : Guard (pairingSystem ι) :=
  pairingStore.guard ι (id : Thrown → Thrown) PairingCall.Current

abbrev PairingConfig (ι : Type) := Config ι PairingCall PairingCall.Reply Thrown PairingResult
  (Stored PairingCall PairingDb)

/-- Every caller at the start of its operation. -/
def startPairing (K : PairingCrypto) (operations : ι → PairingOperation) (db : PairingDb) : PairingConfig ι :=
  .initial ⟨db, []⟩ fun i => (operations i).program K

/-- Few requests are pending, and what may come next approves by code and consumes no request again. -/
def PairingSafe (G : Guard (pairingSystem ι)) (K : PairingCrypto) (operations : ι → PairingOperation)
    (c : PairingConfig ι) : Prop :=
  c.state.current.pendingCount ≤ maxPending ∧
    ∀ c' : PairingConfig ι, Step G c c' → PairingStep K operations c.state.current c'.state.current

end Runs

namespace TestPairing

def crypto : PairingCrypto where
  sha256 _ := ⟨"0123456789abcdef0123456789abcdef0123456789abcdef0123456789abcdef", by decide⟩
  toUpperCase text := text

def salt : String := "0123456789abcdef0123456789abcdef"

def householdId : HouseholdId := ⟨"01JNZQ4A9B8C7D6E5F4G3H2J1K", by decide⟩

def noRequests : PairingDb := ⟨0, [householdId], [], []⟩

def request (externalUserId : String) : PairingOperation :=
  .createPairingRequest ⟨externalUserId, externalUserId, none, none, []⟩ "ABCDEFGH" salt

/-- Four users that ask for a code at once. -/
def users (i : Fin 4) : PairingOperation := request (["1", "2", "3", "4"].getD i "")

attribute [local instance] Interleaving.fourThreads in
/-- They all look before any of them writes. -/
def atOnce : List (Event (Fin 4) (Ending Thrown) (StoreMove Nat)) :=
  [.call 0 .answered, .call 1 .answered, .call 2 .answered, .call 3 .answered,
    .call 0 .answered, .call 1 .answered, .call 2 .answered, .call 3 .answered,
    .call 0 .answered, .call 1 .answered, .call 2 .answered, .call 3 .answered]

attribute [local instance] Interleaving.twoThreads in
/-- One caller asks for a code and another approves it. -/
def pair (i : Fin 2) : PairingOperation :=
  if i = 0 then request "1" else .approveCode ⟨"abcdefgh", householdId, "operator"⟩

attribute [local instance] Interleaving.twoThreads in
def inTurn : List (Event (Fin 2) (Ending Thrown) (StoreMove Nat)) :=
  [.call 0 .answered, .call 0 .answered, .call 0 .answered, .finish 0, .call 1 .answered,
    .call 1 .answered, .call 1 .answered]

instance (call : PairingCall) (db : PairingDb) : Decidable (call.Current db) := by
  unfold PairingCall.Current
  split <;> infer_instance

theorem inTurn_admitted :
    Admitted (currentRuns (Fin 2)) (startPairing crypto pair noRequests) inTurn := by
  have hcheck : ∀ (call : PairingCall) db, decide (call.Current db) = true → call.Current db :=
    fun call db hpass => of_decide_eq_true hpass
  refine Store.admitted_of_check hcheck (by decide) ?_
  decide +kernel

end TestPairing

end PlusOne
