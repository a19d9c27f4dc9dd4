import PlusOne.Deliveries.Handler
import PlusOne.Interactions.LifecycleRuns

/-! # At most one send

Every call of `deliver` is a thread over the shared table and the transport. Beside the
table the system remembers which messages were handed to the transport, and which calls
under way were answered with a record that is still to be sent. -/

namespace PlusOne

open Interleaving

/-! ## The system -/

def deliveryStore : Store DeliveryStatement (fun _ => Option DeliveryRow) DeliveryThrown DeliveryMove
    DeliveryDb where
  perform statement db := (statement.perform db).mapError fun failure => .error (.pg failure)
  outside := DeliveryMove.apply

structure DeliverySys (ι : Type) where
  store : Stored DeliveryStatement DeliveryDb
  sends : List DeliveryKey
  handed : List (ι × DeliveryKey)

def DeliveryStatus.toBeSent : DeliveryStatus → Bool
  | pending | sending => true
  | delivered | failed | ambiguous => false

/-- How a call ends: a statement by its ending, a look at the signal or a send by what it shows. -/
inductive DeliveryChoice
  | statement (ending : Ending DeliveryThrown)
  | signal (aborted : Bool)
  | sent (outcome : Except DeliveryThrown String)

/-- The delivery a reserving statement hands out by an answer. -/
def DeliveryStatement.hands (statement : DeliveryStatement) :
    Except DeliveryThrown (Option DeliveryRow) → Option DeliveryKey
  | .ok (some row) => if row.status.toBeSent then statement.reserves else none
  | _ => none

namespace DeliverySys

variable {ι : Type}

def run (i : ι) : (call : DeliveryCall) → DeliveryChoice → DeliverySys ι →
    Option (Except DeliveryThrown (DeliveryReply call) × DeliverySys ι)
  | .statement statement, .statement ending, s =>
    (deliveryStore.run id statement ending s.store).map fun (r, store) =>
      (r, { s with store, handed := (statement.hands r).toList.map (i, ·) ++ s.handed })
  | .aborted, .signal aborted, s => some (.ok aborted, s)
  | .send delivery _, .sent outcome, s =>
    some (outcome, { s with sends := s.sends ++ [delivery] })
  | _, _, _ => none

def env (move : StoreMove DeliveryMove) (s : DeliverySys ι) : Option (DeliverySys ι) :=
  (deliveryStore.env move s.store).map fun store => { s with store }

/-- The delivery that the statement would hand out where it is carried out. -/
def offers (s : DeliverySys ι) (statement : DeliveryStatement) : Option DeliveryKey :=
  statement.hands ((deliveryStore.perform statement s.store.current).map Prod.fst)

end DeliverySys

def deliverySystem (ι : Type) [DecidableEq ι] :
    System ι DeliveryCall DeliveryReply DeliveryThrown (DeliverySys ι) where
  Choice := DeliveryChoice
  Move := StoreMove DeliveryMove
  run := DeliverySys.run
  env := DeliverySys.env
  leave := fun i s => { s with handed := s.handed.filter fun handed => handed.1 ≠ i }

/-- The runs in which a record still to be sent is handed out only while no other call under way
has it, and no send was made for it. -/
def handedOnce (ι : Type) [DecidableEq ι] : Guard (deliverySystem ι) where
  call _ call choice s := ∀ statement key, call = .statement statement →
    choice = .statement .answered → s.offers statement = some key →
      key ∉ s.sends ∧ key ∉ s.handed.map Prod.snd
  env _ _ := True

/-! ## The discipline -/

/-- The call has the record, and its message has not been sent. -/
def Ready {ι : Type} (i : ι) (key : DeliveryKey) (s : DeliverySys ι) : Prop :=
  (i, key) ∈ s.handed ∧ key ∉ s.sends

/-- A record is handed to one call at a time, and only a call that has it sends its message. -/
def deliveryDiscipline (ι : Type) [DecidableEq ι] : Discipline (deliverySystem ι) (handedOnce ι) where
  Inv s := s.sends.Nodup ∧ (s.handed.map Prod.snd).Nodup
  rely i s s' := ∀ key, Ready i key s → Ready i key s'
  allowed i call s := ∀ key input, call = .send key input → Ready i key s
  rely_refl := fun _ _ _ h => h
  rely_trans := fun h h' key hready => h' key (h key hready)

namespace DeliverySys

variable {ι : Type} {s s' : DeliverySys ι} {i j : ι}

/-- Only an answered statement hands a record out, and it is the one it offered. -/
theorem offers_of_hands {statement : DeliveryStatement} {ending : Ending DeliveryThrown}
    {r : Except DeliveryThrown (Option DeliveryRow)} {store : Stored DeliveryStatement DeliveryDb}
    {key : DeliveryKey} (h : deliveryStore.run id statement ending s.store = some (r, store))
    (hkey : statement.hands r = some key) :
    ending = .answered ∧ s.offers statement = some key := by
  cases ending with
  | answered =>
    refine ⟨rfl, ?_⟩
    simp only [Store.run] at h
    split at h
    · rename_i a t hok
      cases h
      simpa [offers, hok, Except.map] using hkey
    · cases h
      cases hkey
  | refused e =>
    cases h
    cases hkey
  | unheard e =>
    simp only [Store.run] at h
    split at h
    · cases h
      cases hkey
    · cases h
  | unfinished e =>
    cases h
    cases hkey

/-- What a call leaves of the two lists. -/
theorem run_some {call : DeliveryCall} {choice : DeliveryChoice}
    {r : Except DeliveryThrown (DeliveryReply call)} (h : s.run i call choice = some (r, s')) :
    (s'.sends = s.sends ∧ s'.handed = s.handed) ∨
    (∃ statement key, call = .statement statement ∧ choice = .statement .answered ∧
      s.offers statement = some key ∧ s'.sends = s.sends ∧ s'.handed = (i, key) :: s.handed) ∨
    ∃ key input, call = .send key input ∧ s'.sends = s.sends ++ [key] ∧ s'.handed = s.handed := by
  cases call with
  | statement statement =>
    cases choice with
    | statement ending =>
      obtain ⟨⟨r', store⟩, hstore, heq⟩ := Option.map_eq_some_iff.1 h
      cases heq
      cases hhands : statement.hands r with
      | none => exact .inl ⟨rfl, by simp⟩
      | some key =>
        obtain ⟨rfl, hoffers⟩ := offers_of_hands hstore hhands
        exact .inr (.inl ⟨statement, key, rfl, rfl, hoffers, rfl, by simp⟩)
    | signal | sent => cases h
  | aborted =>
    cases choice with
    | signal aborted =>
      cases h
      exact .inl ⟨rfl, rfl⟩
    | statement | sent => cases h
  | send key input =>
    cases choice with
    | sent outcome =>
      cases h
      exact .inr (.inr ⟨key, input, rfl, rfl, rfl⟩)
    | statement | signal => cases h

theorem env_some {move : StoreMove DeliveryMove} (h : s.env move = some s') :
    s'.sends = s.sends ∧ s'.handed = s.handed := by
  obtain ⟨store, _, rfl⟩ := Option.map_eq_some_iff.1 h
  exact ⟨rfl, rfl⟩

theorem handed_unique (h : (s.handed.map Prod.snd).Nodup) {key : DeliveryKey}
    (hi : (i, key) ∈ s.handed) (hj : (j, key) ∈ s.handed) : i = j := by
  have hpair : (i, key) = (j, key) := List.inj_on_of_nodup_map h hi hj rfl
  exact congrArg Prod.fst hpair

end DeliverySys

variable {ι : Type} [DecidableEq ι]

theorem deliveryDiscipline_sound : (deliveryDiscipline ι).Sound where
  inv_call := by
    rintro i call choice s r s' ⟨hsends, hhanded⟩ hallowed hguard hrun
    rcases DeliverySys.run_some hrun with ⟨hs, hh⟩ | ⟨statement, key, hcall, hchoice, hoffers, hs, hh⟩ |
      ⟨key, input, hcall, hs, hh⟩
    · exact ⟨hs ▸ hsends, hh ▸ hhanded⟩
    · have hfree := (hguard statement key hcall hchoice hoffers).2
      refine ⟨hs ▸ hsends, ?_⟩
      rw [hh, List.map_cons]
      exact List.nodup_cons.2 ⟨hfree, hhanded⟩
    · have hunsent := (hallowed key input hcall).2
      refine ⟨?_, hh ▸ hhanded⟩
      rw [hs]
      exact List.nodup_append.2 ⟨hsends, List.nodup_singleton key, by
        intro sent hsent last hlast heq
        rw [List.mem_singleton.1 hlast] at heq
        exact hunsent (heq ▸ hsent)⟩
  rely_call := by
    rintro i j call choice s r s' ⟨_, hhanded⟩ hallowed hguard hrun hne key ⟨hmine, hunsent⟩
    rcases DeliverySys.run_some hrun with ⟨hs, hh⟩ | ⟨statement, other, _, _, _, hs, hh⟩ |
      ⟨other, input, hcall, hs, hh⟩
    · exact ⟨hh ▸ hmine, hs ▸ hunsent⟩
    · refine ⟨?_, hs ▸ hunsent⟩
      rw [hh]
      exact List.mem_cons_of_mem _ hmine
    · have htheirs := (hallowed other input hcall).1
      have hkeys : key ≠ other := by
        intro heq
        rw [← heq] at htheirs
        exact hne (DeliverySys.handed_unique hhanded htheirs hmine)
      refine ⟨hh ▸ hmine, ?_⟩
      rw [hs, List.mem_append, List.mem_singleton]
      exact fun hsent => hsent.elim hunsent hkeys
  inv_env := by
    rintro move s s' ⟨hsends, hhanded⟩ _ henv
    obtain ⟨hs, hh⟩ := DeliverySys.env_some henv
    exact ⟨hs ▸ hsends, hh ▸ hhanded⟩
  rely_env := by
    rintro i move s s' _ _ henv key ⟨hmine, hunsent⟩
    obtain ⟨hs, hh⟩ := DeliverySys.env_some henv
    exact ⟨hh ▸ hmine, hs ▸ hunsent⟩
  inv_leave := by
    rintro i s ⟨hsends, hhanded⟩
    have hsub := (List.filter_sublist (p := fun handed => decide (handed.1 ≠ i)) (l := s.handed)).map Prod.snd
    exact ⟨hsends, hhanded.sublist hsub⟩
  rely_leave := by
    rintro i j s _ hne key ⟨hmine, hunsent⟩
    refine ⟨List.mem_filter.2 ⟨hmine, ?_⟩, hunsent⟩
    exact decide_eq_true hne.symm

/-! ## The programs -/

section Programs

variable {i : ι} {H : DeliveryHandler} {T : TimeFormats} {input : DeliverInput} {key : DeliveryKey}

theorem stable_ready : (deliveryDiscipline ι).Stable i (Ready i key) :=
  fun _ _ _ hrely hready => hrely key hready

/-- A call that is not a send. -/
def DeliveryCall.Quiet (call : DeliveryCall) : Prop := ∀ key input, call ≠ .send key input

theorem DeliveryCall.Quiet.allowed {call : DeliveryCall} (h : call.Quiet) (s : DeliverySys ι) :
    (deliveryDiscipline ι).allowed i call s :=
  fun key input hcall => absurd hcall (h key input)

theorem quiet_triple {α : Type} {p : DeliveryProgram α} (hp : p.Calls DeliveryCall.Quiet) :
    (deliveryDiscipline ι).Triple i (fun _ => True) p (fun _ _ => True) (fun _ _ => True) :=
  Discipline.Triple.of_calls hp (fun _ _ _ _ _ => trivial) (fun _ hcall s _ _ => hcall.allowed s)
    (fun _ _ _ _ _ _ _ _ _ _ _ => trivial)

theorem ready_triple {α : Type} {p : DeliveryProgram α} (hp : p.Calls DeliveryCall.Quiet) :
    (deliveryDiscipline ι).Triple i (Ready i key) p (fun _ => Ready i key) (fun _ => Ready i key) := by
  refine Discipline.Triple.of_calls hp stable_ready (fun _ hcall s _ _ => hcall.allowed s) ?_
  rintro call hcall s choice r s' _ ⟨hmine, hunsent⟩ _ hrun _
  rcases DeliverySys.run_some hrun with ⟨hs, hh⟩ | ⟨_, _, _, _, _, hs, hh⟩ | ⟨other, sent, heq, _, _⟩
  · exact ⟨hh ▸ hmine, hs ▸ hunsent⟩
  · refine ⟨?_, hs ▸ hunsent⟩
    rw [hh]
    exact List.mem_cons_of_mem _ hmine
  · exact absurd heq (hcall other sent)

theorem issueStatement_quiet (statement : DeliveryStatement) :
    (issueStatement statement).Calls DeliveryCall.Quiet :=
  Prog.Calls.perform (by intro key input h; cases h)

theorem deliveryRecord_quiet (row : DeliveryRow) :
    (deliveryRecord row).Calls DeliveryCall.Quiet := by
  unfold deliveryRecord
  split_ifs
  · exact .ret _
  · exact .throw _

theorem updateDelivery_quiet (deliveryId : DeliveryId) (statement : DeliveryStatement) :
    (updateDelivery deliveryId statement).Calls DeliveryCall.Quiet := by
  refine (issueStatement_quiet statement).bind ?_
  intro row
  cases row with
  | some row => exact deliveryRecord_quiet row
  | none => exact .throw _

theorem isAborted_quiet (signal : Bool) : (isAborted signal).Calls DeliveryCall.Quiet := by
  unfold isAborted
  split_ifs
  · exact Prog.Calls.perform (by intro key input h; cases h)
  · exact .ret _

theorem throwIfAborted_quiet (signal : Bool) : (throwIfAborted signal).Calls DeliveryCall.Quiet := by
  refine (isAborted_quiet signal).bind ?_
  intro aborted
  split_ifs
  · exact .throw _
  · exact .ret _

open FinalDeliveryHandler in
theorem sendFailed_quiet (delivery : DeliveryRow) (sendAttempted : Bool) (error : DeliveryThrown) :
    (sendFailed input delivery sendAttempted error).Calls DeliveryCall.Quiet := by
  refine (isAborted_quiet input.signal).bind ?_
  intro aborted
  cases aborted with
  | false => exact (updateDelivery_quiet _ _).bind fun _ => .ret _
  | true =>
    cases sendAttempted with
    | false => exact .throw _
    | true => exact (updateDelivery_quiet _ _).handle (fun _ => .throw _) fun _ => .throw _

/-- A statement that hands out a record leaves it ready. -/
theorem reserving_triple {statement : DeliveryStatement} (hkey : statement.reserves = some key) :
    (deliveryDiscipline ι).Triple i (fun _ => True) (issueStatement statement)
      (fun answer s => ∀ row, answer = some row → row.status.toBeSent = true → Ready i key s)
      (fun _ _ => True) := by
  have hquiet : (DeliveryCall.statement statement).Quiet := by
    intro key input h
    cases h
  refine Discipline.Triple.perform (fun _ _ _ _ _ => trivial) (fun s _ _ => hquiet.allowed s) ?_
    (fun _ _ _ _ _ _ _ _ _ => trivial)
  intro s choice answer s' _ _ hguard hrun _ row hrow hsent
  cases choice with
  | statement ending =>
    obtain ⟨⟨r, store⟩, hstore, heq⟩ := Option.map_eq_some_iff.1 hrun
    cases heq
    have hhands : statement.hands (.ok answer) = some key := by
      rw [hrow]
      simp only [DeliveryStatement.hands, hsent, hkey, if_true]
    obtain ⟨rfl, hoffers⟩ := DeliverySys.offers_of_hands hstore hhands
    have hfree := hguard statement key rfl rfl hoffers
    simp only [Ready, hhands]
    exact ⟨by simp, hfree.1⟩
  | signal | sent => cases hrun

theorem reserved_triple (row : DeliveryRow) :
    (deliveryDiscipline ι).Triple i (fun s => row.status.toBeSent = true → Ready i key s)
      (deliveryRecord row) (fun delivery s => delivery.status.toBeSent = true → Ready i key s)
      (fun _ _ => True) := by
  unfold deliveryRecord
  split_ifs
  · exact Discipline.Triple.ret fun _ _ h => h
  · exact Discipline.Triple.throw fun _ _ _ => trivial

theorem reserveDelivery_triple {response : FinalResponse} {deliveryId : DeliveryId}
    {idempotencyKey : String} :
    (deliveryDiscipline ι).Triple i (fun _ => True)
      (reserveDelivery T deliveryId idempotencyKey response)
      (fun delivery s => delivery.status.toBeSent = true →
        Ready i (response.householdId, idempotencyKey) s) (fun _ _ => True) := by
  unfold reserveDelivery
  split_ifs
  · refine (reserving_triple rfl).bind ?_
    intro answer
    cases answer with
    | some row => exact (reserved_triple row).pre fun _ _ h => h row rfl
    | none =>
      refine Discipline.Triple.bind (((reserving_triple rfl).pre fun _ _ _ => trivial)) ?_
      intro found
      cases found with
      | some row => exact (reserved_triple row).pre fun _ _ h => h row rfl
      | none => exact Discipline.Triple.throw fun _ _ _ => trivial
  · exact Discipline.Triple.throw fun _ _ _ => trivial

namespace FinalDeliveryHandler

theorem sendAndMark_triple (delivery : DeliveryRow) :
    (deliveryDiscipline ι).Triple i (Ready i (H.deliveryKey input.response))
      (sendAndMark H input delivery) (fun _ _ => True) (fun _ _ => True) := by
  refine Discipline.Triple.bind (R := fun _ _ => True) ?_ ?_
  · refine Discipline.Triple.perform stable_ready ?_ (fun _ _ _ _ _ _ _ _ _ => trivial)
      (fun _ _ _ _ _ _ _ _ _ => trivial)
    intro s _ hready key sent hcall
    cases hcall
    exact hready
  · intro platformMessageId
    refine quiet_triple ((throwIfAborted_quiet _).bind ?_)
    intro _
    exact (updateDelivery_quiet _ _).bind fun _ => .ret _

theorem dispatch_triple (delivery : DeliveryRow) :
    (deliveryDiscipline ι).Triple i
      (fun s => delivery.status.toBeSent = true → Ready i (H.deliveryKey input.response) s)
      (dispatch H input delivery) (fun _ _ => True) (fun _ _ => True) := by
  have hfailed : ∀ sendAttempted error, (deliveryDiscipline ι).Triple i (fun _ => True)
      (sendFailed input delivery sendAttempted error) (fun _ _ => True) (fun _ _ => True) :=
    fun sendAttempted error => quiet_triple (sendFailed_quiet delivery sendAttempted error)
  have hattempt : (deliveryDiscipline ι).Triple i (Ready i (H.deliveryKey input.response))
      ((throwIfAborted input.signal).handle
        (fun _ => (sendAndMark H input delivery).tryCatch (sendFailed input delivery true))
        (sendFailed input delivery false)) (fun _ _ => True) (fun _ _ => True) := by
    refine (ready_triple (throwIfAborted_quiet input.signal)).handle ?_ ?_
    · intro _
      exact (sendAndMark_triple delivery).tryCatch (hfailed true)
    · exact fun error => (hfailed false error).pre fun _ _ _ => trivial
  unfold dispatch
  cases delivery.status with
  | pending | sending => exact hattempt.pre fun _ _ h => h rfl
  | delivered | failed | ambiguous => exact Discipline.Triple.ret fun _ _ _ => trivial

/-- A call sends the message of a record that it was handed, and only once. -/
theorem deliver_triple : (deliveryDiscipline ι).Triple i (fun _ => True) (deliver H T input)
    (fun _ _ => True) (fun _ _ => True) := by
  refine (quiet_triple (throwIfAborted_quiet input.signal)).bind ?_
  intro _
  refine (quiet_triple (Prog.Calls.ofExcept _)).bind ?_
  intro processed
  split_ifs
  · exact Discipline.Triple.ret fun _ _ _ => trivial
  refine (quiet_triple (throwIfAborted_quiet input.signal)).bind ?_
  intro _
  refine reserveDelivery_triple.bind ?_
  intro delivery
  -- a signal is looked at before the record is
  by_cases hsent : delivery.status.toBeSent = true
  · refine Discipline.Triple.bind (R := fun _ => Ready i (H.deliveryKey input.response)) ?_ ?_
    · have hready : (deliveryDiscipline ι).Triple i (Ready i (H.deliveryKey input.response))
          (throwIfAborted input.signal) (fun _ => Ready i (H.deliveryKey input.response))
          (fun _ => Ready i (H.deliveryKey input.response)) :=
        ready_triple (throwIfAborted_quiet input.signal)
      exact hready.conseq (fun _ _ h => h hsent) (fun _ _ _ h => h) fun _ _ _ _ => trivial
    · exact fun _ => (dispatch_triple delivery).pre fun _ _ h _ => h
  · refine Discipline.Triple.bind (R := fun _ _ => True) ?_ ?_
    · exact (quiet_triple (throwIfAborted_quiet input.signal)).pre fun _ _ _ => trivial
    · exact fun _ => (dispatch_triple delivery).pre fun _ _ _ h => absurd h hsent

end FinalDeliveryHandler

end Programs

/-! ## Runs -/

/-- A table, nothing sent yet, and no call under way. -/
def DeliverySys.atRest (db : DeliveryDb) : DeliverySys ι := ⟨⟨db, []⟩, [], []⟩

abbrev DeliveryConfig (ι : Type) :=
  Config ι DeliveryCall DeliveryReply DeliveryThrown DeliveryResult (DeliverySys ι)

/-- Every call of `deliver` at its start. -/
def startDeliveries (H : DeliveryHandler) (T : TimeFormats) (inputs : ι → DeliverInput)
    (db : DeliveryDb) : DeliveryConfig ι :=
  .initial (.atRest db) fun i => FinalDeliveryHandler.deliver H T (inputs i)

namespace TestDelivery

open TestCommand (householdId)
open TestInteraction (conversationId response times)

/-- The text that the key of the response is the hash of. -/
def keyText : String :=
  "\x7b\"responseId\":\"response_1\",\"conversationId\":\"conversation_01JNZQ4A9B8C7D6E5F4G3H2J1K\",\"delivery\":\x7b\"channel\":\"telegram\",\"destination\":\x7b\x7d,\"format\":\"plain_text\"\x7d,\"body\":\"The working memory was cleared.\",\"responseHash\":\"224444a4cb3f2eef0120684b545f924dc0d9ccf8da6c0a2c92fd79a031e12590\"\x7d"

def keyHash : ArtifactHash :=
  ⟨"6ada5f82a7291b5c0c641834c14762ce51ab2ddaf6471f09bf62da6d78f92f70", by decide⟩

def handler : DeliveryHandler where
  processors := [fun _ => .ok ⟨"channel-format", 1, .passed, "Channel formatting checks passed.", [], false⟩]
  stringify _ := keyText
  sha256 text := if text = keyText then keyHash else TestCommand.recordHash

def deliveryIds : Fin 3 → DeliveryId
  | 0 => ⟨"01JNZQ4A9B8C7D6E5F4G3H2J1K", by decide⟩
  | 1 => ⟨"01JNZQ4A9B8C7D6E5F4G3H2J2K", by decide⟩
  | 2 => ⟨"01JNZQ4A9B8C7D6E5F4G3H2J3K", by decide⟩

def db : DeliveryDb := ⟨[(householdId, conversationId)], [], 1767225900000⟩

def start : DeliveryConfig (Fin 3) :=
  startDeliveries handler times (fun i => ⟨response, false, deliveryIds i⟩) db

/-- The first call reserves and crashes before it sends; the second finds the record, sends, and
loses the reply to its mark; the third finds the record marked. -/
def retries : List (Event (Fin 3) DeliveryChoice (StoreMove DeliveryMove)) :=
  [.call 0 (.statement .answered), .crash 0,
    .call 1 (.statement .answered), .call 1 (.statement .answered), .call 1 (.sent (.ok "42")),
    .call 1 (.statement (.unheard (.error (.pg ⟨some "08006", none, "connection failure"⟩)))),
    .call 1 (.statement .answered), .finish 1,
    .call 2 (.statement .answered), .call 2 (.statement .answered), .finish 2]

/-- The guard of the runs as a test on one call. -/
def handsOnce (call : DeliveryCall) (choice : DeliveryChoice) (s : DeliverySys (Fin 3)) : Bool :=
  match call, choice with
  | .statement statement, .statement .answered =>
    match s.offers statement with
    | some key => !s.sends.contains key && !(s.handed.map Prod.snd).contains key
    | none => true
  | _, _ => true

theorem retries_admitted : Admitted (handedOnce (Fin 3)) start retries := by
  have hcheck : ∀ (i : Fin 3) call choice s, handsOnce call choice s = true →
      (handedOnce (Fin 3)).call i call choice s := by
    rintro i call choice s hpass statement key rfl rfl hoffers
    simpa [handsOnce, hoffers] using hpass
  have hpasses : start.passes (deliverySystem (Fin 3)) (fun _ => handsOnce) retries = true := by
    decide +kernel
  exact Admitted.of_passes hcheck (fun _ _ _ => trivial) hpasses

end TestDelivery

end PlusOne
