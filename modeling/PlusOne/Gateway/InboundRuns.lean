import PlusOne.Gateway.Inbound
import PlusOne.Gateway.Works
import PlusOne.Interactions.LifecycleRuns

/-! # Every inbound message once

Every call of `handleInbound` is a thread over the shared tables and the registry of its
gateway. A gateway lives in a process: what its registry has accepted is gone with it, and
so is every call made on it. -/

namespace PlusOne

open Interleaving

/-! ## The system -/

def inboundStore : Store InboundStatement InboundStatement.Answer Thrown InboundMove InboundDb where
  perform statement db := (statement.perform db).mapError .pg
  outside := InboundMove.apply

structure GatewayProcess where
  registry : Registry ConversationId MessageKey
  up : Bool

/-- The tables, the gateways in the order of their start, and the messages that calls have inserted
and not yet submitted. -/
structure InboundSys (ι : Type) where
  store : Stored InboundStatement InboundDb
  gateways : List GatewayProcess
  held : List (ι × MessageKey)

/-- How a call ends: a statement by its ending, a turn by what it comes to. -/
inductive InboundChoice
  | statement (ending : Ending Thrown)
  | submitted
  | result (outcome : Except Thrown TurnResult)

/-- What happens beside the calls; `turns` is a step of a gateway's registry. -/
inductive GatewayMove
  | store (move : StoreMove InboundMove)
  | boot
  | turns (gateway : Nat) (event : RegistryEvent ConversationId MessageKey)
  | crash (gateway : Nat)

/-- The message that an answer says was inserted. -/
def InboundStatement.inserted :
    (statement : InboundStatement) → Except Thrown statement.Answer → Option MessageKey
  | insertMessage message, .ok inserted => if inserted then some message.key else none
  | _, _ => none

namespace InboundSys

variable {ι : Type} [DecidableEq ι]

/-- A gateway, while its process is up. -/
def process (s : InboundSys ι) (gateway : Nat) : Option GatewayProcess :=
  (s.gateways[gateway]?).filter GatewayProcess.up

/-- The registry of a gateway has moved on. -/
def put (s : InboundSys ι) (gateway : Nat) (registry : Registry ConversationId MessageKey) :
    InboundSys ι :=
  { s with gateways := s.gateways.set gateway ⟨registry, true⟩ }

/-- One call on a gateway with the given registry. -/
def runOn (i : ι) (gateway : Nat) (registry : Registry ConversationId MessageKey) :
    (call : InboundCall) → InboundChoice → InboundSys ι →
      Option (Except Thrown (InboundReply call) × InboundSys ι)
  | .statement statement, .statement ending, s =>
    (inboundStore.run id statement ending s.store).map fun (r, store) =>
      (r, { s with store, held := (statement.inserted r).toList.map (i, ·) ++ s.held })
  | .submit conversationId message, .submitted, s =>
    (registry.submit conversationId message).map fun registry' =>
      (.ok (registry.submitted conversationId),
        { s.put gateway registry' with
          held := if registry.accepting then s.held.erase (i, message) else s.held })
  | .turn message, .result outcome, s =>
    if message ∈ registry.unsettled then none else some (outcome, s)
  | _, _, _ => none

def run (gateway : ι → Nat) (i : ι) (call : InboundCall) (choice : InboundChoice)
    (s : InboundSys ι) : Option (Except Thrown (InboundReply call) × InboundSys ι) :=
  (s.process (gateway i)).bind fun process => runOn i (gateway i) process.registry call choice s

def env : GatewayMove → InboundSys ι → Option (InboundSys ι)
  | .store move, s => (inboundStore.env move s.store).map fun store => { s with store }
  | .boot, s => some { s with gateways := s.gateways ++ [⟨.empty, true⟩] }
  | .turns gateway event, s => (s.process gateway).bind fun process =>
      if Registry.inner event then (process.registry.step event).map (s.put gateway) else none
  | .crash gateway, s => (s.process gateway).map fun process =>
      { s with gateways := s.gateways.set gateway ⟨process.registry, false⟩ }

/-- The messages that are durably recorded. -/
def recorded (s : InboundSys ι) : List MessageKey := s.store.current.messages

/-- The messages that a gateway has accepted. -/
def works (s : InboundSys ι) : List MessageKey :=
  s.gateways.flatMap fun process => process.registry.works

/-- The messages whose turns have been run, in all gateways. -/
def turns (s : InboundSys ι) : List MessageKey :=
  s.gateways.flatMap fun process => process.registry.started.map Prod.snd

/-- In no process that is up a call is between its insertion and its submission, or a turn is to
come. -/
def Settled (gateway : ι → Nat) (s : InboundSys ι) : Prop :=
  (∀ entry ∈ s.held, s.process (gateway entry.1) = none) ∧
    ∀ process ∈ s.gateways, process.up = true →
      ∀ slot ∈ process.registry.objects, slot.continuations = [] ∧ slot.running = []

end InboundSys

def inboundSystem {ι : Type} [DecidableEq ι] (gateway : ι → Nat) :
    System ι InboundCall InboundReply Thrown (InboundSys ι) where
  Choice := InboundChoice
  Move := GatewayMove
  run := InboundSys.run gateway
  env := InboundSys.env
  leave _ s := s

/-- The row that a statement would insert. -/
def InboundDb.inserts (db : InboundDb) : InboundStatement → Option MessageKey
  | .insertMessage message => if (db.insertMessage message).1 then some message.key else none
  | .findMessage _ | .startNewConversation .. => none

def InboundStatement.command? : InboundStatement → Option MessageKey
  | startNewConversation command _ => some command
  | insertMessage _ | findMessage _ => none

/-- Where a statement may be carried out: an insertion only if its caller hears of it, and a
command only once. -/
def InboundDb.admits (db : InboundDb) (statement : InboundStatement) (heard : Bool) : Prop :=
  (heard = false → db.inserts statement = none) ∧
    ∀ key, statement.command? = some key → key ∉ db.commanded

/-- The runs in which what a call has recorded goes on to a turn: the answer of an insertion is not
lost, the gateway is open when the message is submitted, and a process goes down only while none of
its calls is in between and none of its turns is left. No command is carried out a second time. -/
def handedOn {ι : Type} [DecidableEq ι] (gateway : ι → Nat) : Guard (inboundSystem gateway) where
  call i call choice s :=
    (∀ statement ending, call = .statement statement → choice = .statement ending →
      ending.carried = true → s.store.current.admits statement ending.heard) ∧
    ∀ conversationId message process, call = .submit conversationId message →
      s.process (gateway i) = some process → process.registry.accepting = true
  env move s :=
    (∀ n statement, move = .store (.resolve n true) → s.store.unfinished[n]? = some statement →
      s.store.current.admits statement false) ∧
    ∀ g process, move = .crash g → s.process g = some process →
      process.registry.unsettled = [] ∧ ∀ entry ∈ s.held, gateway entry.1 ≠ g

/-! ## Statements -/

theorem nodup_append_toList {α : Type} {xs : List α} {added : Option α} (h : xs.Nodup)
    (hfresh : ∀ x, added = some x → x ∉ xs) : (xs ++ added.toList).Nodup := by
  cases added with
  | none => simpa using h
  | some x =>
    refine List.nodup_append.2 ⟨h, List.nodup_singleton x, ?_⟩
    intro y hy z hz heq
    have hx : y = x := heq.trans (List.mem_singleton.1 hz)
    exact hfresh x rfl (hx ▸ hy)

namespace InboundStatement

variable {statement : InboundStatement} {db db' : InboundDb}

/-- What a statement leaves of the recorded messages and the commands. -/
structure Leaves (statement : InboundStatement) (db db' : InboundDb) (added : Option MessageKey) :
    Prop where
  messages : db'.messages = db.messages ++ added.toList
  fresh : ∀ key, added = some key → key ∉ db.messages
  commanded : db'.commanded = db.commanded ++ statement.command?.toList ∨ db'.commanded = db.commanded

theorem startNewConversation_rows {input : StartNewConversationInput} {row : Option ConversationRow}
    (h : db.startNewConversation input = .ok (row, db')) :
    db'.messages = db.messages ∧ db'.commanded = db.commanded := by
  unfold InboundDb.startNewConversation at h
  split_ifs at h
  · cases h
    exact ⟨rfl, rfl⟩
  · cases h
    unfold InboundDb.activate
    split_ifs <;> exact ⟨rfl, rfl⟩

theorem perform_leaves {answer : statement.Answer} (h : statement.perform db = .ok (answer, db')) :
    statement.inserted (.ok answer) = db.inserts statement ∧
      statement.Leaves db db' (db.inserts statement) := by
  cases statement with
  | insertMessage message =>
    simp only [perform, InboundDb.insertMessage] at h
    split_ifs at h with hnew
    · cases h
      have hinserts : db.inserts (.insertMessage message) = some message.key := by
        simp only [InboundDb.inserts, InboundDb.insertMessage, hnew, if_true]
      rw [hinserts]
      refine ⟨rfl, rfl, ?_, .inr rfl⟩
      intro key hkey
      cases hkey
      simpa using (Bool.and_eq_true_iff.1 hnew).2
    · cases h
      have hinserts : db.inserts (.insertMessage message) = none := by
        simp only [InboundDb.inserts, InboundDb.insertMessage, hnew, Bool.false_eq_true, if_false]
      rw [hinserts]
      exact ⟨rfl, by simp, by simp, .inr rfl⟩
  | findMessage key =>
    cases h
    exact ⟨rfl, by simp [InboundDb.inserts], by simp [InboundDb.inserts], .inr rfl⟩
  | startNewConversation command input =>
    simp only [perform] at h
    split at h
    · rename_i row started hstarted
      cases h
      obtain ⟨hmessages, hcommanded⟩ := startNewConversation_rows hstarted
      refine ⟨rfl, by simp [InboundDb.inserts, hmessages], by simp [InboundDb.inserts], .inl ?_⟩
      simp [command?, hcommanded]
    · cases h
      exact ⟨rfl, by simp [InboundDb.inserts], by simp [InboundDb.inserts], .inr rfl⟩
    · cases h

theorem Leaves.commanded_nodup {added : Option MessageKey} (h : statement.Leaves db db' added)
    (hadmits : ∀ key, statement.command? = some key → key ∉ db.commanded)
    (hnodup : db.commanded.Nodup) : db'.commanded.Nodup := by
  rcases h.commanded with happend | hsame
  · rw [happend]
    exact nodup_append_toList hnodup hadmits
  · rw [hsame]
    exact hnodup

end InboundStatement

theorem inboundStore_perform {statement : InboundStatement} {db : InboundDb}
    {result : statement.Answer × InboundDb} (h : inboundStore.perform statement db = .ok result) :
    statement.perform db = .ok result := by
  cases hperform : statement.perform db with
  | error e => simp [inboundStore, hperform, Except.mapError] at h
  | ok found => simpa [inboundStore, hperform, Except.mapError] using h

/-- A statement under an ending that the guard admits. -/
theorem inboundStore_run {statement : InboundStatement} {ending : Ending Thrown}
    {s s' : Stored InboundStatement InboundDb} {r : Except Thrown statement.Answer}
    (hadmits : ending.carried = true → s.current.admits statement ending.heard)
    (h : inboundStore.run id statement ending s = some (r, s')) :
    statement.Leaves s.current s'.current (statement.inserted r) ∧
      (s.current.commanded.Nodup → s'.current.commanded.Nodup) := by
  rcases Store.run_some h with ⟨hcurrent, _, e, rfl⟩ | ⟨a, t, hcarried, hok, rfl, hr⟩
  · have hnone : statement.inserted (.error (id e)) = none := by cases statement <;> rfl
    rw [hcurrent, hnone]
    exact ⟨⟨by simp, by simp, .inr rfl⟩, id⟩
  · obtain ⟨hinserted, hleaves⟩ := InboundStatement.perform_leaves (inboundStore_perform hok)
    obtain ⟨hheard, hcommand⟩ := hadmits hcarried
    refine ⟨?_, hleaves.commanded_nodup hcommand⟩
    rcases hr with rfl | ⟨e, rfl⟩
    · rw [hinserted]
      exact hleaves
    · have hnone : statement.inserted (.error (id e)) = none := by cases statement <;> rfl
      have hunheard : ending.heard = false := by
        cases ending with
        | answered => simp [Store.run, hok] at h
        | refused | unheard | unfinished => rfl
      rw [hnone, ← hheard hunheard]
      exact hleaves

theorem inboundStore_env {move : StoreMove InboundMove} {s s' : Stored InboundStatement InboundDb}
    (hadmits : ∀ n statement, move = .resolve n true → s.unfinished[n]? = some statement →
      s.current.admits statement false) (h : inboundStore.env move s = some s') :
    s'.current.messages = s.current.messages ∧
      (s.current.commanded.Nodup → s'.current.commanded.Nodup) := by
  cases move with
  | outside move =>
    obtain ⟨db, hmoved, rfl⟩ := Option.map_eq_some_iff.1 h
    cases move with
    | addHousehold householdId =>
      cases hmoved
      exact ⟨rfl, id⟩
    | startNewConversation input =>
      simp only [inboundStore, InboundMove.apply] at hmoved
      split at hmoved
      · rename_i row started hstarted
        cases hmoved
        obtain ⟨hmessages, hcommanded⟩ := InboundStatement.startNewConversation_rows hstarted
        exact ⟨hmessages, fun hnodup => hcommanded ▸ hnodup⟩
      · cases hmoved
  | resolve n carried =>
    obtain ⟨statement, hstatement, rfl⟩ := Option.map_eq_some_iff.1 h
    cases carried with
    | false => exact ⟨rfl, id⟩
    | true =>
      obtain ⟨hunheard, hcommand⟩ := hadmits n statement rfl hstatement
      simp only [if_true, inboundStore]
      cases hperform : statement.perform s.current with
      | error e => exact ⟨rfl, id⟩
      | ok answer =>
        obtain ⟨_, hleaves⟩ := InboundStatement.perform_leaves hperform
        rw [hunheard rfl] at hleaves
        refine ⟨?_, hleaves.commanded_nodup hcommand⟩
        simpa [Except.mapError] using hleaves.messages

/-! ## The invariant -/

/-- Every recorded message is with the call that has inserted it, or in one gateway. -/
structure InboundSys.Accounted {ι : Type} (gateway : ι → Nat) (s : InboundSys ι) : Prop where
  unique : s.recorded.Nodup
  counted : ∀ key, s.recorded.count key = (s.held.map Prod.snd).count key + s.works.count key
  flowing : ∀ process ∈ s.gateways, process.registry.Flowing
  living : ∀ entry ∈ s.held, ∃ process, s.process (gateway entry.1) = some process
  down : ∀ process ∈ s.gateways, process.up = false → process.registry.unsettled = []
  commanded : s.store.current.commanded.Nodup

namespace InboundSys

variable {ι : Type} {gateway : ι → Nat} {s s' : InboundSys ι} {i : ι}

variable {process : GatewayProcess}

theorem process_eq_some {gateway : Nat} (h : s.process gateway = some process) :
    s.gateways[gateway]? = some process ∧ process.up = true :=
  Option.filter_eq_some_iff.1 h

variable {registry : Registry ConversationId MessageKey}

theorem process_put {g h : Nat} {process other : GatewayProcess} (hprocess : s.process g = some process)
    (hother : s.process h = some other) : ∃ process, (s.put g registry).process h = some process := by
  obtain ⟨hget, _⟩ := process_eq_some hprocess
  by_cases hsame : g = h
  · subst hsame
    have hlt := (List.getElem?_eq_some_iff.1 hget).1
    exact ⟨⟨registry, true⟩, by simp [InboundSys.process, InboundSys.put, hlt]⟩
  · refine ⟨other, ?_⟩
    simpa [InboundSys.process, InboundSys.put, List.getElem?_set_ne hsame] using hother

theorem count_works_put {g : Nat} {added : List MessageKey} (hprocess : s.process g = some process)
    (hworks : ∀ key, registry.works.count key = process.registry.works.count key + added.count key)
    (key : MessageKey) :
    (s.put g registry).works.count key = s.works.count key + added.count key := by
  have hset := count_flatMap_set (f := fun process : GatewayProcess => process.registry.works)
    (y := ⟨registry, true⟩) key (process_eq_some hprocess).1
  have hregistry := hworks key
  simp only [InboundSys.works, InboundSys.put] at hset ⊢
  omega

/-- A gateway's registry moves on, with one more work or none, which `held` has lost. -/
theorem Accounted.put (hs : s.Accounted gateway) {g : Nat} {added : List MessageKey} {held : List (ι × MessageKey)}
    (hprocess : s.process g = some process) (hflowing : registry.Flowing)
    (hworks : ∀ key, registry.works.count key = process.registry.works.count key + added.count key)
    (hsub : held ⊆ s.held)
    (hheld : ∀ key, (s.held.map Prod.snd).count key = (held.map Prod.snd).count key + added.count key) :
    ({ s.put g registry with held } : InboundSys ι).Accounted gateway := by
  refine ⟨hs.unique, ?_, ?_, ?_, ?_, hs.commanded⟩
  · intro key
    have hcounted := hs.counted key
    have hput := count_works_put hprocess hworks key
    have hlost := hheld key
    simp only [recorded, works, InboundSys.put] at hcounted hput ⊢
    omega
  · intro other hother
    rcases List.mem_or_eq_of_mem_set hother with hold | rfl
    · exact hs.flowing other hold
    · exact hflowing
  · intro entry hentry
    obtain ⟨other, hother⟩ := hs.living entry (hsub hentry)
    exact process_put hprocess hother
  · intro other hother hdown
    rcases List.mem_or_eq_of_mem_set hother with hold | rfl
    · exact hs.down other hold hdown
    · cases hdown

theorem Accounted.store (hs : s.Accounted gateway) {store : Stored InboundStatement InboundDb}
    (hmessages : store.current.messages = s.store.current.messages)
    (hcommanded : s.store.current.commanded.Nodup → store.current.commanded.Nodup) :
    ({ s with store } : InboundSys ι).Accounted gateway := by
  refine ⟨?_, ?_, hs.flowing, hs.living, hs.down, hcommanded hs.commanded⟩
  · simp only [recorded, hmessages]
    exact hs.unique
  · intro key
    simp only [recorded, hmessages]
    exact hs.counted key

variable [DecidableEq ι]

/-- A call keeps the invariant, what is recorded, and what other calls hold. -/
theorem Accounted.call (hs : s.Accounted gateway) {call : InboundCall} {choice : InboundChoice}
    {r : Except Thrown (InboundReply call)}
    (hallowed : ∀ conversationId message, call = .submit conversationId message →
      (i, message) ∈ s.held)
    (hguard : (handedOn gateway).call i call choice s)
    (hrun : InboundSys.run gateway i call choice s = some (r, s')) :
    s'.Accounted gateway ∧ s.recorded ⊆ s'.recorded ∧
      ∀ j key, j ≠ i → (j, key) ∈ s.held → (j, key) ∈ s'.held := by
  obtain ⟨process, hprocess, hrun⟩ := Option.bind_eq_some_iff.1 hrun
  cases call with
  | statement statement =>
    cases choice with
    | statement ending =>
      obtain ⟨⟨r', store⟩, hstore, heq⟩ := Option.map_eq_some_iff.1 hrun
      cases heq
      obtain ⟨hleaves, hcommanded⟩ := inboundStore_run (hguard.1 statement ending rfl rfl) hstore
      refine ⟨⟨?_, ?_, hs.flowing, ?_, hs.down, hcommanded hs.commanded⟩, ?_, ?_⟩
      · simp only [recorded, hleaves.messages]
        exact nodup_append_toList hs.unique hleaves.fresh
      · intro key
        have hcounted := hs.counted key
        have hadded : ((statement.inserted r).toList.map fun key => (i, key)).map Prod.snd =
            (statement.inserted r).toList := by
          simp [List.map_map, Function.comp_def]
        simp only [recorded, works, hleaves.messages, List.map_append, List.count_append,
          hadded] at hcounted ⊢
        omega
      · intro entry hentry
        rcases List.mem_append.1 hentry with hnew | hold
        · obtain ⟨key, _, rfl⟩ := List.mem_map.1 hnew
          exact ⟨process, hprocess⟩
        · exact hs.living entry hold
      · intro key hkey
        simp only [recorded, hleaves.messages]
        exact List.mem_append_left _ hkey
      · intro j key _ hheld
        exact List.mem_append_right _ hheld
    | submitted | result => cases hrun
  | submit conversationId message =>
    cases choice with
    | submitted =>
      obtain ⟨registry, hsubmit, heq⟩ := Option.map_eq_some_iff.1 hrun
      cases heq
      have hopen := hguard.2 conversationId message process rfl hprocess
      have hflowing := hs.flowing process (List.mem_of_getElem? (process_eq_some hprocess).1)
      obtain ⟨hflowing', hworks⟩ := Registry.submit_works hflowing hopen hsubmit
      have hheld := hallowed conversationId message rfl
      simp only [hopen, if_true]
      refine ⟨hs.put hprocess hflowing' hworks (List.erase_subset ..) ?_, fun _ h => h, ?_⟩
      · intro key
        have hperm := ((List.perm_cons_erase hheld).map Prod.snd).count_eq key
        rw [hperm, List.map_cons, List.count_cons, List.count_singleton]
      · intro j key hne hmem
        have hother : (j, key) ≠ (i, message) := by
          intro heq
          exact hne (Prod.mk.inj heq).1
        exact (List.mem_erase_of_ne hother).2 hmem
    | statement | result => cases hrun
  | turn message =>
    cases choice with
    | result outcome =>
      simp only [runOn] at hrun
      split_ifs at hrun
      cases hrun
      exact ⟨hs, fun _ h => h, fun _ _ _ h => h⟩
    | statement | submitted => cases hrun

/-- So does what happens beside the calls. -/
theorem Accounted.env (hs : s.Accounted gateway) {move : GatewayMove}
    (hguard : (handedOn gateway).env move s) (henv : InboundSys.env move s = some s') :
    s'.Accounted gateway ∧ s.recorded ⊆ s'.recorded ∧ s'.held = s.held := by
  cases move with
  | store move =>
    obtain ⟨store, hstore, rfl⟩ := Option.map_eq_some_iff.1 henv
    have hadmits : ∀ n statement, move = .resolve n true → s.store.unfinished[n]? = some statement →
        s.store.current.admits statement false := by
      intro n statement hmove hstatement
      exact hguard.1 n statement (congrArg GatewayMove.store hmove) hstatement
    obtain ⟨hmessages, hcommanded⟩ := inboundStore_env hadmits hstore
    refine ⟨hs.store hmessages hcommanded, ?_, rfl⟩
    intro key hkey
    simp only [recorded, hmessages]
    exact hkey
  | boot =>
    cases henv
    refine ⟨⟨hs.unique, ?_, ?_, ?_, ?_, hs.commanded⟩, fun _ h => h, rfl⟩
    · intro key
      have hcounted := hs.counted key
      simpa [recorded, works, Registry.works, Registry.empty] using hcounted
    · intro process hmem
      rcases List.mem_append.1 hmem with hold | hnew
      · exact hs.flowing process hold
      · rw [List.mem_singleton.1 hnew]
        intro slot hslot
        cases hslot
    · intro entry hentry
      obtain ⟨process, hprocess⟩ := hs.living entry hentry
      obtain ⟨hget, hup⟩ := process_eq_some hprocess
      have hlt := (List.getElem?_eq_some_iff.1 hget).1
      refine ⟨process, Option.filter_eq_some_iff.2 ⟨?_, hup⟩⟩
      rw [List.getElem?_append_left hlt]
      exact hget
    · intro process hmem hdown
      rcases List.mem_append.1 hmem with hold | hnew
      · exact hs.down process hold hdown
      · rw [List.mem_singleton.1 hnew] at hdown
        cases hdown
  | turns g event =>
    obtain ⟨process, hprocess, henv⟩ := Option.bind_eq_some_iff.1 henv
    split_ifs at henv with hinner
    obtain ⟨registry, hstep, rfl⟩ := Option.map_eq_some_iff.1 henv
    have hflowing := hs.flowing process (List.mem_of_getElem? (process_eq_some hprocess).1)
    obtain ⟨hflowing', hworks⟩ := Registry.inner_step hinner hflowing hstep
    exact ⟨hs.put hprocess hflowing' hworks (List.Subset.refl _) (fun _ => rfl), fun _ h => h, rfl⟩
  | crash g =>
    obtain ⟨process, hprocess, rfl⟩ := Option.map_eq_some_iff.1 henv
    obtain ⟨hidle, hnone⟩ := hguard.2 g process rfl hprocess
    obtain ⟨hget, hup⟩ := process_eq_some hprocess
    refine ⟨⟨hs.unique, ?_, ?_, ?_, ?_, hs.commanded⟩, fun _ h => h, rfl⟩
    · intro key
      have hcounted := hs.counted key
      have hset := count_flatMap_set (f := fun process : GatewayProcess => process.registry.works)
        (y := ⟨process.registry, false⟩) key hget
      simp only [works, recorded] at hcounted hset ⊢
      omega
    · intro other hmem
      rcases List.mem_or_eq_of_mem_set hmem with hold | rfl
      · exact hs.flowing other hold
      · exact hs.flowing process (List.mem_of_getElem? hget)
    · intro entry hentry
      obtain ⟨other, hother⟩ := hs.living entry hentry
      have hne : g ≠ gateway entry.1 := fun heq => hnone entry hentry heq.symm
      refine ⟨other, ?_⟩
      simpa [InboundSys.process, List.getElem?_set_ne hne] using hother
    · intro other hmem hdown
      rcases List.mem_or_eq_of_mem_set hmem with hold | rfl
      · exact hs.down other hold hdown
      · exact hidle

end InboundSys

/-! ## The discipline -/

/-- A call relies on keeping what it has inserted, and only then submits it. -/
def inboundDiscipline {ι : Type} [DecidableEq ι] (gateway : ι → Nat) :
    Discipline (inboundSystem gateway) (handedOn gateway) where
  Inv := InboundSys.Accounted gateway
  rely i s s' := s.recorded ⊆ s'.recorded ∧ ∀ key, (i, key) ∈ s.held → (i, key) ∈ s'.held
  allowed i call s := ∀ conversationId message, call = .submit conversationId message →
    (i, message) ∈ s.held
  rely_refl := fun _ _ => ⟨List.Subset.refl _, fun _ h => h⟩
  rely_trans := fun h h' => ⟨List.Subset.trans h.1 h'.1, fun key hkey => h'.2 key (h.2 key hkey)⟩

variable {ι : Type} [DecidableEq ι] {gateway : ι → Nat}

theorem inboundDiscipline_sound : (inboundDiscipline gateway).Sound where
  inv_call := fun hs hallowed hguard hrun => (hs.call hallowed hguard hrun).1
  rely_call := by
    rintro i j call choice s r s' hs hallowed hguard hrun hne
    obtain ⟨_, hrecorded, hheld⟩ := hs.call hallowed hguard hrun
    exact ⟨hrecorded, fun key => hheld i key hne.symm⟩
  inv_env := fun hs hguard henv => (hs.env hguard henv).1
  rely_env := by
    rintro i move s s' hs hguard henv
    obtain ⟨_, hrecorded, hheld⟩ := hs.env hguard henv
    exact ⟨hrecorded, fun key hkey => hheld ▸ hkey⟩
  inv_leave := fun hs => hs
  rely_leave := fun _ _ => ⟨List.Subset.refl _, fun _ h => h⟩

section Programs

variable {i : ι} {T : TimeFormats} {key : MessageKey}

theorem stable_recorded : (inboundDiscipline gateway).Stable i fun s => key ∈ s.recorded :=
  fun _ _ _ hrely h => hrely.1 h

theorem stable_held : (inboundDiscipline gateway).Stable i fun s => (i, key) ∈ s.held :=
  fun _ _ _ hrely h => hrely.2 key h

theorem InboundStatement.allowed (statement : InboundStatement) (s : InboundSys ι) :
    (inboundDiscipline gateway).allowed i (.statement statement) s := by
  intro conversationId message hcall
  cases hcall

/-- A statement, by what its answer says. -/
theorem InboundStatement.issue_triple {statement : InboundStatement}
    {Q : statement.Answer → InboundSys ι → Prop}
    (hQ : ∀ (s : InboundSys ι) answer db, statement.perform s.store.current = .ok (answer, db) →
      Q answer { s with
        store := { s.store with current := db }
        held := (statement.inserted (.ok answer)).toList.map (i, ·) ++ s.held }) :
    (inboundDiscipline gateway).Triple i (fun _ => True) statement.issue Q (fun _ _ => True) := by
  refine Discipline.Triple.perform (fun _ _ _ _ _ => trivial) (fun s _ _ => statement.allowed s) ?_
    (fun _ _ _ _ _ _ _ _ _ => trivial)
  intro s choice answer s' _ _ _ hrun _
  obtain ⟨process, _, hrun⟩ := Option.bind_eq_some_iff.1 hrun
  cases choice with
  | statement ending =>
    obtain ⟨⟨r, store⟩, hstore, heq⟩ := Option.map_eq_some_iff.1 hrun
    cases heq
    rcases Store.run_some hstore with ⟨_, _, e, he⟩ | ⟨a, t, _, hok, rfl, ha | ⟨e, he⟩⟩
    · cases he
    · cases ha
      exact hQ s answer t (inboundStore_perform hok)
    · cases he
  | submitted | result => cases hrun

theorem recordInboundMessage_triple {message : InboundMessage} :
    (inboundDiscipline gateway).Triple i (fun _ => True) (recordInboundMessage T message)
      (fun inserted s => if inserted then (i, message.key) ∈ s.held else message.key ∈ s.recorded)
      (fun _ _ => True) := by
  unfold recordInboundMessage
  split_ifs
  · refine Discipline.Triple.bind (R := fun inserted s => inserted = true → (i, message.key) ∈ s.held)
      ?_ ?_
    · refine InboundStatement.issue_triple ?_
      intro s inserted db _ hinserted
      simp [InboundStatement.inserted, hinserted]
    · intro inserted
      cases inserted with
      | true => exact Discipline.Triple.ret fun _ _ h => h rfl
      | false =>
        refine Discipline.Triple.bind (R := fun existing s => existing = true → message.key ∈ s.recorded)
          ?_ ?_
        · refine Discipline.Triple.pre (InboundStatement.issue_triple ?_) fun _ _ _ => trivial
          intro s existing db hperform hexisting
          cases hperform
          simpa [InboundSys.recorded] using hexisting
        · intro existing
          cases existing with
          | true => exact Discipline.Triple.ret fun _ _ h => h rfl
          | false => exact Discipline.Triple.throw fun _ _ _ => trivial
  · exact Discipline.Triple.throw fun _ _ _ => trivial

/-- A call that submits nothing. -/
def InboundCall.Quiet (call : InboundCall) : Prop :=
  ∀ conversationId message, call ≠ .submit conversationId message

theorem quietly {α : Type} {p : InboundProgram α} (hp : p.Calls InboundCall.Quiet) :
    (inboundDiscipline gateway).Triple i (fun _ => True) p (fun _ _ => True) (fun _ _ => True) :=
  Discipline.Triple.of_calls hp (fun _ _ _ _ _ => trivial)
    (fun _ hcall _ _ _ conversationId message heq => absurd heq (hcall conversationId message))
    (fun _ _ _ _ _ _ _ _ _ _ _ => trivial)

theorem handleCommand_quiet (message : InboundMessage) (nextConversationId : ConversationId) :
    (handleCommand message nextConversationId).Calls InboundCall.Quiet := by
  unfold handleCommand
  split_ifs
  · exact .ret _
  · refine (Prog.Calls.ofExcept _).bind fun externalConversationId => ?_
    refine Prog.Calls.bind ?_ fun _ => .ret _
    refine Prog.Calls.bind (Prog.Calls.perform ?_) ?_
    · intro conversationId message h
      cases h
    · intro row
      cases row with
      | none => exact .throw _
      | some row =>
        simp only
        split_ifs
        · exact .ret _
        · exact .throw _

/-- What a call reports: never that the gateway is closed, and a duplicate only of a message that is
recorded. -/
def Reports (message : InboundMessage) (result : ChannelGatewayResult) (s : InboundSys ι) : Prop :=
  result ≠ .closed ∧ (result = .duplicate → message.key ∈ s.recorded)

theorem submitMessage_triple {message : InboundMessage} :
    (inboundDiscipline gateway).Triple i (fun s => (i, message.key) ∈ s.held) (submitMessage message)
      (Reports message) (fun _ _ => True) := by
  refine Discipline.Triple.bind (R := fun submitted _ => submitted ≠ .closed) ?_ ?_
  · refine Discipline.Triple.perform stable_held ?_ ?_ (fun _ _ _ _ _ _ _ _ _ => trivial)
    · intro s _ hheld conversationId key hcall
      cases hcall
      exact hheld
    · intro s choice submitted s' _ _ hguard hrun _
      obtain ⟨process, hprocess, hrun⟩ := Option.bind_eq_some_iff.1 hrun
      have hopen := hguard.2 _ _ process rfl hprocess
      cases choice with
      | submitted =>
        obtain ⟨registry, _, heq⟩ := Option.map_eq_some_iff.1 hrun
        cases heq
        simp only [Registry.submitted, hopen, Bool.not_true, Bool.false_eq_true, if_false]
        split
        · split_ifs <;> simp
        · simp
      | statement | result => cases hrun
  · intro submitted
    cases submitted with
    | closed =>
      intro s _ hclosed
      exact absurd rfl hclosed
    | queued => exact Discipline.Triple.ret fun _ _ _ => ⟨by simp, by simp⟩
    | started =>
      refine Discipline.Triple.bind (R := fun _ _ => True) ?_ ?_
      · refine (quietly (Prog.Calls.perform ?_)).pre fun _ _ _ => trivial
        intro conversationId key h
        cases h
      · exact fun result => Discipline.Triple.ret fun _ _ _ => ⟨by simp, by simp⟩

theorem handleInbound_triple {commands : Bool} {input : InboundInput} :
    (inboundDiscipline gateway).Triple i (fun _ => True) (handleInbound T commands input)
      (Reports input.message) (fun _ _ => True) := by
  have hcommand : (gatewayCommand commands input).Calls InboundCall.Quiet := by
    unfold gatewayCommand
    split_ifs
    · exact handleCommand_quiet _ _
    · exact .ret _
  unfold handleInbound
  split_ifs
  · refine (quietly hcommand).bind ?_
    intro command
    cases command with
    | some command => exact Discipline.Triple.ret fun _ _ _ => ⟨by simp, by simp⟩
    | none =>
      refine recordInboundMessage_triple.bind ?_
      intro inserted
      cases inserted with
      | true => exact submitMessage_triple
      | false => exact Discipline.Triple.ret fun _ _ hrecorded => ⟨by simp, fun _ => hrecorded⟩
  · exact Discipline.Triple.throw fun _ _ _ => trivial

end Programs

/-! ## Runs -/

/-- Tables without messages, and no gateway yet. -/
def InboundSys.start (households : List HouseholdId) (conversations : List ConversationRow)
    (activeLanes : List (ConversationLane × ConversationId)) : InboundSys ι :=
  ⟨⟨⟨households, conversations, activeLanes, [], []⟩, []⟩, [], []⟩

abbrev InboundConfig (ι : Type) :=
  Config ι InboundCall InboundReply Thrown ChannelGatewayResult (InboundSys ι)

/-- Every call of `handleInbound` at its start. -/
def startInbound (T : TimeFormats) (commands : Bool) (inputs : ι → InboundInput)
    (s : InboundSys ι) : InboundConfig ι :=
  .initial s fun i => handleInbound T commands (inputs i)

omit [DecidableEq ι] in
theorem InboundSys.turns_le_works (s : InboundSys ι) (key : MessageKey) :
    s.turns.count key ≤ s.works.count key := by
  simp only [turns, works]
  induction s.gateways with
  | nil => exact Nat.le_refl _
  | cons process rest ih =>
    simp only [List.flatMap_cons, List.count_append, Registry.works] at ih ⊢
    omega

omit [DecidableEq ι] in
/-- At rest, every recorded message has been run. -/
theorem InboundSys.Accounted.settled {s : InboundSys ι} (hs : s.Accounted gateway)
    (hsettled : s.Settled gateway) (key : MessageKey) :
    s.turns.count key = s.recorded.count key := by
  have hheld : s.held = [] := by
    refine List.eq_nil_iff_forall_not_mem.2 ?_
    intro entry hentry
    obtain ⟨process, hprocess⟩ := hs.living entry hentry
    have hnone := hsettled.1 entry hentry
    rw [hprocess] at hnone
    cases hnone
  have hworks : ∀ process ∈ s.gateways,
      process.registry.works = process.registry.started.map Prod.snd := by
    intro process hprocess
    refine Registry.works_eq_started ?_
    intro slot hslot
    cases hup : process.up with
    | true =>
      obtain ⟨hcontinuations, hrunning⟩ := hsettled.2 process hprocess hup slot hslot
      exact (hs.flowing process hprocess slot hslot).queue_nil hcontinuations hrunning
    | false =>
      have hidle := List.flatMap_eq_nil_iff.1 (hs.down process hprocess hup) slot hslot
      exact (List.append_eq_nil_iff.1 hidle).2
  have hcounted := hs.counted key
  have hturns : s.works = s.turns := List.flatMap_congr hworks
  rw [hheld, hturns] at hcounted
  simpa using hcounted.symm

namespace TestInbound

open TestCommand (householdId)
open TestInteraction (conversationId times)

def conversation : ConversationRow :=
  ⟨conversationId, ⟨householdId, .telegram, "42", ""⟩, .direct, ⟨[("chatId", .str "42")], by decide⟩⟩

def message (externalMessageId body : String) : InboundMessage where
  conversationId := conversationId
  householdId := householdId
  channel := .telegram
  externalMessageId := externalMessageId
  receivedAt := "2026-01-01T00:00:00.000Z"
  speaker := ⟨"telegram:user:7", some "Ana"⟩
  body := body
  attachments := []
  metadata := ⟨[("destination", .obj [("chatId", .str "42")])], by decide⟩

def hello : InboundMessage := message "telegram:42:1" "hello"

def command : InboundMessage := message "telegram:42:3" " /new budget"

def conversationIds : Bool → ConversationId
  | false => ⟨"01JNZQ4A9B8C7D6E5F4G3H2J2K", by decide⟩
  | true => ⟨"01JNZQ4A9B8C7D6E5F4G3H2J3K", by decide⟩

/-- A message, another of the same conversation, the first one again on the next gateway, and a
command. -/
def inputs : Fin 4 → InboundInput
  | 0 => ⟨0, hello, conversationIds false⟩
  | 1 => ⟨0, message "telegram:42:2" "and more", conversationIds false⟩
  | 2 => ⟨1, hello, conversationIds false⟩
  | 3 => ⟨1, command, conversationIds false⟩

def start (inputs : Fin 4 → InboundInput) : InboundConfig (Fin 4) :=
  startInbound times true inputs (.start [householdId] [conversation] [])

/-- The second message waits for the turn of the first; then the gateway shuts down. -/
def handover : List (Event (Fin 4) InboundChoice GatewayMove) :=
  [.env .boot, .call 0 (.statement .answered), .call 0 .submitted,
    .call 1 (.statement .answered), .call 1 .submitted, .finish 1,
    .env (.turns 0 (.settle 0 0)), .env (.turns 0 (.proceed 0)),
    .call 0 (.result (.ok (.failed "orchestrator_failed"))), .finish 0,
    .env (.turns 0 (.proceed 0)), .env (.turns 0 .close), .env (.turns 0 (.settle 0 0)),
    .env (.turns 0 (.proceed 0)), .env (.turns 0 (.proceed 0)), .env (.turns 0 (.proceed 0)),
    .env (.turns 0 .drainCheck), .env .boot,
    .call 2 (.statement .answered), .call 2 (.statement .answered), .finish 2,
    .call 3 (.statement .answered), .finish 3]

/-- The guard of the runs as a test on one call. -/
def handsOn (inputs : Fin 4 → InboundInput) (i : Fin 4) (call : InboundCall) (choice : InboundChoice)
    (s : InboundSys (Fin 4)) : Bool :=
  match call, choice with
  | .statement statement, .statement .answered =>
    statement.command?.all fun key => !s.store.current.commanded.contains key
  | .statement _, _ => false
  | .submit .., _ => (s.process (inputs i).gateway).all fun process => process.registry.accepting
  | .turn _, _ => true

theorem handover_admitted :
    Admitted (handedOn fun i => (inputs i).gateway) (start inputs) handover := by
  have hcheck : ∀ i call choice s, handsOn inputs i call choice s = true →
      (handedOn fun i => (inputs i).gateway).call i call choice s := by
    intro i call choice s hpass
    refine ⟨?_, ?_⟩
    · rintro statement ending rfl rfl _
      cases ending with
      | answered =>
        refine ⟨by simp [Ending.heard], ?_⟩
        intro key hkey
        simpa [handsOn, hkey] using hpass
      | refused | unheard | unfinished => simp [handsOn] at hpass
    · rintro conversationId key process rfl hprocess
      simpa [handsOn, hprocess] using hpass
  have henv : ∀ move, .env move ∈ handover → ∀ s,
      (handedOn fun i => (inputs i).gateway).env move s := by
    intro move hmove s
    refine ⟨?_, ?_⟩
    · rintro n statement rfl
      simp [handover] at hmove
    · rintro g process rfl
      simp [handover] at hmove
  have hpasses : (start inputs).passes (inboundSystem fun i => (inputs i).gateway)
      (handsOn inputs) handover = true := by
    decide +kernel
  exact Admitted.of_passes hcheck henv hpasses

/-- A message and a command, each delivered again on the next gateway. -/
def redelivered : Fin 4 → InboundInput
  | 0 => ⟨0, hello, conversationIds false⟩
  | 1 => ⟨1, hello, conversationIds false⟩
  | 2 => ⟨0, command, conversationIds false⟩
  | 3 => ⟨1, command, conversationIds true⟩

/-- The gateway shuts down between the insertion and the submission. -/
def refused : List (Event (Fin 4) InboundChoice GatewayMove) :=
  [.env .boot, .call 0 (.statement .answered), .env (.turns 0 .close), .call 0 .submitted,
    .finish 0, .env (.turns 0 .drainCheck), .env .boot,
    .call 1 (.statement .answered), .call 1 (.statement .answered), .finish 1]

end TestInbound

end PlusOne
