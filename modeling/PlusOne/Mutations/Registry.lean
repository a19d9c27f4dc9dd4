import PlusOne.Database.Errors
import PlusOne.Database.Session

/-! # Handlers and the command registry -/

namespace PlusOne

open Interleaving

/-- Code of the mutation path: a program over the calls of `Session`. -/
abbrev Program (α : Type) := Prog Call Reply Thrown α

def issue (call : Call) : Program (Reply call) := .perform call

def Layer.wrap : Layer → Thrown → Thrown
  | raw, error => error
  | accounting, error => .plusOne (normalizeAccountingError error)

/-- A handler's own code: statements one after the other, each depending on the rows before it.
No handler catches the error of a statement, so an error leaves through its layer. -/
inductive HandlerBody (α : Type)
  | done (output : α)
  | fail (error : Thrown)
  | query (layer : Layer) (statement : Query) (k : List Json → HandlerBody α)

namespace HandlerBody

variable {α : Type}

/-- The handler on the client of the runner. -/
def onClient : HandlerBody α → Program α
  | done output => .ret output
  | fail error => (issue (.handlerThrow error)).bind fun _ => .throw error
  | query layer statement k =>
    ((issue (.statement layer statement)).tryCatch fun error =>
      .throw (layer.wrap error)).bind fun rows => (k rows).onClient

/-- The handler on a client for reading back. -/
def onReadClient : HandlerBody α → Program α
  | done output => .ret output
  | fail error => .throw error
  | query layer statement k =>
    ((issue (.readQuery statement)).tryCatch fun error =>
      .throw (layer.wrap error)).bind fun rows => (k rows).onReadClient

end HandlerBody

structure MutationExecutionOutput where
  committedRecords : List CommittedRecordReference
  expectedState : Json
  deriving DecidableEq

structure DomainReadbackOutput where
  checks : List ReadbackCheck
  mismatches : List String
  observedState : Json

structure MutationCommandHandler extends HandlerIdentity where
  inputSchema : Json → Option Json
  requiredReadbackChecks : List ReadbackCheckKind
  execute : Json → CheckedCommand → HandlerBody MutationExecutionOutput
  readback : Json → MutationReceipt → HandlerBody DomainReadbackOutput

/-- The handlers a registry was built from: one for each command type, and each of them reads the
receipt back. -/
structure CommandRegistry where
  handlers : List MutationCommandHandler
  distinct : (handlers.map fun handler => handler.commandType).Nodup
  receipts : ∀ handler ∈ handlers, .idempotency_receipt ∈ handler.requiredReadbackChecks

structure PreparedCommand where
  handler : MutationCommandHandler
  input : Json

namespace CommandRegistry

def find (registry : CommandRegistry) (commandType : String) : Option MutationCommandHandler :=
  registry.handlers.find? fun handler => handler.commandType == commandType

def notAllowlisted (commandType : String) : PlusOneError :=
  { category := .policy_rejected
    code := "mutation_command_not_allowlisted"
    message := "Mutation command type is not allowlisted"
    retry := .never
    receiptLookupRequired := false
    details := [("commandType", .text commandType)] }

def schemaIdentityMismatch (commandType : String) : PlusOneError :=
  { category := .validation_rejected
    code := "mutation_command_schema_identity_mismatch"
    message := "Command payload schema identity does not match its registered handler"
    retry := .never
    receiptLookupRequired := false
    details := [("commandType", .text commandType)] }

def externalConfirmationRequired (commandType : String) : PlusOneError :=
  { category := .confirmation_required
    code := "external_confirmation_required"
    message := "This mutation command requires an external confirmation reference"
    retry := .after_state_resolution
    receiptLookupRequired := false
    details := [("commandType", .text commandType)] }

def unexpectedConfirmation (commandType : String) : PlusOneError :=
  { category := .validation_rejected
    code := "unexpected_confirmation_reference"
    message := "This mutation command does not accept a confirmation reference"
    retry := .never
    receiptLookupRequired := false
    details := [("commandType", .text commandType)] }

def prepare (registry : CommandRegistry) (command : CheckedCommand) :
    Except Thrown PreparedCommand :=
  match registry.find command.commandType with
  | none => .error (.plusOne (notAllowlisted command.commandType))
  | some handler =>
    if handler.inputSchemaIdentity ≠ command.payloadSchema then
      .error (.plusOne (schemaIdentityMismatch command.commandType))
    else if handler.confirmation = .required ∧ command.confirmationId = none then
      .error (.plusOne (externalConfirmationRequired command.commandType))
    else if handler.confirmation = .forbidden ∧ command.confirmationId ≠ none then
      .error (.plusOne (unexpectedConfirmation command.commandType))
    else
      match handler.inputSchema command.payload with
      | some input => .ok { handler, input }
      | none => .error .zodError

/-- What a successful `prepare` has checked. -/
theorem prepare_ok {registry : CommandRegistry} {command : CheckedCommand}
    {prepared : PreparedCommand} (h : registry.prepare command = .ok prepared) :
    prepared.handler ∈ registry.handlers ∧
      prepared.handler.commandType = command.commandType ∧
      prepared.handler.inputSchemaIdentity = command.payloadSchema ∧
      (prepared.handler.confirmation = .required → command.confirmationId ≠ none) ∧
      (prepared.handler.confirmation = .forbidden → command.confirmationId = none) ∧
      prepared.handler.inputSchema command.payload = some prepared.input := by
  unfold prepare at h
  cases hfind : registry.find command.commandType with
  | none => simp [hfind] at h
  | some handler =>
    have hmem := List.mem_of_find?_eq_some hfind
    have htype : handler.commandType = command.commandType := by
      simpa using List.find?_some hfind
    simp only [hfind] at h
    split_ifs at h with hschema hrequired hforbidden
    cases hinput : handler.inputSchema command.payload with
    | none => simp [hinput] at h
    | some input =>
      simp only [hinput, Except.ok.injEq] at h
      subst h
      exact ⟨hmem, htype, not_not.1 hschema, fun hr hn => hrequired ⟨hr, hn⟩,
        fun hf => not_not.1 fun hn => hforbidden ⟨hf, hn⟩, hinput⟩

end CommandRegistry

end PlusOne
