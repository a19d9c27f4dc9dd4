import PlusOne.Contracts.WorkingMemory
import PlusOne.Mutations.Repository

/-! # The taxonomy of working memory

What is fixed for each kind of entry, and the canonical form that entries are compared in. -/

namespace PlusOne

inductive ConflictPolicy
  | replace_candidate | show_both | manual_review
  deriving DecidableEq

structure WorkingMemoryKindPolicy where
  label : String
  preferredScopes : List MemoryScope
  conflictPolicy : ConflictPolicy
  reviewAfterDays : Option Nat

def workingMemoryKindPolicy : WorkingMemoryKind → WorkingMemoryKindPolicy
  | .member_context => ⟨"Member context", [.member], .replace_candidate, none⟩
  | .communication_preference =>
    ⟨"Communication preference", [.member, .household], .manual_review, some 180⟩
  | .saving_preference => ⟨"Saving preference", [.member, .household], .manual_review, some 180⟩
  | .goal => ⟨"Goal", [.member, .household], .show_both, some 90⟩
  | .convention => ⟨"Household convention", [.household], .manual_review, some 365⟩
  | .other => ⟨"Legacy memory", [.household, .member], .show_both, none⟩

/-- `workingMemoryScopePolicyIssue`, of which only the presence is read. -/
def workingMemoryScopePolicyIssue (kind : WorkingMemoryKind) (scope : MemoryScope) : Bool :=
  !(workingMemoryKindPolicy kind).preferredScopes.contains scope

/-! ## Values in order -/

/-- The entries of an object in the order of their sorted keys. -/
def sortFields {α : Type} (fields : List (String × α)) : List (String × α) :=
  fields.insertionSort fun field other => codeUnitLe field.1 other.1

/-- `JSON.stringify`; a collation that puts all keys level leaves them in their order. -/
def stringify (value : Json) : String := String.ofList (stableJson (fun _ _ => .eq) value)

def keyNotAllowed (key : String) : Thrown := .error ("Working Memory key is not allowed: " ++ key)

def canonicalField (field : String × Except Thrown Json) : Except Thrown (String × Json) :=
  field.2.map fun value => (field.1, value)

mutual

/-- The value with the keys of every object sorted; the first forbidden key in that order is
reported. -/
def canonicalizeWorkingMemoryValue : Json → Except Thrown Json
  | .arr items => (canonicalizeItems items).map Json.arr
  | .obj fields =>
    ((sortFields (canonicalizeFields fields)).mapM canonicalField).map Json.obj
  | .null => .ok .null
  | .bool b => .ok (.bool b)
  | .num n => .ok (.num n)
  | .str s => .ok (.str s)

def canonicalizeItems : List Json → Except Thrown (List Json)
  | [] => .ok []
  | item :: items => do
    let item ← canonicalizeWorkingMemoryValue item
    let items ← canonicalizeItems items
    return item :: items

def canonicalizeFields : List (String × Json) → List (String × Except Thrown Json)
  | [] => []
  | (key, value) :: fields =>
    (key, if dangerousWorkingMemoryKeys.contains key then .error (keyNotAllowed key)
      else canonicalizeWorkingMemoryValue value) :: canonicalizeFields fields

end

def ownerOrNull (ownerPrincipalRef : Option String) : Json := (ownerPrincipalRef.map .str).getD .null

def workingMemoryEntryFingerprint (P : Platform) (entry : WorkingMemoryEntry) :
    Except Thrown ArtifactHash := do
  let canonical ← canonicalizeWorkingMemoryValue (.obj [("kind", .str entry.kind.text),
    ("scope", .str entry.scope.text), ("ownerPrincipalRef", ownerOrNull entry.ownerPrincipalRef),
    ("value", entry.value)])
  return P.sha256 (stringify canonical)

end PlusOne
