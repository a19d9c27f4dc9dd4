import PlusOne.Memory.Document

/-! # The prompt projection and the review of working memory -/

namespace PlusOne

/-! ## The prompt -/

structure PromptEntry where
  kind : WorkingMemoryKind
  label : String
  scope : MemoryScope
  summary : String
  value : Json

structure PromptProjection where
  household : List PromptEntry
  member : List PromptEntry

def projectWorkingMemoryForPrompt {T : TimeFormats} (document : FlexibleWorkingMemory T)
    (principalRef : String) : PromptProjection :=
  let entries := (visibleWorkingMemoryEntries document principalRef).map fun entry =>
    ({ kind := entry.kind, label := (workingMemoryKindPolicy entry.kind).label, scope := entry.scope
       summary := entry.summary, value := entry.value } : PromptEntry)
  { household := entries.filter fun entry => entry.scope == .household
    member := entries.filter fun entry => entry.scope == .member }

/-! ## Findings -/

inductive FindingCategory
  | duplicate | contradiction | scope_mismatch | stale
  deriving DecidableEq

/-- `categoryOrder` -/
def FindingCategory.order : FindingCategory → Nat
  | duplicate => 0
  | contradiction => 1
  | scope_mismatch => 2
  | stale => 3

inductive ProposedOperation
  | none | replace | delete
  deriving DecidableEq

/-- A finding without the revision it is bound to. -/
structure Observation where
  category : FindingCategory
  entryIds : List WorkingMemoryEntryId
  explanation : String
  proposedOperation : ProposedOperation
  deriving DecidableEq

structure ReviewFinding extends Observation where
  basedOnRevision : ArtifactHash
  deriving DecidableEq

structure ReviewReport where
  revision : ArtifactHash
  reviewedAt : String
  findings : List ReviewFinding

/-- What the review takes from the JavaScript engine: `Array.prototype.sort` with a comparison, which
need not be an order. -/
structure ReviewEngine extends Platform where
  sort : (α : Type) → (α → α → Ordering) → List α → List α

abbrev ReviewEntry := WorkingMemoryEntryId × WorkingMemoryEntry

section Review

variable (T : TimeFormats) (E : ReviewEngine)

/-- `left <= right` on two results of `Date.parse`, of which none is `NaN`. -/
def instantLe (left right : Option Int) : Bool :=
  match left, right with
  | some left, some right => decide (left ≤ right)
  | _, _ => false

def isStale (entry : WorkingMemoryEntry) (now : String) : Bool :=
  match entry.lifecycle with
  | none => false
  | some lifecycle =>
    lifecycle.expiresAt.any (fun expiresAt => instantLe (T.dateParse expiresAt) (T.dateParse now)) ||
      match (workingMemoryKindPolicy entry.kind).reviewAfterDays with
      | none => false
      | some days =>
        let reference := lifecycle.lastReviewedAt.getD lifecycle.updatedAt
        instantLe ((T.dateParse reference).map fun time => time + days * 86400000) (T.dateParse now)

def createdAt (item : ReviewEntry) : Option String :=
  item.2.lifecycle.map WorkingMemoryLifecycle.createdAt

/-- `compareEntryAge`; a difference that is not a number counts as none. -/
def compareEntryAge (left right : ReviewEntry) : Ordering :=
  let byId := E.localeCompare left.1.text right.1.text
  match createdAt left, createdAt right with
  | some leftCreated, some rightCreated =>
    match T.dateParse leftCreated, T.dateParse rightCreated with
    | some leftTime, some rightTime => (compare leftTime rightTime).then byId
    | _, _ => .eq
  | _, _ => byId

/-- `sortJson` leaves forbidden keys in, unlike the canonical form. -/
def sortJson : Json → Json := sorted
where
  sorted : Json → Json
    | .arr items => .arr (sortedItems items)
    | .obj fields => .obj (sortFields (sortedFields fields))
    | .null => .null
    | .bool b => .bool b
    | .num n => .num n
    | .str s => .str s
  sortedItems : List Json → List Json
    | [] => []
    | item :: items => sorted item :: sortedItems items
  sortedFields : List (String × Json) → List (String × Json)
    | [] => []
    | (key, value) :: fields => (key, sorted value) :: sortedFields fields

def sameCanonicalValue (left right : Json) : Bool :=
  stringify left == stringify right || stringify (sortJson left) == stringify (sortJson right)

def differingObjectFields : Json → Json → List String
  | .obj left, .obj right =>
    sortTexts ((left.filter fun field =>
      match (Json.obj right).field? field.1 with
      | some value => !sameCanonicalValue field.2 value
      | none => false).map Prod.fst)
  | _, _ => []

/-- The observations on one entry alone. -/
def reviewEntry (now : String) (item : ReviewEntry) : List Observation :=
  let label := (workingMemoryKindPolicy item.2.kind).label
  (if workingMemoryScopePolicyIssue item.2.kind item.2.scope then
    [⟨.scope_mismatch, [item.1], label ++ " is stored with an incompatible scope.", .none⟩] else []) ++
  if isStale T item.2 now then
    [⟨.stale, [item.1],
      label ++ " should be reviewed because its lifecycle or review interval is due.", .none⟩] else []

/-- A map from keys to the entries that have them, the keys in order of insertion. -/
def groupBy {K : Type} [DecidableEq K] (key : ReviewEntry → K) (items : List ReviewEntry) :
    List (List ReviewEntry) :=
  (items.map key).eraseDups.map fun k => items.filter fun item => key item = k

/-- `ordered[0]` was created before `ordered[1]`, and both say when. -/
def unambiguousOlder : List ReviewEntry → Bool
  | first :: second :: _ =>
    match createdAt first, createdAt second with
    | some firstCreated, some secondCreated =>
      match T.dateParse firstCreated, T.dateParse secondCreated with
      | some firstTime, some secondTime => decide (firstTime < secondTime)
      | _, _ => false
    | _, _ => false
  | _ => false

def duplicateObservation (group : List ReviewEntry) : List Observation :=
  if group.length < 2 then []
  else
    let ordered := E.sort ReviewEntry (compareEntryAge T E) group
    [⟨.duplicate, (ordered.take 10).map Prod.fst,
      "These Working Memory entries contain the same canonical fact.",
      if unambiguousOlder T ordered then .delete else .none⟩]

def sortIds (ids : List WorkingMemoryEntryId) : List WorkingMemoryEntryId :=
  ids.insertionSort fun id other => codeUnitLe id.text other.text

def contradictionObservation (kind : WorkingMemoryKind) (first second : ReviewEntry) : List Observation :=
  let policy := workingMemoryKindPolicy kind
  if sameCanonicalValue first.2.value second.2.value then []
  else
    let fields := differingObjectFields first.2.value second.2.value
    if fields.isEmpty ∧ policy.conflictPolicy ≠ .manual_review then []
    else [⟨.contradiction, sortIds [first.1, second.1],
      if fields.isEmpty then policy.label ++ " has multiple active values that require a manual choice."
      else policy.label ++ " entries disagree on " ++ ", ".intercalate fields ++ ".", .none⟩]

/-- Every pair of a group, the left one first. -/
def contradictionsIn (kind : WorkingMemoryKind) : List ReviewEntry → List Observation
  | [] => []
  | first :: rest =>
    rest.flatMap (contradictionObservation kind first) ++ contradictionsIn kind rest

def identityContradictions (group : List ReviewEntry) : List Observation :=
  match group with
  | [] => []
  | head :: _ => contradictionsIn head.2.kind group

def identityOf (item : ReviewEntry) : WorkingMemoryKind × MemoryScope × Option String :=
  (item.2.kind, item.2.scope, item.2.ownerPrincipalRef)

/-- `entryIds.join(',')` -/
def joinIds (ids : List WorkingMemoryEntryId) : String := ",".intercalate (ids.map OpaqueId.text)

def compareFindings (left right : Observation) : Ordering :=
  (compare left.category.order right.category.order).then
    (E.localeCompare (joinIds left.entryIds) (joinIds right.entryIds))

/-- The observations on the entries a principal may access, in the order of the report. -/
def observe (visible : List ReviewEntry) (now : String) : Except Thrown (List Observation) := do
  let fingerprints ← visible.mapM fun item => workingMemoryEntryFingerprint E.toPlatform item.2
  let fingerprintOf (item : ReviewEntry) : Option ArtifactHash :=
    ((visible.zip fingerprints).find? fun pair => pair.1.1 == item.1).map Prod.snd
  let observations := visible.flatMap (reviewEntry T now) ++
    (groupBy fingerprintOf visible).flatMap (duplicateObservation T E) ++
    (groupBy identityOf visible).flatMap identityContradictions
  return (E.sort Observation (compareFindings E) observations).take 50

/-- `WorkingMemoryReviewFindingSchema` on an observation. -/
def Observation.valid (observation : Observation) : Bool :=
  decide (1 ≤ observation.entryIds.length) && decide (observation.entryIds.length ≤ 10) &&
    lengthBetween 1 1000 (trim observation.explanation)

def Observation.trimmed (observation : Observation) : Observation :=
  { observation with explanation := trim observation.explanation }

/-- `reviewWorkingMemoryDocument` -/
def reviewWorkingMemoryDocument (document : FlexibleWorkingMemory T) (principalRef now : String) :
    Except Thrown ReviewReport := do
  let revision := workingMemoryRevision E.toPlatform document
  let observations ← observe T E (document.accessible principalRef) now
  if observations.all Observation.valid && T.isUtcInstant now then
    return { revision, reviewedAt := now
             findings := observations.map fun observation =>
               { toObservation := observation.trimmed, basedOnRevision := revision } }
  else throw .zodError

end Review

end PlusOne
