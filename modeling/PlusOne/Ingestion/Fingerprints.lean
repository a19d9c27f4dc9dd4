import Mathlib.Data.Set.Function
import PlusOne.Runtime.CanonicalJson

/-! # Fingerprints of imported rows

`DuplicateMatcher.exactFingerprint`, by which a row that was imported before is recognised. -/

namespace PlusOne

/-! ## The code -/

/-- The input of `exactFingerprint`. -/
structure FingerprintInput where
  householdId : String
  sourceAccountId : String
  sourceSystem : String
  externalTransactionId : Option String
  sourceDocumentHash : String
  sourceRowIdentity : String
  rawPayload : Json
  payload_keyed : rawPayload.keyed = true

inductive FingerprintKind
  | stable_external_id | source_row_fallback

structure ExactFingerprint where
  kind : FingerprintKind
  hash : ArtifactHash

namespace DuplicateMatcher

variable (P : Platform)

def digest (parts : List Json) : ArtifactHash := P.sha256 (P.canonicalize (.arr parts))

/-- The parts that are hashed. -/
def parts (input : FingerprintInput) : List Json :=
  match input.externalTransactionId with
  | none => [.str input.householdId, .str input.sourceAccountId, .str input.sourceSystem,
      .str input.sourceDocumentHash, .str input.sourceRowIdentity, input.rawPayload]
  | some externalTransactionId => [.str input.householdId, .str input.sourceAccountId,
      .str input.sourceSystem, .str externalTransactionId]

def exactFingerprint (input : FingerprintInput) : ExactFingerprint :=
  { kind := if input.externalTransactionId.isNone then .source_row_fallback else .stable_external_id
    hash := digest P (parts input) }

end DuplicateMatcher

/-! ## What is told apart -/

def SameScope (left right : FingerprintInput) : Prop :=
  left.householdId = right.householdId ∧ left.sourceAccountId = right.sourceAccountId ∧
    left.sourceSystem = right.sourceSystem

/-- Two inputs are of one source transaction, or of one row of one document. -/
def SameSource (left right : FingerprintInput) : Prop :=
  (∃ externalTransactionId, left.externalTransactionId = some externalTransactionId ∧
    right.externalTransactionId = some externalTransactionId ∧ SameScope left right) ∨
  (left.externalTransactionId = none ∧ right.externalTransactionId = none ∧ SameScope left right ∧
    left.sourceDocumentHash = right.sourceDocumentHash ∧
    left.sourceRowIdentity = right.sourceRowIdentity ∧
    sameJson left.rawPayload right.rawPayload = true)

namespace DuplicateMatcher

theorem keyed_parts (input : FingerprintInput) : (Json.arr (parts input)).keyed = true := by
  rw [Json.keyed_arr]
  intro part hpart
  unfold parts at hpart
  split at hpart
  · simp only [List.mem_cons, List.not_mem_nil, or_false] at hpart
    rcases hpart with rfl | rfl | rfl | rfl | rfl | rfl
    all_goals first
      | rfl
      | exact input.payload_keyed
  · simp only [List.mem_cons, List.not_mem_nil, or_false] at hpart
    rcases hpart with rfl | rfl | rfl | rfl <;> rfl

/-- The parts are the same only when the inputs are of one source. -/
theorem sameJson_parts_iff {left right : FingerprintInput} :
    sameJson (.arr (parts left)) (.arr (parts right)) = true ↔ SameSource left right := by
  unfold parts SameSource SameScope
  cases hleft : left.externalTransactionId with
  | none =>
    cases hright : right.externalTransactionId with
    | none => simp [sameJson, sameItems, and_assoc]
    | some externalTransactionId => simp [sameJson, sameItems]
  | some externalTransactionId =>
    cases hright : right.externalTransactionId with
    | none => simp [sameJson, sameItems]
    | some other =>
      simp only [sameJson, sameItems, Bool.and_eq_true, beq_iff_eq, and_true, Option.some.injEq,
        reduceCtorEq, false_and, or_false]
      constructor
      · rintro ⟨hhousehold, haccount, hsystem, hid⟩
        exact ⟨other, hid, rfl, hhousehold, haccount, hsystem⟩
      · rintro ⟨_, rfl, rfl, hhousehold, haccount, hsystem⟩
        exact ⟨hhousehold, haccount, hsystem, rfl⟩

theorem kind_eq_of_sameSource {P : Platform} {left right : FingerprintInput}
    (h : SameSource left right) : (exactFingerprint P left).kind = (exactFingerprint P right).kind := by
  rcases h with ⟨externalTransactionId, hleft, hright, -⟩ | ⟨hleft, hright, -⟩
  · simp [exactFingerprint, hleft, hright]
  · simp [exactFingerprint, hleft, hright]

/-- Where no two of the texts that are hashed collide, the fingerprints of two inputs are equal, and so
are their hashes, exactly when the inputs are of one source. -/
theorem exactFingerprint_eq_iff (P : Platform)
    (hcanonicalize : ∀ value : Json, value.keyed = true → P.canonicalize value = canonicalText value)
    (left right : FingerprintInput)
    (hsha256 : Set.InjOn P.sha256
      {P.canonicalize (.arr (parts left)), P.canonicalize (.arr (parts right))}) :
    (exactFingerprint P left = exactFingerprint P right ↔ SameSource left right) ∧
      ((exactFingerprint P left).hash = (exactFingerprint P right).hash ↔ SameSource left right) := by
  have hhash : (exactFingerprint P left).hash = (exactFingerprint P right).hash ↔
      SameSource left right := by
    calc (exactFingerprint P left).hash = (exactFingerprint P right).hash
        ↔ P.canonicalize (.arr (parts left)) = P.canonicalize (.arr (parts right)) :=
          hsha256.eq_iff (by simp) (by simp)
      _ ↔ canonicalText (.arr (parts left)) = canonicalText (.arr (parts right)) := by
          rw [hcanonicalize _ (keyed_parts left), hcanonicalize _ (keyed_parts right)]
      _ ↔ sameJson (.arr (parts left)) (.arr (parts right)) = true :=
          canonicalText_eq_iff (keyed_parts left) (keyed_parts right)
      _ ↔ SameSource left right := sameJson_parts_iff
  refine ⟨?_, hhash⟩
  constructor
  · intro h
    exact hhash.1 (congrArg ExactFingerprint.hash h)
  · intro h
    have hkind := @kind_eq_of_sameSource P left right h
    have hhash := hhash.2 h
    cases hl : exactFingerprint P left
    cases hr : exactFingerprint P right
    simp_all

end DuplicateMatcher

namespace TestFingerprint

def row (rawPayload : List (String × Json)) (h : (Json.obj rawPayload).keyed = true) : FingerprintInput where
  householdId := "hh_1"
  sourceAccountId := "account_1"
  sourceSystem := "bank"
  externalTransactionId := none
  sourceDocumentHash := "aaaaaaaaaaaaaaaaaaaaaaaaaaaaaaaaaaaaaaaaaaaaaaaaaaaaaaaaaaaaaaaa"
  sourceRowIdentity := "row-1"
  rawPayload := .obj rawPayload
  payload_keyed := h

def one : FingerprintInput := row [("b", .ofNat 2), ("a", .ofNat 1)] (by decide)

def two : FingerprintInput := row [("a", .ofNat 1), ("b", .ofNat 2)] (by decide)

def hash : ArtifactHash :=
  ⟨"6d46bae395fe673266802fb29c35cc6e50f778a7db545ce0d81b5f134c0c105d", by decide⟩

/-- The platform on the text of these rows. -/
def platform : Platform where
  canonicalize := canonicalText
  sha256 _ := hash
  localeCompare key other := codeUnitCompare key other
  jsonIn _ := none

open DuplicateMatcher

theorem one_two_same : exactFingerprint platform one = exactFingerprint platform two := by
  have hparts : canonicalText (.arr (parts one)) = canonicalText (.arr (parts two)) := by decide +kernel
  have hsha256 : Set.InjOn platform.sha256
      {platform.canonicalize (.arr (parts one)), platform.canonicalize (.arr (parts two))} := by
    have hsingle : platform.canonicalize (.arr (parts one)) = platform.canonicalize (.arr (parts two)) := hparts
    rw [hsingle]
    simp
  have hsame : SameSource one two := by
    have hpayload : sameJson one.rawPayload two.rawPayload = true := by decide +kernel
    exact Or.inr ⟨rfl, rfl, ⟨rfl, rfl, rfl⟩, rfl, rfl, hpayload⟩
  exact (exactFingerprint_eq_iff platform (fun _ _ => rfl) one two hsha256).1.2 hsame

end TestFingerprint

end PlusOne
