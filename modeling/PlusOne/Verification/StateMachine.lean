import PlusOne.Contracts.Errors
import PlusOne.Database.Tables
import PlusOne.Mutations.Resolver

/-! # The state machine of verification tasks -/

namespace PlusOne

/-- The table `allowed`. -/
def allowedTargets : TaskStatus → List TaskStatus
  | .created => [.skill_selected, .failed]
  | .skill_selected => [.maker_running, .failed]
  | .maker_running => [.maker_validated, .failed]
  | .maker_validated => [.checker_running, .failed]
  | .checker_running => [.checker_validated, .failed]
  | .checker_validated =>
    [.verified, .partialResult, .insufficient_evidence, .conflicted, .failed, .revision_requested,
      .execution_pending]
  | .revision_requested => [.maker_running, .failed]
  | .execution_pending => [.committed, .execution_failed]
  | .committed => [.readback_verified, .readback_failed]
  | .readback_verified => [.verified]
  | .execution_failed | .readback_failed | .verified | .partialResult | .insufficient_evidence
  | .conflicted | .failed => []

def isAllowedTransition (source target : TaskStatus) : Bool :=
  (allowedTargets source).contains target

def invalidTransition (source target : TaskStatus) : PlusOneError :=
  { category := .constraint_violation
    code := "invalid_task_transition"
    message := "Invalid task transition " ++ source.text ++ " -> " ++ target.text
    retry := .never
    receiptLookupRequired := false
    details := [("from", .text source.text), ("to", .text target.text)] }

def assertAllowedTransition (source target : TaskStatus) : Except Thrown Unit :=
  if isAllowedTransition source target then .ok ()
  else .error (.plusOne (invalidTransition source target))

/-- `isAllowedTransition` as a relation. -/
def AllowedTransition (source target : TaskStatus) : Prop :=
  isAllowedTransition source target = true

instance : DecidableRel AllowedTransition := fun _ _ => inferInstanceAs (Decidable (_ = true))

theorem assertAllowedTransition_ok {source target : TaskStatus} {u : Unit}
    (h : assertAllowedTransition source target = .ok u) : AllowedTransition source target := by
  unfold assertAllowedTransition at h
  split at h
  · assumption
  · cases h

theorem isTerminalStatus_eq (status : TaskStatus) :
    Db.isTerminalStatus status = (allowedTargets status).isEmpty := by
  cases status <;> rfl

theorem isTerminalStatus_iff {status : TaskStatus} :
    Db.isTerminalStatus status = true ↔ ∀ target, ¬ AllowedTransition status target := by
  rw [isTerminalStatus_eq, List.isEmpty_iff]
  simp only [AllowedTransition, isAllowedTransition, List.contains_iff_mem]
  exact List.eq_nil_iff_forall_not_mem

theorem AllowedTransition.not_terminal {source target : TaskStatus}
    (h : AllowedTransition source target) : Db.isTerminalStatus source = false := by
  by_contra hterminal
  exact isTerminalStatus_iff.1 (Bool.eq_true_of_not_eq_false hterminal) target h

end PlusOne
