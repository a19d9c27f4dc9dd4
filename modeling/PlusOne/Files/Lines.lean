import Mathlib.Data.List.Infix

/-! # Lines

A text is lines that an end mark closes, and what follows the last of them. -/

namespace Files

variable {α : Type} [DecidableEq α]

/-- The lines that `mark` closes, without it, the first of them after what is already `begun`; and what no
mark closes. -/
def cutLines (mark : α) : List α → List α → List (List α) × List α
  | begun, [] => ([], begun)
  | begun, c :: text =>
    if c = mark then
      let later := cutLines mark [] text
      (begun :: later.1, later.2)
    else cutLines mark (begun ++ [c]) text

/-- The lines of a text that are closed. -/
def wholeLines (mark : α) (text : List α) : List (List α) := (cutLines mark [] text).1

/-- What follows the last mark. -/
def unfinished (mark : α) (text : List α) : List α := (cutLines mark [] text).2

/-- The pieces between the marks. -/
def splitLines (mark : α) (text : List α) : List (List α) := wholeLines mark text ++ [unfinished mark text]

variable {mark : α} {begun text more line : List α}

theorem cutLines_append : cutLines mark begun (text ++ more) =
    ((cutLines mark begun text).1 ++ (cutLines mark (cutLines mark begun text).2 more).1,
      (cutLines mark (cutLines mark begun text).2 more).2) := by
  induction text generalizing begun with
  | nil => rfl
  | cons c text ih =>
    by_cases hc : c = mark
    · simp [cutLines, hc, ih]
    · simp [cutLines, hc, ih]

theorem cutLines_of_notMem (h : mark ∉ text) : cutLines mark begun text = ([], begun ++ text) := by
  induction text generalizing begun with
  | nil => simp [cutLines]
  | cons c text ih =>
    have hc : c ≠ mark := fun hc => h (by simp [hc])
    have htext : mark ∉ text := fun hmem => h (by simp [hmem])
    simp [cutLines, hc, ih htext]

theorem cutLines_line (h : mark ∉ line) : cutLines mark begun (line ++ mark :: text) =
    ((begun ++ line) :: (cutLines mark [] text).1, (cutLines mark [] text).2) := by
  rw [cutLines_append, cutLines_of_notMem h]
  simp [cutLines]

theorem notMem_cutLines (h : mark ∉ begun) : mark ∉ (cutLines mark begun text).2 := by
  induction text generalizing begun with
  | nil => exact h
  | cons c text ih =>
    by_cases hc : c = mark
    · simpa [cutLines, hc] using @ih [] (by simp)
    · simpa [cutLines, hc] using @ih (begun ++ [c]) (by simp [h, Ne.symm hc])

@[simp] theorem wholeLines_nil : wholeLines mark ([] : List α) = [] := rfl

@[simp] theorem unfinished_nil : unfinished mark ([] : List α) = [] := rfl

theorem wholeLines_prefix : wholeLines mark text <+: wholeLines mark (text ++ more) := by
  rw [wholeLines, wholeLines, cutLines_append]
  exact List.prefix_append _ _

theorem wholeLines_append (h : unfinished mark text = []) :
    wholeLines mark (text ++ more) = wholeLines mark text ++ wholeLines mark more := by
  rw [unfinished] at h
  rw [wholeLines, wholeLines, wholeLines, cutLines_append, h]

theorem unfinished_append (h : unfinished mark text = []) :
    unfinished mark (text ++ more) = unfinished mark more := by
  rw [unfinished] at h
  rw [unfinished, unfinished, cutLines_append, h]

theorem wholeLines_cons_line (h : mark ∉ line) :
    wholeLines mark (line ++ mark :: text) = line :: wholeLines mark text := by
  rw [wholeLines, cutLines_line h, wholeLines, List.nil_append]

theorem unfinished_cons_line (h : mark ∉ line) : unfinished mark (line ++ mark :: text) = unfinished mark text := by
  rw [unfinished, cutLines_line h, unfinished]

@[simp] theorem wholeLines_line (h : mark ∉ line) : wholeLines mark (line ++ [mark]) = [line] :=
  wholeLines_cons_line h

@[simp] theorem unfinished_line (h : mark ∉ line) : unfinished mark (line ++ [mark]) = [] :=
  unfinished_cons_line h

/-- Closed lines, one after the other. -/
def joinLines (mark : α) (lines : List (List α)) : List α := lines.flatMap fun line => line ++ [mark]

theorem wholeLines_joinLines {lines : List (List α)} (h : ∀ line ∈ lines, mark ∉ line) :
    wholeLines mark (joinLines mark lines) = lines ∧ unfinished mark (joinLines mark lines) = [] := by
  induction lines with
  | nil => exact ⟨rfl, rfl⟩
  | cons line lines ih =>
    obtain ⟨hwhole, hrest⟩ := ih fun l hl => h l (by simp [hl])
    have hline := h line (by simp)
    rw [joinLines, List.flatMap_cons, List.append_assoc, List.singleton_append, wholeLines_cons_line hline,
      unfinished_cons_line hline]
    exact ⟨by rw [← joinLines, hwhole], hrest⟩

end Files
