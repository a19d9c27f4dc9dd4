import Mathlib.Data.List.Basic

/-! # Cutting a text

A reader goes through a text one element at a time and keeps a state. The text is cut at the
separators that the reader picks by the state it is in. -/

namespace Patterns

variable {α σ τ : Type} [DecidableEq α] (sep : α) (step : σ → α → σ) (picks : σ → Bool)

/-- The pieces between the cuts, of which `piece` is the one begun. -/
def cutBy : σ → List α → List α → List (List α)
  | _, piece, [] => [piece]
  | s, piece, c :: rest =>
      if c = sep ∧ picks s = true then piece :: cutBy (step s c) [] rest
      else cutBy (step s c) (piece ++ [c]) rest

variable {sep step picks} {s : σ} {piece text rest : List α} {c : α}

theorem cutBy_pick (h : picks s = true) :
    cutBy sep step picks s piece (sep :: rest) = piece :: cutBy sep step picks (step s sep) [] rest := by
  simp [cutBy, h]

theorem cutBy_pass (h : c = sep → picks s = false) :
    cutBy sep step picks s piece (c :: rest) = cutBy sep step picks (step s c) (piece ++ [c]) rest := by
  have hnot : ¬(c = sep ∧ picks s = true) := by
    rintro ⟨heq, hpick⟩
    simp [h heq] at hpick
  simp [cutBy, hnot]

theorem exists_cutBy_eq (sep : α) (step : σ → α → σ) (picks : σ → Bool) (piece text : List α) (s : σ) :
    ∃ more pieces, cutBy sep step picks s piece text = (piece ++ more) :: pieces := by
  induction text generalizing s piece with
  | nil => exact ⟨[], [], by simp [cutBy]⟩
  | cons c rest ih =>
    by_cases hpick : c = sep ∧ picks s = true
    · exact ⟨[], cutBy sep step picks (step s c) [] rest, by simp [cutBy, hpick]⟩
    · obtain ⟨more, pieces, hpieces⟩ := ih (piece ++ [c]) (step s c)
      exact ⟨c :: more, pieces, by simp [cutBy, hpick, hpieces]⟩

theorem cutBy_ne_cons {pieces : List (List α)} : cutBy sep step picks s (piece ++ [c]) text ≠ piece :: pieces := by
  intro heq
  obtain ⟨more, pieces', hpieces⟩ := exists_cutBy_eq sep step picks (piece ++ [c]) text s
  rw [hpieces] at heq
  have hlength := congrArg List.length (List.cons.inj heq).1
  simp at hlength

/-- The pieces joined at the separators are the text. -/
theorem intercalate_cutBy (piece text : List α) (s : σ) :
    [sep].intercalate (cutBy sep step picks s piece text) = piece ++ text := by
  induction text generalizing s piece with
  | nil => simp [cutBy, List.intercalate]
  | cons c rest ih =>
    by_cases hpick : c = sep ∧ picks s = true
    · obtain ⟨rfl, hpick⟩ := hpick
      have hrest := ih [] (step s c)
      obtain ⟨more, pieces, hpieces⟩ := exists_cutBy_eq c step picks [] rest (step s c)
      rw [hpieces] at hrest
      rw [cutBy_pick hpick, hpieces]
      simp only [List.intercalate, List.intersperse_cons_cons, List.flatten_cons] at hrest ⊢
      rw [hrest]
      simp
    · simp only [cutBy, hpick, if_false, ih]
      simp

/-- Two readers cut alike exactly if they pick the same separators. -/
theorem cutBy_eq_iff {step' : τ → α → τ} {picks' : τ → Bool} {t : τ} :
    cutBy sep step picks s piece text = cutBy sep step' picks' t piece text ↔
      ∀ before after, text = before ++ sep :: after →
        picks (before.foldl step s) = picks' (before.foldl step' t) := by
  induction text generalizing s t piece with
  | nil => simp [cutBy]
  | cons c rest ih =>
    have hrest : (∀ before after, c :: rest = before ++ sep :: after →
        picks (before.foldl step s) = picks' (before.foldl step' t)) ↔
        (c = sep → picks s = picks' t) ∧ ∀ before after, rest = before ++ sep :: after →
          picks (before.foldl step (step s c)) = picks' (before.foldl step' (step' t c)) := by
      constructor
      · intro h
        refine ⟨fun hc => h [] rest (by rw [hc, List.nil_append]), ?_⟩
        intro before after heq
        exact h (c :: before) after (by rw [heq, List.cons_append])
      · rintro ⟨hhead, htail⟩ before after heq
        cases before with
        | nil => exact hhead (List.cons.inj heq).1
        | cons d before =>
          obtain ⟨rfl, htext⟩ := List.cons.inj heq
          exact htail before after htext
    rw [hrest]
    by_cases hc : c = sep
    · subst hc
      cases hpick : picks s with
      | true =>
        cases hpick' : picks' t with
        | true => simp [cutBy_pick hpick, cutBy_pick hpick', ih]
        | false => simp [cutBy_pick hpick, cutBy_pass fun _ => hpick', cutBy_ne_cons.symm]
      | false =>
        cases hpick' : picks' t with
        | true => simp [cutBy_pick hpick', cutBy_pass fun _ => hpick, cutBy_ne_cons]
        | false => simp [cutBy_pass fun _ => hpick, cutBy_pass fun _ => hpick', ih]
    · rw [cutBy_pass fun h => absurd h hc, cutBy_pass fun h => absurd h hc, ih]
      simp [hc]

end Patterns
