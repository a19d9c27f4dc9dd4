import Mathlib.Data.List.Basic
import Mathlib.Data.List.Forall2

/-! # Texts told apart

Elements are written one after another, or between separators. Where each element can be
told from what follows it, so can the list. -/

namespace Coding

variable {α β : Type*}

/-- `a` and `b` written as the start of one list, each followed by something that may stand after an
element, are related, and the same follows. -/
def Decodes (Stop : List β → Prop) (R : α → α → Prop) (f : α → List β) (a b : α) : Prop :=
  ∀ x y, Stop x → Stop y → f a ++ x = f b ++ y → R a b ∧ x = y

/-! ## One after another -/

section

variable {f : α → List β}

/-- What is written up to an element that starts no other is read in one way. -/
theorem flatMap_append_cons_inj (hf : ∀ a b, Decodes (fun _ => True) Eq f a b) {close : β}
    (hclose : ∀ a, ∃ c rest, f a = c :: rest ∧ c ≠ close) {as bs : List α} {x y : List β}
    (h : as.flatMap f ++ close :: x = bs.flatMap f ++ close :: y) : as = bs ∧ x = y := by
  induction as generalizing bs with
  | nil =>
    cases bs with
    | nil => simpa using h
    | cons b bs =>
      obtain ⟨c, rest, hb, hc⟩ := hclose b
      simp only [List.flatMap_nil, List.nil_append, List.flatMap_cons, hb, List.cons_append,
        List.cons.injEq] at h
      exact absurd h.1.symm hc
  | cons a as ih =>
    cases bs with
    | nil =>
      obtain ⟨c, rest, ha, hc⟩ := hclose a
      simp only [List.flatMap_nil, List.nil_append, List.flatMap_cons, ha, List.cons_append,
        List.cons.injEq] at h
      exact absurd h.1 hc
    | cons b bs =>
      simp only [List.flatMap_cons, List.append_assoc] at h
      obtain ⟨rfl, hrest⟩ := hf a b _ _ trivial trivial h
      obtain ⟨rfl, hxy⟩ := ih hrest
      exact ⟨rfl, hxy⟩

theorem flatMap_injective (hf : ∀ a b, Decodes (fun _ => True) Eq f a b) (hne : ∀ a, f a ≠ []) :
    Function.Injective fun as : List α => as.flatMap f := by
  intro as bs h
  induction as generalizing bs with
  | nil =>
    cases bs with
    | nil => rfl
    | cons b bs =>
      have hnil : f b = [] := by
        simp only [List.flatMap_nil, List.flatMap_cons] at h
        exact (List.append_eq_nil_iff.1 h.symm).1
      exact absurd hnil (hne b)
  | cons a as ih =>
    cases bs with
    | nil =>
      have hnil : f a = [] := by
        simp only [List.flatMap_nil, List.flatMap_cons] at h
        exact (List.append_eq_nil_iff.1 h).1
      exact absurd hnil (hne a)
    | cons b bs =>
      simp only [List.flatMap_cons] at h
      obtain ⟨rfl, hrest⟩ := hf a b _ _ trivial trivial h
      rw [ih hrest]

end

/-! ## Up to what does not belong -/

/-- A run of elements with a property ends before the first that lacks it. -/
theorem takeWhile_append_stop {p : α → Bool} {run rest : List α} (hrun : run.all p = true)
    (hrest : ∀ c ∈ rest.head?, p c = false) :
    (run ++ rest).takeWhile p = run ∧ (run ++ rest).dropWhile p = rest := by
  have hall : ∀ c ∈ run, p c = true := List.all_eq_true.1 hrun
  have hstop : rest.takeWhile p = [] ∧ rest.dropWhile p = rest := by
    cases rest with
    | nil => simp
    | cons c cs =>
      have hc : p c = false := hrest c (by simp)
      simp [hc]
  constructor
  · rw [List.takeWhile_append_of_pos hall, hstop.1, List.append_nil]
  · rw [List.dropWhile_append_of_pos hall, hstop.2]

theorem append_inj_of_stop {p : α → Bool} {run run' rest rest' : List α} (hrun : run.all p = true)
    (hrun' : run'.all p = true) (hrest : ∀ c ∈ rest.head?, p c = false)
    (hrest' : ∀ c ∈ rest'.head?, p c = false) (h : run ++ rest = run' ++ rest') :
    run = run' ∧ rest = rest' := by
  obtain ⟨htake, hdrop⟩ := takeWhile_append_stop hrun hrest
  obtain ⟨htake', hdrop'⟩ := takeWhile_append_stop hrun' hrest'
  rw [h] at htake hdrop
  exact ⟨htake.symm.trans htake', hdrop.symm.trans hdrop'⟩

/-! ## Between separators -/

section

variable {Stop : List β → Prop} {R : α → α → Prop} {f : α → List β} {sep close : β}

/-- Elements between separators and up to a closing element are read one by one. -/
theorem intercalate_decodes (hne : sep ≠ close) (hsep : ∀ x, Stop (sep :: x))
    (hclose : ∀ x, Stop (close :: x)) (hstart : ∀ a, ∃ c rest, f a = c :: rest ∧ c ≠ close)
    {as bs : List α} (h : ∀ a ∈ as, ∀ b ∈ bs, Decodes Stop R f a b) {x y : List β}
    (heq : [sep].intercalate (as.map f) ++ close :: x = [sep].intercalate (bs.map f) ++ close :: y) :
    List.Forall₂ R as bs ∧ x = y := by
  -- no element is written as nothing, so that the lists end together
  have hnil : ∀ {cs : List α} {c : α} {u v : List β},
      close :: u ≠ [sep].intercalate ((c :: cs).map f) ++ close :: v := by
    intro cs c u v hu
    obtain ⟨d, rest, hd, hstartd⟩ := hstart c
    have hhead : [sep].intercalate ((c :: cs).map f) ++ close :: v =
        d :: (rest ++ (if cs = [] then [] else sep :: [sep].intercalate (cs.map f)) ++ close :: v) := by
      cases cs with
      | nil => simp [hd]
      | cons c' cs => simp [List.intercalate_cons_cons, hd]
    rw [hhead] at hu
    exact hstartd (List.cons.inj hu).1.symm
  induction as generalizing bs with
  | nil =>
    cases bs with
    | nil =>
      simp only [List.map_nil, List.intercalate_nil, List.nil_append, List.cons.injEq, true_and] at heq
      exact ⟨.nil, heq⟩
    | cons b bs => exact absurd heq hnil
  | cons a as ih =>
    cases bs with
    | nil => exact absurd heq.symm hnil
    | cons b bs =>
      have hab := h a (by simp) b (by simp)
      have hrest : ∀ a' ∈ as, ∀ b' ∈ bs, Decodes Stop R f a' b' :=
        fun a' ha' b' hb' => h a' (by simp [ha']) b' (by simp [hb'])
      cases as with
      | nil =>
        cases bs with
        | nil =>
          simp only [List.map_cons, List.map_nil, List.intercalate_singleton] at heq
          obtain ⟨hR, hxy⟩ := hab _ _ (hclose x) (hclose y) heq
          exact ⟨.cons hR .nil, (List.cons.inj hxy).2⟩
        | cons b' bs =>
          simp only [List.map_cons, List.map_nil, List.intercalate_singleton,
            List.intercalate_cons_cons, List.append_assoc, List.singleton_append] at heq
          obtain ⟨-, hxy⟩ := hab _ _ (hclose x) (hsep _) heq
          exact absurd (List.cons.inj hxy).1 hne.symm
      | cons a' as =>
        cases bs with
        | nil =>
          simp only [List.map_cons, List.map_nil, List.intercalate_singleton,
            List.intercalate_cons_cons, List.append_assoc, List.singleton_append] at heq
          obtain ⟨-, hxy⟩ := hab _ _ (hsep _) (hclose y) heq
          exact absurd (List.cons.inj hxy).1 hne
        | cons b' bs =>
          simp only [List.map_cons, List.intercalate_cons_cons, List.append_assoc,
            List.singleton_append] at heq
          obtain ⟨hR, hxy⟩ := hab _ _ (hsep _) (hsep _) heq
          have htail := (List.cons.inj hxy).2
          obtain ⟨hforall, hends⟩ := ih hrest htail
          exact ⟨.cons hR hforall, hends⟩

end

end Coding
