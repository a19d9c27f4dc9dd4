import PlusOne.Relational.Sums

/-! # Joins

The inner join of two tables on a condition. A right row comes out as often as left rows meet it, so
an aggregate of the right rows over the join counts each of them that often. -/

namespace Relational

variable {A B K M : Type*}

/-- `left JOIN right ON condition` -/
def join (on : A → B → Bool) (left : List A) (right : List B) : List (A × B) :=
  left.flatMap fun a => (right.filter (on a)).map fun b => (a, b)

section Join

variable {on : A → B → Bool} {left : List A} {right : List B}

@[simp] theorem join_nil : join on [] right = [] := rfl

theorem join_cons {a : A} : join on (a :: left) right = (right.filter (on a)).map (fun b => (a, b)) ++ join on left right :=
  rfl

theorem mem_join {a : A} {b : B} : (a, b) ∈ join on left right ↔ a ∈ left ∧ b ∈ right ∧ on a b = true := by
  unfold join
  simp only [List.mem_flatMap, List.mem_map, List.mem_filter, Prod.mk.injEq]
  constructor
  · rintro ⟨a', ha, b', ⟨hb, hon⟩, rfl, rfl⟩
    exact ⟨ha, hb, hon⟩
  · rintro ⟨ha, hb, hon⟩
    exact ⟨a, ha, b, ⟨hb, hon⟩, rfl, rfl⟩

/-- A condition on the joined rows that only one right row can meet counts left rows. -/
theorem countP_join {pred : A × B → Bool} {b : B} (hright : right.Nodup) (hb : b ∈ right)
    (honly : ∀ a ∈ left, ∀ other ∈ right, on a other = true → pred (a, other) = true → other = b) :
    (join on left right).countP pred = left.countP fun a => on a b && pred (a, b) := by
  classical
  induction left with
  | nil => rfl
  | cons a left ih =>
    have hrest := ih fun a' ha' => honly a' (by simp [ha'])
    have hhead : ((right.filter (on a)).map fun b => (a, b)).countP pred =
        if on a b && pred (a, b) then 1 else 0 := by
      rw [List.countP_map, List.countP_filter]
      have heq : right.countP (fun other => (pred ∘ fun b => (a, b)) other && on a other) =
          right.countP fun other => other == b && (on a b && pred (a, b)) := by
        apply List.countP_congr
        intro other hother
        simp only [Function.comp_apply, Bool.and_eq_true, beq_iff_eq]
        constructor
        · rintro ⟨hpred, hon⟩
          have hsame := honly a (by simp) other hother hon hpred
          subst hsame
          exact ⟨rfl, hon, hpred⟩
        · rintro ⟨hsame, hon, hpred⟩
          subst hsame
          exact ⟨hpred, hon⟩
      rw [heq]
      by_cases h : (on a b && pred (a, b)) = true
      · simp only [h, Bool.and_true, if_true]
        have hone := List.count_eq_one_of_mem hright hb
        rwa [List.count_eq_countP] at hone
      · simp [h]
    rw [join_cons, List.countP_append, hrest, hhead, List.countP_cons, Nat.add_comm]

theorem countP_join_replicate {pred : A × B → Bool} {n : Nat} {a : A} :
    (join on (List.replicate n a) right).countP pred = n * right.countP fun b => on a b && pred (a, b) := by
  induction n with
  | zero => simp
  | succ n ih =>
    have hhead : ((right.filter (on a)).map fun b => (a, b)).countP pred =
        right.countP fun b => on a b && pred (a, b) := by
      rw [List.countP_map, List.countP_filter]
      apply List.countP_congr
      intro b _
      simp [and_comm]
    rw [List.replicate_succ, join_cons, List.countP_append, ih, hhead, Nat.succ_mul, Nat.add_comm]

theorem count_join_right [DecidableEq B] (hright : right.Nodup) {b : B} (hb : b ∈ right) :
    ((join on left right).map Prod.snd).count b = left.countP fun a => on a b := by
  rw [List.count_eq_countP, List.countP_map]
  have honly := @countP_join A B on left right ((· == b) ∘ Prod.snd) b hright hb
    (fun a _ other _ _ heq => by simpa using heq)
  rw [honly]
  simp

/-- No right row comes out twice exactly when no right row meets two left rows. -/
theorem nodup_join_right_iff {key : B → K} (hright : Distinct key right) :
    ((join on left right).map fun row => key row.2).Nodup ↔
      ∀ b ∈ right, (left.countP fun a => on a b) ≤ 1 := by
  classical
  have hnodup : right.Nodup := List.Nodup.of_map key hright
  have hkeys : ((join on left right).map fun row => key row.2) = ((join on left right).map Prod.snd).map key := by
    simp
  rw [hkeys]
  constructor
  · intro h b hb
    have hcount := List.nodup_iff_count_le_one.1 (List.Nodup.of_map key h) b
    rwa [count_join_right hnodup hb] at hcount
  · intro h
    have hsnd : ((join on left right).map Prod.snd).Nodup := by
      apply List.nodup_iff_count_le_one.2
      intro b
      by_cases hb : b ∈ right
      · rw [count_join_right hnodup hb]
        exact h b hb
      · have hnot : b ∉ (join on left right).map Prod.snd := by
          intro hmem
          obtain ⟨⟨a, b'⟩, hrow, rfl⟩ := List.mem_map.1 hmem
          exact hb (mem_join.1 hrow).2.1
        rw [List.count_eq_zero_of_not_mem hnot]
        omega
    apply List.Nodup.map_on _ hsnd
    intro b hb b' hb' heq
    obtain ⟨⟨a, _⟩, hrow, rfl⟩ := List.mem_map.1 hb
    obtain ⟨⟨a', _⟩, hrow', rfl⟩ := List.mem_map.1 hb'
    exact List.inj_on_of_nodup_map hright (mem_join.1 hrow).2.1 (mem_join.1 hrow').2.1 heq

/-- Where every right row meets at most one left row, the join gives the right rows that meet one. -/
theorem join_right_perm (hright : right.Nodup) (hone : ∀ b ∈ right, (left.countP fun a => on a b) ≤ 1) :
    ((join on left right).map Prod.snd).Perm (right.filter fun b => left.any fun a => on a b) := by
  classical
  apply List.perm_iff_count.2
  intro b
  by_cases hb : b ∈ right
  · rw [count_join_right hright hb]
    have hcount := hone b hb
    by_cases hany : (left.any fun a => on a b) = true
    · have hmem : b ∈ right.filter fun b => left.any fun a => on a b := List.mem_filter.2 ⟨hb, hany⟩
      rw [List.count_eq_one_of_mem (hright.filter _) hmem]
      have hpos : 0 < left.countP fun a => on a b := by
        obtain ⟨a, ha, hon⟩ := List.any_eq_true.1 hany
        exact List.countP_pos_iff.2 ⟨a, ha, hon⟩
      omega
    · have hnot : b ∉ right.filter fun b => left.any fun a => on a b := by
        simp only [List.mem_filter, not_and]
        intro _ h
        exact hany h
      rw [List.count_eq_zero_of_not_mem hnot, List.countP_eq_zero]
      intro a ha hon
      exact hany (List.any_eq_true.2 ⟨a, ha, hon⟩)
  · have hnot : b ∉ (join on left right).map Prod.snd := by
      intro hmem
      obtain ⟨⟨a, b'⟩, hrow, rfl⟩ := List.mem_map.1 hmem
      exact hb (mem_join.1 hrow).2.1
    have hnot' : b ∉ right.filter fun b => left.any fun a => on a b := by
      intro hmem
      exact hb (List.mem_filter.1 hmem).1
    rw [List.count_eq_zero_of_not_mem hnot, List.count_eq_zero_of_not_mem hnot']

theorem sum_join_right [AddCommMonoid M] {f : A × B → M} {g : B → M} (hright : right.Nodup)
    (hone : ∀ b ∈ right, (left.countP fun a => on a b) ≤ 1)
    (hvalue : ∀ a b, (a, b) ∈ join on left right → f (a, b) = g b) :
    ((join on left right).map f).sum = sumWhere (fun b => left.any fun a => on a b) g right := by
  have hmap : (join on left right).map f = ((join on left right).map Prod.snd).map g := by
    rw [List.map_map]
    apply List.map_congr_left
    intro row hrow
    exact hvalue row.1 row.2 hrow
  have hperm := (join_right_perm hright hone).map g
  rw [hmap, hperm.sum_eq]
  rfl

/-! ### Tables in two parts -/

theorem join_append_left {left' : List A} : join on (left ++ left') right = join on left right ++ join on left' right :=
  List.flatMap_append

theorem join_append_right {right' : List B} :
    (join on left (right ++ right')).Perm (join on left right ++ join on left right') := by
  have happend : ∀ a, ((right ++ right').filter (on a)).map (fun b => (a, b)) =
      (right.filter (on a)).map (fun b => (a, b)) ++ (right'.filter (on a)).map fun b => (a, b) := by
    intro a
    rw [List.filter_append, List.map_append]
  unfold join
  simp only [happend]
  exact (List.flatMap_append_perm left _ _).symm

theorem join_perm_left {left' : List A} (h : left.Perm left') : (join on left right).Perm (join on left' right) :=
  h.flatMap_right _

end Join

end Relational
