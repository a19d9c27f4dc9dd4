import PlusOne.Relational.Computed

/-! # Checked insertions

A statement checks its row before it appends it. -/

namespace Relational

section Require

variable {ε : Type*}

/-- Go on when the condition holds, fail otherwise. -/
def require (condition : Bool) (failure : ε) : Except ε Unit :=
  if condition then .ok () else .error failure

@[simp] theorem require_true {failure : ε} : require true failure = .ok () := rfl

@[simp] theorem require_false {failure : ε} : require false failure = .error failure := rfl

theorem require_eq_ok {condition : Bool} {failure : ε} {u : Unit} :
    require condition failure = .ok u ↔ condition = true := by
  cases condition <;> simp [require]

/-- The checks before a statement, one peeled off. -/
theorem require_bind_eq_ok {α : Type} {condition : Bool} {failure : ε} {f : Unit → Except ε α} {a : α} :
    (require condition failure >>= f) = .ok a ↔ condition = true ∧ f () = .ok a := by
  cases condition
  · constructor
    · intro h
      cases h
    · rintro ⟨h, -⟩
      cases h
  · constructor
    · intro h
      exact ⟨rfl, h⟩
    · rintro ⟨-, h⟩
      exact h

end Require

section Link

variable {ε A : Type*} {R : Type} [DecidableEq R] (admitted : A → Bool) (missing : A → ε) (taken : ε) (make : A → R)

/-- Append one row for each element, whose whole row is its key. -/
def linkAll : List A → List R → Except ε (List R)
  | [], rows => .ok rows
  | a :: rest, rows => do
    require (admitted a) (missing a)
    require (decide (make a ∉ rows)) taken
    linkAll rest (rows ++ [make a])

variable {admitted missing taken make}

theorem linkAll_eq_ok {new : List A} {rows rows' : List R}
    (h : linkAll admitted missing taken make new rows = .ok rows') :
    rows' = rows ++ new.map make ∧ (∀ a ∈ new, admitted a = true) ∧ (new.map make).Nodup ∧
      ∀ a ∈ new, make a ∉ rows := by
  induction new generalizing rows with
  | nil =>
    cases h
    simp
  | cons a rest ih =>
    rw [linkAll, require_bind_eq_ok, require_bind_eq_ok, decide_eq_true_eq] at h
    obtain ⟨hadmitted, hfresh, h⟩ := h
    obtain ⟨rfl, hall, hnodup, hrest⟩ := ih h
    have hnot : ∀ b ∈ rest, make b ∉ rows ∧ make b ≠ make a := by
      intro b hb
      have hb' := hrest b hb
      simp only [List.mem_append, List.mem_singleton, not_or] at hb'
      exact hb'
    have hhead : make a ∉ rest.map make := by
      intro hmem
      obtain ⟨b, hb, heq⟩ := List.mem_map.1 hmem
      exact (hnot b hb).2 heq
    constructor
    · simp
    constructor
    · exact List.forall_mem_cons.2 ⟨hadmitted, hall⟩
    constructor
    · exact List.nodup_cons.2 ⟨hhead, hnodup⟩
    · exact List.forall_mem_cons.2 ⟨hfresh, fun b hb => (hnot b hb).1⟩

end Link

/-! ## Identities -/

/-- What an identity column gives the next row. -/
def nextIdentity (identities : List Nat) : Nat := identities.foldr max 0 + 1

theorem lt_nextIdentity {identities : List Nat} {identity : Nat} (h : identity ∈ identities) :
    identity < nextIdentity identities := by
  induction identities with
  | nil => simp at h
  | cons first rest ih =>
    have hmax : nextIdentity (first :: rest) = max first (rest.foldr max 0) + 1 := rfl
    rw [hmax]
    rcases List.mem_cons.1 h with rfl | hrest
    · omega
    · have hlt := ih hrest
      unfold nextIdentity at hlt
      omega

end Relational
