import PlusOne.Relational.Insert
import PlusOne.Relational.Upsert

/-! # Upserts under a partial unique index

Some rows of a table are under a key, the archived ones under none, and no two rows are under the
same key. An upsert writes the row that is under its key, or appends one. -/

namespace Relational

variable {R K : Type*}

/-- What an upsert makes of the row under its key, and the row it appends where there is none. -/
structure KeyedWrite (key : R → Option K) where
  under : K
  update : R → R
  new : R
  updated : ∀ row, key row = some under → key (update row) = some under
  inserted : key new = some under

/-- No two rows are under the same key. -/
def UniquelyKeyed (key : R → Option K) (rows : List R) : Prop := (rows.filterMap key).Nodup

section Keys

variable {key : R → Option K} {rows : List R} {row other : R} {k : K}

theorem UniquelyKeyed.tail (h : UniquelyKeyed key (row :: rows)) : UniquelyKeyed key rows := by
  unfold UniquelyKeyed at h ⊢
  cases hkey : key row with
  | none => rwa [List.filterMap_cons_none hkey] at h
  | some k =>
    rw [List.filterMap_cons_some hkey] at h
    exact h.of_cons

theorem UniquelyKeyed.not_under (h : UniquelyKeyed key (row :: rows)) (hrow : key row = some k)
    (hmem : other ∈ rows) : key other ≠ some k := by
  intro hother
  rw [UniquelyKeyed, List.filterMap_cons_some hrow] at h
  exact (List.nodup_cons.1 h).1 (List.mem_filterMap.2 ⟨other, hmem, hother⟩)

theorem UniquelyKeyed.eq (h : UniquelyKeyed key rows) (hrow : row ∈ rows) (hother : other ∈ rows)
    (hk : key row = some k) (hk' : key other = some k) : row = other := by
  induction rows with
  | nil => simp at hrow
  | cons first rest ih =>
    rcases List.mem_cons.1 hrow with rfl | hrest
    · rcases List.mem_cons.1 hother with rfl | hrest
      · rfl
      · exact absurd hk' (h.not_under hk hrest)
    · rcases List.mem_cons.1 hother with rfl | hrest'
      · exact absurd hk (h.not_under hk' hrest)
      · exact ih h.tail hrest hrest'

/-- The rows under a key are the one row there is. -/
theorem UniquelyKeyed.filter_eq [DecidableEq K] (h : UniquelyKeyed key rows) (hrow : row ∈ rows)
    (hk : key row = some k) : rows.filter (fun row => decide (key row = some k)) = [row] := by
  induction rows with
  | nil => simp at hrow
  | cons first rest ih =>
    rcases List.mem_cons.1 hrow with rfl | hrow
    · have hrest : rest.filter (fun row => decide (key row = some k)) = [] := by
        rw [List.filter_eq_nil_iff]
        intro other hother
        simpa using h.not_under hk hother
      rw [List.filter_cons_of_pos (by simpa using hk), hrest]
    · have hfirst : key first ≠ some k := fun hfirst => h.not_under hfirst hrow hk
      rw [List.filter_cons_of_neg (by simpa using hfirst), ih h.tail hrow]

/-- Rows that stay under their keys or leave them. -/
theorem UniquelyKeyed.map_of_le {f : R → R} (h : UniquelyKeyed key rows)
    (hf : ∀ row, key (f row) = none ∨ key (f row) = key row) : UniquelyKeyed key (rows.map f) := by
  have hsub : ((rows.map f).filterMap key).Sublist (rows.filterMap key) := by
    induction rows with
    | nil => simp
    | cons row rest ih =>
      have hrest := ih h.tail
      rw [List.map_cons]
      rcases hf row with hnone | hsame
      · rw [List.filterMap_cons_none hnone]
        cases hrow : key row with
        | none => rwa [List.filterMap_cons_none hrow]
        | some k =>
          rw [List.filterMap_cons_some hrow]
          exact hrest.cons _
      · cases hrow : key row with
        | none =>
          rwa [List.filterMap_cons_none (hsame.trans hrow), List.filterMap_cons_none hrow]
        | some k =>
          rw [List.filterMap_cons_some (hsame.trans hrow), List.filterMap_cons_some hrow]
          exact hrest.cons_cons _
  exact List.Nodup.sublist hsub h

end Keys

namespace KeyedWrite

variable {key : R → Option K}

/-- The row is one the upsert has written. -/
def Wrote (w : KeyedWrite key) (row : R) : Prop :=
  row = w.new ∨ ∃ old, key old = some w.under ∧ row = w.update old

theorem Wrote.under {w : KeyedWrite key} {row : R} (h : w.Wrote row) : key row = some w.under := by
  rcases h with rfl | ⟨old, hold, rfl⟩
  · exact w.inserted
  · exact w.updated old hold

variable [DecidableEq K]

/-- `INSERT … ON CONFLICT … DO UPDATE` -/
def apply (w : KeyedWrite key) (rows : List R) : List R :=
  if rows.any fun row => decide (key row = some w.under) then
    rows.map fun row => if key row = some w.under then w.update row else row
  else rows ++ [w.new]

/-- The upserts of a list, one after the other. -/
def applyAll : List (KeyedWrite key) → List R → List R
  | [], rows => rows
  | w :: ws, rows => applyAll ws (w.apply rows)

variable {w : KeyedWrite key} {ws : List (KeyedWrite key)} {rows : List R} {row : R}

theorem apply_of_none (h : ∀ row ∈ rows, key row ≠ some w.under) : w.apply rows = rows ++ [w.new] := by
  have hany : (rows.any fun row => decide (key row = some w.under)) = false := by
    simpa using h
  rw [apply, hany]
  rfl

theorem apply_of_some (hrow : row ∈ rows) (h : key row = some w.under) :
    w.apply rows = rows.map fun row => if key row = some w.under then w.update row else row := by
  have hany : (rows.any fun row => decide (key row = some w.under)) = true := by
    simpa using ⟨row, hrow, h⟩
  rw [apply, hany]
  rfl

theorem mem_apply (h : row ∈ w.apply rows) : row ∈ rows ∧ key row ≠ some w.under ∨ w.Wrote row := by
  by_cases hnone : ∀ row ∈ rows, key row ≠ some w.under
  · rw [apply_of_none hnone, List.mem_append, List.mem_singleton] at h
    rcases h with h | h
    · exact .inl ⟨h, hnone row h⟩
    · exact .inr (.inl h)
  · push Not at hnone
    obtain ⟨old, hold, hkey⟩ := hnone
    rw [apply_of_some hold hkey, List.mem_map] at h
    obtain ⟨before, hbefore, rfl⟩ := h
    by_cases hunder : key before = some w.under
    · rw [if_pos hunder]
      exact .inr (.inr ⟨before, hunder, rfl⟩)
    · rw [if_neg hunder]
      exact .inl ⟨hbefore, hunder⟩

theorem apply_keeps (hrow : row ∈ rows) (h : key row ≠ some w.under) : row ∈ w.apply rows := by
  by_cases hnone : ∀ row ∈ rows, key row ≠ some w.under
  · rw [apply_of_none hnone]
    exact List.mem_append_left _ hrow
  · push Not at hnone
    obtain ⟨old, hold, hkey⟩ := hnone
    rw [apply_of_some hold hkey, List.mem_map]
    exact ⟨row, hrow, if_neg h⟩

theorem apply_wrote (w : KeyedWrite key) (rows : List R) : ∃ row ∈ w.apply rows, w.Wrote row := by
  by_cases hnone : ∀ row ∈ rows, key row ≠ some w.under
  · rw [apply_of_none hnone]
    exact ⟨w.new, by simp, .inl rfl⟩
  · push Not at hnone
    obtain ⟨old, hold, hkey⟩ := hnone
    rw [apply_of_some hold hkey]
    exact ⟨w.update old, List.mem_map.2 ⟨old, hold, if_pos hkey⟩, .inr ⟨old, hkey, rfl⟩⟩

theorem apply_unique (h : UniquelyKeyed key rows) : UniquelyKeyed key (w.apply rows) := by
  by_cases hnone : ∀ row ∈ rows, key row ≠ some w.under
  · have hnew : w.under ∉ rows.filterMap key := by
      intro hmem
      obtain ⟨row, hrow, hkey⟩ := List.mem_filterMap.1 hmem
      exact hnone row hrow hkey
    rw [apply_of_none hnone, UniquelyKeyed, List.filterMap_append, List.filterMap_cons_some w.inserted,
      List.filterMap_nil, List.nodup_append]
    refine ⟨h, List.nodup_singleton _, ?_⟩
    intro k hk k' hk' heq
    rw [List.mem_singleton] at hk'
    exact hnew (hk' ▸ heq ▸ hk)
  · push Not at hnone
    obtain ⟨old, hold, hkey⟩ := hnone
    rw [apply_of_some hold hkey]
    refine h.map_of_le fun row => .inr ?_
    by_cases hrow : key row = some w.under
    · rw [if_pos hrow, w.updated row hrow, hrow]
    · rw [if_neg hrow]

/-- Rows of a kind that the upsert neither finds nor writes stay as they are. -/
theorem filter_apply {p : R → Bool} (hrows : ∀ row ∈ rows, key row = some w.under → p row = false)
    (hwrote : ∀ row, w.Wrote row → p row = false) : (w.apply rows).filter p = rows.filter p := by
  by_cases hnone : ∀ row ∈ rows, key row ≠ some w.under
  · have hnew := hwrote w.new (.inl rfl)
    rw [apply_of_none hnone, List.filter_append, List.filter_cons_of_neg (by simp [hnew]), List.filter_nil,
      List.append_nil]
  · push Not at hnone
    obtain ⟨old, hold, hkey⟩ := hnone
    rw [apply_of_some hold hkey]
    clear hold hkey
    induction rows with
    | nil => rfl
    | cons row rest ih =>
      have hrest := ih fun row hrow => hrows row (by simp [hrow])
      rw [List.map_cons]
      by_cases hrow : key row = some w.under
      · have hbefore := hrows row (by simp) hrow
        have hafter := hwrote (w.update row) (.inr ⟨row, hrow, rfl⟩)
        rw [if_pos hrow, List.filter_cons_of_neg (by simp [hafter]),
          List.filter_cons_of_neg (by simp [hbefore]), hrest]
      · rw [if_neg hrow, List.filter_cons, List.filter_cons, hrest]

theorem forall_apply {P : R → Prop} (hrows : ∀ row ∈ rows, P row) (hupdate : ∀ row, P row → P (w.update row))
    (hnew : P w.new) : ∀ row ∈ w.apply rows, P row := by
  intro row hrow
  by_cases hnone : ∀ row ∈ rows, key row ≠ some w.under
  · rw [apply_of_none hnone, List.mem_append, List.mem_singleton] at hrow
    rcases hrow with hrow | rfl
    · exact hrows row hrow
    · exact hnew
  · push Not at hnone
    obtain ⟨old, hold, hkey⟩ := hnone
    rw [apply_of_some hold hkey, List.mem_map] at hrow
    obtain ⟨before, hbefore, rfl⟩ := hrow
    split
    · exact hupdate before (hrows before hbefore)
    · exact hrows before hbefore

/-! ## A list of upserts -/

theorem forall_applyAll {P : R → Prop} (hrows : ∀ row ∈ rows, P row)
    (hupdate : ∀ w ∈ ws, ∀ row, P row → P (w.update row)) (hnew : ∀ w ∈ ws, P w.new) :
    ∀ row ∈ applyAll ws rows, P row := by
  induction ws generalizing rows with
  | nil => exact hrows
  | cons w ws ih =>
    have hfirst := forall_apply hrows (hupdate w (by simp)) (hnew w (by simp))
    exact ih hfirst (fun w' hw' => hupdate w' (by simp [hw'])) fun w' hw' => hnew w' (by simp [hw'])

theorem applyAll_unique (h : UniquelyKeyed key rows) : UniquelyKeyed key (applyAll ws rows) := by
  induction ws generalizing rows with
  | nil => exact h
  | cons w ws ih => exact ih (apply_unique h)

theorem applyAll_keeps (hrow : row ∈ rows) (h : ∀ w ∈ ws, key row ≠ some w.under) :
    row ∈ applyAll ws rows := by
  induction ws generalizing rows with
  | nil => exact hrow
  | cons w ws ih =>
    have hfirst := apply_keeps hrow (h w (by simp))
    exact ih hfirst fun w' hw' => h w' (by simp [hw'])

theorem mem_applyAll (h : row ∈ applyAll ws rows) :
    (row ∈ rows ∧ ∀ w ∈ ws, key row ≠ some w.under) ∨ ∃ w ∈ ws, w.Wrote row := by
  induction ws generalizing rows with
  | nil => exact .inl ⟨h, by simp⟩
  | cons w ws ih =>
    rcases ih h with ⟨hmem, hrest⟩ | ⟨w', hw', hwrote⟩
    · rcases mem_apply hmem with ⟨hrow, hfirst⟩ | hwrote
      · exact .inl ⟨hrow, List.forall_mem_cons.2 ⟨hfirst, hrest⟩⟩
      · exact .inr ⟨w, by simp, hwrote⟩
    · exact .inr ⟨w', by simp [hw'], hwrote⟩

/-- Under the key of each upsert there is a row, as one of them has left it. -/
theorem applyAll_wrote (rows : List R) (hw : w ∈ ws) :
    ∃ row ∈ applyAll ws rows, key row = some w.under ∧ ∃ w' ∈ ws, w'.under = w.under ∧ w'.Wrote row := by
  induction ws generalizing rows w with
  | nil => simp at hw
  | cons first ws ih =>
    have hlater : ∀ w' ∈ ws, w'.under = w.under → ∃ row ∈ applyAll (first :: ws) rows,
        key row = some w.under ∧ ∃ w' ∈ first :: ws, w'.under = w.under ∧ w'.Wrote row := by
      intro w' hw' hsame
      obtain ⟨row, hrow, hkey, w'', hw'', hunder, hwrote⟩ := ih (first.apply rows) hw'
      exact ⟨row, hrow, hsame ▸ hkey, w'', by simp [hw''], hunder.trans hsame, hwrote⟩
    rcases List.mem_cons.1 hw with rfl | hw
    · by_cases hsame : ∃ w' ∈ ws, w'.under = w.under
      · obtain ⟨w', hw', hsame⟩ := hsame
        exact hlater w' hw' hsame
      · push Not at hsame
        obtain ⟨row, hrow, hwrote⟩ := apply_wrote w rows
        have hkept : row ∈ applyAll ws (w.apply rows) := by
          refine applyAll_keeps hrow fun w' hw' hkey => hsame w' hw' ?_
          rw [hwrote.under] at hkey
          exact (Option.some.inj hkey).symm
        exact ⟨row, hkept, hwrote.under, w, by simp, rfl, hwrote⟩
    · exact hlater w hw rfl

theorem filter_applyAll {p : R → Bool} (hrows : ∀ w ∈ ws, ∀ row ∈ rows, key row = some w.under → p row = false)
    (hwrote : ∀ w ∈ ws, ∀ row, w.Wrote row → p row = false) : (applyAll ws rows).filter p = rows.filter p := by
  induction ws generalizing rows with
  | nil => rfl
  | cons w ws ih =>
    have hnext : ∀ w' ∈ ws, ∀ row ∈ w.apply rows, key row = some w'.under → p row = false := by
      intro w' hw' row hrow hkey
      rcases mem_apply hrow with ⟨hrow, _⟩ | hw
      · exact hrows w' (by simp [hw']) row hrow hkey
      · exact hwrote w (by simp) row hw
    rw [applyAll, ih hnext fun w' hw' => hwrote w' (by simp [hw'])]
    exact filter_apply (hrows w (by simp)) (hwrote w (by simp))

end KeyedWrite

/-! ## Tables with an identity column -/

/-- A table whose rows have their own identities, and whose active rows have their own keys. -/
structure ActiveTable (identity : R → Nat) (key : R → Option K) (rows : List R) : Prop where
  identities : Distinct identity rows
  keys : UniquelyKeyed key rows

/-- An upsert that takes the next identity for a new row and keeps that of an old one. -/
structure IdentityWrite (identity : R → Nat) (key : R → Option K) (rows : List R) extends KeyedWrite key where
  keepsIdentity : ∀ row, identity (update row) = identity row
  newIdentity : identity new = nextIdentity (rows.map identity)

namespace ActiveTable

variable {identity : R → Nat} {key : R → Option K} {rows : List R} {row other : R}

theorem map_of_le {f : R → R} (ht : ActiveTable identity key rows) (hid : ∀ row, identity (f row) = identity row)
    (hf : ∀ row, key (f row) = none ∨ key (f row) = key row) : ActiveTable identity key (rows.map f) where
  identities := ht.identities.map hid
  keys := ht.keys.map_of_le hf

theorem eq_of_identity (ht : ActiveTable identity key rows) (hrow : row ∈ rows) (hother : other ∈ rows)
    (h : identity row = identity other) : row = other :=
  List.inj_on_of_nodup_map ht.identities hrow hother h

variable [DecidableEq K] {w : IdentityWrite identity key rows}

theorem apply (ht : ActiveTable identity key rows) (w : IdentityWrite identity key rows) :
    ActiveTable identity key (w.apply rows) where
  identities := by
    by_cases hnone : ∀ row ∈ rows, key row ≠ some w.under
    · have hfresh : nextIdentity (rows.map identity) ∉ rows.map identity :=
        fun hmem => Nat.lt_irrefl _ (lt_nextIdentity hmem)
      rw [KeyedWrite.apply_of_none hnone, Distinct, List.map_append, List.map_singleton, w.newIdentity,
        List.nodup_append]
      refine ⟨ht.identities, List.nodup_singleton _, ?_⟩
      intro n hn n' hn' heq
      rw [List.mem_singleton] at hn'
      exact hfresh (hn' ▸ heq ▸ hn)
    · push Not at hnone
      obtain ⟨old, hold, hkey⟩ := hnone
      rw [KeyedWrite.apply_of_some hold hkey]
      refine ht.identities.map fun row => ?_
      by_cases hrow : key row = some w.under
      · rw [if_pos hrow, w.keepsIdentity]
      · rw [if_neg hrow]
  keys := KeyedWrite.apply_unique ht.keys

theorem map_identity (ht : ActiveTable identity key rows) (hrow : row ∈ rows) (hkey : key row = some w.under) :
    (rows.map fun other => if identity other = identity row then w.update other else other) = w.apply rows := by
  rw [KeyedWrite.apply_of_some hrow hkey]
  refine List.map_congr_left fun other hother => ?_
  by_cases hunder : key other = some w.under
  · rw [if_pos hunder, if_pos (congrArg identity (ht.keys.eq hother hrow hunder hkey))]
  · have hne : identity other ≠ identity row := by
      intro hid
      exact hunder (ht.eq_of_identity hother hrow hid ▸ hkey)
    rw [if_neg hunder, if_neg hne]

/-- The row an upsert leaves under its key, with the identity of the row that was there, or the next
one. -/
structure Written (w : IdentityWrite identity key rows) (row : R) : Prop where
  mem : row ∈ w.apply rows
  alone : (w.apply rows).filter (fun row => decide (key row = some w.under)) = [row]
  wrote : w.Wrote row
  before : ∀ old ∈ rows, key old = some w.under → identity old = identity row
  known : identity row ∈ rows.map identity → ∃ old ∈ rows, key old = some w.under ∧ identity old = identity row

theorem apply_written (ht : ActiveTable identity key rows) (w : IdentityWrite identity key rows) :
    ∃ row, Written w row := by
  obtain ⟨row, hrow, hwrote⟩ := KeyedWrite.apply_wrote w.toKeyedWrite rows
  have hbefore : ∀ old ∈ rows, key old = some w.under → identity old = identity row := by
    intro old hold hkey
    have hupdated : w.update old ∈ w.apply rows := by
      rw [KeyedWrite.apply_of_some hold hkey, List.mem_map]
      exact ⟨old, hold, if_pos hkey⟩
    rw [(ht.apply w).keys.eq hrow hupdated hwrote.under (w.updated old hkey), w.keepsIdentity]
  have hknown : identity row ∈ rows.map identity →
      ∃ old ∈ rows, key old = some w.under ∧ identity old = identity row := by
    intro hmem
    by_contra hnone
    push Not at hnone
    have hnot : ∀ old ∈ rows, key old ≠ some w.under := fun old hold hkey =>
      hnone old hold hkey (hbefore old hold hkey)
    rw [KeyedWrite.apply_of_none hnot, List.mem_append, List.mem_singleton] at hrow
    rcases hrow with hrow | rfl
    · exact hnot row hrow hwrote.under
    · rw [w.newIdentity] at hmem
      exact Nat.lt_irrefl _ (lt_nextIdentity hmem)
  exact ⟨row, hrow, (ht.apply w).keys.filter_eq hrow hwrote.under, hwrote, hbefore, hknown⟩

theorem identity_mem_apply (w : IdentityWrite identity key rows) {n : Nat} (h : n ∈ rows.map identity) :
    n ∈ (w.apply rows).map identity := by
  obtain ⟨old, hold, rfl⟩ := List.mem_map.1 h
  by_cases hkey : key old = some w.under
  · have hupdated : w.update old ∈ w.apply rows := by
      rw [KeyedWrite.apply_of_some hold hkey, List.mem_map]
      exact ⟨old, hold, if_pos hkey⟩
    exact List.mem_map.2 ⟨w.update old, hupdated, w.keepsIdentity old⟩
  · exact List.mem_map_of_mem (KeyedWrite.apply_keeps hold hkey)

theorem Written.forall_belonging_iff {C : Type*} {children : List C} {P : C → Prop} (hw : Written w row)
    (belongs : C → Nat → Prop) (hrefers : ∀ c ∈ children, ∀ n, belongs c n → n ∈ rows.map identity) :
    (∀ c ∈ children, belongs c (identity row) → P c) ↔
      ∀ old ∈ rows, key old = some w.under → ∀ c ∈ children, belongs c (identity old) → P c := by
  constructor
  · intro h old hold hkey c hc hbelongs
    rw [hw.before old hold hkey] at hbelongs
    exact h c hc hbelongs
  · intro h c hc hbelongs
    obtain ⟨old, hold, hkey, hsame⟩ := hw.known (hrefers c hc _ hbelongs)
    exact h old hold hkey c hc (hsame ▸ hbelongs)

theorem Written.identity_ne (ht : ActiveTable identity key rows) (hw : Written w row) {k : K}
    (hother : other ∈ w.apply rows) (hkey : key other = some k) (hk : k ≠ w.under) :
    identity other ≠ identity row := by
  intro hsame
  have heq := (ht.apply w).eq_of_identity hother hw.mem hsame
  rw [heq, hw.wrote.under] at hkey
  exact hk (Option.some.inj hkey).symm

theorem Written.of_found (ht : ActiveTable identity key rows) (hw : Written w row) {p : R → Bool} {old : R}
    (hp : ∀ row, key row = some w.under ↔ p row = true) (hfind : rows.find? p = some old) :
    identity row = identity old ∧
      w.apply rows = rows.map fun other => if identity other = identity old then w.update other else other := by
  have hmem := List.mem_of_find?_eq_some hfind
  have hkey := (hp old).2 (List.find?_some hfind)
  exact ⟨(hw.before old hmem hkey).symm, (ht.map_identity hmem hkey).symm⟩

theorem Written.of_missing (hw : Written w row) {p : R → Bool}
    (hp : ∀ row, key row = some w.under ↔ p row = true) (hfind : rows.find? p = none) :
    row = w.new ∧ w.apply rows = rows ++ [w.new] := by
  have hnone : ∀ old ∈ rows, key old ≠ some w.under := by
    intro old hold hkey
    exact List.find?_eq_none.1 hfind old hold ((hp old).1 hkey)
  have happly := KeyedWrite.apply_of_none hnone
  have hmem := hw.mem
  rw [happly, List.mem_append, List.mem_singleton] at hmem
  rcases hmem with hmem | hmem
  · exact absurd hw.wrote.under (hnone row hmem)
  · exact ⟨hmem, happly⟩

theorem filter_other (w : IdentityWrite identity key rows) {k : K} (hk : k ≠ w.under) :
    (w.apply rows).filter (fun row => decide (key row = some k)) =
      rows.filter fun row => decide (key row = some k) := by
  have hne : ∀ row, key row = some w.under → decide (key row = some k) = false := by
    intro row hrow
    rw [hrow, decide_eq_false_iff_not, Option.some.injEq]
    exact Ne.symm hk
  exact KeyedWrite.filter_apply (fun row _ => hne row) fun row hwrote => hne row hwrote.under

end ActiveTable

/-! ## Rows that belong to a row of another table -/

/-- The elements and the rows hold one another, on both sides. -/
def HeldBy {A R : Type*} (holds : A → R → Prop) (elements : List A) (rows : List R) : Prop :=
  (∀ a ∈ elements, ∃ row ∈ rows, holds a row) ∧ ∀ row ∈ rows, ∃ a ∈ elements, holds a row

/-- How the rows of an owner hold an element: under the key its upsert writes; as the upsert writes it,
where the element can be held at all; and two elements alike, where the same row holds both. -/
structure Holding {A O : Type*} {key : R → Option K} (owner : R → Option O) (o : O) (write : A → KeyedWrite key)
    (holds : A → R → Prop) (exact : A → Prop) (agree : A → A → Prop) : Prop where
  owned : ∀ {a row}, (write a).Wrote row → owner row = some o
  under : ∀ {a row}, owner row = some o → holds a row → key row = some (write a).under
  wrote : ∀ {a row}, exact a → (write a).Wrote row → holds a row
  fits : ∀ {a row}, holds a row → exact a
  agrees : ∀ {a b row}, holds a row → holds b row → agree a b
  shared : ∀ {a b row}, (write a).under = (write b).under → agree a b → holds b row → holds a row

section Owned

variable [DecidableEq K] {A O : Type*} [DecidableEq O] {key : R → Option K} {owner : R → Option O}
  {write : A → KeyedWrite key} {elements : List A} {rows : List R} {o other : O}

/-- What another row owns stays exactly when no upsert is under the key of one of its rows. -/
theorem owned_other_iff (howner : ∀ a ∈ elements, ∀ row, (write a).Wrote row → owner row = some o)
    (hkeys : UniquelyKeyed key rows) (hother : other ≠ o) :
    (KeyedWrite.applyAll (elements.map write) rows).filter (fun row => decide (owner row = some other)) =
        rows.filter (fun row => decide (owner row = some other)) ↔
      ∀ a ∈ elements, ∀ row ∈ rows, key row = some (write a).under → owner row ≠ some other := by
  constructor
  · intro hsame a ha row hrow hkey howned
    have hmem : row ∈ rows.filter fun row => decide (owner row = some other) := by
      simp [hrow, howned]
    rw [← hsame] at hmem
    have hafter := (List.mem_filter.1 hmem).1
    obtain ⟨written, hwritten, hunder, w, hw, _, hwrote⟩ :=
      KeyedWrite.applyAll_wrote rows (List.mem_map_of_mem (f := write) ha)
    obtain rfl := (KeyedWrite.applyAll_unique hkeys).eq hafter hwritten hkey hunder
    obtain ⟨b, hb, rfl⟩ := List.mem_map.1 hw
    rw [howner b hb row hwrote] at howned
    exact hother (Option.some.inj howned).symm
  · intro hnone
    refine KeyedWrite.filter_applyAll ?_ ?_
    · intro w hw row hrow hkey
      obtain ⟨a, ha, rfl⟩ := List.mem_map.1 hw
      simpa using hnone a ha row hrow hkey
    · intro w hw row hwrote
      obtain ⟨a, ha, rfl⟩ := List.mem_map.1 hw
      simpa [howner a ha row hwrote] using Ne.symm hother

/-- What the upserts leave under their owner are their elements exactly when each can be held, those
under one key agree, and nothing was there under a key that none of them has. -/
theorem Holding.heldBy_iff {holds : A → R → Prop} {exact : A → Prop} {agree : A → A → Prop}
    (hh : Holding owner o write holds exact agree) (hkeys : UniquelyKeyed key rows) :
    HeldBy holds elements ((KeyedWrite.applyAll (elements.map write) rows).filter
        fun row => decide (owner row = some o)) ↔
      (∀ a ∈ elements, exact a) ∧
      (∀ a ∈ elements, ∀ b ∈ elements, (write a).under = (write b).under → agree a b) ∧
      ∀ row ∈ rows, owner row = some o → ∃ a ∈ elements, key row = some (write a).under := by
  constructor
  · intro hheld
    obtain ⟨helements, hrows⟩ := hheld
    refine ⟨?_, ?_, ?_⟩
    · intro a ha
      obtain ⟨row, _, hholds⟩ := helements a ha
      exact hh.fits hholds
    · intro a ha b hb hunder
      obtain ⟨row, hrow, hholds⟩ := helements a ha
      obtain ⟨row', hrow', hholds'⟩ := helements b hb
      simp only [List.mem_filter, decide_eq_true_eq] at hrow hrow'
      have hkey := hh.under hrow'.2 hholds'
      rw [← hunder] at hkey
      obtain rfl := (KeyedWrite.applyAll_unique hkeys).eq hrow.1 hrow'.1 (hh.under hrow.2 hholds) hkey
      exact hh.agrees hholds hholds'
    · intro row hrow howned
      by_contra hnone
      push Not at hnone
      have hkept : row ∈ KeyedWrite.applyAll (elements.map write) rows := by
        refine KeyedWrite.applyAll_keeps hrow fun w hw => ?_
        obtain ⟨a, ha, rfl⟩ := List.mem_map.1 hw
        exact hnone a ha
      obtain ⟨a, ha, hholds⟩ := hrows row (by simp [hkept, howned])
      exact hnone a ha (hh.under howned hholds)
  · intro hmeets
    obtain ⟨hexact, hagree, hleft⟩ := hmeets
    constructor
    · intro a ha
      obtain ⟨row, hrow, _, w, hw, hunder, hwrote⟩ :=
        KeyedWrite.applyAll_wrote rows (List.mem_map_of_mem (f := write) ha)
      obtain ⟨b, hb, rfl⟩ := List.mem_map.1 hw
      have hholds := hh.wrote (hexact b hb) hwrote
      refine ⟨row, by simp [hrow, hh.owned hwrote], ?_⟩
      exact hh.shared hunder.symm (hagree a ha b hb hunder.symm) hholds
    · intro row hrow
      obtain ⟨hrow, howned⟩ := List.mem_filter.1 hrow
      rcases KeyedWrite.mem_applyAll hrow with ⟨hbefore, hnone⟩ | ⟨w, hw, hwrote⟩
      · obtain ⟨a, ha, hkey⟩ := hleft row hbefore (by simpa using howned)
        exact absurd hkey (hnone _ (List.mem_map_of_mem ha))
      · obtain ⟨a, ha, rfl⟩ := List.mem_map.1 hw
        exact ⟨a, ha, hh.wrote (hexact a ha) hwrote⟩

end Owned

end Relational
