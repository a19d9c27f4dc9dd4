import Mathlib.Data.List.Nodup
import Mathlib.Data.List.Pairwise

/-! # Tables with a primary key

A table is a list of rows under a key. `upsert` inserts a row or, where one with its key is
there, merges into that one; merging can fail, and keeps the key. -/

namespace Relational

variable {R K ε : Type*} [DecidableEq K] (key : R → K)

/-- The row under a key. -/
def find (k : K) (rows : List R) : Option R := rows.find? fun row => decide (key row = k)

/-- No two rows share a key. -/
def Distinct (rows : List R) : Prop := (rows.map key).Nodup

instance (rows : List R) : Decidable (Distinct key rows) :=
  inferInstanceAs (Decidable (rows.map key).Nodup)

/-- `INSERT … ON CONFLICT (key) DO UPDATE`. -/
def upsert (merge : R → Except ε R) (row : R) : List R → Except ε (List R)
  | [] => .ok [row]
  | old :: rows =>
    if key old = key row then (merge old).map fun merged => merged :: rows
    else (upsert merge row rows).map fun rows => old :: rows

/-- `INSERT … SELECT … ON CONFLICT (key) DO UPDATE`, a row after the other. -/
def upsertAll (merge : R → R → Except ε R) (new rows : List R) : Except ε (List R) :=
  new.foldlM (fun rows row => upsert key (merge row) row rows) rows

section Find

variable {key}

variable {rows : List R}

theorem find_eq_none {k : K} : find key k rows = none ↔ ∀ row ∈ rows, key row ≠ k := by
  simp [find]

variable {row : R}

theorem find_some {k : K} (h : find key k rows = some row) :
    row ∈ rows ∧ key row = k :=
  ⟨List.mem_of_find?_eq_some h, by simpa using List.find?_some h⟩

theorem find_cons {k : K} :
    find key k (row :: rows) = if key row = k then some row else find key k rows := by
  unfold find
  rw [List.find?_cons]
  split <;> simp_all

theorem find_cons_self : find key (key row) (row :: rows) = some row := by
  rw [find_cons, if_pos rfl]

theorem find_cons_of_ne {k : K} (h : key row ≠ k) :
    find key k (row :: rows) = find key k rows := by
  rw [find_cons, if_neg h]

omit [DecidableEq K] in
theorem Distinct.tail (h : Distinct key (row :: rows)) :
    Distinct key rows :=
  (List.nodup_cons.1 h).2

theorem Distinct.notMem (h : Distinct key (row :: rows)) :
    find key (key row) rows = none := by
  have hnot : key row ∉ rows.map key := (List.nodup_cons.1 h).1
  rw [find_eq_none]
  intro other hother heq
  exact hnot (heq ▸ List.mem_map_of_mem hother)

theorem Distinct.find_eq (hdistinct : Distinct key rows) (hmem : row ∈ rows) :
    find key (key row) rows = some row := by
  induction rows with
  | nil => simp at hmem
  | cons old rows ih =>
    rcases List.mem_cons.1 hmem with rfl | hmem
    · exact find_cons_self
    · have hne : key old ≠ key row := by
        intro heq
        exact find_eq_none.1 hdistinct.notMem row hmem heq.symm
      rw [find_cons_of_ne hne]
      exact ih hdistinct.tail hmem

theorem find_map {S : Type*} {key' : S → K} {f : R → S} (h : ∀ row, key' (f row) = key row) {k : K} :
    find key' k (rows.map f) = (find key k rows).map f := by
  induction rows with
  | nil => rfl
  | cons row rows ih =>
    rw [List.map_cons, find_cons, find_cons, h, ih]
    split <;> rfl

theorem find_congr {K' : Type*} [DecidableEq K'] {key' : R → K'} {k : K} {k' : K'}
    (h : ∀ row ∈ rows, key row = k ↔ key' row = k') : find key k rows = find key' k' rows := by
  induction rows with
  | nil => rfl
  | cons row rows ih =>
    have hrest := ih fun other hother => h other (by simp [hother])
    have hhead := h row (by simp)
    rw [find_cons, find_cons, hrest]
    simp only [hhead]

omit [DecidableEq K] in
/-- A key that separates what a distinct key separates is distinct too. -/
theorem Distinct.of_imp {K' : Type*} {key' : R → K'} (h : Distinct key rows)
    (himp : ∀ row ∈ rows, ∀ other ∈ rows, key' row = key' other → key row = key other) :
    Distinct key' rows := by
  induction rows with
  | nil => exact List.nodup_nil
  | cons row rows ih =>
    have hrest := ih h.tail fun r hr other hother => himp r (by simp [hr]) other (by simp [hother])
    have hnot : key' row ∉ rows.map key' := by
      intro hmem
      obtain ⟨other, hother, hkey⟩ := List.mem_map.1 hmem
      have hsame := himp row (by simp) other (by simp [hother]) hkey.symm
      exact (List.nodup_cons.1 h).1 (hsame ▸ List.mem_map_of_mem hother)
    exact List.nodup_cons.2 ⟨hnot, hrest⟩

omit [DecidableEq K] in
theorem Distinct.map {f : R → R} (h : Distinct key rows) (hf : ∀ row, key (f row) = key row) :
    Distinct key (rows.map f) := by
  have hsame : (rows.map f).map key = rows.map key := by
    simp only [List.map_map, Function.comp_def, hf]
  unfold Distinct
  rw [hsame]
  exact h

omit [DecidableEq K] in
theorem Distinct.sublist {rows part : List R} (h : Distinct key rows) (hpart : part.Sublist rows) :
    Distinct key part :=
  List.Nodup.sublist (hpart.map key) h

omit [DecidableEq K] in
theorem Distinct.filter (h : Distinct key rows) (p : R → Bool) :
    Distinct key (rows.filter p) :=
  h.sublist List.filter_sublist

/-- A selection finds the row of a key if it selects it. -/
theorem Distinct.find_filter (h : Distinct key rows) (hmem : row ∈ rows) (p : R → Bool) :
    find key (key row) (rows.filter p) = if p row then some row else none := by
  split
  · rename_i hp
    exact (h.filter p).find_eq (List.mem_filter.2 ⟨hmem, hp⟩)
  · rename_i hp
    rw [find_eq_none]
    intro other hother heq
    obtain ⟨hother, hother'⟩ := List.mem_filter.1 hother
    have hsame : some other = some row := by
      rw [← h.find_eq hother, heq, h.find_eq hmem]
    obtain rfl : other = row := by simpa using hsame
    exact hp hother'

end Find

section Upsert

variable {key} {merge : R → Except ε R} {row : R} {rows rows' : List R}

theorem upsert_cons {old : R} (h : upsert key merge row (old :: rows) = .ok rows') :
    (key old = key row ∧ ∃ merged, merge old = .ok merged ∧ rows' = merged :: rows) ∨
    (key old ≠ key row ∧ ∃ rest, upsert key merge row rows = .ok rest ∧ rows' = old :: rest) := by
  unfold upsert at h
  split at h
  · rename_i heq
    cases hmerge : merge old with
    | error e =>
      rw [hmerge] at h
      cases h
    | ok merged =>
      rw [hmerge] at h
      cases h
      exact .inl ⟨heq, merged, rfl, rfl⟩
  · rename_i hne
    cases hrest : upsert key merge row rows with
    | error e =>
      rw [hrest] at h
      cases h
    | ok rest =>
      rw [hrest] at h
      cases h
      exact .inr ⟨hne, rest, rfl, rfl⟩

/-- Rows under other keys stay as they are. -/
theorem find_upsert_of_ne (hmerge : ∀ old merged, merge old = .ok merged → key merged = key old)
    (h : upsert key merge row rows = .ok rows') {k : K} (hk : key row ≠ k) :
    find key k rows' = find key k rows := by
  induction rows generalizing rows' with
  | nil =>
    cases h
    rw [find_cons_of_ne hk]
  | cons old rows ih =>
    rcases upsert_cons h with ⟨heq, merged, hmerged, rfl⟩ | ⟨-, rest, hrest, rfl⟩
    · have hkey := hmerge old merged hmerged
      have hold : key old ≠ k := heq ▸ hk
      rw [find_cons_of_ne (hkey ▸ hold), find_cons_of_ne hold]
    · rw [find_cons, find_cons, ih hrest]

/-- Under the key of the new row stands that row or what it was merged into. -/
theorem find_upsert_self (hmerge : ∀ old merged, merge old = .ok merged → key merged = key old)
    (h : upsert key merge row rows = .ok rows') :
    (find key (key row) rows = none ∧ find key (key row) rows' = some row) ∨
    ∃ old merged, find key (key row) rows = some old ∧ merge old = .ok merged ∧
      find key (key row) rows' = some merged := by
  induction rows generalizing rows' with
  | nil =>
    cases h
    exact .inl ⟨rfl, find_cons_self⟩
  | cons old rows ih =>
    rcases upsert_cons h with ⟨heq, merged, hmerged, rfl⟩ | ⟨hne, rest, hrest, rfl⟩
    · have hkey := (hmerge old merged hmerged).trans heq
      right
      exact ⟨old, merged, by rw [find_cons, if_pos heq], hmerged, by rw [find_cons, if_pos hkey]⟩
    · rw [find_cons_of_ne hne, find_cons_of_ne hne]
      exact ih hrest

theorem keys_upsert (hmerge : ∀ old merged, merge old = .ok merged → key merged = key old)
    (h : upsert key merge row rows = .ok rows') :
    rows'.map key = rows.map key ∨
      (find key (key row) rows = none ∧ rows'.map key = rows.map key ++ [key row]) := by
  induction rows generalizing rows' with
  | nil =>
    cases h
    exact .inr ⟨rfl, rfl⟩
  | cons old rows ih =>
    rcases upsert_cons h with ⟨heq, merged, hmerged, rfl⟩ | ⟨hne, rest, hrest, rfl⟩
    · left
      simp [hmerge old merged hmerged]
    · rcases ih hrest with hkeys | ⟨hnone, hkeys⟩
      · left
        simp [hkeys]
      · right
        exact ⟨by rw [find_cons_of_ne hne, hnone], by simp [hkeys]⟩

theorem Distinct.upsert (hmerge : ∀ old merged, merge old = .ok merged → key merged = key old)
    (hdistinct : Distinct key rows) (h : Relational.upsert key merge row rows = .ok rows') :
    Distinct key rows' := by
  unfold Distinct at *
  rcases keys_upsert hmerge h with hkeys | ⟨hnone, hkeys⟩
  · rwa [hkeys]
  · rw [hkeys]
    refine List.Nodup.append hdistinct (List.nodup_singleton _) ?_
    intro k hk hk'
    obtain ⟨old, hold, rfl⟩ := List.mem_map.1 hk
    exact find_eq_none.1 hnone old hold (List.mem_singleton.1 hk')

/-- What merging keeps of the rows, the table keeps, with at most the new row's value more. -/
theorem map_upsert {V : Type*} {value : R → V}
    (hmerge : ∀ old merged, merge old = .ok merged → value merged = value old)
    (h : upsert key merge row rows = .ok rows') :
    rows'.map value = rows.map value ∨ rows'.map value = rows.map value ++ [value row] := by
  induction rows generalizing rows' with
  | nil =>
    cases h
    exact .inr rfl
  | cons old rows ih =>
    rcases upsert_cons h with ⟨-, merged, hmerged, rfl⟩ | ⟨-, rest, hrest, rfl⟩
    · left
      simp [hmerge old merged hmerged]
    · rcases ih hrest with hsame | hmore
      · exact .inl (by simp [hsame])
      · exact .inr (by simp [hmore])

theorem mem_of_upsert (h : upsert key merge row rows = .ok rows') {other : R} (hmem : other ∈ rows)
    (hne : key other ≠ key row) : other ∈ rows' := by
  induction rows generalizing rows' with
  | nil => simp at hmem
  | cons old rows ih =>
    rcases upsert_cons h with ⟨heq, merged, hmerged, rfl⟩ | ⟨-, rest, hrest, rfl⟩
    · rcases List.mem_cons.1 hmem with rfl | hmem
      · exact absurd heq hne
      · exact List.mem_cons_of_mem _ hmem
    · rcases List.mem_cons.1 hmem with rfl | hmem
      · exact List.mem_cons_self
      · exact List.mem_cons_of_mem _ (ih hrest hmem)

/-- One row more meets a condition, and none where the row that was there met it. -/
theorem countP_upsert (p : R → Bool) (h : upsert key merge row rows = .ok rows') :
    rows'.countP p ≤ rows.countP p + 1 ∧
      ((find key (key row) rows).any p = true → rows'.countP p ≤ rows.countP p) := by
  induction rows generalizing rows' with
  | nil =>
    cases h
    constructor
    · have hle : [row].countP p ≤ [row].length := List.countP_le_length
      exact hle
    · intro hany
      cases hany
  | cons old rows ih =>
    rcases upsert_cons h with ⟨heq, merged, hmerged, rfl⟩ | ⟨hne, rest, hrest, rfl⟩
    · rw [find_cons, if_pos heq, List.countP_cons, List.countP_cons]
      constructor
      · split <;> omega
      · intro hany
        have hold : p old = true := hany
        rw [if_pos hold]
        split <;> omega
    · obtain ⟨hmore, hnone⟩ := ih hrest
      rw [find_cons_of_ne hne, List.countP_cons, List.countP_cons]
      constructor
      · omega
      · intro hany
        have hsame := hnone hany
        omega

/-- An upsert fails only where a merge does. -/
theorem upsert_isOk (h : ∀ old, find key (key row) rows = some old → ∃ merged, merge old = .ok merged) :
    ∃ rows', Relational.upsert key merge row rows = .ok rows' := by
  induction rows with
  | nil => exact ⟨[row], rfl⟩
  | cons old rows ih =>
    unfold Relational.upsert
    split
    · rename_i heq
      obtain ⟨merged, hmerged⟩ := h old (by rw [find_cons, if_pos heq])
      exact ⟨merged :: rows, by rw [hmerged]; rfl⟩
    · rename_i hne
      obtain ⟨rest, hrest⟩ := ih fun other hother => h other (by rw [find_cons_of_ne hne, hother])
      exact ⟨old :: rest, by rw [hrest]; rfl⟩

end Upsert

section UpsertAll

variable {key} {merge : R → R → Except ε R} {new rows rows' : List R}

theorem upsertAll_cons {row : R} (h : upsertAll key merge (row :: new) rows = .ok rows') :
    ∃ mid, upsert key (merge row) row rows = .ok mid ∧ upsertAll key merge new mid = .ok rows' := by
  unfold upsertAll at h
  rw [List.foldlM_cons] at h
  cases hmid : upsert key (merge row) row rows with
  | error e =>
    rw [hmid] at h
    cases h
  | ok mid =>
    rw [hmid] at h
    exact ⟨mid, rfl, h⟩

theorem Distinct.upsertAll (hmerge : ∀ row old merged, merge row old = .ok merged → key merged = key old)
    (hdistinct : Distinct key rows) (h : Relational.upsertAll key merge new rows = .ok rows') :
    Distinct key rows' := by
  induction new generalizing rows with
  | nil =>
    cases h
    exact hdistinct
  | cons row new ih =>
    obtain ⟨mid, hmid, hrest⟩ := upsertAll_cons h
    exact ih (hdistinct.upsert (hmerge row) hmid) hrest

theorem mem_upsert {merge : R → Except ε R} {row other : R}
    (h : upsert key merge row rows = .ok rows') (hmem : other ∈ rows') :
    other ∈ rows ∨ other = row ∨ ∃ old ∈ rows, key old = key row ∧ merge old = .ok other := by
  induction rows generalizing rows' with
  | nil =>
    cases h
    simpa using hmem
  | cons old rows ih =>
    rcases upsert_cons h with ⟨heq, merged, hmerged, rfl⟩ | ⟨-, rest, hrest, rfl⟩
    · rcases List.mem_cons.1 hmem with rfl | hmem
      · exact .inr (.inr ⟨old, by simp, heq, hmerged⟩)
      · exact .inl (by simp [hmem])
    · rcases List.mem_cons.1 hmem with rfl | hmem
      · exact .inl (by simp)
      · rcases ih hrest hmem with hmem | rfl | ⟨old', hold', heq, hmerged⟩
        · exact .inl (by simp [hmem])
        · exact .inr (.inl rfl)
        · exact .inr (.inr ⟨old', by simp [hold'], heq, hmerged⟩)

/-- One row is written, the one found under the key of the new row. -/
theorem upsert_written {merge : R → Except ε R} {row : R}
    (hmerge : ∀ old merged, key old = key row → merge old = .ok merged → key merged = key row)
    (h : upsert key merge row rows = .ok rows') :
    ∃ written, find key (key row) rows' = some written ∧
      (written = row ∨ ∃ old ∈ rows, merge old = .ok written) ∧
      ∀ other ∈ rows', other ∈ rows ∨ other = written := by
  induction rows generalizing rows' with
  | nil =>
    cases h
    exact ⟨row, find_cons_self, .inl rfl, by simp⟩
  | cons old rows ih =>
    rcases upsert_cons h with ⟨heq, merged, hmerged, rfl⟩ | ⟨hne, rest, hrest, rfl⟩
    · have hkey := hmerge old merged heq hmerged
      have hfound : find key (key row) (merged :: rows) = some merged := by
        rw [find_cons, if_pos hkey]
      refine ⟨merged, hfound, .inr ⟨old, by simp, hmerged⟩, ?_⟩
      intro other hother
      rcases List.mem_cons.1 hother with rfl | hother
      · exact .inr rfl
      · exact .inl (by simp [hother])
    · obtain ⟨written, hfound, hsource, hothers⟩ := ih hrest
      refine ⟨written, by rw [find_cons_of_ne hne, hfound], ?_, ?_⟩
      · rcases hsource with hnew | ⟨source, hsource, hmerged⟩
        · exact .inl hnew
        · exact .inr ⟨source, by simp [hsource], hmerged⟩
      · intro other hother
        rcases List.mem_cons.1 hother with rfl | hother
        · exact .inl (by simp)
        · rcases hothers other hother with hold | hwritten
          · exact .inl (by simp [hold])
          · exact .inr hwritten

/-- What all rows satisfy, old and new, and merging keeps, all rows satisfy afterwards. -/
theorem forall_upsertAll {p : R → Prop} (hrows : ∀ row ∈ rows, p row) (hnew : ∀ row ∈ new, p row)
    (hmerge : ∀ row ∈ new, ∀ old merged, key old = key row → p old → merge row old = .ok merged →
      p merged)
    (h : upsertAll key merge new rows = .ok rows') : ∀ row ∈ rows', p row := by
  induction new generalizing rows with
  | nil =>
    cases h
    exact hrows
  | cons row new ih =>
    obtain ⟨mid, hmid, hrest⟩ := upsertAll_cons h
    have hmidRows : ∀ other ∈ mid, p other := by
      intro other hother
      rcases mem_upsert hmid hother with hmem | rfl | ⟨old, hold, heq, hmerged⟩
      · exact hrows other hmem
      · exact hnew other (by simp)
      · exact hmerge row (by simp) old other heq (hrows old hold) hmerged
    exact ih hmidRows (fun r hr => hnew r (by simp [hr])) (fun r hr => hmerge r (by simp [hr])) hrest

/-- Where the new rows have different keys, a row afterwards is an old one, a new one, or what a new one
was merged into. -/
theorem mem_upsertAll (hmerge : ∀ row old merged, merge row old = .ok merged → key merged = key old)
    (hnew : Distinct key new) (h : upsertAll key merge new rows = .ok rows') {other : R}
    (hmem : other ∈ rows') :
    other ∈ rows ∨ other ∈ new ∨ ∃ row ∈ new, ∃ old ∈ rows, key old = key row ∧ merge row old = .ok other := by
  induction new generalizing rows with
  | nil =>
    cases h
    exact .inl hmem
  | cons row new ih =>
    obtain ⟨mid, hmid, hrest⟩ := upsertAll_cons h
    rcases ih hnew.tail hrest with hother | hother | ⟨row', hrow', old, hold, hkey, hmerged⟩
    · rcases mem_upsert hmid hother with hother | rfl | ⟨old, hold, hkey, hmerged⟩
      · exact .inl hother
      · exact .inr (.inl (by simp))
      · exact .inr (.inr ⟨row, by simp, old, hold, hkey, hmerged⟩)
    · exact .inr (.inl (by simp [hother]))
    · have hne : key row ≠ key row' := fun heq => find_eq_none.1 hnew.notMem row' hrow' heq.symm
      rcases mem_upsert hmid hold with hold | rfl | ⟨older, _, hkey', hmerged'⟩
      · exact .inr (.inr ⟨row', by simp [hrow'], old, hold, hkey, hmerged⟩)
      · exact absurd hkey hne
      · exact absurd (hkey'.symm.trans ((hmerge row older old hmerged').symm.trans hkey)) hne

/-- What stands under a key afterwards: the old row where nothing new has the key, else the new row,
merged into the old one if there was one. -/
inductive Upserted (merge : R → R → Except ε R) : Option R → Option R → Option R → Prop
  | kept (old : Option R) : Upserted merge none old old
  | inserted (row : R) : Upserted merge (some row) none (some row)
  | merged {row old merged : R} (h : merge row old = .ok merged) :
    Upserted merge (some row) (some old) (some merged)

omit [DecidableEq K] in
theorem Upserted.of_none {old now : Option R} (h : Upserted merge none old now) : now = old := by
  cases h
  rfl

theorem find_upsertAll (hmerge : ∀ row old merged, merge row old = .ok merged → key merged = key old)
    (hnew : Distinct key new) (h : upsertAll key merge new rows = .ok rows') (k : K) :
    Upserted merge (find key k new) (find key k rows) (find key k rows') := by
  induction new generalizing rows with
  | nil =>
    cases h
    exact .kept _
  | cons row new ih =>
    obtain ⟨mid, hmid, hrest⟩ := upsertAll_cons h
    have hind := ih hnew.tail hrest
    by_cases hk : key row = k
    · subst hk
      rw [hnew.notMem] at hind
      rw [find_cons_self]
      rw [hind.of_none]
      rcases find_upsert_self (hmerge row) hmid with ⟨hnone, hsome⟩ | ⟨old, merged, hold, hmerged, hsome⟩
      · rw [hnone, hsome]
        exact .inserted row
      · rw [hold, hsome]
        exact .merged hmerged
    · rw [find_cons_of_ne hk]
      rwa [find_upsert_of_ne (hmerge row) hmid hk] at hind

theorem find_upsertAll_singleton
    (hmerge : ∀ row old merged, merge row old = .ok merged → key merged = key old) {row : R}
    (h : upsertAll key merge [row] rows = .ok rows') :
    Upserted merge (some row) (find key (key row) rows) (find key (key row) rows') := by
  have hsingle : Distinct key [row] := List.nodup_singleton _
  have hupserted := find_upsertAll hmerge hsingle h (key row)
  rwa [find_cons_self] at hupserted

theorem upsertAll_isOk (hmerge : ∀ row old merged, merge row old = .ok merged → key merged = key old)
    (hnew : Distinct key new)
    (h : ∀ row ∈ new, ∀ old, find key (key row) rows = some old → ∃ merged, merge row old = .ok merged) :
    ∃ rows', Relational.upsertAll key merge new rows = .ok rows' := by
  induction new generalizing rows with
  | nil => exact ⟨rows, rfl⟩
  | cons row new ih =>
    have hrow : ∀ old, find key (key row) rows = some old → ∃ merged, merge row old = .ok merged :=
      h row (by simp)
    obtain ⟨mid, hmid⟩ := upsert_isOk hrow
    have hothers : ∀ other ∈ new, find key (key other) mid = find key (key other) rows := by
      intro other hother
      have hne : key row ≠ key other := by
        intro heq
        exact find_eq_none.1 hnew.notMem other hother heq.symm
      exact find_upsert_of_ne (hmerge row) hmid hne
    have hrest : ∀ other ∈ new, ∀ old, find key (key other) mid = some old →
        ∃ merged, merge other old = .ok merged := by
      intro other hother old hold
      rw [hothers other hother] at hold
      exact h other (by simp [hother]) old hold
    obtain ⟨rows', hrows'⟩ := ih hnew.tail hrest
    have hall : Relational.upsertAll key merge (row :: new) rows = .ok rows' := by
      unfold Relational.upsertAll at hrows' ⊢
      rw [List.foldlM_cons, hmid]
      exact hrows'
    exact ⟨rows', hall⟩

/-- An upsert whose merges never fail does not fail. -/
theorem upsertAll_total (hmerge : ∀ row old, ∃ merged, merge row old = .ok merged) (new rows : List R) :
    ∃ rows', Relational.upsertAll key merge new rows = .ok rows' := by
  induction new generalizing rows with
  | nil => exact ⟨rows, rfl⟩
  | cons row new ih =>
    have hrow : ∀ old, find key (key row) rows = some old → ∃ merged, merge row old = .ok merged :=
      fun old _ => hmerge row old
    obtain ⟨mid, hmid⟩ := upsert_isOk hrow
    obtain ⟨rows', hrows'⟩ := ih mid
    have hall : Relational.upsertAll key merge (row :: new) rows = .ok rows' := by
      unfold Relational.upsertAll at hrows' ⊢
      rw [List.foldlM_cons, hmid]
      exact hrows'
    exact ⟨rows', hall⟩

end UpsertAll

end Relational
