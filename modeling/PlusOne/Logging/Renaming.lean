import PlusOne.Logging.FileSink

/-! # What the sink's file operations leave under each path -/

namespace PlusOne

namespace SinkFiles

variable {C : Type} {d : SinkFiles C} {content fresh : C} {source target path : SinkPath}

theorem lookup_unlink : (d.unlink target).lookup path = if path = target then none else d.lookup path := by
  by_cases h : path = target
  · rw [if_pos h, h, unlink, AList.lookup_erase]
  · rw [if_neg h, unlink, AList.lookup_erase_ne h]

theorem lookup_rename (h : d.lookup source = some content) :
    (d.rename source target).lookup path =
      if path = target then some content else if path = source then none else d.lookup path := by
  rw [rename, h]
  by_cases htarget : path = target
  · rw [if_pos htarget, htarget, AList.lookup_insert]
  · rw [if_neg htarget, AList.lookup_insert_ne htarget]
    by_cases hsource : path = source
    · rw [if_pos hsource, hsource, AList.lookup_erase]
    · rw [if_neg hsource, AList.lookup_erase_ne hsource]

theorem lookup_ensureActive : (d.ensureActive fresh).lookup path =
    if path = .active then some ((d.lookup .active).getD fresh) else d.lookup path := by
  unfold ensureActive pathExists
  cases h : d.lookup .active with
  | some content =>
    by_cases hpath : path = .active
    · subst hpath
      simp [h]
    · simp [hpath]
  | none =>
    by_cases hpath : path = .active
    · subst hpath
      simp
    · simp [hpath]

theorem lookup_append {add : C → C} : (d.append add).lookup path =
    if path = .active then (d.lookup .active).map add else d.lookup path := by
  unfold append
  cases h : d.lookup .active with
  | some content =>
    by_cases hpath : path = .active
    · subst hpath
      simp
    · simp [hpath]
  | none =>
    by_cases hpath : path = .active
    · subst hpath
      simp [h]
    · simp [hpath]

/-- The numbered backups have no gap up to an index. -/
def Gapless (d : SinkFiles C) (count : ℕ) : Prop :=
  ∀ index, 1 ≤ index → index ≤ count → d.lookup (.backup index) = none → d.lookup (.backup (index + 1)) = none

/-- The files of a shifted directory: each backup is one further, and the rest is as it was. -/
structure Shifted (d d' : SinkFiles C) (index : ℕ) : Prop where
  moved : ∀ i, 1 ≤ i → i ≤ index → d'.lookup (.backup (i + 1)) = d.lookup (.backup i)
  first : 1 ≤ index → d'.lookup (.backup 1) = none
  rest : ∀ path, (∀ i, 1 ≤ i → i ≤ index + 1 → path ≠ .backup i) → d'.lookup path = d.lookup path

/-- What one round of the loop leaves. -/
theorem shiftBackups_succ {backupCount index : ℕ} (hgap : d.Gapless (index + 1)) :
    ∃ d' : SinkFiles C, d.shiftBackups backupCount (index + 1) = d'.shiftBackups backupCount index ∧
      ∀ path, d'.lookup path = if path = .backup (index + 2) then d.lookup (.backup (index + 1))
        else if path = .backup (index + 1) then none else d.lookup path := by
  cases h : d.lookup (.backup (index + 1)) with
  | none =>
    refine ⟨d, by simp [shiftBackups, pathExists, h], ?_⟩
    intro path
    by_cases hpath : path = .backup (index + 2)
    · rw [if_pos hpath, hpath]
      exact hgap (index + 1) (by omega) (by omega) h
    · rw [if_neg hpath]
      by_cases hpath' : path = .backup (index + 1)
      · rw [if_pos hpath', hpath', h]
      · rw [if_neg hpath']
  | some content =>
    have hne : SinkPath.backup (index + 1) ≠ .backup (index + 2) := by simp
    have hexists : d.pathExists (.backup (index + 1)) = true := by simp [pathExists, h]
    refine ⟨(if index + 2 = backupCount ∧ d.pathExists (.backup (index + 2)) then d.unlink (.backup (index + 2))
      else d).rename (.backup (index + 1)) (.backup (index + 2)), by rw [shiftBackups, if_pos hexists], ?_⟩
    intro path
    split
    · have hsource : (d.unlink (.backup (index + 2))).lookup (.backup (index + 1)) = some content := by
        rw [lookup_unlink, if_neg hne, h]
      rw [lookup_rename hsource, lookup_unlink]
      by_cases htarget : path = .backup (index + 2)
      · rw [if_pos htarget, if_pos htarget]
      · rw [if_neg htarget, if_neg htarget, if_neg htarget]
    · rw [lookup_rename h]

theorem shiftBackups_shifted (backupCount : ℕ) {index : ℕ} (hgap : d.Gapless index) :
    Shifted d (d.shiftBackups backupCount index) index := by
  induction index generalizing d with
  | zero => exact ⟨by omega, by omega, fun _ _ => rfl⟩
  | succ index ih =>
    obtain ⟨d', hd', hlookup⟩ := shiftBackups_succ hgap
    have hgap' : d'.Gapless index := by
      intro i hi hle hnone
      rw [hlookup] at hnone ⊢
      by_cases hlast : i = index
      · simp [hlast]
      · have hnext := hgap i hi (by omega)
        simp only [SinkPath.backup.injEq] at hnone ⊢
        rw [if_neg (by omega), if_neg (by omega)] at hnone ⊢
        exact hnext hnone
    obtain ⟨hmoved, hfirst, hrest⟩ := ih hgap'
    rw [hd']
    constructor
    case moved =>
      intro i hi hle
      by_cases hlast : i = index + 1
      · rw [hlast, hrest _ (by simp; omega), hlookup, if_pos rfl]
      · rw [hmoved i hi (by omega), hlookup]
        simp only [SinkPath.backup.injEq]
        rw [if_neg (by omega), if_neg (by omega)]
    case first =>
      intro _
      by_cases hzero : index = 0
      · subst hzero
        rw [shiftBackups, hlookup]
        simp
      · exact hfirst (by omega)
    case rest =>
      intro path hpath
      rw [hrest path fun i hi hle => hpath i hi (by omega), hlookup, if_neg (hpath (index + 2) (by omega) (by omega)),
        if_neg (hpath (index + 1) (by omega) (by omega))]

/-- Where a rotation moves what is under a path, unless it is rotated out. -/
def movedPlace (backupCount : ℕ) : SinkPath → Option SinkPath
  | .active => some (.backup 1)
  | .backup index => if 1 ≤ index ∧ index < backupCount then some (.backup (index + 1)) else none
  | .preserved kind suffix => some (.preserved kind suffix)

/-- Where the file that a rotation puts under a path was. -/
def placeBefore : SinkPath → SinkPath
  | .active => .active
  | .backup index => if index = 1 then .active else .backup (index - 1)
  | .preserved kind suffix => .preserved kind suffix

variable {backupCount : ℕ}

theorem eq_placeBefore {path target : SinkPath} (h : movedPlace backupCount path = some target) :
    path = placeBefore target := by
  cases path with
  | active =>
    obtain rfl := Option.some.inj h
    rfl
  | backup index =>
    simp only [movedPlace, Option.ite_none_right_eq_some, Option.some.injEq] at h
    obtain ⟨⟨hone, _⟩, rfl⟩ := h
    rw [placeBefore, if_neg (by omega), Nat.add_sub_cancel]
  | preserved kind suffix =>
    obtain rfl := Option.some.inj h
    rfl

theorem movedPlace_ne_active (backupCount : ℕ) (path : SinkPath) : movedPlace backupCount path ≠ some .active := by
  cases path with
  | active => simp [movedPlace]
  | backup index => simp [movedPlace]
  | preserved kind suffix => simp [movedPlace]

/-- Only the backups one to `backupCount` are there, and they have no gap. -/
structure Chained (d : SinkFiles C) (backupCount : ℕ) : Prop where
  gapless : d.Gapless backupCount
  within : ∀ index, d.lookup (.backup index) ≠ none → 1 ≤ index ∧ index ≤ backupCount

theorem Chained.lookup_of_lt {backupCount index : ℕ} (h : d.Chained backupCount) (hlt : backupCount < index) :
    d.lookup (.backup index) = none := by
  by_contra hne
  have hbound := h.within index hne
  omega

theorem Chained.lookup_zero (h : d.Chained backupCount) : d.lookup (.backup 0) = none := by
  by_contra hne
  have hbound := h.within 0 hne
  omega

/-- What is under each path after a rotation that keeps backups. -/
theorem lookup_rotate (hc : d.Chained backupCount) (hpos : 0 < backupCount) (h : d.lookup .active = some content)
    (path : SinkPath) : (d.rotate backupCount fresh).lookup path =
      match path with
      | .active => some fresh
      | .backup 0 => none
      | .backup 1 => some content
      | .backup (index + 2) => if index + 2 ≤ backupCount then d.lookup (.backup (index + 1)) else none
      | .preserved kind suffix => d.lookup (.preserved kind suffix) := by
  have hgap : d.Gapless (backupCount - 1) := fun i hi hle => hc.gapless i hi (by omega)
  obtain ⟨hmoved, hfirst, hrest⟩ := shiftBackups_shifted backupCount hgap
  have hactive : (d.shiftBackups backupCount (backupCount - 1)).lookup .active = some content := by
    rw [hrest _ (by simp), h]
  rw [rotate, if_neg (by omega), lookup_ensureActive]
  set shifted := d.shiftBackups backupCount (backupCount - 1) with hshifted
  have hcleared : ∀ p, (if shifted.pathExists (.backup 1) then shifted.unlink (.backup 1) else shifted).lookup p =
      if p = .backup 1 then none else shifted.lookup p := by
    intro p
    by_cases hexists : shifted.pathExists (.backup 1) = true
    · rw [if_pos hexists, lookup_unlink]
    · rw [if_neg hexists]
      by_cases hp : p = .backup 1
      · rw [if_pos hp, hp]
        simpa [pathExists] using hexists
      · rw [if_neg hp]
  have hsource : (if shifted.pathExists (.backup 1) then shifted.unlink (.backup 1) else shifted).lookup .active =
      some content := by
    rw [hcleared, if_neg (by simp), hactive]
  match path with
  | .active =>
    rw [if_pos rfl, lookup_rename hsource, if_neg (by simp), if_pos rfl]
    rfl
  | .backup 0 =>
    rw [if_neg (by simp), lookup_rename hsource, if_neg (by simp), if_neg (by simp), hcleared, if_neg (by simp),
      hrest _ (by simp; omega), hc.lookup_zero]
  | .backup 1 => rw [if_neg (by simp), lookup_rename hsource, if_pos rfl]
  | .backup (index + 2) =>
    rw [if_neg (by simp), lookup_rename hsource, if_neg (by simp), if_neg (by simp), hcleared, if_neg (by simp)]
    by_cases hle : index + 2 ≤ backupCount
    · rw [hmoved (index + 1) (by omega) (by omega)]
      simp [hle]
    · have hout := hrest (.backup (index + 2)) (by simp; omega)
      rw [hout, hc.lookup_of_lt (by omega)]
      simp [hle]
  | .preserved kind suffix =>
    rw [if_neg (by simp), lookup_rename hsource, if_neg (by simp), if_neg (by simp), hcleared, if_neg (by simp),
      hrest _ (by simp)]

/-- A rotation puts an empty file in the active place and moves the others. -/
theorem lookup_rotate_eq_some (hc : d.Chained backupCount) (hpos : 0 < backupCount)
    (h : d.lookup .active = some content) (c : C) : (d.rotate backupCount fresh).lookup path = some c ↔
      path = .active ∧ c = fresh ∨ ∃ source, d.lookup source = some c ∧ movedPlace backupCount source = some path := by
  rw [lookup_rotate hc hpos h]
  constructor
  · intro hlookup
    match path, hlookup with
    | .active, hlookup => exact .inl ⟨rfl, (Option.some.inj hlookup).symm⟩
    | .backup 1, hlookup => exact .inr ⟨.active, by rw [h, Option.some.inj hlookup], rfl⟩
    | .backup (index + 2), hlookup =>
      by_cases hle : index + 2 ≤ backupCount
      · have hlookup' : d.lookup (.backup (index + 1)) = some c := by simpa [hle] using hlookup
        exact .inr ⟨.backup (index + 1), hlookup', by simp [movedPlace]; omega⟩
      · simp [hle] at hlookup
    | .preserved kind suffix, hlookup => exact .inr ⟨.preserved kind suffix, hlookup, rfl⟩
  · rintro (⟨rfl, rfl⟩ | ⟨source, hsource, hmoved⟩)
    · rfl
    · cases source with
      | active =>
        obtain rfl := Option.some.inj hmoved
        rw [h] at hsource
        exact hsource
      | backup index =>
        simp only [movedPlace, Option.ite_none_right_eq_some, Option.some.injEq] at hmoved
        obtain ⟨⟨hone, hlt⟩, rfl⟩ := hmoved
        obtain ⟨i, rfl⟩ : ∃ i, index = i + 1 := ⟨index - 1, by omega⟩
        simpa [show i + 2 ≤ backupCount by omega] using hsource
      | preserved kind suffix =>
        obtain rfl := Option.some.inj hmoved
        exact hsource

/-- A rotation leaves no path empty that was not. -/
theorem lookup_rotate_ne_none (hc : d.Chained backupCount) (hpos : 0 < backupCount)
    (h : d.lookup .active = some content) (hpath : d.lookup path ≠ none) :
    (d.rotate backupCount fresh).lookup path ≠ none := by
  rw [lookup_rotate hc hpos h]
  cases path with
  | active => simp
  | preserved kind suffix => simpa using hpath
  | backup index =>
    obtain ⟨hi, hle⟩ := hc.within index hpath
    obtain ⟨i, rfl⟩ : ∃ i, index = i + 1 := ⟨index - 1, by omega⟩
    cases i with
    | zero => simp
    | succ i =>
      have hprevious : d.lookup (.backup (i + 1)) ≠ none := fun hnone =>
        hpath (hc.gapless (i + 1) (by omega) (by omega) hnone)
      simpa [hle] using hprevious

theorem rotate_chained (hc : d.Chained backupCount) (hpos : 0 < backupCount) (h : d.lookup .active = some content) :
    (d.rotate backupCount fresh).Chained backupCount := by
  constructor
  case gapless =>
    intro index hi hle hnone
    rw [lookup_rotate hc hpos h] at hnone ⊢
    obtain ⟨i, rfl⟩ : ∃ i, index = i + 1 := ⟨index - 1, by omega⟩
    cases i with
    | zero => simp at hnone
    | succ i =>
      have hprevious : d.lookup (.backup (i + 1)) = none := by simpa [hle] using hnone
      have hnext := hc.gapless (i + 1) (by omega) (by omega) hprevious
      simpa using fun _ => hnext
  case within =>
    intro index hne
    rw [lookup_rotate hc hpos h] at hne
    match index, hne with
    | 1, _ => omega
    | i + 2, hne =>
      by_contra hlarge
      exact hne (by simp; omega)

theorem ensureActive_chained (hc : d.Chained backupCount) :
    (d.ensureActive fresh).Chained backupCount := by
  constructor
  case gapless =>
    intro index hi hle hnone
    rw [lookup_ensureActive, if_neg (by simp)] at hnone ⊢
    exact hc.gapless index hi hle hnone
  case within =>
    intro index hne
    rw [lookup_ensureActive, if_neg (by simp)] at hne
    exact hc.within index hne

theorem append_chained {add : C → C} (hc : d.Chained backupCount) :
    (d.append add).Chained backupCount := by
  constructor
  case gapless =>
    intro index hi hle hnone
    rw [lookup_append, if_neg (by simp)] at hnone ⊢
    exact hc.gapless index hi hle hnone
  case within =>
    intro index hne
    rw [lookup_append, if_neg (by simp)] at hne
    exact hc.within index hne

end SinkFiles

end PlusOne
