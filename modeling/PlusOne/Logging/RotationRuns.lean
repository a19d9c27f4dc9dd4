import PlusOne.Logging.Rotation

/-! # Runs of the file sink

One write after another keeps the records, as long as no write finds what would lose one. -/

namespace PlusOne

open Files FileSink

/-- What a write is not to find: at start-up a file it would leave with an unfinished line, under the name
the active file is to get another file, or, with no backups, a file to rotate out. -/
structure Spares (F : LogFormats) (O : FileSinkOptions) (s : FileSink) (record : LogEnvelopeV1) (now : ℕ) : Prop where
  startUp : s.uncertain = false → s.initialized = false → ∀ content, s.files.lookup .active = some content →
    migratedKind F content = none → unfinished lineFeed content = []
  torn : s.uncertain = true → s.files.lookup .active ≠ none →
    s.files.lookup (.preserved .torn (timestampSuffix F now)) = none
  migrated : s.uncertain = false → s.initialized = false → ∀ content, s.files.lookup .active = some content →
    ∀ kind, migratedKind F content = some kind → s.files.lookup (.preserved kind (timestampSuffix F now)) = none
  backups : O.backupCount = 0 → ∀ line, serializeLogEnvelope F record = some line →
    rotates O line.length (ensureReady F now s).files = true → (ensureReady F now s).files.lookup .active = some []

/-- A run in which no write finds what would lose a record. -/
inductive SparedRun (F : LogFormats) (O : FileSinkOptions) : SinkHistory → Prop
  | start : SparedRun F O .initial
  | restart {h h' : SinkHistory} (run : SparedRun F O h) (step : h.step F O .restart = some h') : SparedRun F O h'
  | write {h h' : SinkHistory} {record : LogEnvelopeV1} {now : ℕ} {outcome : AppendOutcome} (run : SparedRun F O h)
      (spares : Spares F O h.sink record now) (step : h.step F O (.write record now outcome) = some h') :
      SparedRun F O h'

/-- What holds of the files between the operations of a write. -/
structure SinkSound (F : LogFormats) (O : FileSinkOptions) (files : SinkFiles Bytes) (resolved rotatedOut : List Bytes) :
    Prop where
  kept : ∃ gens, KeptIn files.lookup resolved rotatedOut gens
  chained : files.Chained O.backupCount
  size : ∀ content, files.lookup .active = some content → O.maxBytes < content.length →
    ∃ record line, serializeLogEnvelope F record = some line ∧ content <+: line

/-- The active file has no unfinished line. -/
def ActiveClosed (files : SinkFiles Bytes) : Prop :=
  ∀ content, files.lookup .active = some content → unfinished lineFeed content = []

variable {F : LogFormats} {O : FileSinkOptions} {files files' : SinkFiles Bytes} {resolved rotatedOut : List Bytes}
  {s : FileSink} {record : LogEnvelopeV1} {now nextBytes : ℕ} {content line : Bytes}

theorem SinkSound.of_lookup_eq (h : SinkSound F O files resolved rotatedOut)
    (heq : ∀ path, files'.lookup path = files.lookup path) : SinkSound F O files' resolved rotatedOut := by
  obtain ⟨gens, hgens⟩ := h.kept
  constructor
  case kept => exact ⟨gens, hgens.of_stored_eq heq⟩
  case chained =>
    constructor
    case gapless =>
      intro index hi hle hnone
      rw [heq] at hnone ⊢
      exact h.chained.gapless index hi hle hnone
    case within =>
      intro index hne
      rw [heq] at hne
      exact h.chained.within index hne
  case size =>
    intro content hactive
    rw [heq] at hactive
    exact h.size content hactive

/-- An empty active file is closed and small. -/
theorem sound_of_empty (hkept : ∃ gens, KeptIn files.lookup resolved rotatedOut gens)
    (hchained : files.Chained O.backupCount) (hactive : files.lookup .active = some []) :
    SinkSound F O files resolved rotatedOut ∧ ActiveClosed files := by
  have hempty : ∀ content, files.lookup .active = some content → content = [] := by
    intro content hcontent
    rw [hactive] at hcontent
    exact (Option.some.inj hcontent).symm
  refine ⟨⟨hkept, hchained, ?_⟩, ?_⟩
  · intro content hcontent hlarge
    rw [hempty content hcontent] at hlarge
    simp at hlarge
  · intro content hcontent
    rw [hempty content hcontent]
    rfl

/-! ## Getting ready -/

theorem ensureActive_of_some (hactive : files.lookup .active = some content) (path : SinkPath) :
    (files.ensureActive []).lookup path = files.lookup path := by
  rw [SinkFiles.lookup_ensureActive]
  by_cases hpath : path = .active
  · subst hpath
    simp [hactive]
  · rw [if_neg hpath]

theorem ensureActive_sound (h : SinkSound F O files resolved rotatedOut) (hclosed : ActiveClosed files) :
    SinkSound F O (files.ensureActive []) resolved rotatedOut ∧ ActiveClosed (files.ensureActive []) := by
  cases hactive : files.lookup .active with
  | some content =>
    have heq := ensureActive_of_some hactive
    refine ⟨h.of_lookup_eq heq, ?_⟩
    intro c hc
    rw [heq] at hc
    exact hclosed c hc
  | none =>
    obtain ⟨gens, hgens⟩ := h.kept
    have hlookup : ∀ path, (files.ensureActive []).lookup path = if path = .active then some [] else files.lookup path := by
      intro path
      rw [SinkFiles.lookup_ensureActive, hactive, Option.getD_none]
    exact sound_of_empty (hgens.create hactive hlookup) (SinkFiles.ensureActive_chained h.chained) (by simp [hlookup])

/-- Where the files are when the active one is moved aside. -/
def asidePlace (kind : PreservedKind) (suffix : String) : SinkPath → Option SinkPath
  | .active => some (.preserved kind suffix)
  | .backup index => some (.backup index)
  | .preserved kind' suffix' => if kind' = kind ∧ suffix' = suffix then none else some (.preserved kind' suffix')

theorem asidePlace_of_ne {kind : PreservedKind} {suffix : String} {path : SinkPath} (hactive : path ≠ .active)
    (hpath : path ≠ .preserved kind suffix) : asidePlace kind suffix path = some path := by
  cases path with
  | active => exact absurd rfl hactive
  | backup index => rfl
  | preserved kind' suffix' =>
    rw [asidePlace, if_neg]
    rintro ⟨hkind, hsuffix⟩
    exact hpath (by rw [hkind, hsuffix])

/-- A place tells what is moved to it. -/
theorem eq_of_asidePlace {kind : PreservedKind} {suffix : String} {path target : SinkPath}
    (h : asidePlace kind suffix path = some target) :
    path = if target = .preserved kind suffix then .active else target := by
  cases path with
  | active =>
    obtain rfl := Option.some.inj h
    rw [if_pos rfl]
  | backup index =>
    obtain rfl := Option.some.inj h
    rfl
  | preserved kind' suffix' =>
    rw [asidePlace, Option.ite_none_left_eq_some] at h
    obtain ⟨hne, heq⟩ := h
    obtain rfl := Option.some.inj heq
    rw [if_neg fun hsame => hne (SinkPath.preserved.inj hsame)]

theorem mayPrecede_aside {place place' : Option SinkPath} {kind : PreservedKind} {suffix : String}
    (hfree' : place' ≠ some (.preserved kind suffix)) (h : MayPrecede place place') :
    MayPrecede (place.bind (asidePlace kind suffix)) (place'.bind (asidePlace kind suffix)) := by
  cases place with
  | none => trivial
  | some path =>
    cases path with
    | active => exact absurd h id
    | backup index =>
      cases place' with
      | none => exact h
      | some path' =>
        cases path' with
        | active => trivial
        | backup index' => exact h
        | preserved kind' suffix' =>
          have hne : SinkPath.preserved kind' suffix' ≠ .preserved kind suffix := fun heq => hfree' (by rw [heq])
          rw [Option.bind_some, Option.bind_some, asidePlace_of_ne (by simp) hne]
          trivial
    | preserved kind' suffix' =>
      by_cases hsame : kind' = kind ∧ suffix' = suffix
      · rw [Option.bind_some, asidePlace, if_pos hsame]
        trivial
      · rw [Option.bind_some, asidePlace, if_neg hsame]
        trivial

/-- The active file goes aside, to a name that is free, and an empty one takes its place. -/
theorem preserveActive_sound {kind : PreservedKind} (h : SinkSound F O files resolved rotatedOut)
    (hactive : files.lookup .active = some content)
    (hfree : files.lookup (.preserved kind (timestampSuffix F now)) = none) :
    SinkSound F O ((preserveActive F kind now files).ensureActive []) resolved rotatedOut ∧
      ActiveClosed ((preserveActive F kind now files).ensureActive []) := by
  obtain ⟨gens, hgens⟩ := h.kept
  have hrename : ∀ path, (preserveActive F kind now files).lookup path =
      if path = .preserved kind (timestampSuffix F now) then some content
      else if path = .active then none else files.lookup path := by
    intro path
    rw [preserveActive, if_pos (by simp [SinkFiles.pathExists, hactive]), SinkFiles.lookup_rename hactive]
  generalize timestampSuffix F now = suffix at hfree hrename
  have hnone : (preserveActive F kind now files).lookup .active = none := by simp [hrename]
  have hlookup : ∀ path, ((preserveActive F kind now files).ensureActive []).lookup path =
      if path = .active then some [] else (preserveActive F kind now files).lookup path := by
    intro path
    rw [SinkFiles.lookup_ensureActive, hnone, Option.getD_none]
  have hmoves : ∀ path c, (preserveActive F kind now files).lookup path = some c ↔
      ∃ source, files.lookup source = some c ∧ asidePlace kind suffix source = some path := by
    intro path c
    rw [hrename]
    constructor
    · intro hc
      by_cases htarget : path = .preserved kind suffix
      · rw [if_pos htarget] at hc
        exact ⟨.active, by rw [hactive, hc], by rw [htarget, asidePlace]⟩
      · rw [if_neg htarget, Option.ite_none_left_eq_some] at hc
        exact ⟨path, hc.2, asidePlace_of_ne hc.1 htarget⟩
    · rintro ⟨source, hsource, hplace⟩
      by_cases hsame : source = .active
      · subst hsame
        obtain rfl := Option.some.inj hplace
        rw [if_pos rfl, ← hsource, hactive]
      · have hne : source ≠ .preserved kind suffix := by
          intro heq
          rw [heq, hfree] at hsource
          cases hsource
        rw [asidePlace_of_ne hsame hne] at hplace
        obtain rfl := Option.some.inj hplace
        rw [if_neg hne, if_neg hsame, hsource]
  have hmoved : ∃ gens', KeptIn (preserveActive F kind now files).lookup resolved (rotatedOut ++ []) gens' := by
    refine hgens.move ?_ ?_ (hgens.nothing_out ?_) hmoves
    · intro path path' target hpath hpath'
      rw [eq_of_asidePlace hpath, eq_of_asidePlace hpath']
    · intro place place' _ hstored' hprecedes
      exact mayPrecede_aside (fun heq => hstored' _ heq hfree) hprecedes
    · intro path hpath
      by_cases hsource : path = .active
      · simp [hsource, asidePlace]
      · have hne : path ≠ .preserved kind suffix := fun heq => hpath (heq ▸ hfree)
        simp [asidePlace_of_ne hsource hne]
  rw [List.append_nil] at hmoved
  obtain ⟨gens', hgens'⟩ := hmoved
  refine sound_of_empty (hgens'.create hnone hlookup) ?_ (by simp [hlookup])
  apply SinkFiles.ensureActive_chained
  constructor
  case gapless =>
    intro index hi hle hgap
    simp only [hrename] at hgap ⊢
    exact h.chained.gapless index hi hle hgap
  case within =>
    intro index hne
    simp only [hrename] at hne
    exact h.chained.within index hne

theorem ensureReady_sound {now : ℕ} (h : SinkSound F O s.files resolved rotatedOut)
    (hclosed : s.initialized = true → s.uncertain = false → ActiveClosed s.files) (hspares : Spares F O s record now) :
    SinkSound F O (ensureReady F now s).files resolved rotatedOut ∧ ActiveClosed (ensureReady F now s).files := by
  unfold ensureReady
  by_cases huncertain : s.uncertain = true
  · rw [if_pos huncertain]
    show SinkSound F O ((preserveActive F .torn now s.files).ensureActive []) resolved rotatedOut ∧ _
    cases hactive : s.files.lookup .active with
    | some content => exact preserveActive_sound h hactive (hspares.torn huncertain (by simp [hactive]))
    | none =>
      have hsame : preserveActive F .torn now s.files = s.files := by
        simp [preserveActive, SinkFiles.pathExists, hactive]
      rw [hsame]
      exact ensureActive_sound h fun content hcontent => by simp [hactive] at hcontent
  · rw [if_neg huncertain]
    rw [Bool.not_eq_true] at huncertain
    by_cases hinitialized : s.initialized = true
    · rw [hinitialized]
      exact ⟨h, hclosed hinitialized huncertain⟩
    · rw [Bool.not_eq_true] at hinitialized
      rw [hinitialized]
      show SinkSound F O ((migrateActive F now s.files).ensureActive []) resolved rotatedOut ∧ _
      cases hactive : s.files.lookup .active with
      | none =>
        simp only [migrateActive, hactive]
        exact ensureActive_sound h fun content hcontent => by simp [hactive] at hcontent
      | some content =>
        cases hkind : migratedKind F content with
        | none =>
          simp only [migrateActive, hactive, hkind]
          apply ensureActive_sound h
          intro c hc
          exact hspares.startUp huncertain hinitialized c hc
            (by rwa [← Option.some.inj (hactive.symm.trans hc)])
        | some kind =>
          simp only [migrateActive, hactive, hkind]
          exact preserveActive_sound h hactive (hspares.migrated huncertain hinitialized content hactive kind hkind)

theorem migrateActive_left (hactive : files.lookup .active = some content) (hleft : migratedKind F content = none) :
    migrateActive F now files = files := by
  simp only [migrateActive, hactive, hleft]

theorem ensureReady_restart (h : migrateActive F now s.files = s.files) :
    ensureReady F now s.restart = ⟨s.files.ensureActive [], true, false⟩ := by
  show (⟨(migrateActive F now s.files).ensureActive [], true, false⟩ : FileSink) = _
  rw [h]

/-! ## Rotating -/

open SinkFiles in
/-- A rotation keeps the order of age. -/
theorem mayPrecede_moved {backupCount : ℕ} {place place' : Option SinkPath}
    (hplace : ∀ index, place = some (.backup index) → 1 ≤ index)
    (hplace' : ∀ index, place' = some (.backup index) → 1 ≤ index) (h : MayPrecede place place') :
    MayPrecede (place.bind (movedPlace backupCount)) (place'.bind (movedPlace backupCount)) := by
  cases place with
  | none => trivial
  | some path =>
    cases path with
    | active => exact absurd h id
    | preserved kind suffix => trivial
    | backup index =>
      have hone := hplace index rfl
      by_cases hlt : index < backupCount
      · rw [Option.bind_some, movedPlace, if_pos ⟨hone, hlt⟩]
        cases place' with
        | none => exact h
        | some path' =>
          cases path' with
          | active =>
            show 1 < index + 1
            omega
          | preserved kind suffix => trivial
          | backup index' =>
            have hless : index' < index := h
            have hone' := hplace' index' rfl
            rw [Option.bind_some, movedPlace, if_pos ⟨hone', by omega⟩]
            show index' + 1 < index + 1
            omega
      · rw [Option.bind_some, movedPlace, if_neg (fun hboth => hlt hboth.2)]
        trivial

open SinkFiles in
/-- A rotation puts out the oldest backup, after those before it. -/
theorem KeptIn.oldest_out {stored : SinkPath → Option Bytes} {gens : List Generation} {backupCount : ℕ}
    (h : KeptIn stored resolved rotatedOut gens)
    (hwithin : ∀ index, stored (.backup index) ≠ none → 1 ≤ index ∧ index ≤ backupCount) :
    (gens.filter fun g => (g.place.bind (movedPlace backupCount)).isNone).map Generation.content =
      rotatedOut ++ (stored (.backup backupCount)).toList := by
  have hsplit : (gens.filter fun g => (g.place.bind (movedPlace backupCount)).isNone) =
      gens.filter fun g => g.place.isNone || decide (g.place = some (.backup backupCount)) := by
    apply List.filter_congr
    intro g hg
    cases hplace : g.place with
    | none => rfl
    | some path =>
      have hstored := (h.files path g.content).2 ⟨g, hg, hplace, rfl⟩
      cases path with
      | active => simp [movedPlace]
      | preserved kind suffix => simp [movedPlace]
      | backup index =>
        obtain ⟨hone, hle⟩ := hwithin index (by simp [hstored])
        by_cases hlt : index < backupCount
        · simp [movedPlace, hone, hlt]
          omega
        · have heq : index = backupCount := by omega
          simp [movedPlace, heq]
  rw [hsplit, filter_or_eq_append, List.map_append, h.out]
  · congr 1
    cases holdest : stored (.backup backupCount) with
    | none =>
      have hnone : gens.filter (fun g => decide (g.place = some (.backup backupCount))) = [] := by
        apply List.filter_eq_nil_iff.2
        intro g hg hplace
        have hstored := (h.files _ g.content).2 ⟨g, hg, of_decide_eq_true hplace, rfl⟩
        rw [holdest] at hstored
        cases hstored
      rw [hnone]
      rfl
    | some content =>
      obtain ⟨g, hg, hplace, hcontent⟩ := (h.files _ content).1 holdest
      rw [filter_eq_singleton h.once hg hplace, List.map_singleton, hcontent]
      rfl
  · intro g hg
    simp [of_decide_eq_true hg]
  · apply h.order.imp
    intro g g' hprecedes hplace
    rw [of_decide_eq_true hplace] at hprecedes
    cases hplace' : g'.place with
    | none =>
      rw [hplace'] at hprecedes
      exact absurd hprecedes id
    | some path => rfl

theorem rotateIfNeeded_sound (h : SinkSound F O files resolved rotatedOut) (hclosed : ActiveClosed files)
    (hbackups : O.backupCount = 0 → rotates O nextBytes files = true → files.lookup .active = some []) :
    SinkSound F O (rotateIfNeeded O nextBytes files) resolved
        (rotatedOut ++ if rotates O nextBytes files then (files.lookup (.backup O.backupCount)).toList else []) ∧
      ActiveClosed (rotateIfNeeded O nextBytes files) ∧
      ∃ content, (rotateIfNeeded O nextBytes files).lookup .active = some content ∧
        (content = [] ∨ content.length + nextBytes ≤ O.maxBytes) := by
  unfold rotateIfNeeded
  by_cases hrotates : rotates O nextBytes files = true
  · rw [if_pos hrotates, if_pos hrotates]
    by_cases hzero : O.backupCount = 0
    · -- only an empty file is thrown away
      have hactive := hbackups hzero hrotates
      have heq : ∀ path, (files.rotate O.backupCount []).lookup path = files.lookup path := by
        intro path
        rw [SinkFiles.rotate, if_pos hzero, SinkFiles.lookup_ensureActive]
        by_cases hpath : path = .active
        · subst hpath
          simp [SinkFiles.lookup_unlink, hactive]
        · rw [if_neg hpath, SinkFiles.lookup_unlink, if_neg hpath]
      have hnone : files.lookup (.backup O.backupCount) = none := hzero ▸ h.chained.lookup_zero
      rw [hnone, Option.toList_none, List.append_nil]
      refine ⟨h.of_lookup_eq heq, ?_, [], by rw [heq, hactive], .inl rfl⟩
      intro content hcontent
      rw [heq] at hcontent
      exact hclosed content hcontent
    · have hpos : 0 < O.backupCount := by omega
      obtain ⟨content, hactive⟩ : ∃ content, files.lookup .active = some content := by
        cases hactive : files.lookup .active with
        | some content => exact ⟨content, rfl⟩
        | none => simp [rotates, hactive] at hrotates
      obtain ⟨gens, hgens⟩ := h.kept
      have hnew : (files.rotate O.backupCount []).lookup .active = some [] :=
        SinkFiles.lookup_rotate h.chained hpos hactive .active
      -- the files have moved, and the active one is made
      have hmoved : ∃ gens', KeptIn (fun path => if path = .active then none else (files.rotate O.backupCount []).lookup path)
          resolved (rotatedOut ++ (files.lookup (.backup O.backupCount)).toList) gens' := by
        refine hgens.move ?_ ?_ (hgens.oldest_out h.chained.within) ?_
        · intro path path' target hpath hpath'
          rw [SinkFiles.eq_placeBefore hpath, SinkFiles.eq_placeBefore hpath']
        · intro place place' hplace hplace' hprecedes
          exact mayPrecede_moved (fun index hindex => (h.chained.within index (hplace _ hindex)).1)
            (fun index hindex => (h.chained.within index (hplace' _ hindex)).1) hprecedes
        · intro path c
          rw [Option.ite_none_left_eq_some, SinkFiles.lookup_rotate_eq_some h.chained hpos hactive]
          constructor
          · rintro ⟨hne, ⟨hpath, _⟩ | hsource⟩
            · exact absurd hpath hne
            · exact hsource
          · rintro ⟨source, hsource, hplace⟩
            refine ⟨?_, .inr ⟨source, hsource, hplace⟩⟩
            rintro rfl
            cases source with
            | active => simp [SinkFiles.movedPlace] at hplace
            | backup index => simp [SinkFiles.movedPlace] at hplace
            | preserved kind suffix => simp [SinkFiles.movedPlace] at hplace
      obtain ⟨gens', hgens'⟩ := hmoved
      have hmade : ∀ path, (files.rotate O.backupCount []).lookup path = if path = .active then some []
          else if path = .active then none else (files.rotate O.backupCount []).lookup path := by
        intro path
        by_cases hpath : path = .active
        · subst hpath
          rw [if_pos rfl, hnew]
        · rw [if_neg hpath, if_neg hpath]
      have hkept := hgens'.create (by rw [if_pos rfl]) hmade
      obtain ⟨hsound, hnewClosed⟩ := @sound_of_empty F O _ _ _ hkept
        (SinkFiles.rotate_chained h.chained hpos hactive) hnew
      exact ⟨hsound, hnewClosed, [], hnew, .inl rfl⟩
  · rw [if_neg hrotates, if_neg hrotates, List.append_nil]
    obtain ⟨hsound, hstill⟩ := ensureActive_sound h hclosed
    refine ⟨hsound, hstill, ?_⟩
    cases hactive : files.lookup .active with
    | none => exact ⟨[], by rw [SinkFiles.lookup_ensureActive, if_pos rfl, hactive, Option.getD_none], .inl rfl⟩
    | some content =>
      have hsmall : content.length + nextBytes ≤ O.maxBytes := by simpa [rotates, hactive] using hrotates
      exact ⟨content, by rw [ensureActive_of_some hactive, hactive], .inr hsmall⟩

/-! ## Appending -/

theorem append_lookup {more : Bytes} (hactive : files.lookup .active = some content) (path : SinkPath) :
    (files.append (· ++ more)).lookup path = if path = .active then some (content ++ more) else files.lookup path := by
  rw [SinkFiles.lookup_append, hactive, Option.map_some]

/-- A first part of a line, after a file that it does not make too large. -/
theorem append_sound {more : Bytes} {added : List Bytes} (h : SinkSound F O files resolved rotatedOut)
    (hactive : files.lookup .active = some content) (hline : serializeLogEnvelope F record = some line)
    (hmore : more <+: line) (hsmall : content = [] ∨ content.length + line.length ≤ O.maxBytes)
    (hwhole : ∀ kept : List Bytes, kept.Sublist (wholeLines lineFeed content) →
      (kept ++ added).Sublist (wholeLines lineFeed (content ++ more))) :
    SinkSound F O (files.append (· ++ more)) (resolved ++ added) rotatedOut := by
  obtain ⟨gens, hgens⟩ := h.kept
  constructor
  case kept => exact hgens.append hactive hwhole (append_lookup hactive)
  case chained => exact SinkFiles.append_chained h.chained
  case size =>
    intro c hc hlarge
    rw [append_lookup hactive, if_pos rfl] at hc
    obtain rfl := Option.some.inj hc
    rcases hsmall with rfl | hsmall
    · exact ⟨record, line, hline, by simpa using hmore⟩
    · have hlength := hmore.length_le
      rw [List.length_append] at hlarge
      omega

/-! ## Runs -/

/-- What a run keeps: its files, and between the writes of one process a closed active file. -/
structure SinkKeeps (F : LogFormats) (O : FileSinkOptions) (h : SinkHistory) : Prop where
  sound : SinkSound F O h.sink.files h.resolved h.rotatedOut
  closed : h.sink.initialized = true → h.sink.uncertain = false → ActiveClosed h.sink.files

theorem sinkKeeps_initial : SinkKeeps F O .initial := by
  have hnone : ∀ path, (SinkHistory.initial).sink.files.lookup path = none := fun path => AList.lookup_empty path
  constructor
  case sound =>
    constructor
    case kept =>
      refine ⟨[], rfl, by simp, ?_, by simp, rfl, List.Pairwise.nil⟩
      intro path content
      simp [hnone]
    case chained =>
      constructor
      case gapless =>
        intro index _ _ _
        exact hnone _
      case within =>
        intro index hne
        exact absurd (hnone _) hne
    case size =>
      intro content hcontent
      rw [hnone] at hcontent
      cases hcontent
  case closed =>
    intro hinitialized
    cases hinitialized

theorem restart_keeps {h h' : SinkHistory} (hk : SinkKeeps F O h) (hstep : h.step F O .restart = some h') :
    SinkKeeps F O h' := by
  obtain rfl := Option.some.inj hstep
  refine ⟨hk.sound, ?_⟩
  intro hinitialized
  cases hinitialized

/-- What a ready sink keeps of its files in a write. -/
theorem writeReady_sound {outcome : AppendOutcome} (h : SinkSound F O s.files resolved rotatedOut) (hclosed : ActiveClosed s.files)
    (hbackups : O.backupCount = 0 → ∀ line, serializeLogEnvelope F record = some line →
      rotates O line.length s.files = true → s.files.lookup .active = some []) :
    SinkSound F O (writeReady F O record outcome s).1.files
        (resolved ++ if (writeReady F O record outcome s).2 then (envelopeText F record).toList else [])
        (rotatedOut ++ SinkHistory.oldestOut F O record s.files) ∧
      ((writeReady F O record outcome s).1.uncertain = false → ActiveClosed (writeReady F O record outcome s).1.files) := by
  unfold writeReady SinkHistory.oldestOut
  cases hline : serializeLogEnvelope F record with
  | none =>
    simp only [Bool.false_eq_true, if_false, List.append_nil]
    exact ⟨h, fun _ => hclosed⟩
  | some line =>
    obtain ⟨text, htext, rfl⟩ := Option.map_eq_some_iff.1 hline
    have hfeed := lineFeed_notMem_envelopeText htext
    obtain ⟨hsound, hstill, content, hactive, hsmall⟩ :=
      rotateIfNeeded_sound h hclosed fun hzero hrotates => hbackups hzero _ hline hrotates
    have hcontent := hstill content hactive
    cases outcome with
    | appended =>
      simp only [if_true, htext, Option.toList_some]
      constructor
      · apply append_sound hsound hactive hline List.prefix_rfl hsmall
        intro kept hkept
        rw [wholeLines_append hcontent, wholeLines_line hfeed]
        exact hkept.append (List.Sublist.refl _)
      · intro _ c hc
        rw [append_lookup hactive, if_pos rfl] at hc
        obtain rfl := Option.some.inj hc
        rw [unfinished_append hcontent, unfinished_line hfeed]
    | failed count =>
      simp only [Bool.false_eq_true, if_false]
      constructor
      · apply append_sound hsound hactive hline (List.take_prefix _ _) hsmall
        intro kept hkept
        rw [List.append_nil]
        exact hkept.trans wholeLines_prefix.sublist
      · intro huncertain
        cases huncertain

theorem write_keeps {h h' : SinkHistory} {outcome : AppendOutcome} (hk : SinkKeeps F O h)
    (hspares : Spares F O h.sink record now) (hstep : h.step F O (.write record now outcome) = some h') :
    SinkKeeps F O h' := by
  rw [SinkHistory.step, Option.ite_none_left_eq_some] at hstep
  obtain ⟨_, hstep⟩ := hstep
  obtain rfl := Option.some.inj hstep
  obtain ⟨hready, hclosed⟩ := ensureReady_sound hk.sound hk.closed hspares
  obtain ⟨hsound, hstill⟩ := writeReady_sound hready hclosed hspares.backups
  exact ⟨hsound, fun _ => hstill⟩

theorem SparedRun.keeps {h : SinkHistory} (hrun : SparedRun F O h) : SinkKeeps F O h := by
  induction hrun with
  | start => exact sinkKeeps_initial
  | restart _ step ih => exact restart_keeps ih step
  | write _ spares step ih => exact write_keeps ih spares step

namespace TestSink

def instant : String := "2026-07-28T10:15:30.123Z"

def envelope (eventName : String) : LogEnvelopeV1 where
  timestamp := instant
  observedTimestamp := instant
  severityText := .info
  severityNumber := 9
  eventName
  body := eventName
  resource := [("service.name", "plus-one")]
  instrumentationScope := "runtime.test"
  traceId := none
  spanId := none
  attributes := []

def textOf (eventName : String) : Bytes := utf8 (stringify (envelope eventName).toJson)

/-- The formats on the first record's text. -/
def formats : LogFormats where
  datetime text := text == instant
  parseJson line := if line = stringify (envelope "first").toJson then some (envelope "first").toJson else none
  decodeUtf8 bytes := if bytes = textOf "first" then stringify (envelope "first").toJson else ""
  toISOString _ := instant

/-- Room for two records. -/
def options : FileSinkOptions := ⟨1000, 3⟩

/-- The process ends when all of the first line but its line feed is in the file, and starts again. -/
def tornEvents : List SinkEvent :=
  [.write (envelope "first") 0 (.failed (textOf "first").length), .restart, .write (envelope "second") 0 .appended]

def torn : FileSink := (FileSink.initial.write formats options (envelope "first") 0 (.failed (textOf "first").length)).1

def glued : FileSink := (torn.restart.write formats options (envelope "second") 0 .appended).1

theorem envelope_parsed : ∀ eventName ∈ ["first", "second"],
    LogEnvelopeSchemaV1.parse formats (envelope eventName).toJson = some (envelope eventName) := by
  decide +kernel

theorem envelopeText_first : envelopeText formats (envelope "first") = some (textOf "first") := by
  have hparse := envelope_parsed "first" (by simp)
  rw [envelopeText, hparse, Option.map_some, textOf]

theorem envelopeText_second : envelopeText formats (envelope "second") = some (textOf "second") := by
  have hparse : LogEnvelopeSchemaV1.parse formats (envelope "second").toJson = some (envelope "second") := by
    decide +kernel
  rw [envelopeText, hparse, Option.map_some, textOf]

theorem lookup_initial (path : SinkPath) : FileSink.initial.files.lookup path = none := AList.lookup_empty path

theorem ready_first : ensureReady formats 0 FileSink.initial = ⟨FileSink.initial.files.ensureActive [], true, false⟩ := rfl

theorem ready_lookup (path : SinkPath) :
    (FileSink.initial.files.ensureActive []).lookup path = if path = .active then some [] else none := by
  rw [SinkFiles.lookup_ensureActive, lookup_initial, lookup_initial, Option.getD_none]

theorem length_textOf : ∀ eventName ∈ ["first", "second"],
    0 < (textOf eventName).length ∧ (textOf eventName).length ≤ 400 := by
  simp only [textOf, utf8, stringify, String.toList_ofList]
  decide +kernel

theorem fits {files : SinkFiles Bytes} {content text : Bytes} (hactive : files.lookup .active = some content)
    (hcontent : content.length ≤ 400) (htext : text.length ≤ 400) :
    rotates options (text ++ [lineFeed]).length files = false := by
  have hroom : content.length + (text ++ [lineFeed]).length ≤ 1000 := by
    rw [List.length_append, List.length_singleton]
    omega
  simp only [rotates, hactive, decide_eq_false_iff_not, not_lt]
  exact hroom

theorem first_fits : rotates options (textOf "first" ++ [lineFeed]).length (FileSink.initial.files.ensureActive []) = false := by
  have hempty : (FileSink.initial.files.ensureActive []).lookup .active = some [] := by rw [ready_lookup, if_pos rfl]
  exact fits hempty (Nat.zero_le _) (length_textOf "first" (by simp)).2

theorem torn_lookup (path : SinkPath) : torn.files.lookup path = if path = .active then some (textOf "first") else none := by
  have hempty : (FileSink.initial.files.ensureActive []).lookup .active = some [] := by rw [ready_lookup, if_pos rfl]
  simp only [torn, FileSink.write, ready_first, writeReady, serializeLogEnvelope, envelopeText_first, Option.map_some,
    rotateIfNeeded, first_fits, Bool.false_eq_true, if_false, List.take_left']
  have hstill : ((FileSink.initial.files.ensureActive []).ensureActive []).lookup .active = some [] := by
    rw [ensureActive_of_some hempty, hempty]
  rw [append_lookup hstill, List.nil_append, ensureActive_of_some hempty, ready_lookup]
  by_cases hpath : path = .active
  · rw [if_pos hpath, if_pos hpath]
  · rw [if_neg hpath, if_neg hpath, if_neg hpath]

/-- All of the torn file's lines are records, so start-up leaves it. -/
theorem torn_left : migratedKind formats (textOf "first") = none := by
  have hnewline : '\n' ∉ (stringify (envelope "first").toJson).toList := by
    rw [stringify, String.toList_ofList]
    exact newline_notMem_stableJson _
  have hcut : cutLines '\n' [] _ = _ := cutLines_of_notMem hnewline
  have hlines : splitLines '\n' (stringify (envelope "first").toJson).toList = [(stringify (envelope "first").toJson).toList] := by
    rw [splitLines, wholeLines, unfinished, hcut, List.nil_append, List.nil_append]
  have hparse := envelope_parsed "first" (by simp)
  have hline : (parseLogEnvelope formats (stringify (envelope "first").toJson)).isSome = true := by
    have hjson : formats.parseJson (stringify (envelope "first").toJson) = some (envelope "first").toJson := by
      simp only [formats, if_true]
    rw [parseLogEnvelope, hjson, Option.bind_some, hparse]
    rfl
  have hdecode : formats.decodeUtf8 (textOf "first") = stringify (envelope "first").toJson := by
    simp only [formats, if_true]
  simp only [migratedKind, hdecode, hlines, List.map_singleton, String.ofList_toList]
  rw [if_pos]
  rw [List.all_eq_true]
  intro line hmem
  obtain rfl := List.mem_singleton.1 (List.mem_filter.1 hmem).1
  exact hline

theorem torn_active : torn.files.lookup .active = some (textOf "first") := by rw [torn_lookup, if_pos rfl]

theorem ready_second : ensureReady formats 0 torn.restart = ⟨torn.files.ensureActive [], true, false⟩ :=
  ensureReady_restart (migrateActive_left torn_active torn_left)

theorem second_fits : rotates options (textOf "second" ++ [lineFeed]).length (torn.files.ensureActive []) = false := by
  have hstill : (torn.files.ensureActive []).lookup .active = some (textOf "first") := by
    rw [ensureActive_of_some torn_active, torn_active]
  exact fits hstill (length_textOf "first" (by simp)).2 (length_textOf "second" (by simp)).2

theorem glued_lookup (path : SinkPath) : glued.files.lookup path =
    if path = .active then some (textOf "first" ++ (textOf "second" ++ [lineFeed])) else none := by
  have hstill : (torn.files.ensureActive []).lookup .active = some (textOf "first") := by
    rw [ensureActive_of_some torn_active, torn_active]
  have hagain : ((torn.files.ensureActive []).ensureActive []).lookup .active = some (textOf "first") := by
    rw [ensureActive_of_some hstill, hstill]
  simp only [glued, FileSink.write, ready_second, writeReady, serializeLogEnvelope, envelopeText_second, Option.map_some,
    rotateIfNeeded, second_fits, Bool.false_eq_true, if_false]
  rw [append_lookup hagain, ensureActive_of_some hstill, ensureActive_of_some torn_active, torn_lookup]
  by_cases hpath : path = .active
  · rw [if_pos hpath, if_pos hpath]
  · rw [if_neg hpath, if_neg hpath, if_neg hpath]

theorem tornEvents_run : Transitions.run (SinkHistory.step formats options) .initial tornEvents =
    some ⟨glued, 0, [textOf "second"], []⟩ := by
  have hfirst : SinkHistory.initial.step formats options (.write (envelope "first") 0 (.failed (textOf "first").length)) =
      some ⟨torn, 0, [], []⟩ := by
    simp only [SinkHistory.step, SinkHistory.initial, SinkHistory.oldestOut, torn, FileSink.write, ready_first, writeReady,
      serializeLogEnvelope, envelopeText_first, Option.map_some, first_fits, Bool.false_eq_true, if_false,
      List.append_nil, Nat.lt_irrefl]
  have hsecond : SinkHistory.step formats options ⟨torn.restart, 0, [], []⟩ (.write (envelope "second") 0 .appended) =
      some ⟨glued, 0, [textOf "second"], []⟩ := by
    simp only [SinkHistory.step, SinkHistory.oldestOut, glued, FileSink.write, ready_second, writeReady,
      serializeLogEnvelope, envelopeText_second, Option.map_some, second_fits, Bool.false_eq_true, if_false, if_true,
      List.append_nil, List.nil_append, Nat.lt_irrefl, Option.toList_some]
  rw [tornEvents, Transitions.run, hfirst, Option.bind_some, Transitions.run, SinkHistory.step, Option.bind_some,
    Transitions.run, hsecond, Option.bind_some, Transitions.run]

def written : SinkHistory :=
  ((SinkHistory.initial.step formats options (.write (envelope "first") 0 .appended)).getD .initial)

theorem spared_initial : Spares formats options FileSink.initial (envelope "first") 0 where
  startUp := by
    intro _ _ content hcontent
    cases hcontent
  torn := by
    intro huncertain
    cases huncertain
  migrated := by
    intro _ _ content hcontent
    cases hcontent
  backups := by
    intro hzero
    cases hzero

end TestSink

end PlusOne
