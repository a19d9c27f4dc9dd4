import PlusOne.Logging.Following
import PlusOne.Logging.RotationRuns

/-! # What following reports

Between two polls the news of every file are kept apart; a poll that is spared reports them and no others. -/

namespace PlusOne

open Files

variable {F : ReaderFormats} {query : LogQuery} {backupCount : String → ℕ} {h : FollowHistory}

/-- The envelopes of all that came to the log's files since the last look. -/
def pendingAll (F : ReaderFormats) (query : LogQuery) (d : LogDisk) : List LogEnvelopeV1 :=
  (d.places.filter fun place => query.log.bases.contains place.base).flatMap fun place =>
    pendingIn F query (d.files place)

/-- What holds of one place between polls: its files, and what the reader knows of its paths. `listed` says
that the place is one of the log's. -/
structure PlaceFollows (rotated listed : Bool) (backupCount : ℕ) (place : SourcePlace)
    (states : SinkPath → Option FollowState) (files : SinkFiles LogFile) : Prop where
  chained : place.rollback = none → files.Chained backupCount
  distinct : DistinctFiles files
  since : ∀ path file, files.lookup path = some file →
    file.seen ≤ file.content.length ∧ unfinished lineFeed file.since = []
  present : ∀ path, states path ≠ none → listed = true ∧ files.lookup path ≠ none
  known : ∀ path file state, files.lookup path = some file → states path = some state →
    state.inode = file.inode → state.offset = file.seen
  fresh : listed = true → ∀ file, files.lookup .active = some file → states .active = none → file.seen = 0
  inodes : rotated = false → ∀ path file state, files.lookup path = some file → states path = some state →
    state.inode = file.inode
  quiet : rotated = false → ∀ path file, ¬(place.rollback = none ∧ path = .active) →
    files.lookup path = some file → file.since = []

/-- What holds in every state of a run. -/
structure LogFollowed (F : ReaderFormats) (query : LogQuery) (backupCount : String → ℕ) (h : FollowHistory) : Prop where
  places : ∀ place ∈ h.disk.places, PlaceFollows h.rotated (query.log.bases.contains place.base)
    (backupCount place.base) place (h.follower.states place) (h.disk.files place)
  total : (h.appended.filterMap (selectedLine F query)).Perm
    (h.follower.reported.map ReadableLogRecord.envelope ++ pendingAll F query h.disk)
  due : ReportedOnce F query h

/-! ## A changed place -/

theorem update_files (d : LogDisk) (place place' : SourcePlace) (change : SinkFiles LogFile → SinkFiles LogFile) :
    (d.update place change).files place' = if place' = place then change (d.files place) else d.files place' := by
  exact Function.update_apply d.files place (change (d.files place)) place'

/-- What a change adds to the news of one place it adds to all of them, when the log has the place's name. -/
theorem pendingAll_update {d : LogDisk} {base : String} {change : SinkFiles LogFile → SinkFiles LogFile}
    {added : List LogEnvelopeV1} (hplace : sinkPlace base ∈ d.places)
    (h : (pendingIn F query (change (d.files (sinkPlace base)))).Perm (pendingIn F query (d.files (sinkPlace base)) ++ added)) :
    (pendingAll F query (d.update (sinkPlace base) change)).Perm
      (pendingAll F query d ++ if query.log.bases.contains base then added else []) := by
  have hrest : ∀ place, place ≠ sinkPlace base →
      pendingIn F query ((d.update (sinkPlace base) change).files place) = pendingIn F query (d.files place) := by
    intro place hne
    rw [update_files, if_neg hne]
  have hnodup := d.nodup.filter fun place => query.log.bases.contains place.base
  unfold pendingAll
  show (((d.places.filter fun place => query.log.bases.contains place.base).flatMap fun place =>
    pendingIn F query ((d.update (sinkPlace base) change).files place))).Perm _
  by_cases hbase : query.log.bases.contains base = true
  · rw [if_pos hbase]
    apply flatMap_perm_append hnodup (List.mem_filter.2 ⟨hplace, hbase⟩) _ hrest
    rw [update_files, if_pos rfl]
    exact h
  · rw [if_neg hbase, List.append_nil, List.flatMap_def, List.flatMap_def]
    apply List.Perm.of_eq
    congr 1
    apply List.map_congr_left
    intro place hmem
    apply hrest
    rintro rfl
    exact hbase (List.mem_filter.1 hmem).2

/-- The sink of a base name changes its files, and adds lines to the log or none. -/
theorem LogFollowed.change (hf : LogFollowed F query backupCount h) {base : String} (hplace : sinkPlace base ∈ h.disk.places)
    (rotated : Bool) (texts : List Bytes) (change : SinkFiles LogFile → SinkFiles LogFile)
    (hrotated : rotated = false → h.rotated = false)
    (hchanged : PlaceFollows rotated (query.log.bases.contains base) (backupCount base) (sinkPlace base)
      (h.follower.states (sinkPlace base)) (change (h.disk.files (sinkPlace base))))
    (hpending : (pendingIn F query (change (h.disk.files (sinkPlace base)))).Perm
      (pendingIn F query (h.disk.files (sinkPlace base)) ++ texts.filterMap (selectedLine F query))) :
    LogFollowed F query backupCount
      ⟨h.disk.update (sinkPlace base) change, h.follower, rotated,
        h.appended ++ if query.log.bases.contains base then texts else [], h.due⟩ := by
  constructor
  case places =>
    intro place hmem
    rw [update_files]
    by_cases hsame : place = sinkPlace base
    · subst hsame
      rw [if_pos rfl]
      exact hchanged
    · rw [if_neg hsame]
      have hold := hf.places place hmem
      exact { hold with
        inodes := fun hr => hold.inodes (hrotated hr)
        quiet := fun hr => hold.quiet (hrotated hr) }
  case total =>
    have hall := pendingAll_update hplace hpending
    have happended : (h.appended ++ if query.log.bases.contains base then texts else []).filterMap
        (selectedLine F query) = h.appended.filterMap (selectedLine F query) ++
          if query.log.bases.contains base then texts.filterMap (selectedLine F query) else [] := by
      rw [List.filterMap_append]
      by_cases hbase : query.log.bases.contains base = true
      · rw [if_pos hbase, if_pos hbase]
      · rw [if_neg hbase, if_neg hbase, List.filterMap_nil]
    rw [happended]
    exact ((hf.total.append_right _).trans (List.Perm.of_eq (List.append_assoc _ _ _))).trans
      (hall.symm.append_left _)
  case due => exact hf.due

/-! ## Starting -/

theorem start_states (sources : List LogSource) (states : FollowStates) (hnodup : (sources.map LogSource.key).Nodup) :
    let positions := sources.foldl (fun states source =>
      states.set source ⟨source.file.inode, source.file.content.length⟩) states
    (∀ source ∈ sources, positions source.place source.path = some ⟨source.file.inode, source.file.content.length⟩) ∧
      ∀ place path, (place, path) ∉ sources.map LogSource.key → positions place path = states place path := by
  induction sources generalizing states with
  | nil => simp
  | cons source sources ih =>
    rw [List.map_cons, List.nodup_cons] at hnodup
    obtain ⟨hpositions, hothers⟩ := ih (states.set source ⟨source.file.inode, source.file.content.length⟩) hnodup.2
    refine ⟨?_, ?_⟩
    · intro other hother
      rcases List.mem_cons.1 hother with rfl | hother
      · rw [List.foldl_cons, hothers _ _ hnodup.1, FollowStates.set_self]
      · rw [List.foldl_cons, hpositions other hother]
    · intro place path hnot
      rw [List.map_cons, List.mem_cons, not_or] at hnot
      rw [List.foldl_cons, hothers place path hnot.2, FollowStates.set_of_ne hnot.1]

theorem lookup_look_eq_some {d : SinkFiles LogFile} {path : SinkPath} {file : LogFile} :
    d.look.lookup path = some file ↔
      ∃ old, d.lookup path = some old ∧ file = { old with seen := old.content.length } := by
  rw [SinkFiles.lookup_look, Option.map_eq_some_iff]
  constructor
  · rintro ⟨old, hold, rfl⟩
    exact ⟨old, hold, rfl⟩
  · rintro ⟨old, hold, rfl⟩
    exact ⟨old, hold, rfl⟩

theorem look_chained {d : SinkFiles LogFile} {count : ℕ} (hc : d.Chained count) : d.look.Chained count := by
  constructor
  case gapless =>
    intro index hi hle hnone
    rw [SinkFiles.lookup_look, Option.map_eq_none_iff] at hnone ⊢
    exact hc.gapless index hi hle hnone
  case within =>
    intro index hne
    rw [SinkFiles.lookup_look, Ne, Option.map_eq_none_iff] at hne
    exact hc.within index hne

theorem look_distinct {d : SinkFiles LogFile} (hd : DistinctFiles d) : DistinctFiles d.look := by
  intro path path' file file' hfile hfile' hinode
  obtain ⟨old, hold, rfl⟩ := lookup_look_eq_some.1 hfile
  obtain ⟨old', hold', rfl⟩ := lookup_look_eq_some.1 hfile'
  exact hd path path' old old' hold hold' hinode

theorem pendingAll_look (d : LogDisk) :
    pendingAll F query { d with files := fun place => (d.files place).look } = [] := by
  rw [pendingAll, List.flatMap_eq_nil_iff]
  intro place _
  exact pendingIn_look _

theorem since_seen (file : LogFile) : ({ file with seen := file.content.length } : LogFile).since = [] := by
  rw [LogFile.since, List.drop_length]

/-- What a look leaves: every file is known by its inode and its length, or not at all. -/
theorem follows_of_look {d : LogDisk} {follower : LogFollower} {appended : List Bytes}
    (hchained : ∀ place ∈ d.places, place.rollback = none → (d.files place).Chained (backupCount place.base))
    (hdistinct : ∀ place ∈ d.places, DistinctFiles (d.files place))
    (hstates : ∀ place ∈ d.places, ∀ path state, follower.states place path = some state →
      query.log.bases.contains place.base = true ∧
        ∃ file, (d.files place).lookup path = some file ∧ state = ⟨file.inode, file.content.length⟩)
    (hknown : ∀ place ∈ d.places, query.log.bases.contains place.base = true → ∀ path,
      (d.files place).lookup path ≠ none → follower.states place path ≠ none)
    (hreported : (follower.reported.map ReadableLogRecord.envelope).Perm (appended.filterMap (selectedLine F query))) :
    LogFollowed F query backupCount
      ⟨{ d with files := fun place => (d.files place).look }, follower, false, appended, appended⟩ := by
  have hstate : ∀ place ∈ d.places, ∀ path file state, (d.files place).look.lookup path = some file →
      follower.states place path = some state → state = ⟨file.inode, file.seen⟩ := by
    intro place hplace path file state hfile hstate
    obtain ⟨old, hold, rfl⟩ := lookup_look_eq_some.1 hfile
    obtain ⟨_, file', hfile', rfl⟩ := hstates place hplace path state hstate
    rw [hold] at hfile'
    rw [Option.some.inj hfile']
  constructor
  case places =>
    intro place hplace
    constructor
    case chained => exact fun hrollback => look_chained (hchained place hplace hrollback)
    case distinct => exact look_distinct (hdistinct place hplace)
    case since =>
      intro path file hfile
      obtain ⟨old, _, rfl⟩ := lookup_look_eq_some.1 hfile
      exact ⟨Nat.le_refl _, by rw [since_seen]; rfl⟩
    case present =>
      intro path hne
      obtain ⟨state, hstate⟩ := Option.ne_none_iff_exists'.1 hne
      obtain ⟨hlisted, file, hfile, _⟩ := hstates place hplace path state hstate
      exact ⟨hlisted, by simp [SinkFiles.lookup_look, hfile]⟩
    case known =>
      intro path file state hfile hknown _
      rw [hstate place hplace path file state hfile hknown]
    case fresh =>
      intro hlisted file hfile hnone
      obtain ⟨old, hold, _⟩ := lookup_look_eq_some.1 hfile
      exact absurd hnone (hknown place hplace hlisted .active (by simp [hold]))
    case inodes =>
      intro _ path file state hfile hknown
      rw [hstate place hplace path file state hfile hknown]
    case quiet =>
      intro _ path file _ hfile
      obtain ⟨old, _, rfl⟩ := lookup_look_eq_some.1 hfile
      exact since_seen old
  case total =>
    rw [pendingAll_look, List.append_nil]
    exact hreported.symm
  case due => exact hreported

theorem sinkPlace_of_rollback {place : SourcePlace} (hrollback : place.rollback = none) :
    place = sinkPlace place.base := by
  obtain ⟨rollback, base⟩ := place
  cases hrollback
  rfl

theorem start_follows {d : LogDisk}
    (hchained : ∀ base, sinkPlace base ∈ d.places → (d.files (sinkPlace base)).Chained (backupCount base))
    (hdistinct : ∀ place ∈ d.places, DistinctFiles (d.files place)) :
    LogFollowed F query backupCount (.start F query d) := by
  obtain ⟨hpositions, hothers⟩ := start_states (discoverSources F query.log d) (fun _ _ => none)
    (discoverSources_keys_nodup query.log d)
  refine follows_of_look ?_ hdistinct ?_ ?_ (by simp [followStart])
  · intro place hplace hrollback
    have hsink := sinkPlace_of_rollback hrollback
    rw [hsink] at hplace ⊢
    exact hchained place.base hplace
  · intro place hplace path state hstate
    by_cases hkey : (place, path) ∈ (discoverSources F query.log d).map LogSource.key
    · obtain ⟨source, hsource, heq⟩ := List.mem_map.1 hkey
      obtain ⟨rfl, rfl⟩ := Prod.mk.inj heq
      have hposition := hpositions source hsource
      obtain ⟨_, hlisted, hlookup⟩ := mem_discoverSources.1 hsource
      exact ⟨hlisted, source.file, hlookup, Option.some.inj (hstate.symm.trans hposition)⟩
    · have hnone := hothers place path hkey
      exact absurd (hstate.symm.trans hnone) (by simp)
  · intro place hplace hbase path hne
    obtain ⟨file, hfile⟩ := Option.ne_none_iff_exists'.1 hne
    have hposition := hpositions ⟨place, path, file⟩ (mem_discoverSources.2 ⟨hplace, hbase, hfile⟩)
    exact ne_of_eq_of_ne hposition (by simp)

/-! ## Steps of a sink -/

section Sink

variable {rotated listed : Bool} {count : ℕ} {base : String} {states : SinkPath → Option FollowState}
  {files : SinkFiles LogFile} {file : LogFile}

/-- The active file is another one, or has another content; the rest are as they were. -/
theorem PlaceFollows.setActive (hp : PlaceFollows rotated listed count (sinkPlace base) states files)
    {files' : SinkFiles LogFile} (hlookup : ∀ path, files'.lookup path = if path = .active then some file else files.lookup path)
    (hinode : FreshInode file.inode files)
    (hsince : file.seen ≤ file.content.length ∧ unfinished lineFeed file.since = [])
    (hknown : ∀ state, states .active = some state → (state.inode = file.inode → state.offset = file.seen) ∧
      (rotated = false → state.inode = file.inode))
    (hfresh : listed = true → states .active = none → file.seen = 0) :
    PlaceFollows rotated listed count (sinkPlace base) states files' := by
  have hold : ∀ path other, files'.lookup path = some other →
      path = .active ∧ other = file ∨ path ≠ .active ∧ files.lookup path = some other := by
    intro path other hother
    rw [hlookup] at hother
    by_cases hpath : path = .active
    · rw [if_pos hpath] at hother
      exact .inl ⟨hpath, (Option.some.inj hother).symm⟩
    · rw [if_neg hpath] at hother
      exact .inr ⟨hpath, hother⟩
  have hbackup : ∀ index, files'.lookup (.backup index) = files.lookup (.backup index) := fun index =>
    (hlookup _).trans (if_neg (by simp))
  constructor
  case chained =>
    intro _
    have hc := hp.chained rfl
    constructor
    case gapless =>
      intro index hi hle hnone
      rw [hbackup] at hnone ⊢
      exact hc.gapless index hi hle hnone
    case within =>
      intro index hne
      rw [hbackup] at hne
      exact hc.within index hne
  case distinct =>
    intro path path' one other hone hother hsame
    rcases hold path one hone with ⟨hpath, rfl⟩ | ⟨hpath, hone⟩
    · rcases hold path' other hother with ⟨hpath', _⟩ | ⟨hpath', hother⟩
      · rw [hpath, hpath']
      · exact absurd hsame.symm (hinode path' other hpath' hother)
    · rcases hold path' other hother with ⟨_, rfl⟩ | ⟨_, hother⟩
      · exact absurd hsame (hinode path one hpath hone)
      · exact hp.distinct path path' one other hone hother hsame
  case since =>
    intro path other hother
    rcases hold path other hother with ⟨_, rfl⟩ | ⟨_, hother⟩
    · exact hsince
    · exact hp.since path other hother
  case present =>
    intro path hne
    obtain ⟨hlisted, hthere⟩ := hp.present path hne
    refine ⟨hlisted, ?_⟩
    rw [hlookup]
    by_cases hpath : path = .active
    · simp [hpath]
    · rwa [if_neg hpath]
  case known =>
    intro path other state hother hstate
    rcases hold path other hother with ⟨rfl, rfl⟩ | ⟨_, hother⟩
    · exact (hknown state hstate).1
    · exact hp.known path other state hother hstate
  case fresh =>
    intro hlisted other hother hnone
    rcases hold .active other hother with ⟨_, rfl⟩ | ⟨hne, _⟩
    · exact hfresh hlisted hnone
    · exact absurd rfl hne
  case inodes =>
    intro hr path other state hother hstate
    rcases hold path other hother with ⟨rfl, rfl⟩ | ⟨_, hother⟩
    · exact (hknown state hstate).2 hr
    · exact hp.inodes hr path other state hother hstate
  case quiet =>
    intro hr path other hnot hother
    rcases hold path other hother with ⟨hpath, _⟩ | ⟨_, hother⟩
    · exact absurd ⟨rfl, hpath⟩ hnot
    · exact hp.quiet hr path other hnot hother

theorem PlaceFollows.append (hp : PlaceFollows rotated listed count (sinkPlace base) states files) {text : Bytes}
    (hactive : files.lookup .active = some file) (hfeed : lineFeed ∉ text) :
    PlaceFollows rotated listed count (sinkPlace base) states
      (files.append fun file => { file with content := file.content ++ (text ++ [lineFeed]) }) := by
  obtain ⟨hseen, hclosed⟩ := hp.since .active file hactive
  apply hp.setActive
  case hlookup =>
    intro path
    rw [SinkFiles.lookup_append, hactive, Option.map_some]
  case hinode =>
    intro path other hne hother hsame
    exact hne (hp.distinct path .active other file hother hactive hsame)
  case hsince =>
    refine ⟨hseen.trans ?_, ?_⟩
    · rw [List.length_append]
      omega
    · rw [since_append hseen, unfinished_append hclosed, unfinished_line hfeed]
  case hknown =>
    intro state hstate
    exact ⟨hp.known .active file state hactive hstate, fun hr => hp.inodes hr .active file state hactive hstate⟩
  case hfresh => exact fun hlisted hnone => hp.fresh hlisted file hactive hnone

/-- The reader does not know the path of a file that was not there. -/
theorem PlaceFollows.create (hp : PlaceFollows rotated listed count (sinkPlace base) states files) {inode : ℕ}
    (hactive : files.lookup .active = none) (hinode : FreshInode inode files) :
    PlaceFollows rotated listed count (sinkPlace base) states (files.ensureActive ⟨inode, [], 0⟩) := by
  have hunknown : states .active = none := by
    by_contra hne
    exact (hp.present .active hne).2 hactive
  apply hp.setActive
  case hlookup =>
    intro path
    rw [SinkFiles.lookup_ensureActive, hactive, Option.getD_none]
  case hinode => exact hinode
  case hsince => exact ⟨Nat.le_refl 0, rfl⟩
  case hknown => exact fun state hstate => absurd (hunknown.symm.trans hstate) (by simp)
  case hfresh => exact fun _ _ => rfl

/-- What is moved away is not mistaken for what is moved in its place, by the inodes. -/
theorem PlaceFollows.rotate (hp : PlaceFollows false listed count (sinkPlace base) states files) {inode : ℕ}
    (hpos : 0 < count) (hactive : files.lookup .active = some file)
    (hinode : FreshInode inode (files.rotate count ⟨inode, [], 0⟩)) :
    PlaceFollows true listed count (sinkPlace base) states (files.rotate count ⟨inode, [], 0⟩) := by
  have hc := hp.chained rfl
  have hold : ∀ path other, (files.rotate count ⟨inode, [], 0⟩).lookup path = some other ↔
      path = .active ∧ other = ⟨inode, [], 0⟩ ∨
        ∃ source, files.lookup source = some other ∧ SinkFiles.movedPlace count source = some path :=
    fun _ other => SinkFiles.lookup_rotate_eq_some hc hpos hactive other
  have hmoved : ∀ path file, path ≠ .active → (files.rotate count ⟨inode, [], 0⟩).lookup path = some file →
      ∃ source, files.lookup source = some file ∧ SinkFiles.movedPlace count source = some path := by
    intro path file hne hfile
    exact ((hold path file).1 hfile).resolve_left fun heq => hne heq.1
  have hnew : ∀ file, (files.rotate count ⟨inode, [], 0⟩).lookup .active = some file → file = ⟨inode, [], 0⟩ := by
    intro file hfile
    rcases (hold .active file).1 hfile with ⟨_, hfile⟩ | ⟨source, _, hsource⟩
    · exact hfile
    · exact absurd hsource (SinkFiles.movedPlace_ne_active count source)
  constructor
  case chained => exact fun _ => SinkFiles.rotate_chained hc hpos hactive
  case distinct =>
    intro path path' file file' hfile hfile' hsame
    by_cases hpath : path = .active
    · subst hpath
      by_contra hne
      rw [hnew file hfile] at hsame
      exact hinode path' file' (Ne.symm hne) hfile' hsame.symm
    · by_cases hpath' : path' = .active
      · subst hpath'
        rw [hnew file' hfile'] at hsame
        exact absurd hsame (hinode path file hpath hfile)
      · obtain ⟨source, hsource, htarget⟩ := hmoved path file hpath hfile
        obtain ⟨source', hsource', htarget'⟩ := hmoved path' file' hpath' hfile'
        have heq := hp.distinct source source' file file' hsource hsource' hsame
        rw [← heq, htarget] at htarget'
        exact Option.some.inj htarget'
  case since =>
    intro path file hfile
    rcases (hold path file).1 hfile with ⟨_, rfl⟩ | ⟨source, hsource, _⟩
    · exact ⟨Nat.le_refl 0, rfl⟩
    · exact hp.since source file hsource
  case present =>
    intro path hne
    obtain ⟨hlisted, hlookup⟩ := hp.present path hne
    exact ⟨hlisted, SinkFiles.lookup_rotate_ne_none hc hpos hactive hlookup⟩
  case known =>
    intro path file state hfile hstate hsame
    obtain ⟨old, hlookup⟩ := Option.ne_none_iff_exists'.1 (hp.present path (by simp [hstate])).2
    have hknew := hp.inodes rfl path old state hlookup hstate
    by_cases hpath : path = .active
    · subst hpath
      -- The active file, which the reader knew, is now the first backup, and the new one is not it.
      have hbackup : (files.rotate count ⟨inode, [], 0⟩).lookup (.backup 1) = some old :=
        (hold (.backup 1) old).2 (.inr ⟨.active, hlookup, rfl⟩)
      rw [hnew file hfile] at hsame
      exact absurd (hknew.symm.trans hsame) (hinode (.backup 1) old (by simp) hbackup)
    · obtain ⟨source, hsource, htarget⟩ := hmoved path file hpath hfile
      have heq := hp.distinct path source old file hlookup hsource (hknew.symm.trans hsame)
      subst heq
      exact hp.known path file state hsource hstate hsame
  case fresh =>
    intro _ file hfile _
    rw [hnew file hfile]
  case inodes => exact fun hr => by cases hr
  case quiet => exact fun hr => by cases hr

end Sink

/-! ## Polling -/

/-- A poll that is spared reports of a source what came since the last look, and then knows it whole. -/
theorem pollSource_spared {source : LogSource} {rotated : Bool} {count : ℕ} {states : FollowStates}
    {files : SinkFiles LogFile}
    (hp : PlaceFollows rotated true count source.place (states source.place) files)
    (hfile : files.lookup source.path = some source.file)
    (hunknown : states source.place source.path = none → source.active = false →
      ∀ line ∈ wholeLines lineFeed source.file.since, selectedLine F query line = none)
    (hother : ∀ state, states source.place source.path = some state → state.inode ≠ source.file.inode →
      unfinished lineFeed source.file.before = [] ∧
        ∀ line ∈ wholeLines lineFeed source.file.before, selectedLine F query line = none) :
    (pollSource F query (states source.place source.path) source).1 =
        ⟨source.file.inode, source.file.content.length⟩ ∧
      (pollSource F query (states source.place source.path) source).2.map ReadableLogRecord.envelope =
        pendingOf F query source.file := by
  obtain ⟨hseen, hclosed⟩ := hp.since source.path source.file hfile
  have hsize := linesSize_wholeLines source.file.since
  rw [hclosed, List.length_nil, Nat.add_zero] at hsize
  have hlength : source.file.since.length = source.file.content.length - source.file.seen := List.length_drop
  -- From where the last look ended all that came since is read, and up to the end of the file.
  have hfromSeen : ∀ previous, (previous.isNone && !source.active) = false →
      followOffset previous source.file = source.file.seen →
        (pollSource F query previous source).1 = ⟨source.file.inode, source.file.content.length⟩ ∧
          (pollSource F query previous source).2.map ReadableLogRecord.envelope = pendingOf F query source.file := by
    intro previous hread hoffset
    obtain ⟨hreported, hstate⟩ := @pollSource_read F query previous source hread
    rw [hoffset] at hreported hstate
    refine ⟨?_, hreported⟩
    rw [hstate]
    congr 1
    change _ + linesSize (wholeLines lineFeed source.file.since) = _
    omega
  cases hprevious : states source.place source.path with
  | none =>
    cases hactive : source.active with
    | false =>
      have hnothing : pendingOf F query source.file = [] :=
        List.filterMap_eq_nil_iff.2 (hunknown hprevious hactive)
      simp [pollSource, hactive, hnothing]
    | true =>
      have hpath : source.path = .active := by
        simp only [LogSource.active, Bool.and_eq_true, decide_eq_true_eq] at hactive
        exact hactive.2
      rw [hpath] at hfile hprevious
      exact hfromSeen none (by simp [hactive]) (hp.fresh rfl source.file hfile hprevious).symm
  | some state =>
    by_cases hinode : state.inode = source.file.inode
    · have hoffset := hp.known source.path source.file state hfile hprevious hinode
      apply hfromSeen (some state) (by simp)
      rw [followOffset, if_neg (by simp only [hinode]; omega), hoffset]
    · obtain ⟨hbefore, hnone⟩ := hother state hprevious hinode
      have hoffset : followOffset (some state) source.file = 0 := if_pos (.inl hinode)
      obtain ⟨hreported, hstate⟩ := @pollSource_read F query (some state) source (by simp)
      have hwhole : wholeLines lineFeed source.file.content =
          wholeLines lineFeed source.file.before ++ wholeLines lineFeed source.file.since := by
        rw [← wholeLines_append hbefore, LogFile.before, LogFile.since, List.take_append_drop]
      have hend : unfinished lineFeed source.file.content = [] := by
        rw [← List.take_append_drop source.file.seen source.file.content]
        exact (unfinished_append hbefore).trans hclosed
      have hall := linesSize_wholeLines source.file.content
      rw [hend, List.length_nil, Nat.add_zero] at hall
      rw [hoffset, List.drop_zero] at hreported hstate
      refine ⟨?_, ?_⟩
      · rw [hstate, hall, Nat.zero_add]
      · rw [hreported, hwhole, List.filterMap_append, List.filterMap_eq_nil_iff.2 hnone, List.nil_append, pendingOf]

theorem pendingAll_eq (d : LogDisk) :
    pendingAll F query d = (filesOf query.log d).flatMap fun source => pendingOf F query source.file := by
  rw [pendingAll, filesOf, List.flatMap_assoc]
  congr 1
  funext place
  rw [List.flatMap_map]
  rfl

theorem poll_follows (hf : LogFollowed F query backupCount h) (hspares : PollSpares F query h) :
    LogFollowed F query backupCount (h.poll F query) := by
  have hsource : ∀ source ∈ discoverSources F query.log h.disk,
      (pollSource F query (h.follower.states source.place source.path) source).1 =
          ⟨source.file.inode, source.file.content.length⟩ ∧
        (pollSource F query (h.follower.states source.place source.path) source).2.map ReadableLogRecord.envelope =
          pendingOf F query source.file := by
    intro source hmem
    obtain ⟨hplace, hlisted, hlookup⟩ := mem_discoverSources.1 hmem
    have hp := hf.places source.place hplace
    rw [hlisted] at hp
    obtain ⟨hunknown, hother⟩ := hspares source (mem_filesOf.2 ⟨hplace, hlisted, hlookup⟩)
    exact pollSource_spared hp hlookup hunknown hother
  obtain ⟨hbatch, hpolled, hothers⟩ := @pollSources_spec F query (discoverSources F query.log h.disk)
    h.follower.states [] (discoverSources_keys_nodup query.log h.disk)
  refine follows_of_look (fun place hplace => (hf.places place hplace).chained)
    (fun place hplace => (hf.places place hplace).distinct) ?_ ?_ ?_
  · intro place hplace path state hstate
    by_cases hkey : (place, path) ∈ (discoverSources F query.log h.disk).map LogSource.key
    · obtain ⟨source, hmem, heq⟩ := List.mem_map.1 hkey
      obtain ⟨rfl, rfl⟩ := Prod.mk.inj heq
      obtain ⟨_, hlisted, hlookup⟩ := mem_discoverSources.1 hmem
      have hnow := (hpolled source hmem).symm.trans hstate
      rw [(hsource source hmem).1] at hnow
      exact ⟨hlisted, source.file, hlookup, (Option.some.inj hnow).symm⟩
    · have hstill := (hothers place path hkey).symm.trans hstate
      obtain ⟨hlisted, hne⟩ := (hf.places place hplace).present path (by simp [hstill])
      obtain ⟨file, hlookup⟩ := Option.ne_none_iff_exists'.1 hne
      exact absurd (List.mem_map.2 ⟨⟨place, path, file⟩, mem_discoverSources.2 ⟨hplace, hlisted, hlookup⟩, rfl⟩) hkey
  · intro place hplace hlisted path hne
    obtain ⟨file, hlookup⟩ := Option.ne_none_iff_exists'.1 hne
    exact ne_of_eq_of_ne (hpolled ⟨place, path, file⟩ (mem_discoverSources.2 ⟨hplace, hlisted, hlookup⟩)) (by simp)
  · have hnews : ((discoverSources F query.log h.disk).flatMap fun source =>
        (pollSource F query (h.follower.states source.place source.path) source).2).map ReadableLogRecord.envelope =
          (discoverSources F query.log h.disk).flatMap fun source => pendingOf F query source.file := by
      rw [List.map_flatMap, List.flatMap_def, List.flatMap_def]
      congr 1
      apply List.map_congr_left
      intro source hmem
      exact (hsource source hmem).2
    have hpending : ((followPoll F query h.disk h.follower).reported.map ReadableLogRecord.envelope).Perm
        (h.follower.reported.map ReadableLogRecord.envelope ++ pendingAll F query h.disk) := by
      rw [followPoll, List.map_append, hbatch, List.nil_append, pendingAll_eq]
      apply List.Perm.append_left
      apply ((List.mergeSort_perm _ _).map _).trans
      rw [hnews]
      exact (discoverSources_perm query.log h.disk).flatMap_right _
    exact hpending.trans hf.total.symm

/-! ## Runs -/

theorem LogFollowed.createActive (hf : LogFollowed F query backupCount h) {base : String} {inode : ℕ}
    (hplace : sinkPlace base ∈ h.disk.places) (hactive : (h.disk.files (sinkPlace base)).lookup .active = none)
    (hinode : FreshInode inode (h.disk.files (sinkPlace base))) :
    LogFollowed F query backupCount (h.createActive base inode) := by
  have hpending : (pendingIn F query ((h.disk.files (sinkPlace base)).ensureActive ⟨inode, [], 0⟩)).Perm
      (pendingIn F query (h.disk.files (sinkPlace base)) ++ [].filterMap (selectedLine F query)) := by
    rw [pendingIn_ensureActive hactive, List.filterMap_nil, List.append_nil]
  have hnext := hf.change hplace h.rotated [] (fun files => files.ensureActive ⟨inode, [], 0⟩) id
    ((hf.places _ hplace).create hactive hinode) hpending
  rw [ite_self, List.append_nil] at hnext
  exact hnext

theorem LogFollowed.rotateActive (hf : LogFollowed F query backupCount h) {base : String} {inode : ℕ}
    (hplace : sinkPlace base ∈ h.disk.places) (hactive : (h.disk.files (sinkPlace base)).lookup .active ≠ none)
    (hpos : 0 < backupCount base) (honce : h.rotated = false)
    (hinode : FreshInode inode ((h.disk.files (sinkPlace base)).rotate (backupCount base) ⟨inode, [], 0⟩)) :
    LogFollowed F query backupCount (h.rotateActive (backupCount base) base inode) := by
  obtain ⟨file, hfile⟩ := Option.ne_none_iff_exists'.1 hactive
  have hp := hf.places _ hplace
  rw [honce] at hp
  have hquiet : ∀ path file, path ≠ .active → (h.disk.files (sinkPlace base)).lookup path = some file →
      pendingOf F query file = [] := by
    intro path file hne hlookup
    rw [pendingOf, hp.quiet rfl path file (fun heq => hne heq.2) hlookup]
    rfl
  have hpending : (pendingIn F query ((h.disk.files (sinkPlace base)).rotate (backupCount base) ⟨inode, [], 0⟩)).Perm
      (pendingIn F query (h.disk.files (sinkPlace base)) ++ [].filterMap (selectedLine F query)) := by
    rw [List.filterMap_nil, List.append_nil]
    exact pendingIn_rotate (hp.chained rfl) hpos hfile hquiet
  have hnext := hf.change hplace true [] (fun files => files.rotate (backupCount base) ⟨inode, [], 0⟩)
    (fun hr => by cases hr) (hp.rotate hpos hfile hinode) hpending
  rw [ite_self, List.append_nil] at hnext
  exact hnext

theorem follow_follows (run : FollowRun F query backupCount (PollSpares F query) h) :
    LogFollowed F query backupCount h := by
  induction run with
  | start chained distinct => exact start_follows chained distinct
  | append _ place active serialized ih =>
    obtain ⟨file, hfile⟩ := Option.ne_none_iff_exists'.1 active
    have hfeed := lineFeed_notMem_envelopeText serialized
    have hp := ih.places _ place
    obtain ⟨hseen, hclosed⟩ := hp.since .active file hfile
    exact ih.change place _ _ _ id (hp.append hfile hfeed) (pendingIn_append hfile hseen hclosed hfeed)
  | create _ place active fresh ih => exact ih.createActive place active fresh
  | rotate _ place active kept once fresh ih => exact ih.rotateActive place active kept once fresh
  | poll _ spares ih => exact poll_follows ih spares

namespace TestFollow

open TestSink

/-- The formats of a reader on the first record's text. -/
def reader : ReaderFormats where
  toLogFormats := formats
  parseLegacy _ := none
  dateParse _ := 1785233730123
  localeCompare := compare

def everything : LogQuery := ⟨.agent, none, [], none, none, none⟩

/-- One empty file. -/
def disk : LogDisk where
  places := [sinkPlace "agent.log"]
  nodup := List.nodup_singleton _
  files _ := (∅ : SinkFiles LogFile).insert .active ⟨1, [], 0⟩

def appended : FollowHistory :=
  (FollowHistory.start reader everything disk).appendText everything "agent.log" (textOf "first")

def rotated : FollowHistory := appended.rotateActive 3 "agent.log" 2

theorem disk_lookup {place : SourcePlace} {path : SinkPath} :
    (disk.files place).lookup path = if path = .active then some ⟨1, [], 0⟩ else none := by
  by_cases hpath : path = .active
  · rw [hpath, if_pos rfl]
    exact AList.lookup_insert _
  · rw [if_neg hpath]
    exact (AList.lookup_insert_ne hpath).trans (AList.lookup_empty path)

theorem started_lookup (text : Bytes) {path : SinkPath} :
    (((FollowHistory.start reader everything disk).appendText everything "agent.log" text).disk.files
      (sinkPlace "agent.log")).lookup path = if path = .active then some ⟨1, text ++ [lineFeed], 0⟩ else none := by
  have hstart : (FollowHistory.start reader everything disk).disk.files (sinkPlace "agent.log") =
      (disk.files (sinkPlace "agent.log")).look := rfl
  rw [FollowHistory.appendText, update_files, if_pos rfl, hstart, SinkFiles.lookup_append, SinkFiles.lookup_look,
    SinkFiles.lookup_look, disk_lookup, disk_lookup]
  by_cases hpath : path = .active
  · simp [hpath]
  · simp [hpath]

theorem appended_lookup {path : SinkPath} : (appended.disk.files (sinkPlace "agent.log")).lookup path =
    if path = .active then some ⟨1, textOf "first" ++ [lineFeed], 0⟩ else none :=
  started_lookup (textOf "first")

theorem serialized_first : envelopeText reader.toLogFormats (envelope "first") = some (textOf "first") := by
  rw [show reader.toLogFormats = formats from rfl]
  exact envelopeText_first

theorem appended_run (spared : FollowHistory → Prop) :
    FollowRun reader everything (fun _ => 3) spared appended := by
  apply FollowRun.append (.start ?_ ?_) (List.mem_singleton_self (sinkPlace "agent.log")) ?_ serialized_first
  · intro base _
    constructor
    case gapless =>
      intro index _ _ _
      rw [disk_lookup, if_neg (by simp)]
    case within =>
      intro index hne
      rw [disk_lookup, if_neg (by simp)] at hne
      exact absurd rfl hne
  · intro place _ path path' file file' hfile hfile' _
    rw [disk_lookup, Option.ite_none_right_eq_some] at hfile hfile'
    rw [hfile.1, hfile'.1]
  · change (disk.files (sinkPlace "agent.log")).look.lookup .active ≠ none
    rw [SinkFiles.lookup_look, disk_lookup, if_pos rfl]
    simp

theorem appended_follows : LogFollowed reader everything (fun _ => 3) appended :=
  follow_follows (appended_run _)

theorem selectedLine_first : selectedLine reader everything (textOf "first") = some (envelope "first") := by
  have hparse := envelope_parsed "first" (by simp)
  have hdecode : formats.decodeUtf8 (textOf "first") = stringify (envelope "first").toJson := by
    simp only [formats, if_true]
  have hlast : (stringify (envelope "first").toJson).toList.getLast? = some '\x7d' := by
    rw [stringify, String.toList_ofList, LogEnvelopeV1.toJson, stableJson, List.getLast?_concat]
  have hjson : formats.parseJson (stringify (envelope "first").toJson) = some (envelope "first").toJson := by
    simp only [formats, if_true]
  have hnonempty : stringify (envelope "first").toJson ≠ "" := by
    intro hempty
    rw [hempty] at hlast
    cases hlast
  have hread : normalizeText reader (stringify (envelope "first").toJson) = some (envelope "first", none) := by
    have henvelope : parseLogEnvelope formats (stringify (envelope "first").toJson) = some (envelope "first") := by
      rw [parseLogEnvelope, hjson, Option.bind_some, hparse]
    simp only [normalizeText, if_neg hnonempty, reader, henvelope]
  have hselects : everything.selects reader (envelope "first") = true := rfl
  have hstripped : stripCarriageReturn (reader.decodeUtf8 (textOf "first")) = stringify (envelope "first").toJson := by
    rw [show reader.decodeUtf8 (textOf "first") = stringify (envelope "first").toJson from hdecode,
      stripCarriageReturn, if_neg (by simp [hlast])]
  rw [selectedLine, hstripped, hread, Option.map_some, Option.filter_some, if_pos hselects]

/-- The files after the rotation. -/
theorem rotated_lookup {path : SinkPath} {file : LogFile}
    (h : (rotated.disk.files (sinkPlace "agent.log")).lookup path = some file) :
    path = .active ∧ file = ⟨2, [], 0⟩ ∨ path = .backup 1 ∧ file = ⟨1, textOf "first" ++ [lineFeed], 0⟩ := by
  have hactive : (appended.disk.files (sinkPlace "agent.log")).lookup .active = some _ :=
    appended_lookup.trans (if_pos rfl)
  have hc := (appended_follows.places _ (List.mem_singleton_self (sinkPlace "agent.log"))).chained rfl
  rw [rotated, FollowHistory.rotateActive, update_files, if_pos rfl,
    SinkFiles.lookup_rotate_eq_some hc (by decide) hactive] at h
  rcases h with hnew | ⟨source, hsource, hmoved⟩
  · exact .inl hnew
  · rw [appended_lookup, Option.ite_none_right_eq_some] at hsource
    obtain ⟨rfl, hfile⟩ := hsource
    exact .inr ⟨(Option.some.inj hmoved).symm, (Option.some.inj hfile).symm⟩

theorem rotated_run (spared : FollowHistory → Prop) :
    FollowRun reader everything (fun _ => 3) spared rotated := by
  have hactive : (appended.disk.files (sinkPlace "agent.log")).lookup .active = some _ :=
    appended_lookup.trans (if_pos rfl)
  apply FollowRun.rotate (appended_run spared) (List.mem_singleton_self (sinkPlace "agent.log"))
    (by rw [hactive]; simp) (by decide) rfl
  intro path file hne hfile
  rcases rotated_lookup hfile with ⟨hpath, _⟩ | ⟨_, rfl⟩
  · exact absurd hpath hne
  · decide

/-- The line is in the file that the rotation moved away, under a path that the reader does not know yet. -/
theorem rotated_polled : (rotated.poll reader everything).follower.reported = [] := by
  obtain ⟨hbatch, _⟩ := pollSources_spec (F := reader) (discoverSources reader everything.log rotated.disk)
    rotated.follower.states [] (discoverSources_keys_nodup everything.log rotated.disk)
  have hnothing : (pollSources reader everything (discoverSources reader everything.log rotated.disk)
      rotated.follower.states []).2 = [] := by
    rw [hbatch, List.nil_append, List.flatMap_eq_nil_iff]
    intro source hsource
    obtain ⟨hplace, _, hlookup⟩ := mem_discoverSources.1 hsource
    obtain ⟨place, path, file⟩ := source
    obtain rfl := List.mem_singleton.1 hplace
    rcases rotated_lookup hlookup with ⟨rfl, rfl⟩ | ⟨rfl, rfl⟩
    · simp [pollSource, LogSource.active, sinkPlace, readLines_eq, placeLines]
    · have hunknown : rotated.follower.states (sinkPlace "agent.log") (.backup 1) = none := by
        by_contra hne
        have hold := ((appended_follows.places _ (List.mem_singleton_self (sinkPlace "agent.log"))).present _ hne).2
        exact hold (appended_lookup.trans (if_neg (by simp)))
      simp [hunknown, pollSource, LogSource.active]
  change _ ++ List.mergeSort _ _ = _
  rw [hnothing, List.mergeSort_nil]
  rfl

end TestFollow

end PlusOne
