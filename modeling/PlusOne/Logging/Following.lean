import PlusOne.Logging.Reading

/-! # Runs of a log that is followed

Sinks append to their files and rotate them, and the reader polls. -/

namespace PlusOne

open Files

/-! ## Runs -/

/-- The reader has looked at the files. -/
def SinkFiles.look (d : SinkFiles LogFile) : SinkFiles LogFile :=
  ⟨d.entries.map (Sigma.map id fun _ file => { file with seen := file.content.length }), d.nodupKeys.map₂ _⟩

/-- A run: the disk and the follower, whether a file was rotated since the last poll, the lines appended to
the log since following began, and those of them before the last poll. -/
structure FollowHistory where
  disk : LogDisk
  follower : LogFollower
  rotated : Bool
  appended : List Bytes
  due : List Bytes

/-- Where the sink of a base name writes. -/
def sinkPlace (base : String) : SourcePlace := ⟨none, base⟩

namespace FollowHistory

/-- The positions are taken. -/
def start (F : ReaderFormats) (query : LogQuery) (d : LogDisk) : FollowHistory where
  disk := { d with files := fun place => (d.files place).look }
  follower := followStart F query d
  rotated := false
  appended := []
  due := []

/-- What is appended to a base name counts when it is one of the log's. -/
def appendText (query : LogQuery) (base : String) (text : Bytes) (h : FollowHistory) : FollowHistory :=
  { h with
    disk := h.disk.update (sinkPlace base) fun files =>
      files.append fun file => { file with content := file.content ++ (text ++ [lineFeed]) }
    appended := h.appended ++ if query.log.bases.contains base then [text] else [] }

def createActive (base : String) (inode : ℕ) (h : FollowHistory) : FollowHistory :=
  { h with disk := h.disk.update (sinkPlace base) fun files => files.ensureActive ⟨inode, [], 0⟩ }

def rotateActive (backupCount : ℕ) (base : String) (inode : ℕ) (h : FollowHistory) : FollowHistory :=
  { h with
    disk := h.disk.update (sinkPlace base) fun files => files.rotate backupCount ⟨inode, [], 0⟩
    rotated := true }

def poll (F : ReaderFormats) (query : LogQuery) (h : FollowHistory) : FollowHistory where
  disk := { h.disk with files := fun place => (h.disk.files place).look }
  follower := followPoll F query h.disk h.follower
  rotated := false
  appended := h.appended
  due := h.appended

end FollowHistory

/-- No two files have one inode. -/
def DistinctFiles (d : SinkFiles LogFile) : Prop :=
  ∀ path path' file file', d.lookup path = some file → d.lookup path' = some file' → file.inode = file'.inode →
    path = path'

/-- An inode that no file but the active one has. -/
def FreshInode (inode : ℕ) (d : SinkFiles LogFile) : Prop :=
  ∀ path file, path ≠ .active → d.lookup path = some file → file.inode ≠ inode

/-- The runs of sinks that keep `backupCount` backups and of a reader, at most one rotation between two
polls. Every poll is to meet `spared`. -/
inductive FollowRun (F : ReaderFormats) (query : LogQuery) (backupCount : String → ℕ)
    (spared : FollowHistory → Prop) : FollowHistory → Prop
  | start {d : LogDisk} (chained : ∀ base, sinkPlace base ∈ d.places →
        (d.files (sinkPlace base)).Chained (backupCount base))
      (distinct : ∀ place ∈ d.places, DistinctFiles (d.files place)) :
      FollowRun F query backupCount spared (.start F query d)
  | append {h : FollowHistory} (run : FollowRun F query backupCount spared h) {base : String} {record : LogEnvelopeV1}
      {text : Bytes} (place : sinkPlace base ∈ h.disk.places)
      (active : (h.disk.files (sinkPlace base)).lookup .active ≠ none)
      (serialized : envelopeText F.toLogFormats record = some text) :
      FollowRun F query backupCount spared (h.appendText query base text)
  | create {h : FollowHistory} (run : FollowRun F query backupCount spared h) {base : String} {inode : ℕ}
      (place : sinkPlace base ∈ h.disk.places) (active : (h.disk.files (sinkPlace base)).lookup .active = none)
      (fresh : FreshInode inode (h.disk.files (sinkPlace base))) :
      FollowRun F query backupCount spared (h.createActive base inode)
  | rotate {h : FollowHistory} (run : FollowRun F query backupCount spared h) {base : String} {inode : ℕ}
      (place : sinkPlace base ∈ h.disk.places) (active : (h.disk.files (sinkPlace base)).lookup .active ≠ none)
      (kept : 0 < backupCount base) (once : h.rotated = false)
      (fresh : FreshInode inode ((h.disk.files (sinkPlace base)).rotate (backupCount base) ⟨inode, [], 0⟩)) :
      FollowRun F query backupCount spared (h.rotateActive (backupCount base) base inode)
  | poll {h : FollowHistory} (run : FollowRun F query backupCount spared h) (spares : spared h) :
      FollowRun F query backupCount spared (h.poll F query)

/-- Each line that was appended before the last poll, and parses and matches, was reported once, and
nothing else was. -/
def ReportedOnce (F : ReaderFormats) (query : LogQuery) (h : FollowHistory) : Prop :=
  (h.follower.reported.map ReadableLogRecord.envelope).Perm (h.due.filterMap (selectedLine F query))

/-- The lines of a file from before the reader's last look. -/
def LogFile.before (file : LogFile) : Bytes := file.content.take file.seen

/-- What came to a file since. -/
def LogFile.since (file : LogFile) : Bytes := file.content.drop file.seen

/-- What a poll is not to find: in a backup whose path is new to the reader a line since the last look that
matches, or in a file that has come to a path where the reader knew another one a line from before the last
look that matches or is not complete. -/
def PollSpares (F : ReaderFormats) (query : LogQuery) (h : FollowHistory) : Prop :=
  ∀ source ∈ filesOf query.log h.disk,
    (h.follower.states source.place source.path = none → source.active = false →
      ∀ line ∈ wholeLines lineFeed source.file.since, selectedLine F query line = none) ∧
    ∀ state, h.follower.states source.place source.path = some state → state.inode ≠ source.file.inode →
      unfinished lineFeed source.file.before = [] ∧
        ∀ line ∈ wholeLines lineFeed source.file.before, selectedLine F query line = none

/-! ## Files -/

variable {F : ReaderFormats} {query : LogQuery} {d : SinkFiles LogFile} {path : SinkPath} {file : LogFile}

theorem SinkFiles.lookup_look : d.look.lookup path =
    (d.lookup path).map fun file => { file with seen := file.content.length } := by
  unfold SinkFiles.look AList.lookup
  exact List.dlookup_map₂ path

/-- The envelopes of the lines that came since the last look. -/
def pendingOf (F : ReaderFormats) (query : LogQuery) (file : LogFile) : List LogEnvelopeV1 :=
  (wholeLines lineFeed file.since).filterMap (selectedLine F query)

def pendingIn (F : ReaderFormats) (query : LogQuery) (d : SinkFiles LogFile) : List LogEnvelopeV1 :=
  d.entries.flatMap fun entry => pendingOf F query entry.2

section Lists

variable {α β : Type}

theorem perm_of_lookup {C : Type} {d : SinkFiles C} {l : List (Sigma fun _ : SinkPath => C)} (hnodup : l.Nodup)
    (h : ∀ path content, d.lookup path = some content ↔ (⟨path, content⟩ : Sigma fun _ : SinkPath => C) ∈ l) :
    d.entries.Perm l := by
  refine (List.perm_ext_iff_of_nodup d.nodupKeys.nodup hnodup).2 ?_
  intro entry
  rw [← h entry.1 entry.2]
  exact AList.mem_lookup_iff.symm

/-- What one element adds to its part it adds to the whole. -/
theorem flatMap_perm_append [DecidableEq α] {l : List α} {a : α} {part part' : α → List β} {added : List β}
    (hnodup : l.Nodup) (ha : a ∈ l) (hpart : (part' a).Perm (part a ++ added))
    (hrest : ∀ b, b ≠ a → part' b = part b) : (l.flatMap part').Perm (l.flatMap part ++ added) := by
  induction l with
  | nil => simp at ha
  | cons b l ih =>
    obtain ⟨hnew, hnodup⟩ := List.nodup_cons.1 hnodup
    rw [List.flatMap_cons, List.flatMap_cons]
    by_cases hb : b = a
    · subst hb
      have hsame : l.flatMap part' = l.flatMap part := by
        rw [List.flatMap_def, List.flatMap_def]
        congr 1
        apply List.map_congr_left
        intro c hc
        exact hrest c fun heq => hnew (heq ▸ hc)
      rw [hsame]
      calc (part' b ++ l.flatMap part).Perm (part b ++ added ++ l.flatMap part) := hpart.append_right _
        _ = part b ++ (added ++ l.flatMap part) := List.append_assoc _ _ _
        (part b ++ (added ++ l.flatMap part)).Perm (part b ++ (l.flatMap part ++ added)) :=
          List.perm_append_comm.append_left _
        _ = part b ++ l.flatMap part ++ added := (List.append_assoc _ _ _).symm
    · rw [hrest b hb, List.append_assoc]
      exact (ih hnodup ((List.mem_cons.1 ha).resolve_left (Ne.symm hb))).append_left _

end Lists

theorem entries_perm_erase (h : d.lookup path = some file) :
    d.entries.Perm (⟨path, file⟩ :: (d.erase path).entries) := by
  apply perm_of_lookup
  · refine List.nodup_cons.2 ⟨?_, (d.erase path).nodupKeys.nodup⟩
    intro hmem
    have hlookup := AList.mem_lookup_iff.2 hmem
    rw [AList.lookup_erase] at hlookup
    cases hlookup
  · intro path' content
    rw [List.mem_cons]
    by_cases hpath : path' = path
    · subst hpath
      rw [h]
      constructor
      · intro heq
        rw [Option.some.inj heq]
        exact .inl rfl
      · rintro (heq | hmem)
        · rw [eq_of_heq (Sigma.mk.inj heq).2]
        · have hlookup := AList.mem_lookup_iff.2 hmem
          rw [AList.lookup_erase] at hlookup
          cases hlookup
    · have hlookup : (d.erase path).lookup path' = d.lookup path' := AList.lookup_erase_ne hpath
      rw [← hlookup, ← Option.mem_def, AList.mem_lookup_iff]
      constructor
      · exact .inr
      · intro hmem
        exact hmem.resolve_left fun heq => hpath (Sigma.mk.inj heq).1

theorem pendingIn_look (d : SinkFiles LogFile) : pendingIn F query d.look = [] := by
  rw [pendingIn, List.flatMap_eq_nil_iff]
  intro entry hentry
  obtain ⟨entry', _, rfl⟩ := List.mem_map.1 hentry
  simp [pendingOf, LogFile.since, Sigma.map]

theorem since_append {text : Bytes} (hseen : file.seen ≤ file.content.length) :
    ({ file with content := file.content ++ (text ++ [lineFeed]) } : LogFile).since = file.since ++ (text ++ [lineFeed]) := by
  rw [LogFile.since, LogFile.since, List.drop_append_of_le_length hseen]

theorem pendingOf_append {text : Bytes} (hseen : file.seen ≤ file.content.length)
    (hclosed : unfinished lineFeed file.since = []) (hfeed : lineFeed ∉ text) :
    pendingOf F query { file with content := file.content ++ (text ++ [lineFeed]) } =
      pendingOf F query file ++ [text].filterMap (selectedLine F query) := by
  rw [pendingOf, since_append hseen, wholeLines_append hclosed, wholeLines_line hfeed, List.filterMap_append, pendingOf]

theorem pendingIn_append {text : Bytes} (hactive : d.lookup .active = some file)
    (hseen : file.seen ≤ file.content.length) (hclosed : unfinished lineFeed file.since = []) (hfeed : lineFeed ∉ text) :
    (pendingIn F query (d.append fun file => { file with content := file.content ++ (text ++ [lineFeed]) })).Perm
      (pendingIn F query d ++ [text].filterMap (selectedLine F query)) := by
  have hentries : (d.append fun file => { file with content := file.content ++ (text ++ [lineFeed]) }).entries =
      ⟨.active, { file with content := file.content ++ (text ++ [lineFeed]) }⟩ :: (d.erase .active).entries := by
    rw [SinkFiles.append, hactive]
    rfl
  have hold := (entries_perm_erase hactive).flatMap_right fun entry => pendingOf F query entry.2
  rw [pendingIn, hentries, List.flatMap_cons, pendingOf_append hseen hclosed hfeed, List.append_assoc]
  calc (pendingOf F query file ++ ([text].filterMap (selectedLine F query) ++
        (d.erase .active).entries.flatMap fun entry => pendingOf F query entry.2)).Perm
        (pendingOf F query file ++ (((d.erase .active).entries.flatMap fun entry => pendingOf F query entry.2) ++
          [text].filterMap (selectedLine F query))) := List.perm_append_comm.append_left _
    _ = (pendingOf F query file ++ (d.erase .active).entries.flatMap fun entry => pendingOf F query entry.2) ++
          [text].filterMap (selectedLine F query) := (List.append_assoc _ _ _).symm
    (_ : List LogEnvelopeV1).Perm (pendingIn F query d ++ [text].filterMap (selectedLine F query)) :=
      hold.symm.append_right _

theorem pendingOf_new (inode : ℕ) : pendingOf F query ⟨inode, [], 0⟩ = [] := rfl

theorem pendingIn_ensureActive {inode : ℕ} (hactive : d.lookup .active = none) :
    pendingIn F query (d.ensureActive ⟨inode, [], 0⟩) = pendingIn F query d := by
  have hmem : SinkPath.active ∉ d := AList.lookup_eq_none.1 hactive
  have hexists : d.pathExists .active = false := by simp [SinkFiles.pathExists, hactive]
  rw [SinkFiles.ensureActive, hexists, pendingIn, pendingIn]
  simp only [Bool.false_eq_true, if_false]
  rw [AList.entries_insert_of_notMem hmem, List.flatMap_cons, pendingOf_new, List.nil_append]

/-- A rotation moves what is pending, when the oldest backup has none. -/
theorem pendingIn_rotate {backupCount inode : ℕ} (hc : d.Chained backupCount) (hpos : 0 < backupCount)
    (hactive : d.lookup .active = some file)
    (holdest : ∀ path file, path ≠ .active → d.lookup path = some file → pendingOf F query file = []) :
    (pendingIn F query (d.rotate backupCount ⟨inode, [], 0⟩)).Perm (pendingIn F query d) := by
  let move : (Sigma fun _ : SinkPath => LogFile) → Option (Sigma fun _ : SinkPath => LogFile) := fun entry =>
    (SinkFiles.movedPlace backupCount entry.1).map fun target => ⟨target, entry.2⟩
  have hentries : (d.rotate backupCount ⟨inode, [], 0⟩).entries.Perm
      (⟨.active, ⟨inode, [], 0⟩⟩ :: d.entries.filterMap move) := by
    apply perm_of_lookup
    · refine List.nodup_cons.2 ⟨?_, ?_⟩
      · intro hmem
        obtain ⟨entry, _, hmove⟩ := List.mem_filterMap.1 hmem
        obtain ⟨target, htarget, heq⟩ := Option.map_eq_some_iff.1 hmove
        have hsame : target = .active := (Sigma.mk.inj heq).1
        exact SinkFiles.movedPlace_ne_active backupCount entry.1 (hsame ▸ htarget)
      · apply d.nodupKeys.nodup.filterMap
        intro entry entry' moved hmoved hmoved'
        obtain ⟨target, htarget, rfl⟩ := Option.map_eq_some_iff.1 hmoved
        obtain ⟨target', htarget', heq⟩ := Option.map_eq_some_iff.1 hmoved'
        obtain ⟨rfl, hcontent⟩ := Sigma.mk.inj heq
        have hpath : entry.1 = entry'.1 := by rw [SinkFiles.eq_placeBefore htarget, SinkFiles.eq_placeBefore htarget']
        obtain ⟨path, content⟩ := entry
        obtain ⟨path', content'⟩ := entry'
        cases hpath
        cases eq_of_heq hcontent
        rfl
    · intro path content
      rw [SinkFiles.lookup_rotate_eq_some hc hpos hactive, List.mem_cons, List.mem_filterMap]
      constructor
      · rintro (⟨rfl, rfl⟩ | ⟨source, hsource, hmoved⟩)
        · exact .inl rfl
        · exact .inr ⟨⟨source, content⟩, AList.mem_lookup_iff.1 hsource, by simp [move, hmoved]⟩
      · rintro (heq | ⟨entry, hentry, hmove⟩)
        · obtain ⟨rfl, hcontent⟩ := Sigma.mk.inj heq
          exact .inl ⟨rfl, eq_of_heq hcontent⟩
        · obtain ⟨target, htarget, heq⟩ := Option.map_eq_some_iff.1 hmove
          obtain ⟨rfl, hcontent⟩ := Sigma.mk.inj heq
          obtain rfl := eq_of_heq hcontent
          exact .inr ⟨entry.1, AList.mem_lookup_iff.2 hentry, htarget⟩
  have hpending : (d.entries.filterMap move).flatMap (fun entry => pendingOf F query entry.2) = pendingIn F query d := by
    have hsub : ∀ entry ∈ d.entries, (move entry).toList.flatMap (fun entry => pendingOf F query entry.2) =
        pendingOf F query entry.2 := by
      intro entry hentry
      cases hmoved : SinkFiles.movedPlace backupCount entry.1 with
      | some target => simp [move, hmoved]
      | none =>
        have hne : entry.1 ≠ .active := fun heq => by simp [heq, SinkFiles.movedPlace] at hmoved
        have hnone := holdest entry.1 entry.2 hne (AList.mem_lookup_iff.2 hentry)
        simp [move, hmoved, hnone]
    rw [pendingIn]
    generalize d.entries = entries at hsub
    induction entries with
    | nil => rfl
    | cons entry entries ih =>
      have hhead := hsub entry (by simp)
      have htail := ih fun e he => hsub e (by simp [he])
      rw [List.flatMap_cons, ← htail, ← hhead]
      cases hmove : move entry with
      | none => simp [List.filterMap_cons_none hmove]
      | some moved => simp [List.filterMap_cons_some hmove]
  have hall := hentries.flatMap_right fun entry => pendingOf F query entry.2
  rw [List.flatMap_cons, pendingOf_new, List.nil_append, hpending] at hall
  exact hall

end PlusOne
