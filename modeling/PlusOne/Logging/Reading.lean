import PlusOne.Logging.LogReader

/-! # What one poll reads

Of each file the lines from where it begins to read, whatever the chunks, and for each path a place. -/

namespace PlusOne

open Files

variable {F : LogFormats}

/-! ## Lines -/

/-- How many bytes lines take in a file. -/
def linesSize (lines : List Bytes) : ℕ := (lines.map fun line => line.length + 1).sum

theorem placeLines_append (byteOffset : ℕ) (lines more : List Bytes) : placeLines F byteOffset (lines ++ more) =
    placeLines F byteOffset lines ++ placeLines F (byteOffset + linesSize lines) more := by
  induction lines generalizing byteOffset with
  | nil => simp [placeLines, linesSize]
  | cons line lines ih =>
    rw [List.cons_append, placeLines, placeLines, ih, List.cons_append]
    simp [linesSize, Nat.add_assoc]

/-- The chunks make no difference. -/
theorem readChunks_eq (rest buffered : Bytes) (bufferedOffset : ℕ) (lines : List PhysicalLine)
    (h : lineFeed ∉ buffered) : readChunks F rest buffered bufferedOffset lines =
      (lines ++ placeLines F bufferedOffset (wholeLines lineFeed (buffered ++ rest)),
        bufferedOffset + linesSize (wholeLines lineFeed (buffered ++ rest))) := by
  fun_induction readChunks F rest buffered bufferedOffset lines with
  | case1 buffered bufferedOffset lines =>
    rw [List.append_nil, wholeLines, cutLines_of_notMem h]
    simp [placeLines, linesSize]
  | case2 rest buffered bufferedOffset lines hrest cut ih =>
    have hcut : lineFeed ∉ cut.2 := notMem_cutLines (by simp)
    have hwhole : wholeLines lineFeed (buffered ++ rest) = cut.1 ++ wholeLines lineFeed (cut.2 ++ rest.drop 65536) := by
      have hsplit : buffered ++ rest = (buffered ++ rest.take 65536) ++ rest.drop 65536 := by
        rw [List.append_assoc, List.take_append_drop]
      have hagain : cutLines lineFeed [] (cut.2 ++ rest.drop 65536) =
          cutLines lineFeed cut.2 (rest.drop 65536) := by
        rw [cutLines_append, cutLines_of_notMem hcut]
        simp
      rw [hsplit, wholeLines, cutLines_append, wholeLines, hagain]
    rw [ih hcut, hwhole, placeLines_append]
    simp [linesSize, Nat.add_assoc, List.append_assoc]

theorem readLines_eq (content : Bytes) (startOffset : ℕ) : readLines F content startOffset =
    (placeLines F startOffset (wholeLines lineFeed (content.drop startOffset)),
      startOffset + linesSize (wholeLines lineFeed (content.drop startOffset))) := by
  rw [readLines, readChunks_eq _ _ _ _ (by simp)]
  simp

/-- A file whose last line is complete is as long as its lines. -/
theorem linesSize_wholeLines (content : Bytes) :
    linesSize (wholeLines lineFeed content) + (unfinished lineFeed content).length = content.length := by
  have hcut : ∀ begun : Bytes, linesSize (cutLines lineFeed begun content).1 + (cutLines lineFeed begun content).2.length =
      begun.length + content.length := by
    induction content with
    | nil => simp [cutLines, linesSize]
    | cons c content ih =>
      intro begun
      by_cases hc : c = lineFeed
      · have hlater := ih []
        simp only [cutLines, if_pos hc, linesSize, List.map_cons, List.sum_cons, List.length_cons] at hlater ⊢
        simp only [List.length_nil] at hlater
        omega
      · have hlater := ih (begun ++ [c])
        simp only [cutLines, if_neg hc, List.length_append, List.length_cons, List.length_nil] at hlater ⊢
        omega
  have hwhole := hcut []
  rw [List.length_nil, Nat.zero_add] at hwhole
  exact hwhole

/-! ## Records -/

section

variable {F : ReaderFormats} {query : LogQuery}

/-- The envelope a line is reported with, when it parses and matches. -/
def selectedLine (F : ReaderFormats) (query : LogQuery) (line : Bytes) : Option LogEnvelopeV1 :=
  ((normalizeText F (stripCarriageReturn (F.decodeUtf8 line))).map Prod.fst).filter (query.selects F)

theorem map_envelope_records (source : LogSource) (byteOffset : ℕ) (lines : List Bytes) :
    (((placeLines F.toLogFormats byteOffset lines).filterMap (normalizeLine F source)).filter
      fun record => query.selects F record.envelope).map ReadableLogRecord.envelope =
      lines.filterMap (selectedLine F query) := by
  induction lines generalizing byteOffset with
  | nil => rfl
  | cons line lines ih =>
    have hrest := ih (byteOffset + line.length + 1)
    rw [placeLines]
    cases hread : normalizeText F (stripCarriageReturn (F.decodeUtf8 line)) with
    | none =>
      have hline : normalizeLine F source ⟨stripCarriageReturn (F.decodeUtf8 line), byteOffset⟩ = none := by
        simp [normalizeLine, hread]
      have hselected : selectedLine F query line = none := by simp [selectedLine, hread]
      rw [List.filterMap_cons_none hline, List.filterMap_cons_none hselected, hrest]
    | some read =>
      have hline : normalizeLine F source ⟨stripCarriageReturn (F.decodeUtf8 line), byteOffset⟩ = some
          ⟨read.1, sourcePath source.place source.path, sourceGeneration source.place source.path, byteOffset, read.2⟩ := by
        simp [normalizeLine, hread]
      rw [List.filterMap_cons_some hline]
      by_cases hselects : query.selects F read.1 = true
      · have hselected : selectedLine F query line = some read.1 := by
          simp [selectedLine, hread, Option.filter, hselects]
        rw [List.filter_cons_of_pos (by simpa using hselects), List.map_cons, hrest, List.filterMap_cons_some hselected]
      · have hselected : selectedLine F query line = none := by
          simp [selectedLine, hread, Option.filter, hselects]
        rw [List.filter_cons_of_neg (by simpa using hselects), hrest, List.filterMap_cons_none hselected]

theorem pollSource_read {previous : Option FollowState} {source : LogSource}
    (h : (previous.isNone && !source.active) = false) :
    (pollSource F query previous source).2.map ReadableLogRecord.envelope =
        (wholeLines lineFeed (source.file.content.drop (followOffset previous source.file))).filterMap
          (selectedLine F query) ∧
      (pollSource F query previous source).1 = ⟨source.file.inode, followOffset previous source.file +
        linesSize (wholeLines lineFeed (source.file.content.drop (followOffset previous source.file)))⟩ := by
  rw [pollSource, h, readLines_eq]
  exact ⟨map_envelope_records source _ _, rfl⟩

/-! ## The sources of a poll -/

/-- The path of a source, by which it is remembered. -/
def LogSource.key (source : LogSource) : SourcePlace × SinkPath := (source.place, source.path)

theorem FollowStates.set_self (states : FollowStates) (source : LogSource) (state : FollowState) :
    states.set source state source.place source.path = some state := by
  simp [FollowStates.set]

theorem FollowStates.set_of_ne {states : FollowStates} {source : LogSource} {state : FollowState} {place : SourcePlace}
    {path : SinkPath} (h : (place, path) ≠ source.key) : states.set source state place path = states place path := by
  unfold FollowStates.set
  by_cases hplace : place = source.place
  · subst hplace
    have hpath : path ≠ source.path := fun hpath => h (by rw [hpath, LogSource.key])
    rw [Function.update_self, Function.update_of_ne hpath]
  · rw [Function.update_of_ne hplace]

/-- Each source is polled with what was remembered of its path. -/
theorem pollSources_spec (sources : List LogSource) (states : FollowStates) (batch : List ReadableLogRecord)
    (h : (sources.map LogSource.key).Nodup) :
    (pollSources F query sources states batch).2 =
        batch ++ sources.flatMap (fun source => (pollSource F query (states source.place source.path) source).2) ∧
      (∀ source ∈ sources, (pollSources F query sources states batch).1 source.place source.path =
        some (pollSource F query (states source.place source.path) source).1) ∧
      ∀ place path, (place, path) ∉ sources.map LogSource.key →
        (pollSources F query sources states batch).1 place path = states place path := by
  induction sources generalizing states batch with
  | nil => simp [pollSources]
  | cons source sources ih =>
    rw [List.map_cons, List.nodup_cons] at h
    obtain ⟨hnew, hnodup⟩ := h
    obtain ⟨hbatch, hstates, hothers⟩ := ih
      (states.set source (pollSource F query (states source.place source.path) source).1)
      (batch ++ (pollSource F query (states source.place source.path) source).2) hnodup
    have hstill : ∀ other ∈ sources, states.set source (pollSource F query (states source.place source.path) source).1
        other.place other.path = states other.place other.path := by
      intro other hother
      apply FollowStates.set_of_ne
      intro heq
      exact hnew (List.mem_map.2 ⟨other, hother, heq⟩)
    rw [pollSources]
    refine ⟨?_, ?_, ?_⟩
    · rw [hbatch, List.flatMap_cons, List.append_assoc]
      congr 2
      rw [List.flatMap_def, List.flatMap_def]
      congr 1
      apply List.map_congr_left
      intro other hother
      rw [hstill other hother]
    · intro other hother
      rcases List.mem_cons.1 hother with rfl | hother
      · rw [hothers _ _ hnew, FollowStates.set_self]
      · rw [hstates other hother, hstill other hother]
    · intro place path hnot
      rw [List.map_cons, List.mem_cons, not_or] at hnot
      rw [hothers place path hnot.2, FollowStates.set_of_ne hnot.1]

/-- The files of the log, place by place. -/
def filesOf (log : LogName) (d : LogDisk) : List LogSource :=
  (d.places.filter fun place => log.bases.contains place.base).flatMap fun place =>
    (d.files place).entries.map fun entry => ⟨place, entry.1, entry.2⟩

theorem discoverSources_perm (log : LogName) (d : LogDisk) : (discoverSources F log d).Perm (filesOf log d) :=
  List.mergeSort_perm _ _

theorem mem_filesOf {log : LogName} {d : LogDisk} {source : LogSource} : source ∈ filesOf log d ↔
    source.place ∈ d.places ∧ log.bases.contains source.place.base = true ∧
      (d.files source.place).lookup source.path = some source.file := by
  simp only [filesOf, List.mem_flatMap, List.mem_filter, List.mem_map]
  constructor
  · rintro ⟨place, ⟨hplace, hbase⟩, entry, hentry, rfl⟩
    exact ⟨hplace, hbase, AList.mem_lookup_iff.2 hentry⟩
  · rintro ⟨hplace, hbase, hlookup⟩
    exact ⟨source.place, ⟨hplace, hbase⟩, ⟨source.path, source.file⟩, AList.mem_lookup_iff.1 hlookup, rfl⟩

theorem filesOf_keys_nodup (log : LogName) (d : LogDisk) : ((filesOf log d).map LogSource.key).Nodup := by
  have hplaces : (d.places.filter fun place => log.bases.contains place.base).Nodup := d.nodup.filter _
  unfold filesOf
  generalize (d.places.filter fun place => log.bases.contains place.base) = places at hplaces
  induction places with
  | nil => simp
  | cons place places ih =>
    obtain ⟨hnew, hnodup⟩ := List.nodup_cons.1 hplaces
    rw [List.flatMap_cons, List.map_append, List.nodup_append]
    refine ⟨?_, ih hnodup, ?_⟩
    · have hkeys : ((d.files place).entries.map Sigma.fst).Nodup := (d.files place).nodupKeys
      have hpairs := hkeys.map (f := fun path => (place, path)) (fun path path' heq => (Prod.mk.inj heq).2)
      simpa [List.map_map, Function.comp_def, LogSource.key] using hpairs
    · intro key hkey key' hkey' heq
      obtain ⟨source, hsource, rfl⟩ := List.mem_map.1 hkey
      obtain ⟨entry, _, rfl⟩ := List.mem_map.1 hsource
      obtain ⟨source', hsource', rfl⟩ := List.mem_map.1 hkey'
      obtain ⟨place', hplace', hin⟩ := List.mem_flatMap.1 hsource'
      obtain ⟨entry', _, rfl⟩ := List.mem_map.1 hin
      have hsame : place = place' := congrArg Prod.fst heq
      exact hnew (hsame ▸ hplace')

theorem discoverSources_keys_nodup (log : LogName) (d : LogDisk) :
    ((discoverSources F log d).map LogSource.key).Nodup :=
  ((discoverSources_perm log d).map _).nodup_iff.2 (filesOf_keys_nodup log d)

theorem mem_discoverSources {log : LogName} {d : LogDisk} {source : LogSource} : source ∈ discoverSources F log d ↔
    source.place ∈ d.places ∧ log.bases.contains source.place.base = true ∧
      (d.files source.place).lookup source.path = some source.file := by
  rw [(discoverSources_perm log d).mem_iff, mem_filesOf]

end

end PlusOne
