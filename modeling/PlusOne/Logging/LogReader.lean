import PlusOne.Logging.Renaming

/-! # Following a log

The reader polls the files of a log and remembers, for each path, the file it found there and how far it
has read in it. -/

namespace PlusOne

open Files

/-! ## Files -/

inductive LogName
  | agent | errors | gateway

/-- The base names of a log's files. -/
def LogName.bases : LogName → List String
  | agent => ["agent.log"]
  | errors => ["errors.log"]
  | gateway => ["gateway.log", "launcher.log"]

/-- A base name in `logs`, or in a directory that a rollback has put aside. -/
structure SourcePlace where
  rollback : Option String
  base : String
  deriving DecidableEq

/-- A file, and how long it was when the reader last looked, which no code reads. -/
structure LogFile where
  inode : ℕ
  content : Bytes
  seen : ℕ

/-- The files below the home directory, under each base name in each directory. -/
structure LogDisk where
  places : List SourcePlace
  nodup : places.Nodup
  files : SourcePlace → SinkFiles LogFile

/-- What is under one base name is changed. -/
def LogDisk.update (d : LogDisk) (place : SourcePlace) (change : SinkFiles LogFile → SinkFiles LogFile) : LogDisk :=
  { d with files := Function.update d.files place (change (d.files place)) }

/-- `resolve(join(directory.path, entry.name))` below the home directory. -/
def sourcePath (place : SourcePlace) (path : SinkPath) : String :=
  (match place.rollback with
    | some name => name
    | none => "logs") ++ "/" ++ place.base ++
  match path with
    | .active => ""
    | .backup index => "." ++ toString index
    | .preserved kind suffix => "." ++ kind.text ++ "-" ++ suffix

/-- `sourceGeneration` -/
def sourceGeneration (place : SourcePlace) (path : SinkPath) : ℤ :=
  (if place.rollback.isSome then -20000 else 0) +
  match path with
    | .active => 0
    | .backup index => -index
    | .preserved _ _ => -10000

structure LogSource where
  place : SourcePlace
  path : SinkPath
  file : LogFile

/-- `source.active` -/
def LogSource.active (source : LogSource) : Bool := source.place.rollback.isNone && decide (source.path = .active)

/-! ## Lines -/

/-- What the reader rests on beyond the formats of the lines; `parseLegacy` reads a line of the format
before envelopes, which no sink writes. -/
structure ReaderFormats extends LogFormats where
  parseLegacy : String → Option (LogEnvelopeV1 × String)
  dateParse : String → ℤ
  localeCompare : String → String → Ordering

structure PhysicalLine where
  text : String
  byteOffset : ℕ

/-- `stripCarriageReturn` -/
def stripCarriageReturn (text : String) : String :=
  if text.toList.getLast? = some '\r' then String.ofList text.toList.dropLast else text

/-- Lines that follow each other, with where each begins. -/
def placeLines (F : LogFormats) : ℕ → List Bytes → List PhysicalLine
  | _, [] => []
  | byteOffset, line :: lines =>
    ⟨stripCarriageReturn (F.decodeUtf8 line), byteOffset⟩ :: placeLines F (byteOffset + line.length + 1) lines

/-- The loop of `readLines`: a chunk goes behind what is buffered, and the lines it completes are cut off. -/
def readChunks (F : LogFormats) (rest buffered : Bytes) (bufferedOffset : ℕ) (lines : List PhysicalLine) :
    List PhysicalLine × ℕ :=
  if h : rest = [] then (lines, bufferedOffset)
  else
    let cut := cutLines lineFeed [] (buffered ++ rest.take 65536)
    readChunks F (rest.drop 65536) cut.2 (bufferedOffset + (cut.1.map fun line => line.length + 1).sum)
      (lines ++ placeLines F bufferedOffset cut.1)
termination_by rest.length
decreasing_by
  have hpos := List.length_pos_iff.2 h
  rw [List.length_drop]
  omega

/-- `readLines(path, startOffset, true)`: the complete lines, and where the next one begins. -/
def readLines (F : LogFormats) (content : Bytes) (startOffset : ℕ) : List PhysicalLine × ℕ :=
  readChunks F (content.drop startOffset) [] startOffset []

/-! ## Records -/

structure ReadableLogRecord where
  envelope : LogEnvelopeV1
  path : String
  generation : ℤ
  byteOffset : ℕ
  legacyDisplayMessage : Option String

/-- `CONTEXT_ATTRIBUTES` -/
def contextAttributes : List (String × String) :=
  [("requestId", "request.id"), ("conversationId", "plus_one.conversation.id"),
    ("householdId", "plus_one.household.id"), ("taskId", "plus_one.task.id"), ("runId", "plus_one.run.id"),
    ("deliveryId", "plus_one.delivery.id")]

structure LogQuery where
  log : LogName
  minLevel : Option LogSeverityText
  correlations : List (String × String)
  component : Option String
  event : Option String
  since : Option ℤ

/-- `matchesCorrelations` -/
def matchesCorrelations (attributes : List (String × Json)) (correlations : List (String × String)) : Bool :=
  correlations.all fun correlation =>
    (contextAttributes.lookup correlation.1).any fun name =>
      decide (attributes.lookup name = some (.str correlation.2))

/-- `matches` -/
def LogQuery.selects (F : ReaderFormats) (query : LogQuery) (envelope : LogEnvelopeV1) : Bool :=
  (query.minLevel.all fun minLevel => decide (minLevel.order ≤ envelope.severityText.order)) &&
    (query.component.all fun component => startsWith envelope.instrumentationScope component) &&
    (query.event.all fun event => startsWith envelope.eventName event) &&
    (query.since.all fun since => decide (since ≤ F.dateParse envelope.timestamp)) &&
    matchesCorrelations envelope.attributes query.correlations

/-- What `normalizeLine` makes of a line's text: the envelope, and what a legacy line shows. -/
def normalizeText (F : ReaderFormats) (text : String) : Option (LogEnvelopeV1 × Option String) :=
  if text = "" then none
  else
    match parseLogEnvelope F.toLogFormats text with
    | some envelope => some (envelope, none)
    | none => (F.parseLegacy text).map fun legacy => (legacy.1, some legacy.2)

/-- `normalizeLine` -/
def normalizeLine (F : ReaderFormats) (source : LogSource) (line : PhysicalLine) : Option ReadableLogRecord :=
  (normalizeText F line.text).map fun read =>
    { envelope := read.1
      path := sourcePath source.place source.path
      generation := sourceGeneration source.place source.path
      byteOffset := line.byteOffset
      legacyDisplayMessage := read.2 }

/-- `compareRecords` -/
def compareRecords (F : ReaderFormats) (left right : ReadableLogRecord) : Ordering :=
  ((compare (F.dateParse left.envelope.timestamp) (F.dateParse right.envelope.timestamp)).then
    (compare left.generation right.generation)).then
      ((compare left.byteOffset right.byteOffset).then (F.localeCompare left.path right.path))

/-! ## Polling -/

structure FollowState where
  inode : ℕ
  offset : ℕ

abbrev FollowStates := SourcePlace → SinkPath → Option FollowState

/-- `states.set(source.path, …)` -/
def FollowStates.set (states : FollowStates) (source : LogSource) (state : FollowState) : FollowStates :=
  Function.update states source.place (Function.update (states source.place) source.path (some state))

/-- `discoverSources`: the files of the log's base names, the oldest first. -/
def discoverSources (F : ReaderFormats) (log : LogName) (d : LogDisk) : List LogSource :=
  let sources := (d.places.filter fun place => log.bases.contains place.base).flatMap fun place =>
    (d.files place).entries.map fun entry => ⟨place, entry.1, entry.2⟩
  sources.mergeSort fun left right =>
    ((compare (sourceGeneration left.place left.path) (sourceGeneration right.place right.path)).then
      (F.localeCompare (sourcePath left.place left.path) (sourcePath right.place right.path))).isLE

/-- Where the reading of a file begins. -/
def followOffset (previous : Option FollowState) (file : LogFile) : ℕ :=
  match previous with
  | none => 0
  | some previous =>
    if previous.inode ≠ file.inode ∨ file.content.length < previous.offset then 0 else previous.offset

/-- One source of a poll: what is remembered of it, and its records that match. -/
def pollSource (F : ReaderFormats) (query : LogQuery) (previous : Option FollowState) (source : LogSource) :
    FollowState × List ReadableLogRecord :=
  if previous.isNone && !source.active then (⟨source.file.inode, source.file.content.length⟩, [])
  else
    let result := readLines F.toLogFormats source.file.content (followOffset previous source.file)
    (⟨source.file.inode, result.2⟩,
      (result.1.filterMap (normalizeLine F source)).filter fun record => query.selects F record.envelope)

/-- The loop over the sources. -/
def pollSources (F : ReaderFormats) (query : LogQuery) :
    List LogSource → FollowStates → List ReadableLogRecord → FollowStates × List ReadableLogRecord
  | [], states, batch => (states, batch)
  | source :: sources, states, batch =>
    let result := pollSource F query (states source.place source.path) source
    pollSources F query sources (states.set source result.1) (batch ++ result.2)

/-- What following has come to: what is remembered, and what was reported. -/
structure LogFollower where
  states : FollowStates
  reported : List ReadableLogRecord

/-- The starting positions. -/
def followStart (F : ReaderFormats) (query : LogQuery) (d : LogDisk) : LogFollower where
  states := (discoverSources F query.log d).foldl
    (fun states source => states.set source ⟨source.file.inode, source.file.content.length⟩) fun _ _ => none
  reported := []

/-- One round of `followLog`. -/
def followPoll (F : ReaderFormats) (query : LogQuery) (d : LogDisk) (follower : LogFollower) : LogFollower :=
  let result := pollSources F query (discoverSources F query.log d) follower.states []
  { states := result.1
    reported := follower.reported ++ result.2.mergeSort fun left right => (compareRecords F left right).isLE }

end PlusOne
