import PlusOne.Files.Lines
import PlusOne.Logging.Dispatcher
import PlusOne.Memory.Taxonomy

/-! # Envelopes as lines

One record is one line of JSON text. -/

namespace PlusOne

open Files

/-! ## The schema -/

namespace LogEnvelopeV1

def text? (key : String) : Option String → List (String × Json)
  | some text => [(key, .str text)]
  | none => []

/-- The record with its keys in the order of the schema. -/
def toJson (record : LogEnvelopeV1) : Json :=
  .obj ([("schemaVersion", .ofNat 1), ("timestamp", .str record.timestamp),
    ("observedTimestamp", .str record.observedTimestamp), ("severityText", .str record.severityText.text),
    ("severityNumber", .ofNat record.severityNumber), ("eventName", .str record.eventName),
    ("body", .str record.body), ("resource", .obj (record.resource.map fun entry => (entry.1, .str entry.2))),
    ("instrumentationScope", .obj [("name", .str record.instrumentationScope)])] ++
    text? "traceId" record.traceId ++ text? "spanId" record.spanId ++
    [("attributes", .obj record.attributes)])

end LogEnvelopeV1

/-- What the log's lines rest on outside the repository: `z.string().datetime({ offset: true })`,
`JSON.parse`, the text of bytes that a file is read as, and how an instant prints. -/
structure LogFormats where
  datetime : String → Bool
  parseJson : String → Option Json
  decodeUtf8 : List UInt8 → String
  toISOString : ℕ → String

namespace LogEnvelopeSchemaV1

/-- The keys of `z.strictObject`. -/
def keys : List String :=
  ["schemaVersion", "timestamp", "observedTimestamp", "severityText", "severityNumber", "eventName", "body",
    "resource", "instrumentationScope", "traceId", "spanId", "attributes"]

def stringAt (value : Json) (key : String) : Option String :=
  match value.field? key with
  | some (.str text) => some text
  | _ => none

/-- `z.string().min(1)` -/
def nonemptyAt (value : Json) (key : String) : Option String :=
  (stringAt value key).filter fun text => decide (1 ≤ Json.utf16Length text)

/-- `z.string().min(1).optional()` -/
def optionalAt (value : Json) (key : String) : Option (Option String) :=
  match value.field? key with
  | none => some none
  | some _ => (nonemptyAt value key).map some

/-- `z.record(z.string(), z.string())` -/
def textsOf : Json → Option (List (String × String))
  | .obj fields => fields.mapM fun field =>
    match field.2 with
    | .str text => some (field.1, text)
    | _ => none
  | _ => none

/-- `LogScalarSchema` -/
def isScalar : Json → Bool
  | .str _ | .num _ | .bool _ => true
  | _ => false

/-- `z.record(z.string(), LogScalarSchema)` -/
def scalarsOf : Json → Option (List (String × Json))
  | .obj fields => if fields.all fun field => isScalar field.2 then some fields else none
  | _ => none

/-- `z.strictObject({ name: z.string().min(1) })` -/
def scopeOf (value : Json) : Option String :=
  match value with
  | .obj [_] => nonemptyAt value "name"
  | _ => none

def severityOf (text : String) : Option LogSeverityText :=
  LogSeverityText.all.find? fun severity => severity.text == text

/-- `LogEnvelopeSchemaV1`; the number of a severity is one of the four the schema names. -/
def parse (F : LogFormats) (value : Json) : Option LogEnvelopeV1 := do
  let .obj fields := value | none
  guard (fields.all fun field => keys.contains field.1)
  guard (value.field? "schemaVersion" = some (.ofNat 1))
  let timestamp ← (stringAt value "timestamp").filter F.datetime
  let observedTimestamp ← (stringAt value "observedTimestamp").filter F.datetime
  let severityText ← (stringAt value "severityText").bind severityOf
  guard (value.field? "severityNumber" = some (.ofNat severityText.number))
  let eventName ← nonemptyAt value "eventName"
  let body ← nonemptyAt value "body"
  let resource ← (value.field? "resource").bind textsOf
  let instrumentationScope ← (value.field? "instrumentationScope").bind scopeOf
  let traceId ← optionalAt value "traceId"
  let spanId ← optionalAt value "spanId"
  let attributes ← (value.field? "attributes").bind scalarsOf
  some { timestamp, observedTimestamp, severityText, severityNumber := severityText.number, eventName, body,
         resource, instrumentationScope, traceId, spanId, attributes }

end LogEnvelopeSchemaV1

/-! ## Lines -/

abbrev Bytes := List UInt8

/-- `\n` in a file. -/
def lineFeed : UInt8 := 10

def utf8 (text : String) : Bytes := text.toList.flatMap String.utf8EncodeChar

/-- `JSON.stringify(LogEnvelopeSchemaV1.parse(record))`, as the bytes a file gets. -/
def envelopeText (F : LogFormats) (record : LogEnvelopeV1) : Option Bytes :=
  (LogEnvelopeSchemaV1.parse F record.toJson).map fun parsed => utf8 (stringify parsed.toJson)

/-- `serializeLogEnvelope`, which throws for a record that is not one of the schema. -/
def serializeLogEnvelope (F : LogFormats) (record : LogEnvelopeV1) : Option Bytes :=
  (envelopeText F record).map fun text => text ++ [lineFeed]

def parseLogEnvelope (F : LogFormats) (line : String) : Option LogEnvelopeV1 :=
  (F.parseJson line).bind (LogEnvelopeSchemaV1.parse F)

/-! ## No line feed in a record -/

theorem eq_newline_of_mem_utf8EncodeChar {c : Char} (h : lineFeed ∈ String.utf8EncodeChar c) : c = '\n' := by
  have hval : c.val.toNat < 0x110000 := by
    have hvalid := c.valid
    simp only [UInt32.isValidChar, Nat.isValidChar] at hvalid
    omega
  rw [lineFeed, String.utf8EncodeChar] at h
  have hbyte : ∀ n : ℕ, (10 : UInt8) = UInt8.ofNat n → n % 256 = 10 := by
    intro n hn
    have hnat := congrArg UInt8.toNat hn
    simpa using hnat.symm
  apply Char.ext
  apply UInt32.toNat_inj.1
  split at h
  · have hn := hbyte _ (List.mem_singleton.1 h)
    show c.val.toNat = 10
    omega
  · -- the bytes of a longer encoding are 128 and above
    split at h
    · simp only [List.mem_cons, List.not_mem_nil, or_false] at h
      rcases h with h | h <;> have hn := hbyte _ h <;> omega
    · split at h
      · simp only [List.mem_cons, List.not_mem_nil, or_false] at h
        rcases h with h | h | h <;> have hn := hbyte _ h <;> omega
      · simp only [List.mem_cons, List.not_mem_nil, or_false] at h
        rcases h with h | h | h | h <;> have hn := hbyte _ h <;> omega

theorem lineFeed_notMem_utf8 {text : String} (h : '\n' ∉ text.toList) : lineFeed ∉ utf8 text := by
  intro hmem
  obtain ⟨c, hc, hbyte⟩ := List.mem_flatMap.1 hmem
  exact h (eq_newline_of_mem_utf8EncodeChar hbyte ▸ hc)

theorem newline_notMem_escapeChar (c : Char) : '\n' ∉ escapeChar c := by
  have hhex : ∀ n < 32, hexDigit n ≠ '\n' := by decide
  intro h
  unfold escapeChar at h
  split at h
  case isTrue => simp at h
  split at h
  case isTrue => simp at h
  split at h
  case isTrue => simp at h
  split at h
  case isTrue => simp at h
  split at h
  case isTrue => simp at h
  case isFalse _ hten =>
    split at h
    case isTrue => simp at h
    split at h
    case isTrue => simp at h
    split at h
    case isTrue hlow =>
      have hhigh := (hhex (c.toNat / 16) (by omega)).symm
      have hunit := (hhex (c.toNat % 16) (by omega)).symm
      simp [hhigh, hunit] at h
    case isFalse =>
      obtain rfl := List.mem_singleton.1 h
      exact hten rfl

theorem newline_notMem_quoteJson (text : String) : '\n' ∉ quoteJson text := by
  have hflat : '\n' ∉ text.toList.flatMap escapeChar := by
    intro h
    obtain ⟨c, _, hc⟩ := List.mem_flatMap.1 h
    exact newline_notMem_escapeChar c hc
  simp [quoteJson, hflat]

theorem newline_notMem_joinComma {parts : List (List Char)} (h : ∀ part ∈ parts, '\n' ∉ part) :
    '\n' ∉ joinComma parts := by
  induction parts with
  | nil => simp [joinComma]
  | cons part parts ih =>
    have hpart := h part (by simp)
    have hparts := ih fun p hp => h p (by simp [hp])
    cases parts with
    | nil => simpa [joinComma] using hpart
    | cons next rest => simp [joinComma, hpart, hparts]

theorem newline_notMem_number (n : JsonNumber) : '\n' ∉ n.text.toList := by
  intro h
  have hnumber := List.all_eq_true.1 n.numeric _ h
  exact absurd hnumber (by decide)

variable {collation : String → String → Ordering}

mutual

theorem newline_notMem_stableJson : (value : Json) → '\n' ∉ stableJson collation value
  | .null => by simp [stableJson]
  | .bool true => by simp [stableJson]
  | .bool false => by simp [stableJson]
  | .num n => by simpa [stableJson] using newline_notMem_number n
  | .str s => by simpa [stableJson] using newline_notMem_quoteJson s
  | .arr items => by
    have hitems := newline_notMem_joinComma (newline_notMem_stableItems items)
    simp [stableJson, hitems]
  | .obj fields => by
    have hentries : ∀ part ∈ ((stableFields collation fields).insertionSort (localeLe collation)).map entryText,
        '\n' ∉ part := by
      intro part hpart
      obtain ⟨entry, hentry, rfl⟩ := List.mem_map.1 hpart
      have hvalue := newline_notMem_stableFields fields entry ((List.mem_insertionSort _).1 hentry)
      simp [entryText, newline_notMem_quoteJson, hvalue]
    have hjoined := newline_notMem_joinComma hentries
    simp [stableJson, hjoined]

theorem newline_notMem_stableItems : (items : List Json) → ∀ part ∈ stableItems collation items, '\n' ∉ part
  | [] => by simp [stableItems]
  | item :: items => by
    intro part hpart
    rcases List.mem_cons.1 hpart with rfl | hpart
    · exact newline_notMem_stableJson item
    · exact newline_notMem_stableItems items part hpart

theorem newline_notMem_stableFields :
    (fields : List (String × Json)) → ∀ entry ∈ stableFields collation fields, '\n' ∉ entry.2
  | [] => by simp [stableFields]
  | (key, value) :: fields => by
    intro entry hentry
    rcases List.mem_cons.1 hentry with rfl | hentry
    · exact newline_notMem_stableJson value
    · exact newline_notMem_stableFields fields entry hentry

end

theorem lineFeed_notMem_envelopeText {F : LogFormats} {record : LogEnvelopeV1} {text : Bytes}
    (h : envelopeText F record = some text) : lineFeed ∉ text := by
  obtain ⟨parsed, _, rfl⟩ := Option.map_eq_some_iff.1 h
  apply lineFeed_notMem_utf8
  rw [stringify, String.toList_ofList]
  exact newline_notMem_stableJson parsed.toJson

end PlusOne
