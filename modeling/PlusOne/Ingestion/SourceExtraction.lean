import Mathlib.Data.List.Infix
import Mathlib.Data.List.Range
import PlusOne.Runtime.CanonicalJson

/-! # Extracting the rows of a source

`SourceExtractor.extract` on JSON and on CSV, and what it keeps of a CSV text. -/

namespace PlusOne

open Coding

/-! ## The code -/

structure ExtractedRawRow where
  sourceRowNumber : Nat
  sourceRowIdentity : String
  rawPayload : Json
  deriving DecidableEq

/-- `Object.fromEntries`: a later entry takes the place of an earlier one under its key. -/
def setEntry {α : Type} (fields : List (String × α)) (entry : String × α) : List (String × α) :=
  if entry.1 ∈ fields.map Prod.fst then
    fields.map fun field => if field.1 = entry.1 then entry else field
  else fields ++ [entry]

def fromEntries {α : Type} (entries : List (String × α)) : List (String × α) := entries.foldl setEntry []

namespace SourceExtractor

def fail {α : Type} (message : String) : Except Thrown α :=
  .error (.plusOne
    { category := .validation_rejected
      code := "source_extraction_invalid"
      message
      retry := .never
      receiptLookupRequired := false
      details := [] })

/-- `.replace(/\r\n/g, '\n')` -/
def withLineFeeds : List Char → List Char
  | '\r' :: '\n' :: rest => '\n' :: withLineFeeds rest
  | c :: rest => c :: withLineFeeds rest
  | [] => []

/-- The loop of `csvLine`, from what is left of the line. -/
def csvFields : List Char → Bool → List Char → List String → Except Thrown (List String)
  | '"' :: '"' :: rest, true, current, result => csvFields rest true (current ++ ['"']) result
  | '"' :: rest, quoted, current, result => csvFields rest (!quoted) current result
  | ',' :: rest, false, current, result => csvFields rest false [] (result ++ [.ofList current])
  | c :: rest, quoted, current, result => csvFields rest quoted (current ++ [c]) result
  | [], true, _, _ => fail "Unterminated CSV quote"
  | [], false, current, result => .ok (result ++ [.ofList current])

def csvLine (line : List Char) : Except Thrown (List String) := csvFields line false [] []

example : csvLine ['a', ',', '"', ',', '"', '"', '"'] = .ok ["a", ",\""] := by
  simp [csvLine, csvFields]

/-- The lines of the text before the blank ones are left out. -/
def physicalLines (text : String) : List (List Char) := (withLineFeeds text.toList).splitOn '\n'

def csvLines (text : String) : List (List Char) :=
  (physicalLines text).filter fun line => !line.isEmpty

def csvRow (headers : List String) (index : Nat) (line : List Char) : Except Thrown ExtractedRawRow := do
  let values ← csvLine line
  if values.length ≠ headers.length then fail ("CSV row " ++ toString (index + 2) ++ " width mismatch")
  else return {
    sourceRowNumber := index + 2
    sourceRowIdentity := "csv-row-" ++ toString (index + 2)
    rawPayload := .obj (fromEntries ((headers.zip values).map fun column => (column.1, .str column.2))) }

def csvRows (headers : List String) : Nat → List (List Char) → Except Thrown (List ExtractedRawRow)
  | _, [] => .ok []
  | index, line :: lines => do
    let row ← csvRow headers index line
    let rows ← csvRows headers (index + 1) lines
    return row :: rows

def extractCsv (text : String) : Except Thrown (List ExtractedRawRow) :=
  match csvLines text with
  | header :: line :: lines => do
    let headers ← csvLine header
    csvRows headers 0 (line :: lines)
  | _ => fail "CSV source must contain a header and a row"

section

variable (P : Platform) (parseJson : String → Except Thrown Json)

def jsonRows : Nat → List Json → Except Thrown (List ExtractedRawRow)
  | _, [] => .ok []
  | index, rawPayload :: items => do
    let rawPayload ← parseJson (P.canonicalize rawPayload)
    let rows ← jsonRows (index + 1) items
    return {
      sourceRowNumber := index + 1
      sourceRowIdentity := "json-row-" ++ toString (index + 1)
      rawPayload } :: rows

/-- `extract`, of the text the bytes decode to; `parseJson` is `JSON.parse`. -/
def extract (mediaType parserVersion text : String) : Except Thrown (List ExtractedRawRow) :=
  if mediaType = "application/json" ∧ parserVersion = "json-v1" then do
    match ← parseJson text with
    | .arr items => jsonRows P parseJson 0 items
    | _ => fail "JSON source must be an array"
  else if mediaType = "text/csv" ∧ parserVersion = "csv-v1" then extractCsv text
  else fail "Unsupported source media type or parser version"

end

end SourceExtractor

/-! ## Entries under their keys -/

section

variable {α : Type} {fields entries : List (String × α)}

theorem keys_setEntry (entry : String × α) : (setEntry fields entry).map Prod.fst =
    if entry.1 ∈ fields.map Prod.fst then fields.map Prod.fst else fields.map Prod.fst ++ [entry.1] := by
  unfold setEntry
  split_ifs with hmem
  · rw [List.map_map]
    apply List.map_congr_left
    intro field _
    by_cases hkey : field.1 = entry.1
    · simp [hkey]
    · simp [hkey]
  · simp

theorem foldl_setEntry_of_nodup (h : ((fields ++ entries).map Prod.fst).Nodup) :
    entries.foldl setEntry fields = fields ++ entries := by
  induction entries generalizing fields with
  | nil => simp
  | cons entry entries ih =>
    have hnew : entry.1 ∉ fields.map Prod.fst := by
      intro hmem
      rw [List.map_append, List.nodup_append] at h
      exact h.2.2 _ hmem entry.1 (by simp) rfl
    have hset : setEntry fields entry = fields ++ [entry] := by simp only [setEntry, if_neg hnew]
    have hrest : (((fields ++ [entry]) ++ entries).map Prod.fst).Nodup := by simpa using h
    rw [List.foldl_cons, hset, ih hrest, List.append_assoc, List.singleton_append]

theorem length_foldl_setEntry_le :
    (entries.foldl setEntry fields).length ≤ fields.length + entries.length := by
  induction entries generalizing fields with
  | nil => simp
  | cons entry entries ih =>
    have hlength := @ih (setEntry fields entry)
    have hset := congrArg List.length (@keys_setEntry α fields entry)
    rw [List.length_map] at hset
    rw [List.foldl_cons, List.length_cons]
    split_ifs at hset
    · simp only [List.length_map] at hset
      omega
    · simp only [List.length_append, List.length_map, List.length_singleton] at hset
      omega

/-- As many entries come out as go in only when their keys are different. -/
theorem nodup_of_length_foldl_setEntry (hfields : (fields.map Prod.fst).Nodup)
    (h : (entries.foldl setEntry fields).length = fields.length + entries.length) :
    ((fields ++ entries).map Prod.fst).Nodup := by
  induction entries generalizing fields with
  | nil => simpa using hfields
  | cons entry entries ih =>
    rw [List.foldl_cons, List.length_cons] at h
    have hle := @length_foldl_setEntry_le α (setEntry fields entry) entries
    have hkeys := @keys_setEntry α fields entry
    by_cases hmem : entry.1 ∈ fields.map Prod.fst
    · have hlength : (setEntry fields entry).length = fields.length := by simp [setEntry, hmem]
      omega
    · have hset : setEntry fields entry = fields ++ [entry] := by simp only [setEntry, if_neg hmem]
      rw [hset] at h
      have hnodup : ((fields ++ [entry]).map Prod.fst).Nodup := by
        rw [List.map_append, List.nodup_append]
        refine ⟨hfields, by simp, ?_⟩
        intro key hkey other hother heq
        subst heq
        have hsame : key = entry.1 := by simpa using hother
        exact hmem (hsame ▸ hkey)
      have hlength : (entries.foldl setEntry (fields ++ [entry])).length =
          (fields ++ [entry]).length + entries.length := by
        simp only [List.length_append, List.length_singleton]
        omega
      have hrest := ih hnodup hlength
      simpa using hrest

theorem length_fromEntries_iff :
    (fromEntries entries).length = entries.length ↔ (entries.map Prod.fst).Nodup := by
  constructor
  · intro h
    have hnodup := @nodup_of_length_foldl_setEntry α [] entries (by simp) (by simpa [fromEntries] using h)
    simpa using hnodup
  · intro h
    have hsame := @foldl_setEntry_of_nodup α [] entries (by simpa using h)
    rw [fromEntries, hsame]
    rfl

end

/-! ## What is kept of an accepted text -/

/-- The payload has one value for every column, under the name of the column. -/
structure CarriesColumns (headers values : List String) (rawPayload : Json) : Prop where
  columns : ∃ fields, rawPayload = .obj fields ∧ fields.length = headers.length
  value : ∀ column ∈ headers.zip values, rawPayload.field? column.1 = some (.str column.2)

namespace SourceExtractor

/-- The lines that are not blank, numbered from `n` with the blank ones. -/
def numberedFrom (n : Nat) (lines : List (List Char)) : List (List Char × Nat) :=
  (lines.zipIdx n).filter fun line => !line.1.isEmpty

/-- The lines that are not blank, with their physical numbers. -/
def numberedLines (text : String) : List (List Char × Nat) := numberedFrom 1 (physicalLines text)

/-- A row stands for a line: it has the number of the line and a value of it for every column. -/
structure Represents (headers : List String) (row : ExtractedRawRow) (line : List Char × Nat) : Prop where
  number : row.sourceRowNumber = line.2
  values : ∃ values, csvLine line.1 = .ok values ∧ CarriesColumns headers values row.rawPayload

/-- Every line after the header is represented by a row of its own. -/
structure LosesNothing (text : String) (rows : List ExtractedRawRow) : Prop where
  lines : ∃ header headers, (numberedLines text).head? = some header ∧ csvLine header.1 = .ok headers ∧
    List.Forall₂ (Represents headers) rows (numberedLines text).tail
  identities : (rows.map ExtractedRawRow.sourceRowIdentity).Nodup

/-- The columns of the first line that is not blank have different names. -/
def ColumnsApart (text : String) : Prop :=
  ∀ header ∈ (csvLines text).head?, ∀ headers, csvLine header = .ok headers → headers.Nodup

/-- No blank line comes before a line that is not blank. -/
def BlankLinesLast (text : String) : Prop :=
  (physicalLines text).Pairwise fun line next => next ≠ [] → line ≠ []

/-- The payload of a row is as wide as its header. -/
theorem carriesColumns_iff {headers values : List String} (hwidth : values.length = headers.length) :
    CarriesColumns headers values
        (.obj (fromEntries ((headers.zip values).map fun column => (column.1, .str column.2)))) ↔
      headers.Nodup := by
  have hzip : (headers.zip values).length = headers.length := by
    rw [List.length_zip]
    omega
  have hkeys : ((headers.zip values).map fun column => (column.1, Json.str column.2)).map Prod.fst =
      headers := by
    rw [List.map_map]
    exact List.map_fst_zip (by omega)
  constructor
  · rintro ⟨⟨fields, hfields, hlength⟩, -⟩
    obtain rfl := Json.obj.inj hfields
    rw [← hkeys, ← length_fromEntries_iff, hlength, List.length_map, hzip]
  · intro hnodup
    have hentries : fromEntries ((headers.zip values).map fun column => (column.1, Json.str column.2)) =
        (headers.zip values).map fun column => (column.1, Json.str column.2) := by
      have hsame := @foldl_setEntry_of_nodup Json []
        ((headers.zip values).map fun column => (column.1, Json.str column.2))
      rw [List.nil_append, hkeys] at hsame
      exact hsame hnodup
    rw [hentries]
    constructor
    · exact ⟨_, rfl, by rw [List.length_map, hzip]⟩
    · intro column hcolumn
      rw [field?_eq_some_iff (by rw [hkeys]; exact hnodup)]
      exact List.mem_map.2 ⟨column, hcolumn, rfl⟩

/-- What is extracted from a line under a number. -/
def Extracted (headers : List String) (row : ExtractedRawRow) (line : List Char × Nat) : Prop :=
  ∃ values, csvLine line.1 = .ok values ∧ values.length = headers.length ∧
    row = ⟨line.2, "csv-row-" ++ toString line.2,
      .obj (fromEntries ((headers.zip values).map fun column => (column.1, .str column.2)))⟩

variable {headers : List String}

theorem csvRow_eq_ok {index : Nat} {line : List Char} {row : ExtractedRawRow}
    (h : csvRow headers index line = .ok row) : Extracted headers row (line, index + 2) := by
  unfold csvRow at h
  cases hvalues : csvLine line with
  | error error => simp [hvalues, bind, Except.bind] at h
  | ok values =>
    simp only [hvalues, bind, Except.bind] at h
    split_ifs at h with hwidth
    · simp [fail] at h
    · exact ⟨values, hvalues, not_ne_iff.1 hwidth, (Except.ok.inj h).symm⟩

variable {rows : List ExtractedRawRow}

/-- Rows are extracted one from each line, numbered one after another. -/
theorem csvRows_eq_ok {index : Nat} {lines : List (List Char)} (h : csvRows headers index lines = .ok rows) :
    List.Forall₂ (Extracted headers) rows (lines.zipIdx (index + 2)) := by
  induction lines generalizing index rows with
  | nil =>
    obtain rfl := Except.ok.inj h
    exact .nil
  | cons line lines ih =>
    cases hrow : csvRow headers index line with
    | error error => simp [csvRows, hrow, bind, Except.bind] at h
    | ok row =>
      cases hrows : csvRows headers (index + 1) lines with
      | error error => simp [csvRows, hrow, hrows, bind, Except.bind] at h
      | ok rest =>
        have heq : row :: rest = rows := by
          simpa [csvRows, hrow, hrows, bind, Except.bind, pure, Except.pure] using h
        subst heq
        rw [List.zipIdx_cons]
        exact .cons (csvRow_eq_ok hrow) (ih hrows)

theorem toString_injective : Function.Injective (toString : Nat → String) := by
  intro m n h
  have hdigits : Nat.toDigits 10 m = Nat.toDigits 10 n := by
    rw [Nat.toString_eq_ofList_toDigits, Nat.toString_eq_ofList_toDigits] at h
    exact String.ofList_injective h
  have hvalue := congrArg (fun digits => Nat.ofDigitChars 10 digits 0) hdigits
  simpa using hvalue

theorem identities_nodup {lines : List (List Char)} {n : Nat}
    (h : List.Forall₂ (Extracted headers) rows (lines.zipIdx n)) :
    (rows.map ExtractedRawRow.sourceRowIdentity).Nodup := by
  have hidentities : ∀ {rows : List ExtractedRawRow} {lines : List (List Char × Nat)},
      List.Forall₂ (Extracted headers) rows lines → rows.map ExtractedRawRow.sourceRowIdentity =
        (lines.map Prod.snd).map fun number => "csv-row-" ++ toString number := by
    intro rows lines hrows
    induction hrows with
    | nil => rfl
    | cons hrow _ ih =>
      obtain ⟨values, -, -, rfl⟩ := hrow
      rw [List.map_cons, List.map_cons, List.map_cons, ih]
  rw [hidentities h, List.zipIdx_map_snd]
  refine List.Nodup.map ?_ List.nodup_range'
  intro number other heq
  exact toString_injective ((String.append_right_inj _).1 heq)

theorem Extracted.represents_iff {row : ExtractedRawRow} {line other : List Char × Nat}
    (h : Extracted headers row line) (hline : line.1 = other.1) :
    Represents headers row other ↔ headers.Nodup ∧ line = other := by
  obtain ⟨values, hvalues, hwidth, rfl⟩ := h
  constructor
  · rintro ⟨hnumber, values', hvalues', hcarries⟩
    rw [← hline, hvalues] at hvalues'
    obtain rfl := Except.ok.inj hvalues'
    exact ⟨(carriesColumns_iff hwidth).1 hcarries, Prod.ext hline hnumber⟩
  · rintro ⟨hnodup, rfl⟩
    exact ⟨rfl, values, hvalues, (carriesColumns_iff hwidth).2 hnodup⟩

/-- Rows extracted under numbers represent lines exactly when these have the numbers and no two columns
have one name. -/
theorem represents_iff {lines others : List (List Char × Nat)} (h : List.Forall₂ (Extracted headers) rows lines)
    (hlines : lines.map Prod.fst = others.map Prod.fst) :
    List.Forall₂ (Represents headers) rows others ↔ (lines = [] ∨ headers.Nodup) ∧ lines = others := by
  induction h generalizing others with
  | nil =>
    cases others with
    | nil => simp
    | cons other others => simp at hlines
  | @cons row line rows lines hrow _ ih =>
    cases others with
    | nil => simp at hlines
    | cons other others =>
      rw [List.map_cons, List.map_cons, List.cons.injEq] at hlines
      have hhead := hrow.represents_iff hlines.1
      have htail := ih hlines.2
      rw [List.forall₂_cons, hhead, htail]
      constructor
      · rintro ⟨⟨hnodup, rfl⟩, -, rfl⟩
        exact ⟨Or.inr hnodup, rfl⟩
      · rintro ⟨hnodup | hnodup, heq⟩
        · cases hnodup
        · cases heq
          exact ⟨⟨hnodup, rfl⟩, Or.inr hnodup, rfl⟩

/-! ## Lines under their numbers -/

section

variable {n : Nat} {lines : List (List Char)}

theorem numberedFrom_blank : numberedFrom n ([] :: lines) = numberedFrom (n + 1) lines := by
  simp [numberedFrom]

theorem numberedFrom_cons {c : Char} {line : List Char} :
    numberedFrom n ((c :: line) :: lines) = (c :: line, n) :: numberedFrom (n + 1) lines := by
  simp [numberedFrom]

theorem numberedFrom_fst : (numberedFrom n lines).map Prod.fst = lines.filter fun line => !line.isEmpty := by
  induction lines generalizing n with
  | nil => rfl
  | cons line lines ih =>
    cases line with
    | nil => simp [numberedFrom_blank, ih]
    | cons c line => simp [numberedFrom_cons, ih]

theorem le_of_mem_numberedFrom {line : List Char × Nat} (h : line ∈ numberedFrom n lines) : n ≤ line.2 := by
  obtain ⟨hmem, -⟩ := List.mem_filter.1 h
  exact (List.mem_zipIdx_iff_le_and_getElem?_sub.1 hmem).1

theorem lt_of_mem_tail {line : List Char × Nat} (h : line ∈ (numberedFrom n lines).tail) : n < line.2 := by
  induction lines generalizing n with
  | nil => simp [numberedFrom] at h
  | cons first lines ih =>
    cases first with
    | nil =>
      rw [numberedFrom_blank] at h
      have hlt := ih h
      omega
    | cons c first =>
      rw [numberedFrom_cons, List.tail_cons] at h
      have hle := le_of_mem_numberedFrom h
      omega

theorem pairwise_blank : ([] :: lines).Pairwise (fun line next => next ≠ [] → line ≠ []) ↔
    (lines.filter fun line => !line.isEmpty) = [] := by
  rw [List.pairwise_cons, List.filter_eq_nil_iff]
  constructor
  · rintro ⟨hblank, -⟩ line hline
    by_contra hkept
    exact hblank line hline (by simpa using hkept) rfl
  · intro hblank
    have hall : ∀ line ∈ lines, line = [] := by
      intro line hline
      simpa using hblank line hline
    refine ⟨fun line hline hne => absurd (hall line hline) hne, ?_⟩
    rw [List.pairwise_iff_forall_sublist]
    intro line next hsublist hne
    exact absurd (hall next (hsublist.subset (by simp))) hne

/-- Numbering without the blank lines gives the same numbers when they all come last. -/
theorem zipIdx_filter_iff : (lines.filter fun line => !line.isEmpty).zipIdx n = numberedFrom n lines ↔
    lines.Pairwise fun line next => next ≠ [] → line ≠ [] := by
  induction lines generalizing n with
  | nil => simp [numberedFrom]
  | cons line lines ih =>
    cases line with
    | nil =>
      rw [pairwise_blank, numberedFrom_blank]
      have hfilter : (([] :: lines).filter fun line => !line.isEmpty) =
          lines.filter fun line => !line.isEmpty := by simp
      rw [hfilter]
      constructor
      · intro heq
        cases hkept : lines.filter fun line => !line.isEmpty with
        | nil => rfl
        | cons first rest =>
          rw [hkept, List.zipIdx_cons] at heq
          have hmem : (first, n) ∈ numberedFrom (n + 1) lines := by rw [← heq]; simp
          have hle : n + 1 ≤ n := le_of_mem_numberedFrom hmem
          omega
      · intro hkept
        have hnone := @numberedFrom_fst (n + 1) lines
        rw [hkept, List.map_eq_nil_iff] at hnone
        rw [hkept, hnone]
        rfl
    | cons c line =>
      have hfilter : (((c :: line) :: lines).filter fun line => !line.isEmpty) =
          (c :: line) :: lines.filter fun line => !line.isEmpty := by simp
      rw [numberedFrom_cons, hfilter, List.zipIdx_cons, List.cons.injEq, List.pairwise_cons, ← @ih (n + 1)]
      simp

/-- The same of the lines after the first, when there are any. -/
theorem zipIdx_tail_iff (hne : (lines.filter fun line => !line.isEmpty).tail ≠ []) :
    (lines.filter fun line => !line.isEmpty).tail.zipIdx (n + 1) = (numberedFrom n lines).tail ↔
      lines.Pairwise fun line next => next ≠ [] → line ≠ [] := by
  cases lines with
  | nil => simp at hne
  | cons line lines =>
    cases line with
    | nil =>
      have hfilter : (([] :: lines).filter fun line => !line.isEmpty) =
          lines.filter fun line => !line.isEmpty := by simp
      rw [hfilter] at hne ⊢
      rw [pairwise_blank, numberedFrom_blank]
      constructor
      · intro heq
        cases hkept : (lines.filter fun line => !line.isEmpty).tail with
        | nil => exact absurd hkept hne
        | cons first rest =>
          rw [hkept, List.zipIdx_cons] at heq
          have hmem : (first, n + 1) ∈ (numberedFrom (n + 1) lines).tail := by rw [← heq]; simp
          have hlt := lt_of_mem_tail hmem
          simp at hlt
      · intro hkept
        rw [hkept] at hne
        exact absurd rfl hne
    | cons c line =>
      have hfilter : (((c :: line) :: lines).filter fun line => !line.isEmpty) =
          (c :: line) :: lines.filter fun line => !line.isEmpty := by simp
      rw [hfilter, numberedFrom_cons, List.tail_cons, List.tail_cons, zipIdx_filter_iff, List.pairwise_cons]
      simp

end

/-- An accepted text loses nothing exactly when its columns have different names and its blank lines come
last. -/
theorem losesNothing_iff {text : String} (h : extractCsv text = .ok rows) :
    LosesNothing text rows ↔ ColumnsApart text ∧ BlankLinesLast text := by
  unfold extractCsv at h
  split at h
  · next header line lines hlines =>
    cases hheaders : csvLine header with
    | error error => simp [hheaders, bind, Except.bind] at h
    | ok headers =>
      simp only [hheaders, bind, Except.bind] at h
      have hrows := csvRows_eq_ok h
      have hfst := @numberedFrom_fst 1 (physicalLines text)
      have hkept : ((physicalLines text).filter fun line => !line.isEmpty) = header :: line :: lines := hlines
      have htail : ((line :: lines).zipIdx 2).map Prod.fst = (numberedLines text).tail.map Prod.fst := by
        rw [List.zipIdx_map_fst, List.map_tail, numberedLines, hfst, hkept, List.tail_cons]
      have hhead : ∃ number, (numberedLines text).head? = some (header, number) := by
        have hmap := congrArg List.head? hfst
        rw [hkept, List.head?_map, List.head?_cons, Option.map_eq_some_iff] at hmap
        obtain ⟨first, hfirst, hheader⟩ := hmap
        exact ⟨first.2, by rw [numberedLines, hfirst, ← hheader]⟩
      have hnumbers : (line :: lines).zipIdx 2 = (numberedLines text).tail ↔ BlankLinesLast text := by
        have hiff := @zipIdx_tail_iff 1 (physicalLines text) (by rw [hkept]; simp)
        rw [hkept] at hiff
        exact hiff
      have hcolumns : ColumnsApart text ↔ headers.Nodup := by
        unfold ColumnsApart
        rw [hlines]
        simp [hheaders]
      have hall := represents_iff hrows htail
      rw [hcolumns, ← hnumbers]
      constructor
      · rintro ⟨⟨first, headers', hfirst, hheaders', hforall⟩, -⟩
        obtain ⟨number, hnumber⟩ := hhead
        rw [hnumber] at hfirst
        obtain rfl := Option.some.inj hfirst
        rw [hheaders] at hheaders'
        obtain rfl := Except.ok.inj hheaders'
        obtain ⟨hnodup | hnodup, heq⟩ := hall.1 hforall
        · simp at hnodup
        · exact ⟨hnodup, heq⟩
      · rintro ⟨hnodup, heq⟩
        obtain ⟨number, hnumber⟩ := hhead
        have hforall := hall.2 ⟨Or.inr hnodup, heq⟩
        exact ⟨⟨(header, number), headers, hnumber, hheaders, hforall⟩, identities_nodup hrows⟩
  · simp [fail] at h

end SourceExtractor

/-! ## Tables as texts -/

/-- A field without a line feed, and whether it is written in quotes, which it may not be without when
it has a quote or a comma. -/
structure CsvField where
  value : String
  quoted : Bool
  newline_free : '\n' ∉ value.toList
  plain : quoted = false → '"' ∉ value.toList ∧ ',' ∉ value.toList

namespace CsvField

/-- A quote inside quotes is doubled. -/
def doubled (c : Char) : List Char := if c = '"' then ['"', '"'] else [c]

def chars (field : CsvField) : List Char :=
  if field.quoted then '"' :: field.value.toList.flatMap doubled ++ ['"'] else field.value.toList

end CsvField

abbrev CsvRecord := List CsvField

namespace CsvRecord

variable (record : CsvRecord)

def values : List String := record.map CsvField.value

def chars : List Char := [','].intercalate (record.map CsvField.chars)

/-- The record is written as nothing: it is one empty field without quotes. -/
def Blank : Prop := ∃ field, record = [field] ∧ field.quoted = false ∧ field.value = ""

end CsvRecord

/-- A header and one or more records of its width, each in a line of its own, the last of which may
or may not be ended. -/
structure CsvTable where
  header : CsvRecord
  records : List CsvRecord
  ended : Bool
  header_ne_nil : header ≠ []
  records_ne_nil : records ≠ []
  width : ∀ record ∈ records, record.length = header.length

namespace CsvTable

variable (table : CsvTable)

def lines : List (List Char) := (table.header :: table.records).map CsvRecord.chars

def text : String :=
  .ofList (['\r', '\n'].intercalate (if table.ended then table.lines ++ [[]] else table.lines))

/-- What is extracted from the text of the table has its fields again. -/
def ComesBack : Prop :=
  ∃ rows, SourceExtractor.extractCsv table.text = .ok rows ∧
    List.Forall₂ (fun (row : ExtractedRawRow) (record : CsvRecord) =>
      CarriesColumns table.header.values record.values row.rawPayload) rows table.records

end CsvTable

namespace SourceExtractor

/-! ## Reading a line back -/

section

variable {rest current : List Char} {result : List String}

theorem csvFields_other {c : Char} {quoted : Bool} (hquote : c ≠ '"') (hcomma : c = ',' → quoted = true) :
    csvFields (c :: rest) quoted current result = csvFields rest quoted (current ++ [c]) result := by
  rw [csvFields]
  · exact hquote
  · intro _ _ hc _
    exact hquote hc
  · intro hquoted hc
    rw [hcomma hc] at hquoted
    cases hquoted

theorem csvFields_open :
    csvFields ('"' :: rest) false current result = csvFields rest true current result := by
  rw [csvFields]
  · rfl
  · intro _ hquoted
    cases hquoted

theorem csvFields_close (hrest : rest.head? ≠ some '"') :
    csvFields ('"' :: rest) true current result = csvFields rest false current result := by
  rw [csvFields]
  · rfl
  · intro rest' _ heq
    subst heq
    exact hrest rfl

theorem csvFields_plain {value : List Char} (hquote : '"' ∉ value) (hcomma : ',' ∉ value) :
    csvFields (value ++ rest) false current result = csvFields rest false (current ++ value) result := by
  induction value generalizing current with
  | nil => simp
  | cons c value ih =>
    simp only [List.mem_cons, not_or] at hquote hcomma
    have hstep := @csvFields_other (value ++ rest) current result c false (fun hc => hquote.1 hc.symm)
      (fun hc => absurd hc.symm hcomma.1)
    rw [List.cons_append, hstep, ih hquote.2 hcomma.2, List.append_assoc, List.singleton_append]

/-- Inside quotes, up to the quote that ends them. -/
theorem csvFields_doubled (value : List Char) (hrest : rest.head? ≠ some '"') :
    csvFields (value.flatMap CsvField.doubled ++ '"' :: rest) true current result =
      csvFields rest false (current ++ value) result := by
  induction value generalizing current with
  | nil => simpa using csvFields_close hrest
  | cons c value ih =>
    by_cases hc : c = '"'
    · subst hc
      have hdoubled : CsvField.doubled '"' = ['"', '"'] := rfl
      rw [List.flatMap_cons, hdoubled, List.append_assoc, List.cons_append, List.cons_append,
        List.nil_append, csvFields, ih, List.append_assoc, List.singleton_append]
    · have hdoubled : CsvField.doubled c = [c] := if_neg hc
      rw [List.flatMap_cons, hdoubled, List.append_assoc, List.singleton_append,
        csvFields_other hc (fun _ => rfl), ih, List.append_assoc, List.singleton_append]

theorem csvFields_field (field : CsvField) (hrest : rest.head? ≠ some '"') :
    csvFields (field.chars ++ rest) false [] result =
      csvFields rest false field.value.toList result := by
  unfold CsvField.chars
  split_ifs with hquoted
  · have hread := @csvFields_doubled rest [] result field.value.toList hrest
    simp only [List.cons_append, List.append_assoc, List.nil_append] at hread ⊢
    rw [csvFields_open, hread]
  · obtain ⟨hquote, hcomma⟩ := field.plain (by simpa using hquoted)
    have hread := @csvFields_plain rest [] result field.value.toList hquote hcomma
    simpa using hread

theorem csvFields_record (record : CsvRecord) (hne : record ≠ []) :
    csvFields record.chars false [] result = .ok (result ++ record.values) := by
  induction record generalizing result with
  | nil => exact absurd rfl hne
  | cons field record ih =>
    cases record with
    | nil =>
      have hread := @csvFields_field [] result field (by simp)
      rw [List.append_nil] at hread
      have hchars : CsvRecord.chars [field] = field.chars := by simp [CsvRecord.chars]
      rw [hchars, hread, csvFields, String.ofList_toList]
      rfl
    | cons next record =>
      have hchars : CsvRecord.chars (field :: next :: record) =
          field.chars ++ ',' :: CsvRecord.chars (next :: record) := by
        simp [CsvRecord.chars, List.intercalate_cons_cons]
      have hread := @csvFields_field (',' :: CsvRecord.chars (next :: record)) result field (by simp)
      have hcomma : csvFields (',' :: CsvRecord.chars (next :: record)) false field.value.toList result =
          csvFields (CsvRecord.chars (next :: record)) false [] (result ++ [field.value]) := by
        rw [csvFields, String.ofList_toList]
      rw [hchars, hread, hcomma, ih (by simp)]
      simp [CsvRecord.values]

theorem csvLine_record {record : CsvRecord} (hne : record ≠ []) :
    csvLine record.chars = .ok record.values := by
  have hread := @csvFields_record [] record hne
  simpa [csvLine] using hread

end

/-! ## Reading a table back -/

theorem withLineFeeds_line {line rest : List Char} (h : '\n' ∉ line) :
    withLineFeeds (line ++ '\r' :: '\n' :: rest) = line ++ '\n' :: withLineFeeds rest := by
  induction line with
  | nil => rfl
  | cons c line ih =>
    simp only [List.mem_cons, not_or] at h
    have hnext : ∀ after : List Char, c = '\r' → line ++ '\r' :: '\n' :: rest ≠ '\n' :: after := by
      intro after _ heq
      cases line with
      | nil => simp at heq
      | cons d line =>
        simp only [List.cons_append, List.cons.injEq] at heq
        exact h.2 (by simp [heq.1])
    rw [List.cons_append, withLineFeeds, ih h.2, List.cons_append]
    exact hnext

theorem withLineFeeds_last {line : List Char} (h : '\n' ∉ line) : withLineFeeds line = line := by
  induction line with
  | nil => rfl
  | cons c line ih =>
    simp only [List.mem_cons, not_or] at h
    have hnext : ∀ after : List Char, c = '\r' → line ≠ '\n' :: after := by
      intro after _ heq
      subst heq
      exact h.2 (by simp)
    rw [withLineFeeds, ih h.2]
    exact hnext

theorem withLineFeeds_lines {lines : List (List Char)} (h : ∀ line ∈ lines, '\n' ∉ line) :
    withLineFeeds (['\r', '\n'].intercalate lines) = ['\n'].intercalate lines := by
  induction lines with
  | nil => rfl
  | cons line lines ih =>
    obtain ⟨hline, hlines⟩ := List.forall_mem_cons.1 h
    cases lines with
    | nil => simpa using withLineFeeds_last hline
    | cons next lines =>
      have hrest := ih hlines
      simp only [List.intercalate_cons_cons, List.append_assoc, List.cons_append, List.nil_append]
      rw [withLineFeeds_line hline, hrest]

end SourceExtractor

theorem CsvRecord.newline_free (record : CsvRecord) : '\n' ∉ record.chars := by
  have hfield : ∀ field : CsvField, '\n' ∉ field.chars := by
    intro field hmem
    have hfree := field.newline_free
    unfold CsvField.chars at hmem
    split_ifs at hmem
    · simp only [List.cons_append, List.mem_cons, List.mem_append, List.mem_flatMap, List.not_mem_nil,
        or_false] at hmem
      rcases hmem with hopen | ⟨c, hc, hdoubled⟩ | hclose
      · cases hopen
      · unfold CsvField.doubled at hdoubled
        split_ifs at hdoubled
        · simp at hdoubled
        · rw [List.mem_singleton] at hdoubled
          subst hdoubled
          exact hfree hc
      · cases hclose
    · exact hfree hmem
  induction record with
  | nil => simp [CsvRecord.chars]
  | cons field record ih =>
    have hhead := hfield field
    cases record with
    | nil => simpa [CsvRecord.chars] using hhead
    | cons next record =>
      simp only [CsvRecord.chars, List.map_cons, List.intercalate_cons_cons, List.mem_append,
        List.mem_singleton, not_or] at ih ⊢
      exact ⟨⟨hhead, by decide⟩, ih⟩

theorem CsvRecord.chars_eq_nil_iff {record : CsvRecord} (hne : record ≠ []) :
    record.chars = [] ↔ record.Blank := by
  constructor
  · intro h
    cases record with
    | nil => exact absurd rfl hne
    | cons field record =>
      cases record with
      | nil =>
        have hfield : field.chars = [] := by simpa [CsvRecord.chars] using h
        unfold CsvField.chars at hfield
        split_ifs at hfield with hquoted
        · simp at hfield
        · exact ⟨field, rfl, by simpa using hquoted, by simpa using hfield⟩
      | cons next record => simp [CsvRecord.chars, List.intercalate_cons_cons] at h
  · rintro ⟨field, rfl, hquoted, hvalue⟩
    simp [CsvRecord.chars, CsvField.chars, hquoted, hvalue]

namespace CsvTable

open SourceExtractor

variable (table : CsvTable)

theorem physicalLines_text : physicalLines table.text =
    if table.ended then table.lines ++ [[]] else table.lines := by
  have hlines : ∀ line ∈ table.lines, '\n' ∉ line := by
    intro line hline
    obtain ⟨record, -, rfl⟩ := List.mem_map.1 hline
    exact record.newline_free
  have hwritten : ∀ line ∈ (if table.ended then table.lines ++ [[]] else table.lines), '\n' ∉ line := by
    intro line hline
    split_ifs at hline
    · rcases List.mem_append.1 hline with hline | hline
      · exact hlines line hline
      · simp_all
    · exact hlines line hline
  have hne : (if table.ended then table.lines ++ [[]] else table.lines) ≠ [] := by
    split_ifs <;> simp [lines]
  rw [physicalLines, text, String.toList_ofList, withLineFeeds_lines hwritten,
    List.splitOn_intercalate _ hwritten hne]

theorem csvLines_text : csvLines table.text = table.lines.filter fun line => !line.isEmpty := by
  rw [csvLines, physicalLines_text]
  split_ifs <;> simp

theorem record_ne_nil {record : CsvRecord} (h : record ∈ table.header :: table.records) : record ≠ [] := by
  rcases List.mem_cons.1 h with rfl | hmem
  · exact table.header_ne_nil
  · intro hnil
    have hwidth := table.width record hmem
    rw [hnil, List.length_nil] at hwidth
    exact table.header_ne_nil (List.length_eq_zero_iff.1 hwidth.symm)

/-- The records are read back under the header. -/
theorem csvRows_records (index : Nat) (records : List CsvRecord) (h : ∀ record ∈ records, record ≠ [])
    (hwidth : ∀ record ∈ records, record.length = table.header.length) :
    ∃ rows, csvRows table.header.values index (records.map CsvRecord.chars) = .ok rows ∧
      List.Forall₂ (fun (row : ExtractedRawRow) (record : CsvRecord) => row.rawPayload =
        .obj (fromEntries ((table.header.values.zip record.values).map
          fun column => (column.1, .str column.2)))) rows records := by
  induction records generalizing index with
  | nil => exact ⟨[], rfl, .nil⟩
  | cons record records ih =>
    obtain ⟨hne, hrest⟩ := List.forall_mem_cons.1 h
    obtain ⟨hlength, hlengths⟩ := List.forall_mem_cons.1 hwidth
    obtain ⟨rows, hrows, hforall⟩ := ih (index + 1) hrest hlengths
    have hvalues : record.values.length = table.header.values.length := by
      simpa [CsvRecord.values] using hlength
    have hrow : ∃ row : ExtractedRawRow, csvRow table.header.values index record.chars = .ok row ∧
        row.rawPayload = .obj (fromEntries ((table.header.values.zip record.values).map
          fun column => (column.1, .str column.2))) := by
      simp [csvRow, csvLine_record hne, hvalues, bind, Except.bind, pure, Except.pure]
    obtain ⟨row, hrow, hpayload⟩ := hrow
    refine ⟨row :: rows, ?_, .cons hpayload hforall⟩
    simp [csvRows, hrow, hrows, bind, Except.bind, pure, Except.pure]

theorem length_csvRows {headers : List String} {index : Nat} {lines : List (List Char)}
    {rows : List ExtractedRawRow} (h : csvRows headers index lines = .ok rows) :
    rows.length = lines.length := by
  have hlength := (csvRows_eq_ok h).length_eq
  simpa using hlength

/-- Where no record is written as nothing, the table is extracted. -/
theorem extractCsv_text (hkept : ∀ record ∈ table.header :: table.records, ¬ record.Blank) :
    ∃ rows, extractCsv table.text = .ok rows ∧
      List.Forall₂ (fun (row : ExtractedRawRow) (record : CsvRecord) => row.rawPayload =
        .obj (fromEntries ((table.header.values.zip record.values).map
          fun column => (column.1, .str column.2)))) rows table.records := by
  have hne : ∀ record ∈ table.records, record ≠ [] :=
    fun record hrecord => table.record_ne_nil (List.mem_cons_of_mem _ hrecord)
  obtain ⟨rows, hrows, hforall⟩ := table.csvRows_records 0 table.records hne table.width
  refine ⟨rows, ?_, hforall⟩
  have hlines : csvLines table.text = table.header.chars :: table.records.map CsvRecord.chars := by
    rw [csvLines_text, List.filter_eq_self.2]
    · rfl
    · intro line hline
      obtain ⟨record, hrecord, rfl⟩ := List.mem_map.1 hline
      have hchars := mt (CsvRecord.chars_eq_nil_iff (table.record_ne_nil hrecord)).1 (hkept record hrecord)
      simpa using hchars
  unfold extractCsv
  rw [hlines]
  cases hrecords : table.records with
  | nil => exact absurd hrecords table.records_ne_nil
  | cons record records =>
    rw [hrecords, List.map_cons] at hrows
    simp [csvLine_record table.header_ne_nil, hrows, bind, Except.bind]

/-- A table some record of which is written as nothing has fewer lines than records. -/
theorem kept_of_comesBack (h : table.ComesBack) :
    ∀ record ∈ table.header :: table.records, ¬ record.Blank := by
  obtain ⟨rows, hrows, hforall⟩ := h
  have hlength : rows.length + 1 = table.lines.length := by
    rw [hforall.length_eq]
    simp [lines]
  have hfilter : (table.lines.filter fun line => !line.isEmpty).length = table.lines.length := by
    unfold extractCsv at hrows
    rw [csvLines_text] at hrows
    split at hrows
    · next header line rest hlines =>
      cases hheaders : csvLine header with
      | error error => simp [hheaders, bind, Except.bind] at hrows
      | ok headers =>
        simp only [hheaders, bind, Except.bind] at hrows
        have hcount := length_csvRows hrows
        rw [hlines]
        simp only [List.length_cons] at hcount ⊢
        omega
    · simp [fail] at hrows
  intro record hrecord hblank
  have hall := List.length_filter_eq_length_iff.1 hfilter record.chars (List.mem_map_of_mem hrecord)
  rw [(CsvRecord.chars_eq_nil_iff (table.record_ne_nil hrecord)).2 hblank] at hall
  cases hall

/-- The fields of a table come back exactly when the names of its columns are different and none of its
records is written as nothing. -/
theorem comesBack_iff : table.ComesBack ↔
    table.header.values.Nodup ∧ ∀ record ∈ table.header :: table.records, ¬ record.Blank := by
  have hvalues : ∀ record ∈ table.records, record.values.length = table.header.values.length := by
    intro record hrecord
    simpa [CsvRecord.values] using table.width record hrecord
  constructor
  · intro h
    have hkept := table.kept_of_comesBack h
    refine ⟨?_, hkept⟩
    obtain ⟨rows, hrows, hforall⟩ := table.extractCsv_text hkept
    obtain ⟨rows', hrows', hcarries⟩ := h
    rw [hrows] at hrows'
    obtain rfl := Except.ok.inj hrows'
    cases hrecords : table.records with
    | nil => exact absurd hrecords table.records_ne_nil
    | cons record records =>
      have hwidth := hvalues record (by simp [hrecords])
      rw [hrecords] at hforall hcarries
      cases hforall with
      | cons hpayload _ =>
        cases hcarries with
        | cons hcarries _ =>
          rw [hpayload] at hcarries
          exact (carriesColumns_iff hwidth).1 hcarries
  · rintro ⟨hnodup, hkept⟩
    obtain ⟨rows, hrows, hforall⟩ := table.extractCsv_text hkept
    refine ⟨rows, hrows, ?_⟩
    have hcarry : ∀ {rows : List ExtractedRawRow} {records : List CsvRecord},
        (∀ record ∈ records, record.values.length = table.header.values.length) →
        List.Forall₂ (fun (row : ExtractedRawRow) (record : CsvRecord) => row.rawPayload =
          .obj (fromEntries ((table.header.values.zip record.values).map
            fun column => (column.1, .str column.2)))) rows records →
        List.Forall₂ (fun (row : ExtractedRawRow) (record : CsvRecord) =>
          CarriesColumns table.header.values record.values row.rawPayload) rows records := by
      intro rows records hwidth hforall
      induction hforall with
      | nil => exact .nil
      | cons hpayload _ ih =>
        obtain ⟨hlength, hlengths⟩ := List.forall_mem_cons.1 hwidth
        refine .cons ?_ (ih hlengths)
        rw [hpayload]
        exact (carriesColumns_iff hlength).2 hnodup
    exact hcarry hvalues hforall

end CsvTable

namespace SourceExtractor

/-- An accepted text loses nothing exactly when its columns have different names and its blank lines come
last; and a table comes back from its text exactly when its columns have different names and none of
its records is written as nothing. -/
theorem csv_extraction_iff {text : String} {rows : List ExtractedRawRow} (h : extractCsv text = .ok rows) :
    (LosesNothing text rows ↔ ColumnsApart text ∧ BlankLinesLast text) ∧
    ∀ table : CsvTable, table.ComesBack ↔
      table.header.values.Nodup ∧ ∀ record ∈ table.header :: table.records, ¬ record.Blank :=
  ⟨losesNothing_iff h, fun table => table.comesBack_iff⟩

end SourceExtractor

namespace TestCsv

open SourceExtractor

def text : String := "date,amount\r\n2026-05-01,\"-1,200.00\"\r\n"

def row : ExtractedRawRow :=
  ⟨2, "csv-row-2", .obj [("date", .str "2026-05-01"), ("amount", .str "-1,200.00")]⟩

theorem text_kept : LosesNothing text [row] := by
  have hrows : extractCsv text = .ok [row] := by decide +kernel
  have hcolumns : ColumnsApart text := by
    intro header hheader headers hheaders
    have hfirst : (csvLines text).head? = some "date,amount".toList := by decide +kernel
    have hnames : csvLine "date,amount".toList = .ok ["date", "amount"] := by decide +kernel
    rw [hfirst] at hheader
    obtain rfl := Option.some.inj hheader
    rw [hnames] at hheaders
    obtain rfl := Except.ok.inj hheaders
    decide
  have hblank : BlankLinesLast text := by
    have hlines : physicalLines text =
        ["date,amount".toList, "2026-05-01,\"-1,200.00\"".toList, []] := by decide +kernel
    unfold BlankLinesLast
    rw [hlines]
    decide
  exact (csv_extraction_iff hrows).1.2 ⟨hcolumns, hblank⟩

/-- Two columns of one name are collapsed into the last. -/
theorem columns_collapsed : ¬ ∀ text rows, extractCsv text = .ok rows → LosesNothing text rows := by
  intro h
  have hrows : extractCsv "note,note\na,b" = .ok [⟨2, "csv-row-2", .obj [("note", .str "b")]⟩] := by
    decide +kernel
  obtain ⟨⟨header, headers, hheader, hheaders, hforall⟩, -⟩ := h _ _ hrows
  have hfirst : (numberedLines "note,note\na,b").head? = some ("note,note".toList, 1) := by decide +kernel
  have hnames : csvLine "note,note".toList = .ok ["note", "note"] := by decide +kernel
  rw [hfirst] at hheader
  obtain rfl := Option.some.inj hheader
  rw [hnames] at hheaders
  obtain rfl := Except.ok.inj hheaders
  cases htail : (numberedLines "note,note\na,b").tail with
  | nil =>
    rw [htail] at hforall
    cases hforall
  | cons line lines =>
    rw [htail] at hforall
    cases hforall with
    | cons hrow _ =>
      obtain ⟨-, values, -, ⟨fields, hfields, hlength⟩, -⟩ := hrow
      obtain rfl := Json.obj.inj hfields
      simp at hlength

end TestCsv

end PlusOne
