import Mathlib.Data.String.Basic
import PlusOne.Memory.Isolation
import PlusOne.Memory.ReviewFindings

/-! # The review reports

When the review of a document reports, and reports the same whatever the order of the entries. -/

namespace PlusOne

open Sorting

/-! ## The order of the entries in a document -/

namespace MemoryEntries

variable {entries others : MemoryEntries}

theorem entryJson_keyed (entry : WorkingMemoryEntry) : entry.toJson.keyed = true := by
  obtain ⟨kind, summary, scope, owner, value, hvalue, lifecycle⟩ := entry
  cases lifecycle with
  | none => cases owner <;> simp [WorkingMemoryEntry.toJson, optionalField, Json.keyed, Json.keyedFields, hvalue]
  | some lifecycle =>
    obtain ⟨createdAt, updatedAt, reviewed, expires⟩ := lifecycle
    cases owner <;> cases reviewed <;> cases expires <;>
      simp [WorkingMemoryEntry.toJson, WorkingMemoryLifecycle.toJson, optionalField, Json.keyed, Json.keyedFields,
        hvalue]

/-- The object of the entries under their identifiers. -/
def fields (entries : MemoryEntries) : List (String × Json) :=
  entries.map fun item => (item.1.text, item.2.toJson)

theorem toJson_eq (entries : MemoryEntries) :
    entries.toJson = .obj [("version", .ofNat 1), ("entries", .obj entries.fields)] := rfl

theorem fields_nodup (h : (entries.map Prod.fst).Nodup) : (entries.fields.map Prod.fst).Nodup := by
  have hmap : entries.fields.map Prod.fst = (entries.map Prod.fst).map OpaqueId.text := by
    simp [fields, Function.comp_def]
  rw [hmap]
  exact h.map OpaqueId.text_injective

theorem toJson_keyed (h : (entries.map Prod.fst).Nodup) : entries.toJson.keyed = true := by
  have hfields : (Json.obj entries.fields).keyed = true := by
    rw [Json.keyed_obj]
    refine ⟨fields_nodup h, ?_⟩
    intro field hfield
    obtain ⟨item, -, rfl⟩ := List.mem_map.1 hfield
    exact entryJson_keyed item.2
  rw [toJson_eq, Json.keyed_obj]
  constructor
  · simp
  · intro field hfield
    simp only [List.mem_cons, List.not_mem_nil, or_false] at hfield
    rcases hfield with rfl | rfl
    · rfl
    · exact hfields

theorem canonicalText_perm (h : (entries.map Prod.fst).Nodup) (hperm : entries.Perm others) :
    canonicalText entries.toJson = canonicalText others.toJson := by
  have hfields : (stableFields codeUnitCompare entries.fields).Perm (stableFields codeUnitCompare others.fields) := by
    rw [stableFields_eq, stableFields_eq]
    exact (hperm.map _).map _
  have hkeys : ((stableFields codeUnitCompare entries.fields).map Prod.fst).Nodup := by
    rw [stableFields_eq, List.map_map]
    exact fields_nodup h
  have hobject : stableJson codeUnitCompare (.obj entries.fields) = stableJson codeUnitCompare (.obj others.fields) := by
    simp only [stableJson, insertionSort_eq_of_perm hfields hkeys]
  simp only [canonicalText, toJson_eq, stableJson, stableFields] at hobject ⊢
  rw [hobject]

theorem byteSize_joinComma (parts : List (List Char)) :
    byteSize (joinComma parts) + min 1 parts.length = (parts.map fun part => byteSize part + 1).sum := by
  induction parts with
  | nil => rfl
  | cons part parts ih =>
    cases parts with
    | nil => simp [joinComma]
    | cons next rest =>
      have hcomma : byteSize [','] = 1 := by decide
      have hjoin : joinComma (part :: next :: rest) = part ++ ',' :: joinComma (next :: rest) := rfl
      rw [hjoin, byteSize_append, byteSize_cons, hcomma, List.map_cons, List.sum_cons, ← ih]
      simp only [List.length_cons]
      omega

theorem byteSize_joinComma_perm {parts pieces : List (List Char)} (hperm : parts.Perm pieces) :
    byteSize (joinComma parts) = byteSize (joinComma pieces) := by
  have hsum := byteSize_joinComma parts
  have hsum' := byteSize_joinComma pieces
  have hlength := hperm.length_eq
  have hparts : (parts.map fun part => byteSize part + 1).sum = (pieces.map fun part => byteSize part + 1).sum :=
    (hperm.map _).sum_nat
  omega

theorem stringify_toJson (entries : MemoryEntries) :
    stableJson (fun _ _ => .eq) entries.toJson =
      ('{' :: quoteJson "version" ++ ':' :: (stableJson (fun _ _ => .eq) (.ofNat 1) ++
        ',' :: quoteJson "entries" ++ [':', '{'])) ++
      (joinComma ((stableFields (fun _ _ => .eq) entries.fields).map entryText) ++ ['}', '}']) := by
  simp only [toJson_eq, stableJson, stableFields, insertionSort_level, List.map_cons, List.map_nil, joinComma,
    entryText, List.cons_append, List.append_assoc, List.nil_append]

theorem bounded_perm (hperm : entries.Perm others) : entries.bounded = others.bounded := by
  have hpieces : ((stableFields (fun _ _ => .eq) entries.fields).map entryText).Perm
      ((stableFields (fun _ _ => .eq) others.fields).map entryText) := by
    rw [stableFields_eq, stableFields_eq]
    exact ((hperm.map _).map _).map _
  have hsize : (stringify entries.toJson).utf8ByteSize = (stringify others.toJson).utf8ByteSize := by
    change byteSize (stableJson _ entries.toJson) = byteSize (stableJson _ others.toJson)
    rw [stringify_toJson, stringify_toJson]
    simp only [byteSize_append, byteSize_joinComma_perm hpieces]
  rw [bounded, bounded, hperm.length_eq, hsize]

end MemoryEntries

/-- The document with its entries in another order. -/
def FlexibleWorkingMemory.reordered {T : TimeFormats} (document : FlexibleWorkingMemory T) (entries : MemoryEntries)
    (hperm : entries.Perm document.entries) : FlexibleWorkingMemory T where
  entries := entries
  distinct := (hperm.map Prod.fst).nodup_iff.2 document.distinct
  parsed := by
    have hall := List.all_eq_true.1 document.parsed
    rw [List.all_eq_true]
    intro item hitem
    exact hall item (hperm.mem_iff.1 hitem)
  bounded := by
    rw [MemoryEntries.bounded_perm hperm]
    exact document.bounded

section Reviewed

variable (T : TimeFormats) (E : ReviewEngine)

/-- `WorkingMemoryReviewReportSchema` on a report. -/
def ReviewReport.valid (report : ReviewReport) : Bool :=
  T.isUtcInstant report.reviewedAt && decide (report.findings.length ≤ 50) &&
    report.findings.all fun finding => finding.toObservation.valid

/-- The review of the document gives a valid report, and gives the same one for every order of the
entries. -/
def ReviewReports (document : FlexibleWorkingMemory T) (principalRef now : String) : Prop :=
  ∃ report, reviewWorkingMemoryDocument T E document principalRef now = .ok report ∧ report.valid T = true ∧
    ∀ other : FlexibleWorkingMemory T, other.entries.Perm document.entries →
      reviewWorkingMemoryDocument T E other principalRef now = .ok report

/-- Among entries of the same fact, what is older than an older one is older. -/
def AgesAgree (visible : List ReviewEntry) : Prop :=
  ∀ a ∈ visible, ∀ b ∈ visible, ∀ c ∈ visible, factOf E.toPlatform a = factOf E.toPlatform b →
    factOf E.toPlatform b = factOf E.toPlatform c → compareEntryAge T E a b = .lt →
      compareEntryAge T E b c = .lt → compareEntryAge T E a c = .lt

/-- How many facts are stored more than once. -/
def sharedFacts (visible : List ReviewEntry) : Nat :=
  (groupBy (factOf E.toPlatform) visible).countP fun group => decide (2 ≤ group.length)

/-- How many contradictions are listed before one between these entries. -/
def earlierContradictions (visible : List ReviewEntry) (entryIds : List WorkingMemoryEntryId) : Nat :=
  (contradictions visible).countP fun earlier =>
    E.localeCompare (joinIds earlier.entryIds) (joinIds entryIds) == .lt

/-- The fields on which two entries disagree fit into an explanation, unless their contradiction is not
among the first fifty findings. -/
def FindingsFit (visible : List ReviewEntry) : Prop :=
  ∀ a ∈ visible, ∀ b ∈ visible, a ≠ b → identityOf a = identityOf b →
    ∀ observation ∈ contradictionObservation a.2.kind a b, observation.valid = true ∨
      50 ≤ sharedFacts E visible + earlierContradictions E visible observation.entryIds

variable {T E} {visible others : List ReviewEntry} {now : String}

/-! ## Ages -/

theorem compareEntryAge_swap (hcollates : Collates E.localeCompare) (a b : ReviewEntry) :
    compareEntryAge T E b a = (compareEntryAge T E a b).swap := by
  have hid := hcollates.swap a.1.text b.1.text
  unfold compareEntryAge
  cases createdAt a with
  | none => cases createdAt b <;> exact hid
  | some aCreated =>
    cases createdAt b with
    | none => exact hid
    | some bCreated =>
      cases ha : T.dateParse aCreated with
      | none => cases hb : T.dateParse bCreated <;> simp [ha, hb]
      | some aTime =>
        cases hb : T.dateParse bCreated with
        | none => simp [ha, hb]
        | some bTime =>
          simp only [ha, hb, hid, Ordering.swap_then]
          have hswap : compare bTime aTime = (compare aTime bTime).swap := Std.OrientedCmp.eq_swap
          rw [hswap]

/-- Where every date can be read, only the same identifier is level. -/
theorem compareEntryAge_eq (hcollates : Collates E.localeCompare)
    (hdate : ∀ text, T.isUtcInstant text = true → (T.dateParse text).isSome) {a b : ReviewEntry}
    (ha : a.2.valid T = true) (hb : b.2.valid T = true) (h : compareEntryAge T E a b = .eq) : a.1 = b.1 := by
  have hread : ∀ item : ReviewEntry, item.2.valid T = true → ∀ created, createdAt item = some created →
      (T.dateParse created).isSome := by
    intro item hitem created hcreated
    obtain ⟨lifecycle, hlifecycle, rfl⟩ := Option.map_eq_some_iff.1 hcreated
    simp only [WorkingMemoryEntry.valid, Bool.and_eq_true, hlifecycle, Option.all_some,
      WorkingMemoryLifecycle.valid] at hitem
    exact hdate _ hitem.1.2.1.1.1
  have hchars : ∀ id : WorkingMemoryEntryId, id.text.toList.all isIdChar = true :=
    fun id => List.all_eq_true.2 fun c hc => (text_idChars id c hc).1
  have hlevel : ∀ id other : WorkingMemoryEntryId, E.localeCompare id.text other.text = .eq → id = other :=
    fun id other heq => OpaqueId.text_injective (hcollates.eq_of_level _ _ (hchars id) (hchars other) heq)
  apply hlevel
  unfold compareEntryAge at h
  cases haCreated : createdAt a with
  | none =>
    simp only [haCreated] at h
    exact h
  | some aCreated =>
    cases hbCreated : createdAt b with
    | none =>
      simp only [haCreated, hbCreated] at h
      exact h
    | some bCreated =>
      obtain ⟨aTime, haTime⟩ := Option.isSome_iff_exists.1 (hread a ha aCreated haCreated)
      obtain ⟨bTime, hbTime⟩ := Option.isSome_iff_exists.1 (hread b hb bCreated hbCreated)
      simp only [haCreated, hbCreated, haTime, hbTime, Ordering.then_eq_eq] at h
      exact h.2

/-- What is used of the entries under review. -/
structure Readable (T : TimeFormats) (E : ReviewEngine) (visible : List ReviewEntry) : Prop where
  collates : Collates E.localeCompare
  dates : ∀ text, T.isUtcInstant text = true → (T.dateParse text).isSome
  valid : ∀ item ∈ visible, item.2.valid T = true
  distinct : (visible.map Prod.fst).Nodup

theorem Readable.nodup (h : Readable T E visible) : visible.Nodup := List.Nodup.of_map _ h.distinct

variable {group : List ReviewEntry}

theorem compareEntryAge_strict (h : Readable T E visible) (hsub : ∀ a ∈ group, a ∈ visible)
    (htrans : ∀ a ∈ group, ∀ b ∈ group, ∀ c ∈ group, compareEntryAge T E a b = .lt → compareEntryAge T E b c = .lt →
      compareEntryAge T E a c = .lt) : StrictOn (compareEntryAge T E) group := by
  apply strictOn_of_lt
  · intro a _ b _
    exact compareEntryAge_swap h.collates a b
  · intro a ha b hb heq
    have hid := compareEntryAge_eq h.collates h.dates (h.valid a (hsub a ha)) (h.valid b (hsub b hb)) heq
    exact List.inj_on_of_nodup_map h.distinct (hsub a ha) (hsub b hb) hid
  · exact htrans

theorem group_strict (h : Readable T E visible) (hages : AgesAgree T E visible)
    (hgroup : group ∈ groupBy (factOf E.toPlatform) visible) : StrictOn (compareEntryAge T E) group := by
  have hsub := (sublist_of_mem_groupBy hgroup).subset
  apply compareEntryAge_strict h hsub
  intro a ha b hb c hc
  have hab := key_eq_of_mem_groupBy hgroup ha hb
  have hbc := key_eq_of_mem_groupBy hgroup hb hc
  exact hages a (hsub ha) b (hsub hb) c (hsub hc) hab hbc

/-! ## The findings of the same entries in another order -/

theorem duplicates_perm (hsort : Conforming E.sort) (h : Readable T E visible) (hages : AgesAgree T E visible)
    (hperm : visible.Perm others) : (duplicates T E visible).Perm (duplicates T E others) := by
  apply flatMap_groupBy_perm hperm
  intro group hgroup group' hgroups
  have hsorted := hsort.eq_of_perm hsort (group_strict h hages hgroup) hgroups
  rw [duplicateObservation_eq, duplicateObservation_eq, hgroups.length_eq]
  simp only [duplicateFinding, hsorted]
  exact .refl _

theorem allObservations_perm (hsort : Conforming E.sort) (h : Readable T E visible) (hages : AgesAgree T E visible)
    (hperm : visible.Perm others) : (allObservations T E visible now).Perm (allObservations T E others now) :=
  ((hperm.flatMap_right _).append (duplicates_perm hsort h hages hperm)).append (contradictions_perm hperm)

/-- The first fifty findings in order. -/
def listed (T : TimeFormats) (E : ReviewEngine) (visible : List ReviewEntry) (now : String) : List Observation :=
  (E.sort Observation (compareFindings E) (allObservations T E visible now)).take 50

theorem listed_perm (now : String) (hsort : Conforming E.sort) (h : Readable T E visible) (hages : AgesAgree T E visible)
    (hperm : visible.Perm others) : listed T E visible now = listed T E others now := by
  have hstrict := compareFindings_strict (T := T) now hsort h.collates h.distinct
  rw [listed, listed, hsort.eq_of_perm hsort hstrict (allObservations_perm hsort h hages hperm)]

/-! ## The first fifty -/

variable {observation : Observation}

theorem mem_listed_iff (hsort : Conforming E.sort) (h : Readable T E visible) :
    observation ∈ listed T E visible now ↔ observation ∈ allObservations T E visible now ∧
      (allObservations T E visible now).countP (fun other => compareFindings E other observation == .lt) < 50 := by
  have hstrict := compareFindings_strict (T := T) now hsort h.collates h.distinct
  have hperm := hsort.perm Observation (compareFindings E) (allObservations T E visible now)
  have hsorted := hsort.sorted Observation (compareFindings E) _ hstrict.toConsistentOn
  have hstrict' := hstrict.subset fun other hother => hperm.mem_iff.1 hother
  rw [listed, ← hperm.countP_eq]
  constructor
  · intro hmem
    have hin := List.mem_of_mem_take hmem
    exact ⟨hperm.mem_iff.1 hin, (mem_take_iff hstrict' hsorted hin 50).1 hmem⟩
  · rintro ⟨hin, hcount⟩
    exact (mem_take_iff hstrict' hsorted (hperm.mem_iff.2 hin) 50).2 hcount

theorem compareFindings_of_order {a b : Observation} (h : a.category.order < b.category.order) :
    compareFindings E a b = .lt := by
  simp [compareFindings, compare_lt_iff_lt.2 h]

theorem not_lt_of_order {a b : Observation} (h : b.category.order < a.category.order) :
    (compareFindings E a b == .lt) = false := by
  simp [compareFindings, compare_gt_iff_gt.2 h]

theorem countP_single (h : observation.category.order < 2) :
    (visible.flatMap (reviewEntry T now)).countP (fun other => compareFindings E other observation == .lt) = 0 := by
  rw [List.countP_eq_zero]
  intro other hother
  obtain ⟨item, -, hmem⟩ := List.mem_flatMap.1 hother
  have horder : observation.category.order < other.category.order := by
    have hother' : 2 ≤ other.category.order := by
      rcases mem_reviewEntry hmem with rfl | rfl
      · exact le_refl 2
      · exact Nat.le_succ 2
    omega
  simp [not_lt_of_order horder]

theorem length_duplicates : (duplicates T E visible).length = sharedFacts E visible := by
  unfold duplicates sharedFacts
  induction groupBy (factOf E.toPlatform) visible with
  | nil => rfl
  | cons group groups ih =>
    rw [List.flatMap_cons, List.length_append, ih, duplicateObservation_eq, List.countP_cons]
    by_cases hlength : group.length < 2
    · simp [hlength]
    · have hle : 2 ≤ group.length := not_lt.1 hlength
      simp [hlength, hle]
      omega

/-- Before a contradiction come all duplicates and the contradictions whose entries come earlier. -/
theorem countP_contradiction (now : String) (hcategory : observation.category = .contradiction) :
    (allObservations T E visible now).countP (fun other => compareFindings E other observation == .lt) =
      sharedFacts E visible + earlierContradictions E visible observation.entryIds := by
  have hduplicates : (duplicates T E visible).countP (fun other => compareFindings E other observation == .lt) =
      sharedFacts E visible := by
    rw [← length_duplicates (T := T), List.countP_eq_length]
    intro other hother
    have horder : other.category.order < observation.category.order := by
      rw [category_of_duplicate hother, hcategory]
      decide
    simp [compareFindings_of_order horder]
  have hcontradictions : (contradictions visible).countP (fun other => compareFindings E other observation == .lt) =
      earlierContradictions E visible observation.entryIds := by
    apply List.countP_congr
    intro other hother
    have hother' := category_of_contradiction hother
    simp [compareFindings, hother', hcategory]
  have hsingle : (visible.flatMap (reviewEntry T now)).countP
      (fun other => compareFindings E other observation == .lt) = 0 := by
    apply countP_single
    rw [hcategory]
    decide
  rw [allObservations, List.countP_append, List.countP_append, hsingle, hduplicates, hcontradictions, Nat.zero_add]

theorem single_texts : ∀ kind : WorkingMemoryKind,
    lengthBetween 1 1000 (trim ((workingMemoryKindPolicy kind).label ++
      " is stored with an incompatible scope.")) = true ∧
    lengthBetween 1 1000 (trim ((workingMemoryKindPolicy kind).label ++
      " should be reviewed because its lifecycle or review interval is due.")) = true := by
  intro kind
  rw [lengthBetween, trim, Json.utf16Length, String.toList_ofList, String.toList_append]
  rw [lengthBetween, trim, Json.utf16Length, String.toList_ofList, String.toList_append]
  cases kind <;> decide +kernel

theorem scopeFinding_valid (item : ReviewEntry) : (scopeFinding item).valid = true := by
  simp [scopeFinding, Observation.valid, (single_texts item.2.kind).1]

theorem staleFinding_valid (item : ReviewEntry) : (staleFinding item).valid = true := by
  simp [staleFinding, Observation.valid, (single_texts item.2.kind).2]

theorem duplicateFinding_valid (hsort : Conforming E.sort) (hlength : 2 ≤ group.length) :
    (duplicateFinding T E group).valid = true := by
  have hordered := (hsort.perm ReviewEntry (compareEntryAge T E) group).length_eq
  have htext : lengthBetween 1 1000 (trim "These Working Memory entries contain the same canonical fact.") = true := by
    rw [lengthBetween, trim, Json.utf16Length, String.toList_ofList]
    decide +kernel
  simp only [Observation.valid, duplicateFinding, htext, List.length_map, List.length_take, Bool.and_true,
    Bool.and_eq_true, decide_eq_true_eq]
  omega

/-- Only contradictions can have an explanation that is too long. -/
theorem listed_valid_iff (now : String) (hsort : Conforming E.sort) (h : Readable T E visible) :
    (listed T E visible now).all Observation.valid = true ↔ FindingsFit E visible := by
  rw [List.all_eq_true]
  constructor
  · intro hall a ha b hb hne hidentity observation hpair
    have hmem : observation ∈ contradictions visible :=
      (mem_contradictions h.nodup).2 ⟨a, ha, b, hb, hne, hidentity, hpair⟩
    rw [← countP_contradiction (T := T) now (category_of_contradiction hmem)]
    by_contra hfit
    rw [not_or, not_le] at hfit
    have hin : observation ∈ allObservations T E visible now := by
      simp only [allObservations, List.mem_append]
      exact Or.inr hmem
    exact hfit.1 (hall observation ((mem_listed_iff hsort h).2 ⟨hin, hfit.2⟩))
  · intro hfit observation hmem
    obtain ⟨hin, hcount⟩ := (mem_listed_iff hsort h).1 hmem
    rcases mem_allObservations hin with ⟨item, -, rfl | rfl⟩ | hduplicate | hcontradiction
    · exact scopeFinding_valid item
    · exact staleFinding_valid item
    · obtain ⟨group, -, hlength, rfl⟩ := mem_duplicates.1 hduplicate
      exact duplicateFinding_valid hsort hlength
    · obtain ⟨a, ha, b, hb, hne, hidentity, hpair⟩ := (mem_contradictions h.nodup).1 hcontradiction
      rw [countP_contradiction now (category_of_contradiction hcontradiction)] at hcount
      rcases hfit a ha b hb hne hidentity observation hpair with hvalid | hmany
      · exact hvalid
      · omega

/-! ## When the review reports -/

variable {document other : FlexibleWorkingMemory T}

theorem accessible_perm (hperm : other.entries.Perm document.entries) (principalRef : String) :
    (document.accessible principalRef).Perm (other.accessible principalRef) :=
  (hperm.filter _).symm

theorem readable_accessible (hcollates : Collates E.localeCompare)
    (hdate : ∀ text, T.isUtcInstant text = true → (T.dateParse text).isSome) (document : FlexibleWorkingMemory T)
    (principalRef : String) : Readable T E (document.accessible principalRef) where
  collates := hcollates
  dates := hdate
  valid item hitem := by
    have hparsed := List.all_eq_true.1 document.parsed item (List.mem_of_mem_filter hitem)
    simp only [WorkingMemoryEntry.parsed, Bool.and_eq_true] at hparsed
    exact hparsed.1
  distinct := document.distinct.sublist (List.filter_sublist.map _)

/-- The report on findings of a document. -/
def reportOf (document : FlexibleWorkingMemory T) (now : String) (observations : List Observation) : ReviewReport where
  revision := workingMemoryRevision E.toPlatform document
  reviewedAt := now
  findings := observations.map fun observation =>
    { toObservation := observation.trimmed, basedOnRevision := workingMemoryRevision E.toPlatform document }

theorem review_eq (document : FlexibleWorkingMemory T) (principalRef : String) (hnow : T.isUtcInstant now = true)
    (h : Readable T E (document.accessible principalRef)) :
    reviewWorkingMemoryDocument T E document principalRef now =
      if (listed T E (document.accessible principalRef) now).all Observation.valid then
        .ok (reportOf (E := E) document now (listed T E (document.accessible principalRef) now))
      else .error .zodError := by
  have hobserve : observe T E (document.accessible principalRef) now =
      .ok (listed T E (document.accessible principalRef) now) := observe_ok T E h.valid h.distinct
  unfold reviewWorkingMemoryDocument
  rw [hobserve]
  simp only [hnow, Bool.and_true]
  rfl

theorem reportOf_valid (document : FlexibleWorkingMemory T) (hnow : T.isUtcInstant now = true)
    {visible : List ReviewEntry} (hvalid : (listed T E visible now).all Observation.valid = true) :
    (reportOf (E := E) document now (listed T E visible now)).valid T = true := by
  have hlength : (listed T E visible now).length ≤ 50 := by
    simp [listed]
  have htrimmed : ∀ observation : Observation, observation.trimmed.valid = observation.valid := by
    intro observation
    simp only [Observation.valid, Observation.trimmed, trim_trim]
    rfl
  simp only [ReviewReport.valid, reportOf, hnow, List.length_map, hlength, decide_true, Bool.and_true, Bool.true_and,
    List.all_map, Function.comp_def, htrimmed]
  exact hvalid

theorem revision_perm (hcanonicalize : ∀ value, value.keyed = true → E.canonicalize value = canonicalText value)
    (hperm : other.entries.Perm document.entries) :
    workingMemoryRevision E.toPlatform other = workingMemoryRevision E.toPlatform document := by
  unfold workingMemoryRevision hashArtifact
  rw [hcanonicalize _ (MemoryEntries.toJson_keyed other.distinct),
    hcanonicalize _ (MemoryEntries.toJson_keyed document.distinct),
    MemoryEntries.canonicalText_perm other.distinct hperm]

theorem reports_of_agree (hsort : Conforming E.sort) (hcollates : Collates E.localeCompare)
    (hcanonicalize : ∀ value, value.keyed = true → E.canonicalize value = canonicalText value)
    (hdate : ∀ text, T.isUtcInstant text = true → (T.dateParse text).isSome)
    (document : FlexibleWorkingMemory T) (principalRef : String) (hnow : T.isUtcInstant now = true)
    (hages : AgesAgree T E (document.accessible principalRef))
    (hfit : FindingsFit E (document.accessible principalRef)) : ReviewReports T E document principalRef now := by
  have hreadable := readable_accessible hcollates hdate document principalRef
  have hvalid := (listed_valid_iff now hsort hreadable).2 hfit
  refine ⟨_, ?_, reportOf_valid document hnow hvalid, ?_⟩
  · rw [review_eq document principalRef hnow hreadable, if_pos hvalid]
  · intro other hperm
    have hlisted := listed_perm now hsort hreadable hages (accessible_perm hperm principalRef)
    rw [review_eq other principalRef hnow (readable_accessible hcollates hdate other principalRef), ← hlisted,
      if_pos hvalid, reportOf, reportOf, revision_perm hcanonicalize hperm]

theorem fit_of_reports (hsort : Conforming E.sort) (hcollates : Collates E.localeCompare)
    (hdate : ∀ text, T.isUtcInstant text = true → (T.dateParse text).isSome)
    (document : FlexibleWorkingMemory T) (principalRef : String) (hnow : T.isUtcInstant now = true)
    (h : ReviewReports T E document principalRef now) : FindingsFit E (document.accessible principalRef) := by
  have hreadable := readable_accessible hcollates hdate document principalRef
  obtain ⟨report, hreport, -, -⟩ := h
  rw [review_eq document principalRef hnow hreadable] at hreport
  split at hreport
  · next hvalid => exact (listed_valid_iff now hsort hreadable).1 hvalid
  · cases hreport

/-! ## Ages in a circle -/

/-- Facts stored more than once are always among the first findings. -/
theorem duplicate_listed (hsort : Conforming E.sort) (h : Readable T E visible) (hfew : visible.length ≤ 50)
    (hmem : observation ∈ duplicates T E visible) : observation ∈ listed T E visible now := by
  have hin : observation ∈ allObservations T E visible now := by
    simp only [allObservations, List.mem_append]
    exact Or.inl (Or.inr hmem)
  have hcategory := category_of_duplicate hmem
  have hgroups : (duplicates T E visible).length ≤ 50 := by
    have hcount : sharedFacts E visible ≤ (groupBy (factOf E.toPlatform) visible).length := List.countP_le_length
    have hall : (groupBy (factOf E.toPlatform) visible).length ≤ visible.length := length_groupBy_le
    rw [length_duplicates]
    omega
  have hduplicates : (duplicates T E visible).countP (fun other => compareFindings E other observation == .lt) <
      (duplicates T E visible).length := by
    refine lt_of_le_of_ne List.countP_le_length ?_
    intro hall
    have hself := List.countP_eq_length.1 hall observation hmem
    have hstrict := compareFindings_strict (T := T) now hsort h.collates h.distinct
    rw [hstrict.refl hin] at hself
    cases hself
  have hcontradictions : (contradictions visible).countP
      (fun other => compareFindings E other observation == .lt) = 0 := by
    rw [List.countP_eq_zero]
    intro other hother
    have horder : observation.category.order < other.category.order := by
      rw [hcategory, category_of_contradiction hother]
      decide
    simp [not_lt_of_order horder]
  have hsingle : (visible.flatMap (reviewEntry T now)).countP
      (fun other => compareFindings E other observation == .lt) = 0 := by
    apply countP_single
    rw [hcategory]
    decide
  apply (mem_listed_iff hsort h).2
  refine ⟨hin, ?_⟩
  rw [allObservations, List.countP_append, List.countP_append, hsingle, hcontradictions]
  omega

theorem duplicateFinding_lazy (hcircle : ¬ConsistentOn (compareEntryAge T E) group) :
    (duplicateFinding T { E with sort := lazySort } group).entryIds = (group.take 10).map Prod.fst := by
  have hlazy := lazySort_of_not hcircle
  simp only [duplicateFinding]
  rw [show compareEntryAge T { E with sort := lazySort } = compareEntryAge T E from rfl, hlazy]

/-- A list of distinct elements starts otherwise from its end. -/
theorem take_reverse_ne (hlength : 2 ≤ group.length) (hdistinct : (group.map Prod.fst).Nodup) :
    (group.reverse.take 10).map Prod.fst ≠ (group.take 10).map Prod.fst := by
  intro heq
  have hhead := congrArg List.head? heq
  simp only [List.head?_map, List.head?_take, List.head?_reverse] at hhead
  cases group with
  | nil => simp at hlength
  | cons first rest =>
    have hne : rest ≠ [] := by
      intro hnil
      simp [hnil] at hlength
    rw [List.map_cons, List.nodup_cons] at hdistinct
    apply hdistinct.1
    have hlast : (first :: rest).getLast? = some (rest.getLast hne) := by
      rw [List.getLast?_cons, List.getLast?_eq_some_getLast hne]
      rfl
    have hid : (rest.getLast hne).1 = first.1 := by
      simpa [hlast] using hhead
    rw [← hid]
    exact List.mem_map_of_mem (List.getLast_mem hne)

/-- The entries of one fact, where their ages go in a circle. -/
theorem exists_circle (h : Readable T E visible) (hages : ¬AgesAgree T E visible) :
    ∃ group ∈ groupBy (factOf E.toPlatform) visible, 2 ≤ group.length ∧
      ¬ConsistentOn (compareEntryAge T E) group := by
  unfold AgesAgree at hages
  push Not at hages
  obtain ⟨a, ha, b, hb, c, hc, hab, hbc, hlt, hlt', hcircle⟩ := hages
  have hgroup : visible.filter (fun other => factOf E.toPlatform other = factOf E.toPlatform a) ∈
      groupBy (factOf E.toPlatform) visible := mem_groupBy.2 ⟨a, ha, rfl⟩
  have hsub := (sublist_of_mem_groupBy hgroup).subset
  have hga : a ∈ visible.filter fun other => factOf E.toPlatform other = factOf E.toPlatform a := by simp [ha]
  have hgb : b ∈ visible.filter fun other => factOf E.toPlatform other = factOf E.toPlatform a := by simp [hb, hab]
  have hgc : c ∈ visible.filter fun other => factOf E.toPlatform other = factOf E.toPlatform a := by
    simp [hc, hab, hbc]
  refine ⟨_, hgroup, ?_, ?_⟩
  · have hne : a ≠ b := by
      intro heq
      subst heq
      have hswap := compareEntryAge_swap (T := T) h.collates a a
      simp [hlt] at hswap
    rcases pair_sublist hga hgb hne with hpair | hpair
    · exact hpair.length_le
    · exact hpair.length_le
  · intro hconsistent
    have hstrict : StrictOn (compareEntryAge T E) (visible.filter fun other =>
        factOf E.toPlatform other = factOf E.toPlatform a) := by
      refine ⟨hconsistent, ?_⟩
      intro x hx y hy heq
      have hid := compareEntryAge_eq h.collates h.dates (h.valid x (hsub hx)) (h.valid y (hsub hy)) heq
      exact List.inj_on_of_nodup_map h.distinct (hsub hx) (hsub hy) hid
    exact hcircle (hstrict.lt_trans hga hgb hgc hlt hlt')

/-- A finding on duplicates that is listed whichever way the entries come is listed with the same entries
first. -/
theorem duplicate_of_reports {principalRef : String} (hsort : Conforming E.sort)
    (hreadable : Readable T E (document.accessible principalRef))
    (hreadable' : Readable T E (other.accessible principalRef)) (hnow : T.isUtcInstant now = true)
    (hperm : other.entries.Perm document.entries) (h : ReviewReports T E document principalRef now)
    (hmem : observation ∈ listed T E (document.accessible principalRef) now) :
    ∃ found ∈ allObservations T E (other.accessible principalRef) now,
      found.category = observation.category ∧ found.entryIds = observation.entryIds := by
  obtain ⟨report, hreport, -, hsame⟩ := h
  have hother := hsame other hperm
  rw [review_eq document principalRef hnow hreadable] at hreport
  rw [review_eq other principalRef hnow hreadable'] at hother
  split at hreport
  · split at hother
    · cases hreport
      have hfindings := congrArg (fun report => report.findings.map ReviewFinding.toObservation)
        (Except.ok.inj hother)
      simp only [reportOf, List.map_map] at hfindings
      have hin : observation.trimmed ∈ (listed T E (document.accessible principalRef) now).map Observation.trimmed :=
        List.mem_map_of_mem hmem
      change (listed T E (other.accessible principalRef) now).map Observation.trimmed =
        (listed T E (document.accessible principalRef) now).map Observation.trimmed at hfindings
      rw [← hfindings] at hin
      obtain ⟨found, hfound, htrimmed⟩ := List.mem_map.1 hin
      refine ⟨found, ((mem_listed_iff hsort hreadable').1 hfound).1, ?_, ?_⟩
      · have hcategory := congrArg Observation.category htrimmed
        exact hcategory
      · have hids := congrArg Observation.entryIds htrimmed
        exact hids
    · cases hother
  · cases hreport

theorem agree_of_reports (hcollates : Collates E.localeCompare)
    (hdate : ∀ text, T.isUtcInstant text = true → (T.dateParse text).isSome) (document : FlexibleWorkingMemory T)
    (principalRef : String) (hnow : T.isUtcInstant now = true)
    (h : ReviewReports T { E with sort := lazySort } document principalRef now) :
    AgesAgree T E (document.accessible principalRef) := by
  by_contra hages
  obtain ⟨group, hgroup, hlength, hcircle⟩ :=
    exists_circle (readable_accessible hcollates hdate document principalRef) hages
  have hreadable := readable_accessible (E := { E with sort := lazySort }) hcollates hdate document principalRef
  -- the same entries from the last to the first
  let other := document.reordered document.entries.reverse (List.reverse_perm _)
  have hother : other.accessible principalRef = (document.accessible principalRef).reverse := by
    simp [other, FlexibleWorkingMemory.accessible, FlexibleWorkingMemory.reordered, List.filter_reverse]
  have hreadable' := readable_accessible (E := { E with sort := lazySort }) hcollates hdate other principalRef
  have hfew : (document.accessible principalRef).length ≤ 50 := by
    have hbounded := document.bounded
    simp only [MemoryEntries.bounded, Bool.and_eq_true, decide_eq_true_eq] at hbounded
    exact (List.length_filter_le _ _).trans hbounded.1
  have hduplicate : duplicateFinding T { E with sort := lazySort } group ∈
      duplicates T { E with sort := lazySort } (document.accessible principalRef) :=
    mem_duplicates.2 ⟨group, hgroup, hlength, rfl⟩
  obtain ⟨found, hfound, hcategory, hids⟩ := duplicate_of_reports lazySort_conforming hreadable hreadable' hnow
    (List.reverse_perm _) h (duplicate_listed lazySort_conforming hreadable hfew hduplicate)
  -- what is found there is about the same group the other way round
  have hfound' : found ∈ duplicates T { E with sort := lazySort } (other.accessible principalRef) := by
    rcases mem_allObservations hfound with ⟨item, -, rfl | rfl⟩ | hmem | hmem
    · cases hcategory
    · cases hcategory
    · exact hmem
    · rw [category_of_contradiction hmem] at hcategory
      cases hcategory
  obtain ⟨group', hgroup', hlength', rfl⟩ := mem_duplicates.1 hfound'
  have hreversed : group' = group.reverse := by
    obtain ⟨member, hmember, hhead⟩ := duplicate_ids (T := T) (E := { E with sort := lazySort }) lazySort_conforming hlength'
    rw [hids, duplicateFinding_lazy hcircle] at hhead
    obtain ⟨first, hfirst, hid⟩ : ∃ first ∈ group, member.1 = first.1 := by
      cases group with
      | nil => simp at hlength
      | cons first rest => exact ⟨first, by simp, by simpa using hhead.symm⟩
    have hin := (sublist_of_mem_groupBy hgroup').subset hmember
    rw [hother, List.mem_reverse] at hin
    obtain rfl : member = first :=
      List.inj_on_of_nodup_map hreadable.distinct hin ((sublist_of_mem_groupBy hgroup).subset hfirst) hid
    rw [eq_filter_of_mem_groupBy hgroup' hmember, eq_filter_of_mem_groupBy hgroup hfirst, hother,
      List.filter_reverse]
  subst hreversed
  have hcircle' : ¬ConsistentOn (compareEntryAge T E) group.reverse :=
    fun hconsistent => hcircle (hconsistent.subset fun item hitem => List.mem_reverse.2 hitem)
  rw [duplicateFinding_lazy hcircle, duplicateFinding_lazy hcircle'] at hids
  exact take_reverse_ne hlength ((sublist_of_mem_groupBy hgroup).map Prod.fst |>.nodup hreadable.distinct) hids

/-- Whichever way the engine sorts what cannot be put in order, the review of a document reports, and
reports the same for every order of the entries, exactly when the ages of equal facts agree and the fields
on which entries disagree fit into an explanation. -/
theorem reviewWorkingMemoryDocument_reports_iff (T : TimeFormats) (E : ReviewEngine)
    (hcollates : Collates E.localeCompare)
    (hcanonicalize : ∀ value, value.keyed = true → E.canonicalize value = canonicalText value)
    (hdate : ∀ text, T.isUtcInstant text = true → (T.dateParse text).isSome)
    (document : FlexibleWorkingMemory T) (principalRef now : String) (hnow : T.isUtcInstant now = true) :
    (∀ sort, Conforming sort → ReviewReports T { E with sort } document principalRef now) ↔
      AgesAgree T E (document.accessible principalRef) ∧ FindingsFit E (document.accessible principalRef) := by
  constructor
  · intro h
    have hlazy := h lazySort lazySort_conforming
    constructor
    · exact agree_of_reports hcollates hdate document principalRef hnow hlazy
    · exact fit_of_reports (E := { E with sort := lazySort }) lazySort_conforming hcollates hdate document
        principalRef hnow hlazy
  · rintro ⟨hages, hfit⟩ sort hsort
    exact reports_of_agree (E := { E with sort }) hsort hcollates hcanonicalize hdate document principalRef hnow
      hages hfit

end Reviewed

namespace TestReview

open TestInteraction (times)
open TestMemory (now sharedId privateId)

def engine : ReviewEngine := { TestMemory.engine with canonicalize := canonicalText }

/-- A goal of the household with the given fields. -/
def goalEntry (fields : List (String × Json)) (h : (Json.obj fields).keyed = true)
    (lifecycle : Option WorkingMemoryLifecycle) : WorkingMemoryEntry where
  kind := .goal
  summary := "Save for a house."
  scope := .household
  ownerPrincipalRef := none
  value := .obj fields
  value_keyed := h
  lifecycle := lifecycle

def firstId : WorkingMemoryEntryId := ⟨"00000000000000000000000000", by decide⟩

def created (text : String) : Option WorkingMemoryLifecycle := some ⟨text, text, none, none⟩

def older : WorkingMemoryEntryId × WorkingMemoryEntry :=
  (privateId, goalEntry [] (Eq.refl true) (created "2026-01-01T00:00:00.000Z"))

def undated : WorkingMemoryEntryId × WorkingMemoryEntry := (sharedId, goalEntry [] (Eq.refl true) none)

def newer : WorkingMemoryEntryId × WorkingMemoryEntry := (firstId, goalEntry [] (Eq.refl true) (created now))

/-- One goal stored three times; the entry without a date comes between the others by its identifier. -/
def circleDocument : FlexibleWorkingMemory times where
  entries := [older, undated, newer]
  distinct := by decide
  parsed := by decide +kernel
  bounded := by
    rw [MemoryEntries.bounded_eq]
    decide +kernel

theorem collates : Collates engine.localeCompare where
  swap s t := by
    have hswap : compare t s = (compare s t).swap := Std.OrientedCmp.eq_swap
    exact hswap
  trans s t u h h' := by
    have hle : (compare s u).isLE = true := Std.TransCmp.isLE_trans (b := t) h h'
    exact hle
  eq_of_level s t _ _ h := by
    have heq : compare s t = .eq := h
    exact compare_eq_iff_eq.1 heq

theorem dates_read (text : String) (h : times.isUtcInstant text = true) : (times.dateParse text).isSome := by
  simp only [TimeFormats.isUtcInstant, Bool.and_eq_true] at h
  have hmem := h.1
  simp only [times, TestInteraction.instants, List.contains_eq_mem, decide_eq_true_eq] at hmem ⊢
  simp only [List.map_cons, List.map_nil, List.mem_cons, List.not_mem_nil, or_false] at hmem
  rcases hmem with rfl | rfl | rfl | rfl <;> rfl

end TestReview

open TestReview in
open TestMemory (fullDocument now) in
open TestInteraction (times) in
theorem reviewWorkingMemoryDocument_reports_full :
    ReviewReports times { engine with sort := lazySort } fullDocument "principal:ben" now := by
  refine (reviewWorkingMemoryDocument_reports_iff times engine collates (fun _ _ => rfl) dates_read fullDocument
    "principal:ben" now (by decide)).2 ⟨?_, ?_⟩ lazySort lazySort_conforming
  · unfold AgesAgree
    decide +kernel
  · unfold FindingsFit
    decide +kernel

open TestReview in
open TestMemory (now) in
open TestInteraction (times) in
/-- The older entry is before the newer one, that one before the undated one, and that one before the
older one: a sort may leave the three as they come, and the report tells in which order they came. -/
theorem reviewWorkingMemoryDocument_circle :
    Conforming lazySort ∧ ¬ReviewReports times { engine with sort := lazySort } circleDocument "principal:ana" now := by
  refine ⟨lazySort_conforming, ?_⟩
  intro h
  have hages := agree_of_reports collates dates_read circleDocument "principal:ana" (by decide) h
  have hcircle : ¬AgesAgree times engine (circleDocument.accessible "principal:ana") := by
    intro hagree
    have hcircle' := hagree older (by decide) newer (by decide) undated (by decide) (by decide +kernel)
      (by decide +kernel) (by decide +kernel) (by decide +kernel)
    revert hcircle'
    decide +kernel
  exact hcircle hages

end PlusOne
