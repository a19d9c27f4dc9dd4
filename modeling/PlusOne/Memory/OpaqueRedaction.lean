import PlusOne.Memory.OpaqueIdentifiers

/-! # The redaction of opaque identifiers -/

namespace PlusOne

/-! ## Runs of identifier characters -/

section Runs

variable {value : List Nat} {start stop index : Nat}

theorem isOpaque_of_word {code : Option Nat} (h : isAsciiWordCharacter code = true) :
    isOpaqueIdentifierCharacter code = true := by
  simp [isOpaqueIdentifierCharacter, h]

theorem not_opaque_none : isOpaqueIdentifierCharacter none = false := rfl

theorem lt_length_of_opaque (h : isOpaqueIdentifierCharacter value[index]? = true) : index < value.length := by
  by_contra hlong
  rw [List.getElem?_eq_none (Nat.not_lt.1 hlong)] at h
  exact absurd h (by simp [not_opaque_none])

theorem opaqueEnd_succ (h : isOpaqueIdentifierCharacter value[start]? = true) :
    opaqueEnd value start = opaqueEnd value (start + 1) := by
  have hlt := lt_length_of_opaque h
  rw [List.getElem?_eq_getElem hlt] at h
  simp only [opaqueEnd, List.drop_eq_getElem_cons hlt, List.takeWhile_cons, h, if_true, List.length_cons]
  omega

theorem opaqueEnd_of_not (h : isOpaqueIdentifierCharacter value[start]? = false) : opaqueEnd value start = start := by
  by_cases hlt : start < value.length
  · rw [List.getElem?_eq_getElem hlt] at h
    simp only [opaqueEnd, List.drop_eq_getElem_cons hlt, List.takeWhile_cons, h, Bool.false_eq_true, if_false,
      List.length_nil, Nat.add_zero]
  · simp [opaqueEnd, List.drop_eq_nil_of_le (Nat.not_lt.1 hlt)]

/-- The run ends at the first character that is not one of an identifier. -/
theorem not_opaque_opaqueEnd (value : List Nat) (start : Nat) :
    isOpaqueIdentifierCharacter value[opaqueEnd value start]? = false := by
  induction hk : value.length - start generalizing start with
  | zero =>
    have hnone : value[start]? = none := List.getElem?_eq_none (by omega)
    rw [opaqueEnd_of_not (by rw [hnone]; rfl), hnone]
    rfl
  | succ k ih =>
    cases hc : isOpaqueIdentifierCharacter value[start]? with
    | false => rw [opaqueEnd_of_not hc, hc]
    | true =>
      rw [opaqueEnd_succ hc]
      exact ih (start + 1) (by omega)

theorem opaque_of_lt_opaqueEnd (hle : start ≤ index) (hlt : index < opaqueEnd value start) :
    isOpaqueIdentifierCharacter value[index]? = true := by
  induction hk : index - start generalizing start with
  | zero =>
    obtain rfl : index = start := by omega
    cases hc : isOpaqueIdentifierCharacter value[index]? with
    | false =>
      rw [opaqueEnd_of_not hc] at hlt
      omega
    | true => rfl
  | succ k ih =>
    cases hc : isOpaqueIdentifierCharacter value[start]? with
    | false =>
      rw [opaqueEnd_of_not hc] at hlt
      omega
    | true =>
      rw [opaqueEnd_succ hc] at hlt
      exact ih (by omega) hlt (by omega)

theorem opaqueEnd_le (hle : start ≤ index) (h : isOpaqueIdentifierCharacter value[index]? = false) :
    opaqueEnd value start ≤ index := by
  by_contra hlt
  rw [opaque_of_lt_opaqueEnd hle (Nat.not_le.1 hlt)] at h
  exact absurd h (by simp)

theorem opaqueEnd_le_length (h : start < opaqueEnd value start) : opaqueEnd value start ≤ value.length := by
  have hlast : isOpaqueIdentifierCharacter value[opaqueEnd value start - 1]? = true :=
    opaque_of_lt_opaqueEnd (Nat.le_sub_one_of_lt h) (by omega)
  have hlt := lt_length_of_opaque hlast
  omega

theorem opaqueEnd_eq_of_le (hle : start ≤ index) (hend : index ≤ opaqueEnd value start) :
    opaqueEnd value index = opaqueEnd value start := by
  induction hk : index - start generalizing start with
  | zero =>
    obtain rfl : index = start := by omega
    rfl
  | succ k ih =>
    have hc : isOpaqueIdentifierCharacter value[start]? = true := opaque_of_lt_opaqueEnd (Nat.le_refl start) (by omega)
    rw [opaqueEnd_succ hc] at hend ⊢
    exact ih (by omega) hend (by omega)

end Runs

/-! ## The markers -/

theorem word_of_mem_marker {marker : List Nat} (h : marker ∈ opaqueMarkers) {code : Nat} (hcode : code ∈ marker) :
    isAsciiWordCharacter (some code) = true := by
  revert code marker
  decide

theorem length_marker {marker : List Nat} (h : marker ∈ opaqueMarkers) : 0 < marker.length ∧ marker.length ≤ 11 := by
  revert marker
  decide

theorem word_asciiLowerCase (code : Nat) :
    isAsciiWordCharacter (some (asciiLowerCase code)) = isAsciiWordCharacter (some code) := by
  unfold asciiLowerCase
  split
  · next h =>
    have hword : isAsciiWordCharacter (some code) = true := by simp [isAsciiWordCharacter, h]
    have hlower : isAsciiWordCharacter (some (code + 32)) = true := by
      simp only [isAsciiWordCharacter, Option.any_some, Bool.or_eq_true, Bool.and_eq_true, decide_eq_true_eq]
      omega
    rw [hword, hlower]
  · rfl

variable {index : Nat}

theorem mem_of_markerAt {text marker : List Nat} (h : markerAt text index = some marker) :
    marker ∈ opaqueMarkers ∧ marker <+: text.drop index := by
  have hmem := List.mem_of_find?_eq_some h
  have hprefix := List.find?_some h
  exact ⟨hmem, List.isPrefixOf_iff_prefix.1 hprefix⟩

/-- No text begins with both markers. -/
theorem markerAt_of_prefix {text marker : List Nat} (hmem : marker ∈ opaqueMarkers) (h : marker <+: text.drop index) :
    markerAt text index = some marker := by
  cases hfound : markerAt text index with
  | none =>
    have hnot := List.find?_eq_none.1 hfound marker hmem
    exact absurd (List.isPrefixOf_iff_prefix.2 h) hnot
  | some found =>
    obtain ⟨hfoundMem, hfound⟩ := mem_of_markerAt hfound
    have hsame : ∀ a ∈ opaqueMarkers, ∀ b ∈ opaqueMarkers, a.isPrefixOf b = true → a = b := by decide
    obtain hle | hle := Nat.le_total found.length marker.length
    · rw [hsame found hfoundMem marker hmem
        (List.isPrefixOf_iff_prefix.2 (List.prefix_of_prefix_length_le hfound h hle))]
    · rw [hsame marker hmem found hfoundMem
        (List.isPrefixOf_iff_prefix.2 (List.prefix_of_prefix_length_le h hfound hle))]

/-- A marker in any letter case is made of word characters. -/
theorem word_of_markerAt {value marker : List Nat} {index j : Nat}
    (h : markerAt (value.map asciiLowerCase) index = some marker) (hj : j < marker.length) :
    isAsciiWordCharacter value[index + j]? = true := by
  obtain ⟨hmem, rest, hrest⟩ := mem_of_markerAt h
  have hget : ((value.map asciiLowerCase).drop index)[j]? = some marker[j] := by
    rw [← hrest, List.getElem?_append_left hj, List.getElem?_eq_getElem hj]
  rw [List.getElem?_drop, List.getElem?_map] at hget
  cases hcode : value[index + j]? with
  | none => simp [hcode] at hget
  | some code =>
    rw [hcode, Option.map_some, Option.some.injEq] at hget
    rw [← word_asciiLowerCase, hget]
    exact word_of_mem_marker hmem (List.getElem_mem hj)

/-! ## What is replaced -/

/-- A place that no word character stands before. -/
def AtBoundary (value : List Nat) (index : Nat) : Prop :=
  index = 0 ∨ isAsciiWordCharacter value[index - 1]? = false

variable {value : List Nat}

theorem atBoundary_iff :
    ¬(index ≠ 0 ∧ isAsciiWordCharacter value[index - 1]? = true) ↔ AtBoundary value index := by
  simp [AtBoundary, Decidable.or_iff_not_imp_left]

theorem identifierAt_eq_some {index stop : Nat} :
    identifierAt value index = some stop ↔ ∃ marker, markerAt (value.map asciiLowerCase) index = some marker ∧
      AtBoundary value index ∧ index + marker.length < stop ∧ stop = opaqueEnd value (index + marker.length) := by
  unfold identifierAt
  cases hmarker : markerAt (value.map asciiLowerCase) index with
  | none => simp
  | some marker =>
    have hle := le_opaqueEnd value (index + marker.length)
    simp only [Option.ite_none_left_eq_some, Option.some.injEq, atBoundary_iff, exists_eq_left']
    constructor
    · rintro ⟨hboundary, hne, rfl⟩
      exact ⟨hboundary, by omega, rfl⟩
    · rintro ⟨hboundary, hlt, rfl⟩
      exact ⟨hboundary, by omega, rfl⟩

theorem replacedAt_eq_some {value normalized : List Nat} {index stop : Nat} :
    replacedAt value normalized index = some stop ↔ ∃ marker, markerAt normalized index = some marker ∧
      AtBoundary value index ∧ index + marker.length < stop ∧ stop = opaqueEnd value (index + marker.length) ∧
        isAsciiWordCharacter value[stop - 1]? = true := by
  unfold replacedAt
  cases hmarker : markerAt normalized index with
  | none => simp
  | some marker =>
    have hle := le_opaqueEnd value (index + marker.length)
    have hend : isAsciiWordCharacter value[opaqueEnd value (index + marker.length)]? = false := by
      by_contra hword
      have hinside := isOpaque_of_word (Bool.eq_true_of_not_eq_false hword)
      rw [not_opaque_opaqueEnd] at hinside
      exact absurd hinside (by simp)
    simp only [Option.ite_none_left_eq_some, Option.some.injEq, atBoundary_iff, exists_eq_left', not_or, hend,
      Bool.false_eq_true, and_false, not_false_eq_true, and_true, Decidable.not_not]
    constructor
    · rintro ⟨hboundary, ⟨hne, hword⟩, rfl⟩
      exact ⟨hboundary, by omega, rfl, hword⟩
    · rintro ⟨hboundary, hlt, rfl, hword⟩
      exact ⟨hboundary, ⟨by omega, hword⟩, rfl⟩

/-- What both kinds of spans have in common. -/
structure Spans (value : List Nat) (spanAt : Nat → Option Nat) : Prop where
  boundary : ∀ index stop, spanAt index = some stop → AtBoundary value index
  run : ∀ index stop, spanAt index = some stop →
    ∃ marker ∈ opaqueMarkers, index + marker.length < stop ∧ stop = opaqueEnd value (index + marker.length)

theorem spans_identifierAt (value : List Nat) : Spans value (identifierAt value) := by
  constructor
  · intro index stop h
    obtain ⟨marker, -, hboundary, -⟩ := identifierAt_eq_some.1 h
    exact hboundary
  · intro index stop h
    obtain ⟨marker, hmarker, -, hlt, hstop⟩ := identifierAt_eq_some.1 h
    exact ⟨marker, (mem_of_markerAt hmarker).1, hlt, hstop⟩

theorem spans_replacedAt (value normalized : List Nat) : Spans value (replacedAt value normalized) := by
  constructor
  · intro index stop h
    obtain ⟨marker, -, hboundary, -⟩ := replacedAt_eq_some.1 h
    exact hboundary
  · intro index stop h
    obtain ⟨marker, hmarker, -, hlt, hstop, -⟩ := replacedAt_eq_some.1 h
    exact ⟨marker, (mem_of_markerAt hmarker).1, hlt, hstop⟩

section Spans

variable {value : List Nat} {spanAt : Nat → Option Nat} {index stop : Nat}

theorem Spans.lt (h : Spans value spanAt) (hstop : spanAt index = some stop) : index < stop := by
  obtain ⟨marker, -, hlt, -⟩ := h.run index stop hstop
  omega

theorem Spans.le_length (h : Spans value spanAt) (hstop : spanAt index = some stop) : stop ≤ value.length := by
  obtain ⟨marker, -, hlt, rfl⟩ := h.run index stop hstop
  exact opaqueEnd_le_length hlt

theorem Spans.stop_ends (h : Spans value spanAt) (hstop : spanAt index = some stop) :
    isOpaqueIdentifierCharacter value[stop]? = false := by
  obtain ⟨marker, -, -, rfl⟩ := h.run index stop hstop
  exact not_opaque_opaqueEnd _ _

/-! ## Replacing spans -/

theorem replaceSpans_of_le (hlong : value.length ≤ index) : replaceSpans spanAt value index = [] := by
  rw [replaceSpans, dif_neg (Nat.not_lt.2 hlong)]

theorem replaceSpans_none (hlt : index < value.length) (hnone : spanAt index = none) :
    replaceSpans spanAt value index = value[index] :: replaceSpans spanAt value (index + 1) := by
  rw [replaceSpans, dif_pos hlt, hnone]

theorem Spans.replaceSpans_some (h : Spans value spanAt) (hstop : spanAt index = some stop) :
    replaceSpans spanAt value index = selectedEntry ++ replaceSpans spanAt value stop := by
  have hlt := h.lt hstop
  have hlength := h.le_length hstop
  rw [replaceSpans, dif_pos (by omega), hstop]
  simp only
  rw [Nat.max_eq_left (by omega)]

/-- The loop puts out the text with the spans replaced that it finds. -/
theorem redactFrom_eq {value normalized : List Nat} (output : List Nat) {copiedThrough index : Nat}
    (hle : copiedThrough ≤ index) : redactFrom value normalized output copiedThrough index =
      output ++ (value.drop copiedThrough).take (index - copiedThrough) ++
        replaceSpans (replacedAt value normalized) value index := by
  fun_induction redactFrom value normalized output copiedThrough index with
  | case1 output copiedThrough index hlt hnone ih =>
    rw [ih (by omega), replaceSpans_none hlt hnone]
    have hlast : index - copiedThrough < (value.drop copiedThrough).length := by
      rw [List.length_drop]
      omega
    rw [Nat.sub_add_comm hle, List.take_succ_eq_append_getElem hlast, List.getElem_drop]
    simp [Nat.add_sub_cancel' hle]
  | case2 output copiedThrough index hlt stop hstop ih =>
    rw [ih (Nat.le_refl _), (spans_replacedAt value normalized).replaceSpans_some hstop]
    simp
  | case3 output copiedThrough index hlong =>
    rw [replaceSpans_of_le (Nat.not_lt.1 hlong), List.append_nil, List.take_of_length_le]
    rw [List.length_drop]
    omega

theorem redact_eq (toLowerCase : List Nat → List Nat) (value : List Nat) :
    redactWorkingMemoryOpaqueIdentifiers toLowerCase value =
      replaceSpans (replacedAt value (toLowerCase value)) value 0 := by
  rw [redactWorkingMemoryOpaqueIdentifiers, redactFrom_eq [] (Nat.le_refl 0)]
  simp

/-- After a word character nothing is replaced, so that a word goes on as it does in the text. -/
theorem Spans.take_replaceSpans (h : Spans value spanAt) (hnone : spanAt index = none) {k : Nat}
    (hword : ∀ j < k, isAsciiWordCharacter value[index + j]? = true) :
    (replaceSpans spanAt value index).take (k + 1) = (value.drop index).take (k + 1) := by
  induction k generalizing index with
  | zero =>
    by_cases hlt : index < value.length
    · rw [replaceSpans_none hlt hnone, List.drop_eq_getElem_cons hlt]
      rfl
    · simp [replaceSpans_of_le (Nat.not_lt.1 hlt), List.drop_eq_nil_of_le (Nat.not_lt.1 hlt)]
  | succ k ih =>
    have hfirst : isAsciiWordCharacter value[index]? = true := hword 0 (Nat.succ_pos k)
    have hlt := lt_length_of_opaque (isOpaque_of_word hfirst)
    have hnext : spanAt (index + 1) = none := by
      cases hstop : spanAt (index + 1) with
      | none => rfl
      | some stop =>
        have hboundary := h.boundary _ _ hstop
        simp [AtBoundary, hfirst] at hboundary
    have hrest := ih hnext fun j hj => by
      rw [Nat.add_right_comm]
      exact hword (j + 1) (Nat.succ_lt_succ hj)
    rw [replaceSpans_none hlt hnone, List.drop_eq_getElem_cons hlt, List.take_succ_cons, List.take_succ_cons, hrest]

/-- The same, where the word is read off what is put out. -/
theorem Spans.take_replaceSpans' (h : Spans value spanAt) (hnone : spanAt index = none) {k : Nat}
    (hword : ∀ j < k, isAsciiWordCharacter (replaceSpans spanAt value index)[j]? = true) :
    (replaceSpans spanAt value index).take (k + 1) = (value.drop index).take (k + 1) := by
  induction k with
  | zero => exact h.take_replaceSpans hnone fun j hj => absurd hj (Nat.not_lt_zero j)
  | succ k ih =>
    have hsame := ih fun j hj => hword j (Nat.lt_succ_of_lt hj)
    refine h.take_replaceSpans hnone ?_
    intro j hj
    have hget : (replaceSpans spanAt value index)[j]? = (value.drop index)[j]? := by
      rw [← List.getElem?_take_of_lt hj, hsame, List.getElem?_take_of_lt hj]
    rw [← List.getElem?_drop, ← hget]
    exact hword j hj

theorem Spans.replaceSpans_congr (h : Spans value spanAt) {spanAt' : Nat → Option Nat} (h' : Spans value spanAt')
    (hsame : ∀ i, Scanned spanAt value i → spanAt i = spanAt' i) (hscan : Scanned spanAt value index) :
    replaceSpans spanAt value index = replaceSpans spanAt' value index := by
  induction hk : value.length - index using Nat.strong_induction_on generalizing index with
  | _ k ih =>
    by_cases hlt : index < value.length
    · cases hspan : spanAt index with
      | none =>
        rw [replaceSpans_none hlt hspan, replaceSpans_none hlt (by rw [← hsame _ hscan, hspan])]
        rw [ih _ (by omega) (hscan.copied hlt hspan) rfl]
      | some stop =>
        have hstop := h.lt hspan
        rw [h.replaceSpans_some hspan, h'.replaceSpans_some (by rw [← hsame _ hscan, hspan])]
        rw [ih _ (by omega) (hscan.replaced hlt hspan) rfl]
    · rw [replaceSpans_of_le (Nat.not_lt.1 hlt), replaceSpans_of_le (Nat.not_lt.1 hlt)]

end Spans

/-! ## Identifiers in what is put out -/

/-- An identifier at the head of a text that stands after `behind`. -/
def IdentifierIn (behind : Option Nat) (text : List Nat) : Prop :=
  isAsciiWordCharacter behind = false ∧ ∃ marker, markerAt (text.map asciiLowerCase) 0 = some marker ∧
    isOpaqueIdentifierCharacter text[marker.length]? = true

/-- The character before a place. -/
def before (value : List Nat) (index : Nat) : Option Nat := if index = 0 then none else value[index - 1]?

theorem atBoundary_iff_before :
    AtBoundary value index ↔ isAsciiWordCharacter (before value index) = false := by
  unfold AtBoundary before
  split
  · next hzero => simp [hzero, isAsciiWordCharacter]
  · next hzero => simp [hzero]

theorem exists_identifierAt_iff :
    (∃ stop, identifierAt value index = some stop) ↔ IdentifierIn (before value index) (value.drop index) := by
  have hmarker : markerAt ((value.drop index).map asciiLowerCase) 0 = markerAt (value.map asciiLowerCase) index := by
    simp [markerAt, List.map_drop]
  simp only [identifierAt_eq_some, IdentifierIn, hmarker, ← atBoundary_iff_before, List.getElem?_drop]
  constructor
  · rintro ⟨stop, marker, hmarker, hboundary, hlt, rfl⟩
    exact ⟨hboundary, marker, hmarker, opaque_of_lt_opaqueEnd (Nat.le_refl _) hlt⟩
  · rintro ⟨hboundary, marker, hmarker, hinside⟩
    refine ⟨_, marker, hmarker, hboundary, ?_, rfl⟩
    have hle := le_opaqueEnd value (index + marker.length + 1)
    rw [opaqueEnd_succ hinside]
    omega

variable {behind : Option Nat}

/-- Whether there is an identifier is seen from the marker and the character after it. -/
theorem IdentifierIn.congr {text text' marker : List Nat} (hbehind : isAsciiWordCharacter behind = false)
    (hmarker : markerAt (text.map asciiLowerCase) 0 = some marker)
    (hinside : isOpaqueIdentifierCharacter text[marker.length]? = true)
    (htake : text.take (marker.length + 1) = text'.take (marker.length + 1)) : IdentifierIn behind text' := by
  obtain ⟨hmem, hprefix⟩ := mem_of_markerAt hmarker
  refine ⟨hbehind, marker, markerAt_of_prefix hmem ?_, ?_⟩
  · rw [List.drop_zero] at hprefix ⊢
    have htake' : text.take marker.length = text'.take marker.length := by
      have hshort := congrArg (List.take marker.length) htake
      rwa [List.take_take, List.take_take, Nat.min_eq_left (Nat.le_succ _)] at hshort
    rw [List.prefix_iff_eq_take] at hprefix ⊢
    rw [← List.map_take, ← htake', List.map_take]
    exact hprefix
  · have hlt : marker.length < marker.length + 1 := Nat.lt_succ_self _
    rwa [← List.getElem?_take_of_lt hlt, ← htake, List.getElem?_take_of_lt hlt]

variable {spanAt : Nat → Option Nat}

theorem Spans.identifierIn_replaceSpans (h : Spans value spanAt) (hnone : spanAt index = none)
    (hidentifier : IdentifierIn behind (value.drop index)) :
    IdentifierIn behind (replaceSpans spanAt value index) := by
  obtain ⟨hbehind, marker, hmarker, hinside⟩ := hidentifier
  refine .congr hbehind hmarker hinside (h.take_replaceSpans hnone ?_).symm
  intro j hj
  have hword := word_of_markerAt hmarker hj
  rwa [Nat.zero_add, List.getElem?_drop] at hword

theorem Spans.identifierIn_of_replaceSpans (h : Spans value spanAt) (hnone : spanAt index = none)
    (hidentifier : IdentifierIn behind (replaceSpans spanAt value index)) :
    IdentifierIn behind (value.drop index) := by
  obtain ⟨hbehind, marker, hmarker, hinside⟩ := hidentifier
  refine .congr hbehind hmarker hinside (h.take_replaceSpans' hnone ?_)
  intro j hj
  have hword := word_of_markerAt hmarker hj
  rwa [Nat.zero_add] at hword

theorem opaque_of_identifierIn {text : List Nat} (h : IdentifierIn behind text) :
    isOpaqueIdentifierCharacter text[0]? = true := by
  obtain ⟨-, marker, hmarker, -⟩ := h
  have hpos := (length_marker (mem_of_markerAt hmarker).1).1
  have hword := word_of_markerAt hmarker hpos
  exact isOpaque_of_word hword

/-- What is put in the place of an identifier begins none. -/
theorem not_identifierIn_selectedEntry {text : List Nat} {j : Nat} (hj : j < selectedEntry.length) :
    ¬IdentifierIn behind ((selectedEntry ++ text).drop j) := by
  rintro ⟨-, marker, hmarker, -⟩
  obtain ⟨hmem, hprefix⟩ := mem_of_markerAt hmarker
  have hfirst : ∀ marker ∈ opaqueMarkers, ∀ code ∈ selectedEntry, marker.head? ≠ some (asciiLowerCase code) := by
    decide
  have hhead : marker.head? = (((selectedEntry ++ text).drop j).map asciiLowerCase).head? := by
    have hpos := (length_marker hmem).1
    cases marker with
    | nil => simp at hpos
    | cons code marker =>
      obtain ⟨rest, hrest⟩ := hprefix
      rw [List.drop_zero] at hrest
      rw [← hrest]
      rfl
  rw [List.drop_append_of_le_length (Nat.le_of_lt hj), List.drop_eq_getElem_cons hj] at hhead
  exact hfirst marker hmem _ (List.getElem_mem hj) hhead

/-- With all identifiers replaced, none is left from any place on. -/
theorem not_identifierIn_withoutIdentifiers (j : Nat)
    (hbehind : isAsciiWordCharacter behind = true ∨ behind = before value index) :
    ¬IdentifierIn (if j = 0 then behind else (replaceSpans (identifierAt value) value index)[j - 1]?)
      ((replaceSpans (identifierAt value) value index).drop j) := by
  have hspans := spans_identifierAt value
  induction hk : value.length - index using Nat.strong_induction_on generalizing index j behind with
  | _ k ih =>
    by_cases hlt : index < value.length
    · cases hspan : identifierAt value index with
      | none =>
        cases j with
        | zero =>
          intro hidentifier
          simp only [if_true, List.drop_zero] at hidentifier
          obtain hbehind | rfl := hbehind
          · rw [hidentifier.1] at hbehind
            exact absurd hbehind (by simp)
          · have hstop := exists_identifierAt_iff.2 (hspans.identifierIn_of_replaceSpans hspan hidentifier)
            simp [hspan] at hstop
        | succ j =>
          have hrest : ¬IdentifierIn
              (if j = 0 then some value[index] else (replaceSpans (identifierAt value) value (index + 1))[j - 1]?)
              ((replaceSpans (identifierAt value) value (index + 1)).drop j) :=
            ih _ (by omega) j (.inr (by simp [before, List.getElem?_eq_getElem hlt])) rfl
          rw [replaceSpans_none hlt hspan]
          cases j with
          | zero => simpa using hrest
          | succ j => simpa using hrest
      | some stop =>
        have hstop := hspans.lt hspan
        rw [hspans.replaceSpans_some hspan]
        by_cases hj : j < selectedEntry.length
        · exact not_identifierIn_selectedEntry hj
        · obtain ⟨j, rfl⟩ := Nat.exists_eq_add_of_le (Nat.not_lt.1 hj)
          have hrest : ¬IdentifierIn
              (if j = 0 then some 121 else (replaceSpans (identifierAt value) value stop)[j - 1]?)
              ((replaceSpans (identifierAt value) value stop).drop j) := ih _ (by omega) j (.inl rfl) rfl
          rw [List.drop_length_add_append]
          cases j with
          | zero => exact hrest
          | succ j => simpa [← Nat.add_assoc, List.getElem?_append_right] using hrest
    · rw [replaceSpans_of_le (Nat.not_lt.1 hlt), List.drop_nil]
      intro hidentifier
      exact absurd (opaque_of_identifierIn hidentifier) (by simp [not_opaque_none])

/-! ## Identifiers that are left -/

/-- What is put out up to a place that is looked at ends as the text does there, or the place is behind an
identifier. -/
theorem Spans.exists_before (h : Spans value spanAt) (hscan : Scanned spanAt value index) :
    ∃ out, replaceSpans spanAt value 0 = out ++ replaceSpans spanAt value index ∧
      (before out out.length = before value index ∨ isOpaqueIdentifierCharacter value[index]? = false) := by
  induction hscan with
  | start => exact ⟨[], rfl, .inl rfl⟩
  | @copied index hscan hlt hnone ih =>
    obtain ⟨out, hout, -⟩ := ih
    refine ⟨out ++ [value[index]], ?_, .inl ?_⟩
    · rw [hout, replaceSpans_none hlt hnone]
      simp
    · simp [before, List.getElem?_eq_getElem hlt]
  | @replaced index stop hscan hlt hstop ih =>
    obtain ⟨out, hout, -⟩ := ih
    refine ⟨out ++ selectedEntry, ?_, .inr (h.stop_ends hstop)⟩
    rw [hout, h.replaceSpans_some hstop, List.append_assoc]

/-- An identifier at which nothing is replaced is left in what is put out. -/
theorem Spans.exists_identifier_left {index stop : Nat} (h : Spans value spanAt)
    (hscan : Scanned spanAt value index) (hnone : spanAt index = none)
    (hidentifier : identifierAt value index = some stop) :
    ∃ j stop', identifierAt (replaceSpans spanAt value 0) j = some stop' := by
  obtain ⟨out, hout, hbefore⟩ := h.exists_before hscan
  have hin := exists_identifierAt_iff.1 ⟨stop, hidentifier⟩
  have hinside := opaque_of_identifierIn hin
  rw [List.getElem?_drop, Nat.add_zero] at hinside
  obtain hbefore | hbefore := hbefore
  · refine ⟨out.length, exists_identifierAt_iff.2 ?_⟩
    rw [hout, List.drop_left]
    have hsame : before (out ++ replaceSpans spanAt value index) out.length = before value index := by
      rw [← hbefore]
      unfold before
      split
      · rfl
      · rw [List.getElem?_append_left (by omega)]
    rw [hsame]
    exact h.identifierIn_replaceSpans hnone hin
  · rw [hbefore] at hinside
    exact absurd hinside (by simp)

/-! ## Redacting twice -/

theorem not_opaque_selectedEntry : isOpaqueIdentifierCharacter selectedEntry[12]? = false := by decide

/-- A text that is its own redaction has nothing that is replaced: every replacement is longer than what it
replaces, because `selectedEntry` read in the text would end the run of identifier characters. -/
theorem Spans.nothing_of_shift (h : Spans value spanAt) {index d : Nat} (hle : index + d ≤ value.length)
    (hshift : replaceSpans spanAt value index = value.drop (index + d)) :
    d = 0 ∧ ∀ i, index ≤ i → i < value.length → spanAt i = none := by
  induction hk : value.length - index using Nat.strong_induction_on generalizing index d with
  | _ k ih =>
    by_cases hlt : index < value.length
    · cases hspan : spanAt index with
      | none =>
        rw [replaceSpans_none hlt hspan] at hshift
        have hlong : index + d < value.length := by
          by_contra hshort
          rw [List.drop_eq_nil_of_le (Nat.not_lt.1 hshort)] at hshift
          exact absurd hshift (by simp)
        rw [List.drop_eq_getElem_cons hlong, List.cons.injEq] at hshift
        have hnext : replaceSpans spanAt value (index + 1) = value.drop (index + 1 + d) := by
          rw [hshift.2, Nat.add_right_comm]
        obtain ⟨hd, hrest⟩ := ih _ (by omega) (by omega) hnext rfl
        refine ⟨hd, ?_⟩
        intro i hi hilt
        obtain rfl | hi := Nat.eq_or_lt_of_le hi
        · exact hspan
        · exact hrest i hi hilt
      | some stop =>
        rw [h.replaceSpans_some hspan] at hshift
        have hstop := h.lt hspan
        obtain ⟨marker, hmarker, -, hrun⟩ := h.run _ _ hspan
        have hlength := (length_marker hmarker).2
        have hread : value[index + d + 12]? = selectedEntry[12]? := by
          have hget := congrArg (fun text => text[12]?) hshift
          simp only [List.getElem?_drop] at hget
          rw [← hget, List.getElem?_append_left (by decide)]
        have hshort : stop ≤ index + d + 12 := by
          rw [hrun]
          refine opaqueEnd_le (by omega) ?_
          rw [hread]
          exact not_opaque_selectedEntry
        have hreplaced : selectedEntry.length = 18 := by decide
        have hroom : index + d + 18 ≤ value.length := by
          have hcount := congrArg List.length hshift
          rw [List.length_append, List.length_drop] at hcount
          omega
        have hafter : replaceSpans spanAt value stop = value.drop (index + d + 18) := by
          have hdrop := congrArg (List.drop 18) hshift
          rwa [← hreplaced, List.drop_left, List.drop_drop] at hdrop
        have hnext : replaceSpans spanAt value stop = value.drop (stop + (index + d + 18 - stop)) := by
          rw [hafter, Nat.add_sub_cancel' (by omega)]
        obtain ⟨hd, -⟩ := ih _ (by omega) (by omega) hnext rfl
        omega
    · exact ⟨by omega, fun i hi hilt => absurd hilt (by omega)⟩

/-! ## The redaction and the identifiers -/

/-- What the redaction of a text is to do: replace identifiers and copy the rest, leave no identifier, and
change nothing the second time. -/
structure IdentifiersRedacted (toLowerCase : List Nat → List Nat) (value : List Nat) : Prop where
  copies : redactWorkingMemoryOpaqueIdentifiers toLowerCase value =
    replaceSpans (replacedAt value (toLowerCase value)) value 0
  identifiers : ∀ index stop, Scanned (replacedAt value (toLowerCase value)) value index →
    replacedAt value (toLowerCase value) index = some stop → identifierAt value index = some stop
  none_left : ∀ index, identifierAt (redactWorkingMemoryOpaqueIdentifiers toLowerCase value) index = none
  twice : redactWorkingMemoryOpaqueIdentifiers toLowerCase (redactWorkingMemoryOpaqueIdentifiers toLowerCase value) =
    redactWorkingMemoryOpaqueIdentifiers toLowerCase value

/-- No identifier ends in a hyphen, and the lower-cased copy shows the markers where they are: at every
identifier outside those before it there is a marker with identifier characters after it, and where the loop
would replace there is an identifier; with the identifiers replaced it would replace nothing. -/
structure IdentifiersShown (toLowerCase : List Nat → List Nat) (value : List Nat) : Prop where
  trailing : ∀ index stop, Scanned (identifierAt value) value index → identifierAt value index = some stop →
    isAsciiWordCharacter value[stop - 1]? = true
  shown : ∀ index stop, Scanned (identifierAt value) value index → identifierAt value index = some stop →
    ∃ marker, markerAt (toLowerCase value) index = some marker ∧ index + marker.length < stop
  real : ∀ index stop, Scanned (identifierAt value) value index →
    replacedAt value (toLowerCase value) index = some stop → identifierAt value index = some stop
  settled : ∀ index, replacedAt (withoutIdentifiers value) (toLowerCase (withoutIdentifiers value)) index = none

section Redaction

variable {toLowerCase : List Nat → List Nat} {value : List Nat}

/-- Where the loop looks, it replaces the identifiers. -/
theorem IdentifiersShown.replacedAt_eq (h : IdentifiersShown toLowerCase value) {index : Nat}
    (hscan : Scanned (identifierAt value) value index) :
    identifierAt value index = replacedAt value (toLowerCase value) index := by
  cases hidentifier : identifierAt value index with
  | none =>
    cases hreplaced : replacedAt value (toLowerCase value) index with
    | none => rfl
    | some stop =>
      rw [h.real index stop hscan hreplaced] at hidentifier
      exact absurd hidentifier (by simp)
  | some stop =>
    obtain ⟨marker, hmarker, hlt⟩ := h.shown index stop hscan hidentifier
    have hword := h.trailing index stop hscan hidentifier
    obtain ⟨marker', hmarker', hboundary, hlt', hstop⟩ := identifierAt_eq_some.1 hidentifier
    refine (replacedAt_eq_some.2 ⟨marker, hmarker, hboundary, hlt, ?_, hword⟩).symm
    have hall : stop = opaqueEnd value index := by
      rw [hstop]
      refine opaqueEnd_eq_of_le (Nat.le_add_right _ _) ?_
      by_contra hshort
      have hend := not_opaque_opaqueEnd value index
      have hle := le_opaqueEnd value index
      have hword := word_of_markerAt hmarker' (j := opaqueEnd value index - index) (by omega)
      rw [Nat.add_sub_cancel' hle] at hword
      rw [isOpaque_of_word hword] at hend
      exact absurd hend (by simp)
    rw [hall, opaqueEnd_eq_of_le (Nat.le_add_right _ _) (by omega)]

theorem IdentifiersShown.redact_eq (h : IdentifiersShown toLowerCase value) :
    redactWorkingMemoryOpaqueIdentifiers toLowerCase value = withoutIdentifiers value := by
  rw [PlusOne.redact_eq]
  exact ((spans_identifierAt value).replaceSpans_congr (spans_replacedAt value _)
    (fun i hscan => h.replacedAt_eq hscan) .start).symm

theorem replaceSpans_of_nothing {spanAt : Nat → Option Nat} (h : ∀ index, spanAt index = none) (index : Nat) :
    replaceSpans spanAt value index = value.drop index := by
  induction hk : value.length - index generalizing index with
  | zero => rw [replaceSpans_of_le (by omega), List.drop_eq_nil_of_le (by omega)]
  | succ k ih =>
    have hlt : index < value.length := by omega
    rw [replaceSpans_none hlt (h index), List.drop_eq_getElem_cons hlt, ih (index + 1) (by omega)]

theorem identifierAt_withoutIdentifiers (index : Nat) : identifierAt (withoutIdentifiers value) index = none := by
  cases hidentifier : identifierAt (withoutIdentifiers value) index with
  | none => rfl
  | some stop =>
    have hin := exists_identifierAt_iff.1 ⟨stop, hidentifier⟩
    exact absurd hin (not_identifierIn_withoutIdentifiers index (.inr rfl))

theorem IdentifiersShown.redacted (h : IdentifiersShown toLowerCase value) :
    IdentifiersRedacted toLowerCase value := by
  have hsame : ∀ i, Scanned (replacedAt value (toLowerCase value)) value i →
      Scanned (identifierAt value) value i := by
    intro i hscan
    induction hscan with
    | start => exact .start
    | copied _ hlt hnone ih => exact ih.copied hlt (by rw [h.replacedAt_eq ih, hnone])
    | replaced _ hlt hstop ih => exact ih.replaced hlt (by rw [h.replacedAt_eq ih, hstop])
  refine ⟨PlusOne.redact_eq _ _, fun index stop hscan => h.real index stop (hsame index hscan), ?_, ?_⟩
  · rw [h.redact_eq]
    exact identifierAt_withoutIdentifiers
  · rw [h.redact_eq, PlusOne.redact_eq, replaceSpans_of_nothing h.settled, List.drop_zero]

/-- Where no identifier is left, the loop has replaced each one it could have. -/
theorem IdentifiersRedacted.replacedAt_eq (h : IdentifiersRedacted toLowerCase value) {index : Nat}
    (hscan : Scanned (replacedAt value (toLowerCase value)) value index) :
    replacedAt value (toLowerCase value) index = identifierAt value index := by
  cases hreplaced : replacedAt value (toLowerCase value) index with
  | some stop => exact (h.identifiers index stop hscan hreplaced).symm
  | none =>
    cases hidentifier : identifierAt value index with
    | none => rfl
    | some stop =>
      obtain ⟨j, stop', hleft⟩ :=
        (spans_replacedAt value (toLowerCase value)).exists_identifier_left hscan hreplaced hidentifier
      rw [← h.copies, h.none_left j] at hleft
      exact absurd hleft (by simp)

theorem IdentifiersRedacted.shown (h : IdentifiersRedacted toLowerCase value) :
    IdentifiersShown toLowerCase value := by
  have hreplaced : ∀ index, Scanned (identifierAt value) value index →
      Scanned (replacedAt value (toLowerCase value)) value index := by
    intro index hscan
    induction hscan with
    | start => exact .start
    | copied _ hlt hnone ih => exact ih.copied hlt (by rw [h.replacedAt_eq ih, hnone])
    | replaced _ hlt hstop ih => exact ih.replaced hlt (by rw [h.replacedAt_eq ih, hstop])
  have hsame : ∀ index, Scanned (identifierAt value) value index →
      replacedAt value (toLowerCase value) index = identifierAt value index :=
    fun index hscan => h.replacedAt_eq (hreplaced index hscan)
  have hout : redactWorkingMemoryOpaqueIdentifiers toLowerCase value = withoutIdentifiers value := by
    rw [h.copies]
    exact ((spans_identifierAt value).replaceSpans_congr (spans_replacedAt value _)
      (fun i hscan => (hsame i hscan).symm) .start).symm
  refine ⟨?_, ?_, ?_, ?_⟩
  · intro index stop hscan hidentifier
    rw [← hsame index hscan] at hidentifier
    obtain ⟨marker, -, -, -, -, hword⟩ := replacedAt_eq_some.1 hidentifier
    exact hword
  · intro index stop hscan hidentifier
    rw [← hsame index hscan] at hidentifier
    obtain ⟨marker, hmarker, -, hlt, -⟩ := replacedAt_eq_some.1 hidentifier
    exact ⟨marker, hmarker, hlt⟩
  · intro index stop hscan hreplaced
    rw [← hsame index hscan, hreplaced]
  · intro index
    have htwice := h.twice
    rw [hout, PlusOne.redact_eq] at htwice
    have hspans := spans_replacedAt (withoutIdentifiers value) (toLowerCase (withoutIdentifiers value))
    obtain ⟨-, hnothing⟩ := hspans.nothing_of_shift (d := 0) (Nat.zero_le _) htwice
    by_cases hlt : index < (withoutIdentifiers value).length
    · exact hnothing index (Nat.zero_le _) hlt
    · cases hspan : replacedAt (withoutIdentifiers value) (toLowerCase (withoutIdentifiers value)) index with
      | none => rfl
      | some stop =>
        have hstop := hspans.lt hspan
        have hlength := hspans.le_length hspan
        omega

end Redaction

theorem redactWorkingMemoryOpaqueIdentifiers_redacts_iff (toLowerCase : List Nat → List Nat) (value : List Nat) :
    IdentifiersRedacted toLowerCase value ↔ IdentifiersShown toLowerCase value :=
  ⟨fun h => h.shown, fun h => h.redacted⟩

/-- An identifier with a hyphen behind it is left as it is. -/
theorem redactWorkingMemoryOpaqueIdentifiers_leaves_hyphen :
    ¬IdentifiersRedacted (fun text => text.map asciiLowerCase) (codeUnits "wme_a-") := by
  intro h
  have hidentifier : identifierAt (codeUnits "wme_a-") 0 = some 6 := by decide
  have hreplaced : replacedAt (codeUnits "wme_a-") ((codeUnits "wme_a-").map asciiLowerCase) 0 = none := by decide
  rw [← h.replacedAt_eq .start, hreplaced] at hidentifier
  exact absurd hidentifier (by simp)

end PlusOne
