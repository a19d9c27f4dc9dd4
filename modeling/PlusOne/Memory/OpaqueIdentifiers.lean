import PlusOne.Contracts.Json

/-! # Opaque identifiers in replies about the working memory

`redactWorkingMemoryOpaqueIdentifiers` over texts as lists of UTF-16 code units. -/

namespace PlusOne

def isAsciiWordCharacter (value : Option Nat) : Bool :=
  value.any fun code => (48 ≤ code && code ≤ 57) || (65 ≤ code && code ≤ 90) || (97 ≤ code && code ≤ 122) || code == 95

def isOpaqueIdentifierCharacter (value : Option Nat) : Bool := isAsciiWordCharacter value || value == some 45

def opaqueMarkers : List (List Nat) := [codeUnits "wme_", codeUnits "wmproposal_"]

def selectedEntry : List Nat := codeUnits "the selected entry"

/-- `markers.find((candidate) => text.startsWith(candidate, index))` -/
def markerAt (text : List Nat) (index : Nat) : Option (List Nat) :=
  opaqueMarkers.find? fun candidate => candidate.isPrefixOf (text.drop index)

/-- Where the identifier characters from a place on end. -/
def opaqueEnd (value : List Nat) (start : Nat) : Nat :=
  start + ((value.drop start).takeWhile fun code => isOpaqueIdentifierCharacter (some code)).length

/-- The end of what the loop replaces at an index. -/
def replacedAt (value normalized : List Nat) (index : Nat) : Option Nat :=
  match markerAt normalized index with
  | none => none
  | some marker =>
    if index ≠ 0 ∧ isAsciiWordCharacter value[index - 1]? then none
    else
      let stop := opaqueEnd value (index + marker.length)
      if stop = index + marker.length ∨ ¬isAsciiWordCharacter value[stop - 1]? ∨
          (stop < value.length ∧ isAsciiWordCharacter value[stop]?) then none
      else some stop

theorem le_opaqueEnd (value : List Nat) (start : Nat) : start ≤ opaqueEnd value start := Nat.le_add_right _ _

theorem lt_of_replacedAt {value normalized : List Nat} {index stop : Nat}
    (h : replacedAt value normalized index = some stop) : index < stop := by
  unfold replacedAt at h
  cases hmarker : markerAt normalized index with
  | none => simp [hmarker] at h
  | some marker =>
    simp only [hmarker, Option.ite_none_left_eq_some, Option.some.injEq, not_or] at h
    obtain ⟨-, ⟨hne, -⟩, rfl⟩ := h
    have hle := le_opaqueEnd value (index + marker.length)
    omega

/-- The loop, with what it has put out, how far it has copied and where it is. -/
def redactFrom (value normalized output : List Nat) (copiedThrough index : Nat) : List Nat :=
  if index < value.length then
    match _h : replacedAt value normalized index with
    | none => redactFrom value normalized output copiedThrough (index + 1)
    | some stop =>
      redactFrom value normalized
        (output ++ (value.drop copiedThrough).take (index - copiedThrough) ++ selectedEntry) stop stop
  else output ++ value.drop copiedThrough
termination_by value.length - index
decreasing_by
  · omega
  · have hlt := lt_of_replacedAt _h
    omega

/-- `toLowerCase` is the lower-casing of the language. -/
def redactWorkingMemoryOpaqueIdentifiers (toLowerCase : List Nat → List Nat) (value : List Nat) : List Nat :=
  redactFrom value (toLowerCase value) [] 0 0

/-! ## What is to be redacted -/

def asciiLowerCase (code : Nat) : Nat := if 65 ≤ code ∧ code ≤ 90 then code + 32 else code

/-- The end of the identifier at an index: a marker in any letter case at a word boundary, and the identifier
characters after it, of which there is at least one. -/
def identifierAt (value : List Nat) (index : Nat) : Option Nat :=
  match markerAt (value.map asciiLowerCase) index with
  | none => none
  | some marker =>
    if index ≠ 0 ∧ isAsciiWordCharacter value[index - 1]? then none
    else
      let stop := opaqueEnd value (index + marker.length)
      if stop = index + marker.length then none else some stop

/-- The text from an index on, with what `spanAt` marks replaced and everything else copied. -/
def replaceSpans (spanAt : Nat → Option Nat) (value : List Nat) (index : Nat) : List Nat :=
  if _h : index < value.length then
    match spanAt index with
    | none => value[index] :: replaceSpans spanAt value (index + 1)
    | some stop => selectedEntry ++ replaceSpans spanAt value (max stop (index + 1))
  else []
termination_by value.length - index

/-- The places at which such a replacement looks: those outside the spans before them. -/
inductive Scanned (spanAt : Nat → Option Nat) (value : List Nat) : Nat → Prop
  | start : Scanned spanAt value 0
  | copied {index : Nat} (h : Scanned spanAt value index) (hindex : index < value.length)
      (hnone : spanAt index = none) : Scanned spanAt value (index + 1)
  | replaced {index stop : Nat} (h : Scanned spanAt value index) (hindex : index < value.length)
      (hstop : spanAt index = some stop) : Scanned spanAt value stop

/-- The text with every identifier replaced. -/
def withoutIdentifiers (value : List Nat) : List Nat := replaceSpans (identifierAt value) value 0

end PlusOne
