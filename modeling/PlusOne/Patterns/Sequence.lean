import Mathlib.Data.List.Basic

/-! # Patterns over lists

A pattern is a sequence of pieces. Repetitions take as much as they can and give back one element
at a time; a search takes the first place that has a match. -/

namespace Patterns

variable {α : Type}

inductive Piece (α : Type) where
  | one (p : α → Bool)
  | many (p : α → Bool) (least : Nat) (most : Option Nat)
  /-- Takes nothing, and looks at the elements before and after. -/
  | here (test : Option α → Option α → Bool)

namespace Piece

def lit [BEq α] (c : α) : Piece α := .one (· == c)

/-- At least one element, none of them among `cs`. -/
def noneOf [BEq α] (cs : List α) : Piece α := .many (fun c => !cs.contains c) 1 none

/-- `(?<!p)` -/
def notBehind (p : α → Bool) : Piece α := .here fun behind _ => !behind.any p

/-- `(?!p)` -/
def notAhead (p : α → Bool) : Piece α := .here fun _ ahead => !ahead.any p

/-- `(?<=p)` -/
def behind (p : α → Bool) : Piece α := .here fun behind _ => behind.any p

/-- `(?=p)` -/
def ahead (p : α → Bool) : Piece α := .here fun _ ahead => ahead.any p

/-- `\b` for the elements `p` of a word -/
def boundary (p : α → Bool) : Piece α := .here fun behind ahead => behind.any p != ahead.any p

/-- `^` -/
def start : Piece α := .here fun behind _ => behind.isNone

/-- `$` -/
def finish : Piece α := .here fun _ ahead => ahead.isNone

end Piece

/-- How many elements a repetition may take, the most first. -/
def lengths (p : α → Bool) (least : Nat) (most : Option Nat) (text : List α) : List Nat :=
  let longest := (text.takeWhile p).length
  ((List.range (min longest (most.getD longest) + 1)).filter (least ≤ ·)).reverse

/-- What each piece takes, when the pattern matches at the head of `text`. -/
def matchAt : List (Piece α) → Option α → List α → Option (List (List α))
  | [], _, _ => some []
  | .one _ :: _, _, [] => none
  | .one p :: pieces, _, c :: text =>
      if p c then (matchAt pieces (some c) text).map ([c] :: ·) else none
  | .many p least most :: pieces, behind, text =>
      (lengths p least most text).findSome? fun k =>
        (matchAt pieces ((text.take k).getLast?.or behind) (text.drop k)).map (text.take k :: ·)
  | .here test :: pieces, behind, text =>
      if test behind text.head? then (matchAt pieces behind text).map ([] :: ·) else none

/-- What is before the first match, and what its pieces take. -/
def exec (pieces : List (Piece α)) : Option α → List α → Option (List α × List (List α))
  | behind, [] => (matchAt pieces behind []).map fun groups => ([], groups)
  | behind, c :: text =>
      match matchAt pieces behind (c :: text) with
      | some groups => some ([], groups)
      | none => (exec pieces (some c) text).map fun found => (c :: found.1, found.2)

/-- `text.replace(/…/g, format)`, with alternatives, where no match is empty; the elements of a
match that is replaced are skipped. -/
def replaceAll (alternatives : List (List (Piece α))) (format : List (List α) → List α) :
    Option α → Nat → List α → List α
  | _, _, [] => []
  | _, skipped + 1, c :: rest => replaceAll alternatives format (some c) skipped rest
  | behind, 0, c :: rest =>
      match alternatives.findSome? fun pieces => matchAt pieces behind (c :: rest) with
      | some groups => format groups ++ replaceAll alternatives format (some c) (groups.flatten.length - 1) rest
      | none => c :: replaceAll alternatives format (some c) 0 rest

/-- A way to read the head of a text as the pattern, leaving `rest`. -/
inductive Fits : List (Piece α) → Option α → List α → List (List α) → List α → Prop
  | nil {behind text} : Fits [] behind text [] text
  | one {p pieces behind c text groups rest} :
      p c = true → Fits pieces (some c) text groups rest →
      Fits (.one p :: pieces) behind (c :: text) ([c] :: groups) rest
  | many {p least most pieces behind group text groups rest} :
      (∀ c ∈ group, p c = true) → least ≤ group.length → (∀ n, most = some n → group.length ≤ n) →
      Fits pieces (group.getLast?.or behind) text groups rest →
      Fits (.many p least most :: pieces) behind (group ++ text) (group :: groups) rest
  | here {test pieces behind text groups rest} :
      test behind text.head? = true → Fits pieces behind text groups rest →
      Fits (.here test :: pieces) behind text ([] :: groups) rest

variable {p : α → Bool} {least k : Nat} {most : Option Nat} {pieces : List (Piece α)}
  {behind : Option α} {text rest before : List α} {groups : List (List α)}

theorem mem_lengths (h : k ∈ lengths p least most text) :
    least ≤ k ∧ k ≤ (text.takeWhile p).length ∧ ∀ n, most = some n → k ≤ n := by
  simp only [lengths, List.mem_reverse, List.mem_filter, List.mem_range, decide_eq_true_eq] at h
  obtain ⟨hlt, hleast⟩ := h
  refine ⟨hleast, by omega, ?_⟩
  intro n hn
  simp only [hn, Option.getD_some] at hlt
  omega

/-- The head of a text that a repetition may take has only its elements. -/
theorem of_mem_take (hk : k ≤ (text.takeWhile p).length) {c : α} (hc : c ∈ text.take k) : p c = true := by
  induction text generalizing k with
  | nil => simp at hc
  | cons d text ih =>
    cases k with
    | zero => simp at hc
    | succ k =>
      by_cases hd : p d = true
      · have hk' : k ≤ (text.takeWhile p).length := by simpa [hd] using hk
        rcases List.mem_cons.1 (by simpa using hc) with rfl | hc
        · exact hd
        · exact ih hk' hc
      · simp [hd] at hk

theorem matchAt_fits (h : matchAt pieces behind text = some groups) :
    ∃ rest, Fits pieces behind text groups rest := by
  induction pieces generalizing behind text groups with
  | nil =>
    cases h
    exact ⟨text, .nil⟩
  | cons piece pieces ih =>
    cases piece with
    | one p =>
      cases text with
      | nil => simp [matchAt] at h
      | cons c text =>
        by_cases hp : p c = true
        · simp only [matchAt, hp, if_true, Option.map_eq_some_iff] at h
          obtain ⟨tail, htail, rfl⟩ := h
          obtain ⟨rest, hrest⟩ := ih htail
          exact ⟨rest, .one hp hrest⟩
        · simp [matchAt, hp] at h
    | many p least most =>
      simp only [matchAt] at h
      obtain ⟨k, hk, hmatch⟩ := List.exists_of_findSome?_eq_some h
      obtain ⟨tail, htail, rfl⟩ := Option.map_eq_some_iff.1 hmatch
      obtain ⟨rest, hrest⟩ := ih htail
      obtain ⟨hleast, hlongest, hmost⟩ := mem_lengths hk
      have hle : k ≤ text.length := Nat.le_trans hlongest (List.takeWhile_prefix p).length_le
      have hlength : (text.take k).length = k := by simp [hle]
      have hfits := Fits.many (fun c hc => of_mem_take hlongest hc) (hlength.symm ▸ hleast)
        (fun n hn => hlength.symm ▸ hmost n hn) hrest
      rw [List.take_append_drop] at hfits
      exact ⟨rest, hfits⟩
    | here test =>
      by_cases hp : test behind text.head? = true
      · simp only [matchAt, hp, if_true, Option.map_eq_some_iff] at h
        obtain ⟨tail, htail, rfl⟩ := h
        obtain ⟨rest, hrest⟩ := ih htail
        exact ⟨rest, .here hp hrest⟩
      · simp [matchAt, hp] at h

theorem Fits.text_eq (h : Fits pieces behind text groups rest) : text = groups.flatten ++ rest := by
  induction h with
  | nil => rfl
  | one _ _ ih => simp [ih]
  | many _ _ _ _ ih => simp [ih]
  | here _ _ ih => simpa using ih

/-- A match that a search finds divides the text. -/
theorem exec_fits (h : exec pieces behind text = some (before, groups)) :
    ∃ rest, text = before ++ groups.flatten ++ rest ∧
      Fits pieces (before.getLast?.or behind) (groups.flatten ++ rest) groups rest := by
  induction text generalizing behind before with
  | nil =>
    obtain ⟨found, hfound, heq⟩ := Option.map_eq_some_iff.1 h
    cases heq
    obtain ⟨rest, hrest⟩ := matchAt_fits hfound
    have htext := hrest.text_eq
    exact ⟨rest, by simpa using htext, by simpa [← htext] using hrest⟩
  | cons c text ih =>
    cases hmatch : matchAt pieces behind (c :: text) with
    | some found =>
      simp only [exec, hmatch, Option.some.injEq, Prod.mk.injEq] at h
      obtain ⟨rfl, rfl⟩ := h
      obtain ⟨rest, hrest⟩ := matchAt_fits hmatch
      have htext := hrest.text_eq
      exact ⟨rest, by simpa using htext, by simpa [← htext] using hrest⟩
    | none =>
      simp only [exec, hmatch, Option.map_eq_some_iff] at h
      obtain ⟨⟨tail, found⟩, hfound, heq⟩ := h
      cases heq
      obtain ⟨rest, htext, hfits⟩ := ih hfound
      refine ⟨rest, by simp [htext], ?_⟩
      cases tail with
      | nil => simpa using hfits
      | cons d tail => simpa [List.getLast?_cons] using hfits

end Patterns
