import Mathlib.Data.List.Basic

/-! # Telegram's MarkdownV2

What the messenger reads in a message text: ordinary characters and entities. Entities are not
nested here, and an entity holds at least one character. -/

namespace PlusOne

inductive Style where
  | bold | italic | underline | strikethrough | spoiler
  deriving DecidableEq

inductive Span where
  | ordinary (c : Char)
  | styled (style : Style) (text : List Char)
  | code (text : List Char)
  | link (text url : List Char)

namespace Span

/-- What the reader of the message sees. -/
def shown : Span → List Char
  | ordinary c => [c]
  | styled _ text => text
  | code text => text
  | link text _ => text

end Span

namespace MarkdownV2

/-- The characters to be escaped outside of code and link targets. -/
def isReserved (c : Char) : Bool := "\\_*[]()~`>#+-=|\x7b\x7d.!".toList.contains c

/-- Only these can be escaped. -/
def isEscapable (c : Char) : Bool := decide (1 ≤ c.toNat) && decide (c.toNat ≤ 126)

/-- The ordinary characters at the head, and what follows them. -/
def readText : List Char → List Char × List Char
  | [] => ([], [])
  | '\\' :: c :: rest =>
      if isEscapable c then (c :: (readText rest).1, (readText rest).2) else ([], '\\' :: c :: rest)
  | c :: rest =>
      if isReserved c then ([], c :: rest) else (c :: (readText rest).1, (readText rest).2)

/-- The mark that begins or ends a style; two underscores are always one mark. -/
def readMark : List Char → Option (Style × List Char)
  | '*' :: rest => some (.bold, rest)
  | '_' :: '_' :: rest => some (.underline, rest)
  | '_' :: rest => some (.italic, rest)
  | '~' :: rest => some (.strikethrough, rest)
  | '|' :: '|' :: rest => some (.spoiler, rest)
  | _ => none

/-- The text up to a closing character, where only this character and the backslash are escaped. -/
def readUntil (close : Char) : List Char → Option (List Char × List Char)
  | [] => none
  | '\\' :: c :: rest =>
      if c = close ∨ c = '\\' then (readUntil close rest).map fun read => (c :: read.1, read.2) else none
  | c :: rest =>
      if c = close then some ([], rest)
      else if c = '\\' then none
      else (readUntil close rest).map fun read => (c :: read.1, read.2)

def readStyled (text : List Char) : Option (Span × List Char) :=
  (readMark text).bind fun opened =>
    (readMark (readText opened.2).2).bind fun closed =>
      if (readText opened.2).1 ≠ [] ∧ opened.1 = closed.1 then
        some (.styled opened.1 (readText opened.2).1, closed.2)
      else none

def readCode : List Char → Option (Span × List Char)
  | '\x60' :: rest =>
      (readUntil '\x60' rest).bind fun read => if read.1 ≠ [] then some (.code read.1, read.2) else none
  | _ => none

def readLink : List Char → Option (Span × List Char)
  | '[' :: rest =>
      match readText rest with
      | (text, ']' :: '(' :: target) =>
          (readUntil ')' target).bind fun read =>
            if text ≠ [] ∧ read.1 ≠ [] then some (.link text read.1, read.2) else none
      | _ => none
  | _ => none

def readEntity (text : List Char) : Option (Span × List Char) :=
  (readStyled text).or ((readCode text).or (readLink text))

theorem readText_length (text : List Char) : (readText text).2.length ≤ text.length := by
  induction text using readText.induct with
  | case1 => simp [readText]
  | case2 c rest hc ih =>
    simp only [readText, hc, if_true, List.length_cons]
    omega
  | case3 c rest hc => simp [readText, hc]
  | case4 c rest hne hc => simp [readText, hc]
  | case5 c rest hne hc ih =>
    simp only [readText, hc, List.length_cons, Bool.false_eq_true, if_false]
    omega

variable {text rest : List Char}

theorem readMark_length {style : Style} (h : readMark text = some (style, rest)) :
    rest.length < text.length := by
  unfold readMark at h
  split at h <;> cases h <;> simp only [List.length_cons] <;> omega

theorem readUntil_length {close : Char} {text read rest : List Char}
    (h : readUntil close text = some (read, rest)) : rest.length < text.length := by
  induction text using readUntil.induct close generalizing read with
  | case1 => simp [readUntil] at h
  | case2 c tail hc ih =>
    simp only [readUntil, hc, if_true, Option.map_eq_some_iff] at h
    obtain ⟨⟨found, left⟩, hfound, heq⟩ := h
    cases heq
    have hlt : left.length < tail.length := ih hfound
    simp only [List.length_cons]
    omega
  | case3 c tail hc => simp [readUntil, hc] at h
  | case4 tail hne =>
    simp [readUntil] at h
    simp [h]
  | case5 tail hne hc => simp_all [readUntil]
  | case6 c tail hne hclose hc ih =>
    simp only [readUntil, hclose, hc, if_false, Option.map_eq_some_iff] at h
    obtain ⟨⟨found, left⟩, hfound, heq⟩ := h
    cases heq
    have hlt : left.length < tail.length := ih hfound
    simp only [List.length_cons]
    omega

variable {span : Span}

theorem readStyled_length (h : readStyled text = some (span, rest)) :
    rest.length < text.length := by
  obtain ⟨⟨style, inner⟩, hopened, h⟩ := Option.bind_eq_some_iff.1 h
  obtain ⟨⟨style', left⟩, hclosed, h⟩ := Option.bind_eq_some_iff.1 h
  have hopen := readMark_length hopened
  have hinner := readText_length inner
  have hclose := readMark_length hclosed
  split at h
  · cases h
    exact Nat.lt_trans hclose (Nat.lt_of_le_of_lt hinner hopen)
  · cases h

theorem readCode_length (h : readCode text = some (span, rest)) :
    rest.length < text.length := by
  unfold readCode at h
  split at h
  · obtain ⟨⟨inner, left⟩, hread, h⟩ := Option.bind_eq_some_iff.1 h
    have hlt := readUntil_length hread
    split at h
    · cases h
      exact Nat.lt_succ_of_lt hlt
    · cases h
  · cases h

theorem readLink_length (h : readLink text = some (span, rest)) :
    rest.length < text.length := by
  unfold readLink at h
  split at h
  · rename_i tail
    split at h
    · rename_i inner target htext
      obtain ⟨⟨url, left⟩, hread, h⟩ := Option.bind_eq_some_iff.1 h
      have hlt := readUntil_length hread
      have hle := readText_length tail
      simp only [htext, List.length_cons] at hle
      split at h
      · cases h
        simp only [List.length_cons]
        omega
      · cases h
    · cases h
  · cases h

theorem readEntity_length (h : readEntity text = some (span, rest)) :
    rest.length < text.length := by
  rcases Option.or_eq_some_iff.1 h with h | ⟨-, h⟩
  · exact readStyled_length h
  · rcases Option.or_eq_some_iff.1 h with h | ⟨-, h⟩
    · exact readCode_length h
    · exact readLink_length h

/-- A whole message; `none` is a message that is refused. -/
def parse (text : List Char) : Option (List Span) :=
  if (readText text).2 = [] then some ((readText text).1.map .ordinary)
  else
    match hread : readEntity (readText text).2 with
    | none => none
    | some (span, rest) => (parse rest).map ((readText text).1.map .ordinary ++ span :: ·)
termination_by text.length
decreasing_by exact Nat.lt_of_lt_of_le (readEntity_length hread) (readText_length text)

theorem parse_eq (text : List Char) :
    parse text = if (readText text).2 = [] then some ((readText text).1.map .ordinary)
      else (readEntity (readText text).2).bind fun found =>
        (parse found.2).map ((readText text).1.map .ordinary ++ found.1 :: ·) := by
  rw [parse]
  split
  · rfl
  · split
    · rename_i hread
      simp [hread]
    · rename_i hread
      simp [hread]

@[simp] theorem parse_nil : parse [] = some [] := by
  simp [parse_eq, readText]

theorem parse_ordinary {c : Char} {text marked : List Char}
    (h : readText marked = (c :: (readText text).1, (readText text).2)) :
    parse marked = (parse text).map (.ordinary c :: ·) := by
  rw [parse_eq, parse_eq text, h]
  by_cases hend : (readText text).2 = []
  · simp [hend]
  · cases hread : readEntity (readText text).2 with
    | none => simp [hend]
    | some found => simp [hend, Function.comp_def]

theorem parse_entity (htext : readText text = ([], text)) (hread : readEntity text = some (span, rest)) :
    parse text = (parse rest).map (span :: ·) := by
  have hne : text ≠ [] := by
    intro hnil
    subst hnil
    simpa using readEntity_length hread
  rw [parse_eq]
  simp [htext, hne, hread]

end MarkdownV2

end PlusOne
