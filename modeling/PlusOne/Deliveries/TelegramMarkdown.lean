import Mathlib.Data.List.SplitOn
import PlusOne.Contracts.Time
import PlusOne.Deliveries.MarkdownV2
import PlusOne.Patterns.Sequence

/-! # The text of a Telegram reply

No pattern here distinguishes characters beyond white space and a few ASCII marks, and every cut is
next to such a mark, so a text is a list of characters. -/

namespace PlusOne

open Patterns

/-- `TELEGRAM_MARKDOWN_V2_META` -/
def telegramMarkdownV2Meta (c : Char) : Bool := "\\_*[]()~`>#+-=|\x7b\x7d.!".toList.contains c

/-- `text.replace(escaped, (match) => "\\" + match)` -/
def escapeWith (escaped : Char → Bool) (text : List Char) : List Char :=
  text.flatMap fun c => if escaped c then ['\\', c] else [c]

def escapeTelegramMarkdownV2 (text : List Char) : List Char := escapeWith telegramMarkdownV2Meta text

def escapeTelegramMarkdownV2LinkUrl (url : List Char) : List Char := escapeWith [')', '\\'].contains url

/-- The character `.` of a pattern. -/
def isDot (c : Char) : Bool := !(['\n', '\r', '\u2028', '\u2029'].contains c)

def headingPattern : List (Piece Char) :=
  [.start, .many (· == '#') 1 (some 6), .many isTrimmed 1 none, .many isDot 1 none, .finish]

def codePattern : List (Piece Char) := [.lit '\x60', .noneOf ['\x60'], .lit '\x60']

def linkPattern : List (Piece Char) :=
  [.lit '[', .noneOf [']'], .lit ']', .lit '(', .noneOf [')'], .lit ')']

def boldPattern : List (Piece Char) := [.lit '*', .lit '*', .noneOf ['*'], .lit '*', .lit '*']

def italicPattern : List (Piece Char) :=
  [.notBehind (· == '*'), .lit '*', .noneOf ['*', '\n'], .lit '*', .notAhead (· == '*')]

/-! What each marker is turned into. -/

def formatHeading (text : List Char) : List Char := '*' :: escapeTelegramMarkdownV2 text ++ ['*']

def formatCode (text : List Char) : List Char :=
  '\x60' :: escapeWith ['\x60', '\\'].contains text ++ ['\x60']

def formatLink (text url : List Char) : List Char :=
  '[' :: escapeTelegramMarkdownV2 text ++ [']', '('] ++ escapeTelegramMarkdownV2LinkUrl url ++ [')']

def formatBold (text : List Char) : List Char := '*' :: escapeTelegramMarkdownV2 text ++ ['*']

def formatItalic (text : List Char) : List Char := '_' :: escapeTelegramMarkdownV2 text ++ ['_']

structure InlineToken where
  index : Nat
  raw : List Char
  formatted : List Char

/-- A capture group is among what the pieces of the pattern take. -/
def token (text : List Char) (pattern : List (Piece Char)) (format : List (List Char) → List Char) :
    Option InlineToken :=
  (exec pattern none text).map fun found => ⟨found.1.length, found.2.flatten, format found.2⟩

def inlineTokens (text : List Char) : List InlineToken :=
  [token text codePattern fun groups => formatCode (groups.getD 1 []),
    token text linkPattern fun groups => formatLink (groups.getD 1 []) (groups.getD 4 []),
    token text boldPattern fun groups => formatBold (groups.getD 2 []),
    token text italicPattern fun groups => formatItalic (groups.getD 2 [])].filterMap id

def nextInlineToken (text : List Char) : Option InlineToken :=
  ((inlineTokens text).mergeSort fun left right => left.index ≤ right.index).head?

/-! ## What is recognised

A segment of the input is plain text or text with its markers. -/

inductive Segment where
  | plain (text : List Char)
  | heading (marker text : List Char)
  | code (text : List Char)
  | link (text url : List Char)
  | bold (text : List Char)
  | italic (text : List Char)

namespace Segment

/-- The segment as it stands in the input. -/
def raw : Segment → List Char
  | plain text => text
  | heading marker text => marker ++ text
  | code text => '\x60' :: text ++ ['\x60']
  | link text url => '[' :: text ++ [']', '('] ++ url ++ [')']
  | bold text => ['*', '*'] ++ text ++ ['*', '*']
  | italic text => '*' :: text ++ ['*']

def formatted : Segment → List Char
  | plain text => escapeTelegramMarkdownV2 text
  | heading _ text => formatHeading text
  | code text => formatCode text
  | link text url => formatLink text url
  | bold text => formatBold text
  | italic text => formatItalic text

/-- The segment without its markers. -/
def text : Segment → List Char
  | plain text => text
  | heading _ text => text
  | code text => text
  | link text _ => text
  | bold text => text
  | italic text => text

def spans : Segment → List Span
  | plain text => text.map .ordinary
  | heading _ text => [.styled .bold text]
  | code text => [.code text]
  | link text url => [.link text url]
  | bold text => [.styled .bold text]
  | italic text => [.styled .italic text]

/-- What the markers enclose. -/
def Marked : Segment → Prop
  | plain _ => True
  | heading marker text =>
      (∃ hashes spaces, marker = hashes ++ spaces ∧ (∀ c ∈ hashes, c = '#') ∧ 1 ≤ hashes.length ∧
        hashes.length ≤ 6 ∧ (∀ c ∈ spaces, isTrimmed c = true) ∧ spaces ≠ []) ∧ text ≠ []
  | code text => text ≠ [] ∧ '\x60' ∉ text
  | link text url => text ≠ [] ∧ ']' ∉ text ∧ url ≠ [] ∧ ')' ∉ url
  | bold text => text ≠ [] ∧ '*' ∉ text
  | italic text => text ≠ [] ∧ '*' ∉ text

/-- What the patterns inside of a line find. -/
def Inline : Segment → Prop
  | plain _ => False
  | heading _ _ => False
  | _ => True

/-- An italic segment is not followed by a further asterisk. -/
def Ends (segment : Segment) (rest : List Char) : Prop :=
  match segment with
  | italic _ => rest.head? ≠ some '*'
  | _ => True

@[simp] theorem formatted_plain (text : List Char) :
    (plain text).formatted = escapeTelegramMarkdownV2 text := rfl

@[simp] theorem spans_plain (text : List Char) : (plain text).spans = text.map .ordinary := rfl

theorem raw_ne_nil {segment : Segment} (h : segment.Inline) : segment.raw ≠ [] := by
  cases segment <;> simp_all [Inline, raw]

theorem flatMap_shown_spans (segment : Segment) : segment.spans.flatMap Span.shown = segment.text := by
  cases segment with
  | plain text => simp [spans, Segment.text, List.flatMap_map, Span.shown]
  | _ => simp [spans, Segment.text, Span.shown]

end Segment

/-- The segment that a pattern finds, and how many characters are before it. -/
def marked (text : List Char) (pattern : List (Piece Char)) (read : List (List Char) → Segment) :
    Option (Nat × Segment) :=
  (exec pattern none text).map fun found => (found.1.length, read found.2)

def readCodeGroups (groups : List (List Char)) : Segment := .code (groups.getD 1 [])

def readLinkGroups (groups : List (List Char)) : Segment := .link (groups.getD 1 []) (groups.getD 4 [])

def readBoldGroups (groups : List (List Char)) : Segment := .bold (groups.getD 2 [])

def readItalicGroups (groups : List (List Char)) : Segment := .italic (groups.getD 2 [])

def markedSegments (text : List Char) : List (Nat × Segment) :=
  [marked text codePattern readCodeGroups, marked text linkPattern readLinkGroups,
    marked text boldPattern readBoldGroups, marked text italicPattern readItalicGroups].filterMap id

/-- The leftmost of the marked segments. -/
def nextMarked (text : List Char) : Option (Nat × Segment) :=
  ((markedSegments text).mergeSort fun left right => left.1 ≤ right.1).head?

/-- What a pattern takes is the segment read from it. -/
def Reads (pattern : List (Piece Char)) (read : List (List Char) → Segment) : Prop :=
  ∀ behind text groups rest, Fits pattern behind text groups rest →
    (read groups).raw = groups.flatten ∧ (read groups).Inline ∧ (read groups).Marked ∧ (read groups).Ends rest

theorem fits_lit {c : Char} {pieces behind text groups rest} (h : Fits (.lit c :: pieces) behind text groups rest) :
    ∃ text' groups', text = c :: text' ∧ groups = [c] :: groups' ∧ Fits pieces (some c) text' groups' rest := by
  cases h with
  | one hp hrest =>
    obtain rfl := eq_of_beq hp
    exact ⟨_, _, rfl, rfl, hrest⟩

theorem fits_noneOf {cs : List Char} {pieces behind text groups rest}
    (h : Fits (.noneOf cs :: pieces) behind text groups rest) :
    ∃ group behind' text' groups', groups = group :: groups' ∧ group ≠ [] ∧ (∀ c ∈ cs, c ∉ group) ∧
      Fits pieces behind' text' groups' rest := by
  cases h with
  | many hp hleast _ hrest =>
    refine ⟨_, _, _, _, rfl, ?_, ?_, hrest⟩
    · intro hnil
      simp [hnil] at hleast
    · intro c hc hmem
      simpa [hc] using hp c hmem

theorem readCodeGroups_reads : Reads codePattern readCodeGroups := by
  intro behind text groups rest h
  obtain ⟨_, _, -, rfl, h1⟩ := fits_lit h
  obtain ⟨group, _, _, _, rfl, hne, hnone, h2⟩ := fits_noneOf h1
  obtain ⟨_, _, -, rfl, h3⟩ := fits_lit h2
  cases h3
  exact ⟨by simp [readCodeGroups, Segment.raw], trivial, ⟨hne, hnone _ (by simp)⟩, trivial⟩

theorem readLinkGroups_reads : Reads linkPattern readLinkGroups := by
  intro behind text groups rest h
  obtain ⟨_, _, -, rfl, h1⟩ := fits_lit h
  obtain ⟨label, _, _, _, rfl, hlabel, hnone, h2⟩ := fits_noneOf h1
  obtain ⟨_, _, -, rfl, h3⟩ := fits_lit h2
  obtain ⟨_, _, -, rfl, h4⟩ := fits_lit h3
  obtain ⟨url, _, _, _, rfl, hurl, hnone', h5⟩ := fits_noneOf h4
  obtain ⟨_, _, -, rfl, h6⟩ := fits_lit h5
  cases h6
  refine ⟨by simp [readLinkGroups, Segment.raw], trivial, ?_, trivial⟩
  exact ⟨hlabel, hnone _ (by simp), hurl, hnone' _ (by simp)⟩

theorem readBoldGroups_reads : Reads boldPattern readBoldGroups := by
  intro behind text groups rest h
  obtain ⟨_, _, -, rfl, h1⟩ := fits_lit h
  obtain ⟨_, _, -, rfl, h2⟩ := fits_lit h1
  obtain ⟨group, _, _, _, rfl, hne, hnone, h3⟩ := fits_noneOf h2
  obtain ⟨_, _, -, rfl, h4⟩ := fits_lit h3
  obtain ⟨_, _, -, rfl, h5⟩ := fits_lit h4
  cases h5
  exact ⟨by simp [readBoldGroups, Segment.raw], trivial, ⟨hne, hnone _ (by simp)⟩, trivial⟩

theorem readItalicGroups_reads : Reads italicPattern readItalicGroups := by
  intro behind text groups rest h
  cases h with
  | here _ h =>
    obtain ⟨_, _, -, rfl, h1⟩ := fits_lit h
    obtain ⟨group, _, _, _, rfl, hne, hnone, h2⟩ := fits_noneOf h1
    obtain ⟨_, _, -, rfl, h3⟩ := fits_lit h2
    cases h3 with
    | here hahead h4 =>
      cases h4
      refine ⟨by simp [readItalicGroups, Segment.raw], trivial, ⟨hne, hnone _ (by simp)⟩, ?_⟩
      intro hhead
      simp [hhead] at hahead

/-- Where a segment stands in a text. -/
def Stands (text : List Char) (found : Nat × Segment) : Prop :=
  ∃ before rest, text = before ++ found.2.raw ++ rest ∧ before.length = found.1 ∧ found.2.Inline ∧
    found.2.Marked ∧ found.2.Ends rest

variable {text : List Char} {found : Nat × Segment}

theorem stands_of_marked {pattern read} (hread : Reads pattern read) (h : marked text pattern read = some found) :
    Stands text found := by
  obtain ⟨⟨before, groups⟩, hexec, heq⟩ := Option.map_eq_some_iff.1 h
  cases heq
  obtain ⟨rest, htext, hfits⟩ := exec_fits hexec
  obtain ⟨hraw, hmarked⟩ := hread _ _ _ _ hfits
  exact ⟨before, rest, by simp [htext, hraw], rfl, hmarked⟩

theorem stands_of_nextMarked (h : nextMarked text = some found) :
    Stands text found := by
  have hmem : found ∈ markedSegments text := List.mem_mergeSort.1 (List.mem_of_head? h)
  obtain ⟨candidate, hcandidate, hsome⟩ := List.mem_filterMap.1 hmem
  simp only [id] at hsome
  subst hsome
  simp only [List.mem_cons, List.not_mem_nil, or_false] at hcandidate
  rcases hcandidate with h | h | h | h
  · exact stands_of_marked readCodeGroups_reads h.symm
  · exact stands_of_marked readLinkGroups_reads h.symm
  · exact stands_of_marked readBoldGroups_reads h.symm
  · exact stands_of_marked readItalicGroups_reads h.symm

/-- What the loop over a line takes from a segment. -/
def asToken (found : Nat × Segment) : InlineToken := ⟨found.1, found.2.raw, found.2.formatted⟩

theorem token_eq_marked {pattern read format} (hread : Reads pattern read)
    (hformat : ∀ groups, format groups = (read groups).formatted) :
    token text pattern format = (marked text pattern read).map asToken := by
  unfold token marked
  cases hexec : exec pattern none text with
  | none => rfl
  | some found =>
    obtain ⟨before, groups⟩ := found
    obtain ⟨rest, -, hfits⟩ := exec_fits hexec
    have hraw := (hread _ _ _ _ hfits).1
    simp [asToken, hraw, hformat]

theorem inlineTokens_eq (text : List Char) : inlineTokens text = (markedSegments text).map asToken := by
  have hcode : (token text codePattern fun groups => formatCode (groups.getD 1 [])) =
      (marked text codePattern readCodeGroups).map asToken :=
    token_eq_marked readCodeGroups_reads fun _ => rfl
  have hlink : (token text linkPattern fun groups => formatLink (groups.getD 1 []) (groups.getD 4 [])) =
      (marked text linkPattern readLinkGroups).map asToken :=
    token_eq_marked readLinkGroups_reads fun _ => rfl
  have hbold : (token text boldPattern fun groups => formatBold (groups.getD 2 [])) =
      (marked text boldPattern readBoldGroups).map asToken :=
    token_eq_marked readBoldGroups_reads fun _ => rfl
  have hitalic : (token text italicPattern fun groups => formatItalic (groups.getD 2 [])) =
      (marked text italicPattern readItalicGroups).map asToken :=
    token_eq_marked readItalicGroups_reads fun _ => rfl
  rw [inlineTokens, hcode, hlink, hbold, hitalic, markedSegments, List.map_filterMap]
  rfl

theorem nextInlineToken_eq (text : List Char) : nextInlineToken text = (nextMarked text).map asToken := by
  unfold nextInlineToken nextMarked
  rw [inlineTokens_eq, ← List.head?_map, List.map_mergeSort (s := fun left right => left.index ≤ right.index)]
  intro left _ right _
  rfl

theorem Stands.length_le (h : Stands text found) :
    found.1 + found.2.raw.length ≤ text.length := by
  obtain ⟨before, rest, htext, hindex, -⟩ := h
  simp only [htext, List.length_append, ← hindex]
  omega

theorem Stands.drop_length (h : Stands text found) :
    (text.drop (found.1 + found.2.raw.length)).length < text.length := by
  have hle := h.length_le
  obtain ⟨_, _, -, -, hinline, -⟩ := h
  have hpos : 0 < found.2.raw.length := List.length_pos_iff.2 (Segment.raw_ne_nil hinline)
  rw [List.length_drop]
  omega

/-- The loop of `formatLine`. -/
def formatRemaining (remaining : List Char) : List Char :=
  if remaining = [] then []
  else
    match hnext : nextInlineToken remaining with
    | none => escapeTelegramMarkdownV2 remaining
    | some next =>
        escapeTelegramMarkdownV2 (remaining.take next.index) ++ next.formatted ++
          formatRemaining (remaining.drop (next.index + next.raw.length))
termination_by remaining.length
decreasing_by
  obtain ⟨found, hfound, rfl⟩ := Option.map_eq_some_iff.1 (nextInlineToken_eq remaining ▸ hnext)
  exact (stands_of_nextMarked hfound).drop_length

def formatLine (line : List Char) : List Char :=
  match exec headingPattern none line with
  | some heading => formatHeading (heading.2.getD 3 [])
  | none => formatRemaining line

def toTelegramMarkdownV2 (markdown : String) : String :=
  String.ofList (['\n'].intercalate ((markdown.toList.splitOn '\n').map formatLine))

def remainingSegments (remaining : List Char) : List Segment :=
  match hnext : nextMarked remaining with
  | none => [.plain remaining]
  | some found =>
      .plain (remaining.take found.1) :: found.2 ::
        remainingSegments (remaining.drop (found.1 + found.2.raw.length))
termination_by remaining.length
decreasing_by exact (stands_of_nextMarked hnext).drop_length

def lineSegments (line : List Char) : List Segment :=
  match exec headingPattern none line with
  | some heading => [.heading (heading.2.getD 1 [] ++ heading.2.getD 2 []) (heading.2.getD 3 [])]
  | none => remainingSegments line

/-- The input, with the markers that are recognised in it. -/
def recognised (markdown : String) : List Segment :=
  [Segment.plain ['\n']].intercalate ((markdown.toList.splitOn '\n').map lineSegments)

end PlusOne
