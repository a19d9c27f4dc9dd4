import PlusOne.Deliveries.TelegramMarkdown

/-! # A Telegram reply is well-formed

Every reply can be read, its entities are the recognised segments and what is shown is the input
without their markers. -/

namespace PlusOne

open Patterns MarkdownV2

variable {c : Char}

theorem isEscapable_of_isReserved (h : isReserved c = true) : isEscapable c = true := by
  have hall : "\\_*[]()~`>#+-=|\x7b\x7d.!".toList.all isEscapable = true := by decide
  exact List.all_eq_true.1 hall c (List.elem_iff.1 h)

theorem readText_escaped (rest : List Char) (h : isEscapable c = true) :
    readText ('\\' :: c :: rest) = (c :: (readText rest).1, (readText rest).2) := by
  simp [readText, h]

theorem readText_cons (rest : List Char) (h : isReserved c = false) :
    readText (c :: rest) = (c :: (readText rest).1, (readText rest).2) := by
  have hne : c ≠ '\\' := by
    intro heq
    simp [heq, isReserved] at h
  rw [readText]
  · simp [h]
  · intro d tail heq
    exact absurd heq hne

theorem readText_stop (rest : List Char) (h : isReserved c = true) (hne : c ≠ '\\') :
    readText (c :: rest) = ([], c :: rest) := by
  rw [readText]
  · simp [h]
  · intro d tail heq
    exact absurd heq hne

theorem escape_cons (c : Char) (text : List Char) :
    escapeTelegramMarkdownV2 (c :: text) =
      (if isReserved c then ['\\', c] else [c]) ++ escapeTelegramMarkdownV2 text := by
  simp [escapeTelegramMarkdownV2, escapeWith, isReserved, telegramMarkdownV2Meta]

theorem readText_escape (text rest : List Char) :
    readText (escapeTelegramMarkdownV2 text ++ rest) = (text ++ (readText rest).1, (readText rest).2) := by
  induction text with
  | nil => rfl
  | cons c text ih =>
    rw [escape_cons]
    cases hc : isReserved c with
    | true =>
      have hread := readText_escaped (escapeTelegramMarkdownV2 text ++ rest) (isEscapable_of_isReserved hc)
      simpa [ih] using hread
    | false =>
      have hread := readText_cons (escapeTelegramMarkdownV2 text ++ rest) hc
      simpa [ih] using hread

variable {text rest : List Char}

theorem readText_escape_stop (h : isReserved c = true) (hne : c ≠ '\\') :
    readText (escapeTelegramMarkdownV2 text ++ c :: rest) = (text, c :: rest) := by
  rw [readText_escape, readText_stop rest h hne, List.append_nil]

theorem parse_escape (text rest : List Char) :
    parse (escapeTelegramMarkdownV2 text ++ rest) = (parse rest).map (text.map .ordinary ++ ·) := by
  induction text with
  | nil =>
    change parse rest = (parse rest).map fun spans => spans
    simp
  | cons c text ih =>
    have hread : readText (escapeTelegramMarkdownV2 (c :: text) ++ rest) =
        (c :: (readText (escapeTelegramMarkdownV2 text ++ rest)).1,
          (readText (escapeTelegramMarkdownV2 text ++ rest)).2) := by
      simp [readText_escape]
    rw [parse_ordinary hread, ih]
    cases hrest : parse rest with
    | none => rfl
    | some spans => simp

/-- What is escaped up to its closing character is read back. -/
theorem readUntil_escapeWith (close : Char) (text rest : List Char) (hne : close ≠ '\\') :
    readUntil close (escapeWith [close, '\\'].contains text ++ close :: rest) = some (text, rest) := by
  induction text with
  | nil =>
    change readUntil close (close :: rest) = some ([], rest)
    rw [readUntil]
    · simp
    · intro d tail heq
      exact absurd heq hne
  | cons c text ih =>
    have hcons : escapeWith [close, '\\'].contains (c :: text) =
        (if c = close ∨ c = '\\' then ['\\', c] else [c]) ++ escapeWith [close, '\\'].contains text := by
      simp [escapeWith]
    rw [hcons]
    by_cases hc : c = close ∨ c = '\\'
    · simp [hc, readUntil, ih]
    · simp only [hc, if_false, List.cons_append, List.nil_append]
      rw [readUntil]
      · have hclose : c ≠ close := fun h => hc (.inl h)
        have hback : c ≠ '\\' := fun h => hc (.inr h)
        simp [hclose, hback, ih]
      · intro d tail heq
        exact absurd (.inr heq) hc

theorem head_escape (h : (escapeTelegramMarkdownV2 text ++ rest).head? = some '_') :
    text = [] := by
  cases text with
  | nil => rfl
  | cons c text =>
    rw [escape_cons] at h
    cases hc : isReserved c with
    | true => simp [hc] at h
    | false =>
      simp only [hc, Bool.false_eq_true, if_false, List.cons_append, List.nil_append, List.head?_cons,
        Option.some.injEq] at h
      subst h
      exact absurd hc (by decide)

theorem readMark_italic {rest : List Char} (h : rest.head? ≠ some '_') :
    readMark ('_' :: rest) = some (.italic, rest) := by
  cases rest with
  | nil => rfl
  | cons c rest =>
    rw [readMark]
    intro tail heq
    cases heq
    simp at h

theorem parse_bold (h : text ≠ []) :
    parse (formatBold text ++ rest) = (parse rest).map (Span.styled .bold text :: ·) := by
  have hread : readText (escapeTelegramMarkdownV2 text ++ '*' :: rest) = (text, '*' :: rest) :=
    readText_escape_stop (by decide) (by decide)
  have hstyled : readStyled ('*' :: (escapeTelegramMarkdownV2 text ++ '*' :: rest)) =
      some (.styled .bold text, rest) := by
    simp [readStyled, readMark, hread, h]
  have hentity : readEntity ('*' :: (escapeTelegramMarkdownV2 text ++ '*' :: rest)) =
      some (.styled .bold text, rest) := by
    simp [readEntity, hstyled]
  have heq : formatBold text ++ rest = '*' :: (escapeTelegramMarkdownV2 text ++ '*' :: rest) := by
    simp [formatBold]
  rw [heq]
  exact parse_entity (readText_stop _ (by decide) (by decide)) hentity

theorem parse_italic (h : text ≠ []) (hrest : rest.head? ≠ some '_') :
    parse (formatItalic text ++ rest) = (parse rest).map (Span.styled .italic text :: ·) := by
  have hread : readText (escapeTelegramMarkdownV2 text ++ '_' :: rest) = (text, '_' :: rest) :=
    readText_escape_stop (by decide) (by decide)
  have hopen : readMark ('_' :: (escapeTelegramMarkdownV2 text ++ '_' :: rest)) =
      some (.italic, escapeTelegramMarkdownV2 text ++ '_' :: rest) :=
    readMark_italic fun hhead => h (head_escape hhead)
  have hstyled : readStyled ('_' :: (escapeTelegramMarkdownV2 text ++ '_' :: rest)) =
      some (.styled .italic text, rest) := by
    simp [readStyled, hopen, hread, readMark_italic hrest, h]
  have hentity : readEntity ('_' :: (escapeTelegramMarkdownV2 text ++ '_' :: rest)) =
      some (.styled .italic text, rest) := by
    simp [readEntity, hstyled]
  have heq : formatItalic text ++ rest = '_' :: (escapeTelegramMarkdownV2 text ++ '_' :: rest) := by
    simp [formatItalic]
  rw [heq]
  exact parse_entity (readText_stop _ (by decide) (by decide)) hentity

theorem parse_code (h : text ≠ []) :
    parse (formatCode text ++ rest) = (parse rest).map (Span.code text :: ·) := by
  have hread := readUntil_escapeWith '\x60' text rest (by decide)
  have hentity : readEntity ('\x60' :: (escapeWith ['\x60', '\\'].contains text ++ '\x60' :: rest)) =
      some (.code text, rest) := by
    simp [readEntity, readStyled, readMark, readCode, hread, h]
  have heq : formatCode text ++ rest =
      '\x60' :: (escapeWith ['\x60', '\\'].contains text ++ '\x60' :: rest) := by
    simp [formatCode]
  rw [heq]
  exact parse_entity (readText_stop _ (by decide) (by decide)) hentity

theorem parse_link {text url rest : List Char} (h : text ≠ []) (hurl : url ≠ []) :
    parse (formatLink text url ++ rest) = (parse rest).map (Span.link text url :: ·) := by
  have htext : readText (escapeTelegramMarkdownV2 text ++ ']' :: '(' ::
      (escapeTelegramMarkdownV2LinkUrl url ++ ')' :: rest)) =
      (text, ']' :: '(' :: (escapeTelegramMarkdownV2LinkUrl url ++ ')' :: rest)) :=
    readText_escape_stop (by decide) (by decide)
  have htarget : readUntil ')' (escapeTelegramMarkdownV2LinkUrl url ++ ')' :: rest) = some (url, rest) :=
    readUntil_escapeWith ')' url rest (by decide)
  have hentity : readEntity ('[' :: (escapeTelegramMarkdownV2 text ++ ']' :: '(' ::
      (escapeTelegramMarkdownV2LinkUrl url ++ ')' :: rest))) = some (.link text url, rest) := by
    simp [readEntity, readStyled, readMark, readCode, readLink, htext, htarget, h, hurl]
  have heq : formatLink text url ++ rest = '[' :: (escapeTelegramMarkdownV2 text ++ ']' :: '(' ::
      (escapeTelegramMarkdownV2LinkUrl url ++ ')' :: rest)) := by
    simp [formatLink]
  rw [heq]
  exact parse_entity (readText_stop _ (by decide) (by decide)) hentity

variable {segment : Segment}

theorem parse_segment (rest : List Char) (h : segment.Marked)
    (hrest : ∀ text, segment = .italic text → rest.head? ≠ some '_') :
    parse (segment.formatted ++ rest) = (parse rest).map (segment.spans ++ ·) := by
  cases segment with
  | plain text => exact parse_escape text rest
  | heading marker text => exact parse_bold h.2
  | code text => exact parse_code h.1
  | link text url => exact parse_link h.1 h.2.2.1
  | bold text => exact parse_bold h.1
  | italic text => exact parse_italic h.1 (hrest text rfl)

/-! ## A line -/

variable {remaining : List Char}

theorem remainingSegments_none (h : nextMarked remaining = none) :
    remainingSegments remaining = [.plain remaining] := by
  rw [remainingSegments]
  split
  · rfl
  · simp_all

variable {found : Nat × Segment}

theorem remainingSegments_some (h : nextMarked remaining = some found) :
    remainingSegments remaining = .plain (remaining.take found.1) :: found.2 ::
      remainingSegments (remaining.drop (found.1 + found.2.raw.length)) := by
  rw [remainingSegments]
  split
  · simp_all
  · rename_i found' h'
    obtain rfl : found = found' := Option.some.inj (h.symm.trans h')
    rfl

theorem Stands.take_drop {text : List Char} (h : Stands text found) :
    text = text.take found.1 ++ found.2.raw ++ text.drop (found.1 + found.2.raw.length) := by
  obtain ⟨before, rest, htext, hindex, -⟩ := h
  rw [htext, ← hindex]
  simp [List.drop_append]

theorem Stands.marked {text : List Char} (h : Stands text found) : found.2.Marked := by
  obtain ⟨_, _, -, -, -, hmarked, -⟩ := h
  exact hmarked

theorem Stands.ends {text : List Char} (h : Stands text found) :
    found.2.Ends (text.drop (found.1 + found.2.raw.length)) := by
  obtain ⟨before, rest, htext, hindex, -, -, hends⟩ := h
  rw [htext, ← hindex, ← List.length_append, List.drop_left]
  exact hends

theorem formatRemaining_eq (remaining : List Char) :
    formatRemaining remaining = (remainingSegments remaining).flatMap Segment.formatted := by
  induction remaining using remainingSegments.induct with
  | case1 remaining hnone =>
    have htoken : nextInlineToken remaining = none := by rw [nextInlineToken_eq, hnone, Option.map_none]
    rw [formatRemaining, remainingSegments_none hnone]
    split
    · rename_i hnil
      subst hnil
      rfl
    · split
      · simp [Segment.formatted]
      · simp_all
  | case2 remaining found hfound ih =>
    have htoken : nextInlineToken remaining = some (asToken found) := by
      rw [nextInlineToken_eq, hfound, Option.map_some]
    have hne : remaining ≠ [] := by
      intro hnil
      have hlt := (stands_of_nextMarked hfound).drop_length
      simp [hnil] at hlt
    rw [formatRemaining, remainingSegments_some hfound, if_neg hne]
    split
    · simp_all
    · rename_i next hnext
      obtain rfl : asToken found = next := Option.some.inj (htoken.symm.trans hnext)
      simp [asToken, ih, Segment.formatted]

theorem flatMap_raw_remainingSegments (remaining : List Char) :
    (remainingSegments remaining).flatMap Segment.raw = remaining := by
  induction remaining using remainingSegments.induct with
  | case1 remaining hnone => simp [remainingSegments_none hnone, Segment.raw]
  | case2 remaining found hfound ih =>
    have hdivide := (stands_of_nextMarked hfound).take_drop
    rw [remainingSegments_some hfound, List.flatMap_cons, List.flatMap_cons, ih]
    conv_rhs => rw [hdivide]
    simp [Segment.raw]

theorem marked_of_mem_remainingSegments (h : segment ∈ remainingSegments remaining) : segment.Marked := by
  induction remaining using remainingSegments.induct with
  | case1 remaining hnone =>
    rw [remainingSegments_none hnone, List.mem_singleton] at h
    subst h
    trivial
  | case2 remaining found hfound ih =>
    rw [remainingSegments_some hfound, List.mem_cons, List.mem_cons] at h
    rcases h with rfl | rfl | h
    · trivial
    · exact (stands_of_nextMarked hfound).marked
    · exact ih h

/-- A line begins with an underscore only where an italic segment begins. -/
theorem head_remainingSegments {remaining text : List Char} (hremaining : remaining.head? ≠ some '*')
    (htext : text.head? ≠ some '_') :
    ((remainingSegments remaining).flatMap Segment.formatted ++ text).head? ≠ some '_' := by
  intro hhead
  cases hnext : nextMarked remaining with
  | none =>
    rw [remainingSegments_none hnext] at hhead
    simp only [List.flatMap_cons, List.flatMap_nil, List.append_nil, Segment.formatted_plain] at hhead
    have hnil := head_escape hhead
    subst hnil
    exact htext hhead
  | some found =>
    obtain ⟨before, rest, hdivide, hindex, hinline, -⟩ := stands_of_nextMarked hnext
    rw [remainingSegments_some hnext] at hhead
    simp only [List.flatMap_cons, List.append_assoc, Segment.formatted_plain] at hhead
    have hnil := head_escape hhead
    rw [hdivide, ← hindex, List.append_assoc, List.take_left] at hnil
    subst hnil
    obtain ⟨index, segment⟩ := found
    obtain rfl : 0 = index := hindex
    cases segment with
    | plain text => exact hinline
    | heading marker text => exact hinline
    | code text => simp [escapeTelegramMarkdownV2, escapeWith, Segment.formatted, formatCode] at hhead
    | link text url => simp [escapeTelegramMarkdownV2, escapeWith, Segment.formatted, formatLink] at hhead
    | bold text => simp [escapeTelegramMarkdownV2, escapeWith, Segment.formatted, formatBold] at hhead
    | italic text => simp [hdivide, Segment.raw] at hremaining

theorem parse_remainingSegments {remaining text : List Char} (htext : text.head? ≠ some '_') :
    parse ((remainingSegments remaining).flatMap Segment.formatted ++ text) =
      (parse text).map ((remainingSegments remaining).flatMap Segment.spans ++ ·) := by
  induction remaining using remainingSegments.induct with
  | case1 remaining hnone =>
    rw [remainingSegments_none hnone]
    simpa [Segment.formatted, Segment.spans] using parse_escape remaining text
  | case2 remaining found hfound ih =>
    have hstands := stands_of_nextMarked hfound
    have hfollow : ∀ inner, found.2 = .italic inner →
        ((remainingSegments (remaining.drop (found.1 + found.2.raw.length))).flatMap Segment.formatted ++
          text).head? ≠ some '_' := by
      intro inner hitalic
      have hends := hstands.ends
      rw [hitalic] at hends
      rw [hitalic]
      exact head_remainingSegments hends htext
    rw [remainingSegments_some hfound]
    simp only [List.flatMap_cons, List.append_assoc, Segment.formatted_plain]
    rw [parse_escape, parse_segment _ hstands.marked hfollow, ih]
    simp [Function.comp_def]

theorem fits_heading {behind : Option Char} {groups : List (List Char)}
    (h : Fits headingPattern behind text groups rest) :
    behind = none ∧ rest = [] ∧ ∃ hashes spaces inner, groups = [[], hashes, spaces, inner, []] ∧
      (Segment.heading (hashes ++ spaces) inner).Marked := by
  cases h with
  | here hbehind h1 =>
    cases h1 with
    | many hhash hhash1 hhash6 h2 =>
      cases h2 with
      | many hspace hspace1 _ h3 =>
        cases h3 with
        | many _ hinner1 _ h4 =>
          cases h4 with
          | here hahead h5 =>
            cases h5
            have hspaces := List.length_pos_iff.1 hspace1
            have hinner := List.length_pos_iff.1 hinner1
            have hhashes := fun c hc => eq_of_beq (hhash c hc)
            refine ⟨?_, ?_, _, _, _, rfl, ⟨_, _, rfl, hhashes, hhash1, hhash6 6 rfl, hspace, hspaces⟩, hinner⟩
            · cases behind with
              | none => rfl
              | some c => simp at hbehind
            · cases rest with
              | nil => rfl
              | cons c rest => simp at hahead

/-- A heading is a whole line. -/
theorem heading_of_exec {line before : List Char} {groups : List (List Char)}
    (h : exec headingPattern none line = some (before, groups)) :
    ∃ hashes spaces inner, groups = [[], hashes, spaces, inner, []] ∧
      (Segment.heading (hashes ++ spaces) inner).Marked ∧
      (Segment.heading (hashes ++ spaces) inner).raw = line := by
  obtain ⟨rest, hline, hfits⟩ := exec_fits h
  obtain ⟨hbehind, rfl, hashes, spaces, inner, rfl, hmarked⟩ := fits_heading hfits
  have hbefore : before = [] := by
    cases before with
    | nil => rfl
    | cons c before => simp [List.getLast?_cons] at hbehind
  subst hbefore
  exact ⟨hashes, spaces, inner, rfl, hmarked, by simp [hline, Segment.raw]⟩

theorem formatLine_eq (line : List Char) : formatLine line = (lineSegments line).flatMap Segment.formatted := by
  unfold formatLine lineSegments
  cases exec headingPattern none line with
  | none => exact formatRemaining_eq line
  | some found => simp [Segment.formatted]

theorem flatMap_raw_lineSegments (line : List Char) : (lineSegments line).flatMap Segment.raw = line := by
  unfold lineSegments
  cases hexec : exec headingPattern none line with
  | none => exact flatMap_raw_remainingSegments line
  | some found =>
    obtain ⟨before, groups⟩ := found
    obtain ⟨hashes, spaces, inner, hgroups, -, hraw⟩ := heading_of_exec hexec
    simpa [hgroups] using hraw

theorem marked_of_mem_lineSegments {line : List Char} (h : segment ∈ lineSegments line) :
    segment.Marked := by
  unfold lineSegments at h
  cases hexec : exec headingPattern none line with
  | none =>
    rw [hexec] at h
    exact marked_of_mem_remainingSegments h
  | some found =>
    rw [hexec, List.mem_singleton] at h
    obtain ⟨before, groups⟩ := found
    obtain ⟨hashes, spaces, inner, hgroups, hmarked, -⟩ := heading_of_exec hexec
    rw [h]
    simpa [hgroups] using hmarked

theorem parse_lineSegments (line : List Char) {text : List Char} (htext : text.head? ≠ some '_') :
    parse ((lineSegments line).flatMap Segment.formatted ++ text) =
      (parse text).map ((lineSegments line).flatMap Segment.spans ++ ·) := by
  unfold lineSegments
  cases hexec : exec headingPattern none line with
  | none => exact parse_remainingSegments htext
  | some found =>
    obtain ⟨before, groups⟩ := found
    obtain ⟨hashes, spaces, inner, hgroups, hmarked, -⟩ := heading_of_exec hexec
    have hread := parse_segment text hmarked fun inner' heq => by cases heq
    simpa [hgroups] using hread

/-! ## The whole text -/

/-- Lines are joined by a line break, which is ordinary text. -/
def joinedSegments (lines : List (List Char)) : List Segment :=
  [Segment.plain ['\n']].intercalate (lines.map lineSegments)

theorem joinedSegments_cons (line next : List Char) (lines : List (List Char)) :
    joinedSegments (line :: next :: lines) =
      lineSegments line ++ .plain ['\n'] :: joinedSegments (next :: lines) := by
  simp [joinedSegments, List.intercalate]

theorem joinedSegments_singleton (line : List Char) : joinedSegments [line] = lineSegments line := by
  simp [joinedSegments, List.intercalate]

theorem flatMap_joinedSegments {f : Segment → List Char} (hbreak : f (.plain ['\n']) = ['\n'])
    (lines : List (List Char)) :
    (joinedSegments lines).flatMap f = ['\n'].intercalate (lines.map fun line => (lineSegments line).flatMap f) := by
  induction lines with
  | nil => rfl
  | cons line lines ih =>
    cases lines with
    | nil => simp [joinedSegments_singleton, List.intercalate]
    | cons next lines =>
      rw [joinedSegments_cons, List.flatMap_append, List.flatMap_cons, ih, hbreak]
      simp [List.intercalate]

theorem marked_of_mem_joinedSegments {lines : List (List Char)} (h : segment ∈ joinedSegments lines) :
    segment.Marked := by
  induction lines with
  | nil => simp [joinedSegments, List.intercalate] at h
  | cons line lines ih =>
    cases lines with
    | nil =>
      rw [joinedSegments_singleton] at h
      exact marked_of_mem_lineSegments h
    | cons next lines =>
      rw [joinedSegments_cons, List.mem_append, List.mem_cons] at h
      rcases h with h | rfl | h
      · exact marked_of_mem_lineSegments h
      · trivial
      · exact ih h

theorem parse_joinedSegments (lines : List (List Char)) :
    parse ((joinedSegments lines).flatMap Segment.formatted) =
      some ((joinedSegments lines).flatMap Segment.spans) := by
  induction lines with
  | nil => exact parse_nil
  | cons line lines ih =>
    cases lines with
    | nil =>
      have hread : parse ((lineSegments line).flatMap Segment.formatted ++ []) = _ :=
        parse_lineSegments line (by simp)
      simpa [joinedSegments_singleton] using hread
    | cons next lines =>
      have hbreak : parse ('\n' :: (joinedSegments (next :: lines)).flatMap Segment.formatted) =
          some (.ordinary '\n' :: (joinedSegments (next :: lines)).flatMap Segment.spans) := by
        rw [parse_ordinary (readText_cons _ (by decide)), ih]
        rfl
      have hescape : escapeTelegramMarkdownV2 ['\n'] = ['\n'] := by decide
      rw [joinedSegments_cons, List.flatMap_append, List.flatMap_cons, Segment.formatted_plain, hescape]
      rw [List.singleton_append, parse_lineSegments line (by simp), hbreak]
      simp

theorem toList_toTelegramMarkdownV2 (markdown : String) :
    (toTelegramMarkdownV2 markdown).toList = (recognised markdown).flatMap Segment.formatted := by
  have hlines : (formatLine : List Char → List Char) = fun line => (lineSegments line).flatMap Segment.formatted :=
    funext formatLine_eq
  rw [toTelegramMarkdownV2, String.toList_ofList, hlines]
  exact (flatMap_joinedSegments (by decide) _).symm

theorem flatMap_raw_recognised (markdown : String) :
    (recognised markdown).flatMap Segment.raw = markdown.toList := by
  have hlines : (fun line => (lineSegments line).flatMap Segment.raw) = id := funext flatMap_raw_lineSegments
  have hjoined := flatMap_joinedSegments (f := Segment.raw) rfl (markdown.toList.splitOn '\n')
  rw [hlines, List.map_id, List.intercalate_splitOn] at hjoined
  exact hjoined

theorem parse_toTelegramMarkdownV2 (markdown : String) :
    parse (toTelegramMarkdownV2 markdown).toList = some ((recognised markdown).flatMap Segment.spans) := by
  rw [toList_toTelegramMarkdownV2]
  exact parse_joinedSegments _

/-- A reply is read as entities and shows the input without the markers that were recognised. -/
theorem toTelegramMarkdownV2_wellFormed (markdown : String) :
    (recognised markdown).flatMap Segment.raw = markdown.toList ∧
      (∀ segment ∈ recognised markdown, segment.Marked) ∧
      parse (toTelegramMarkdownV2 markdown).toList = some ((recognised markdown).flatMap Segment.spans) ∧
      ((recognised markdown).flatMap Segment.spans).flatMap Span.shown =
        (recognised markdown).flatMap Segment.text := by
  have hshown : ((recognised markdown).flatMap Segment.spans).flatMap Span.shown =
      (recognised markdown).flatMap Segment.text := by
    simp [List.flatMap_assoc, Segment.flatMap_shown_spans]
  have hmarked : ∀ segment ∈ recognised markdown, segment.Marked :=
    fun _ hmem => marked_of_mem_joinedSegments hmem
  exact ⟨flatMap_raw_recognised markdown, hmarked, parse_toTelegramMarkdownV2 markdown, hshown⟩

end PlusOne
