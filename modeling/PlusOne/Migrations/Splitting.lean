import PlusOne.Database.Lexis
import PlusOne.Migrations.Runner

/-! # Where the migration runner cuts

The loop of `splitSqlStatements` knows apostrophes and dollar quotes. Its cuts are those of a
reader that takes everything else, comments and quoted identifiers too, as ordinary text. -/

namespace PlusOne

open Patterns

/-- The apostrophes and dollar quotes read so far. -/
inductive Quotes where
  /-- With the name after a dollar sign that may become a dollar quote. -/
  | closed (candidate : Option (List Char))
  | quoted
  | dollarQuoted (name : List Char) (candidate : Option (List Char))
  deriving DecidableEq

namespace Quotes

def opening (c : Char) : Quotes :=
  if c = '$' then closed (some []) else if c = apostrophe then quoted else closed none

def step : Quotes → Char → Quotes
  | closed none, c => opening c
  | closed (some name), c =>
      if c = '$' then dollarQuoted name none
      else if isTagChar c then closed (some (name ++ [c]))
      else opening c
  | quoted, c => if c = apostrophe then closed none else quoted
  | dollarQuoted name candidate, c =>
      if c = '$' then if candidate = some name then closed none else dollarQuoted name (some [])
      else dollarQuoted name (candidate.map (· ++ [c]))

def isClosed : Quotes → Bool
  | closed _ => true
  | quoted | dollarQuoted _ _ => false

end Quotes

/-- Every apostrophe and dollar quote of the text is closed, whatever else stands in it. -/
def quotesClosed (text : List Char) : Bool := (text.foldl Quotes.step (.closed none)).isClosed

/-- What the loop puts between two cuts. -/
def statementTexts (sql : String) : List (List Char) := scanStatements sql.toList [] 0 .plain

/-- The text goes on with the tag characters and the dollar sign that complete a tag. -/
def Completes (rest : List Char) : Prop := ∃ more after, (∀ c ∈ more, isTagChar c = true) ∧ rest = more ++ '$' :: after

/-- The loop, with what is left of the text, agrees with the reader. -/
inductive Agrees : Quotes → List Char → Nat → Quoting → Prop
  | plain {rest} : Agrees (.closed none) rest 0 .plain
  | candidate {name rest} : ¬Completes rest → Agrees (.closed (some name)) rest 0 .plain
  | opening {name more after} : (∀ c ∈ name ++ more, isTagChar c = true) →
      Agrees (.closed (some name)) (more ++ '$' :: after) (more.length + 1)
        (.dollarQuoted ('$' :: (name ++ more) ++ ['$']))
  | quoted {rest} : Agrees .quoted rest 0 .singleQuoted
  | doubled {rest} : Agrees (.closed none) (apostrophe :: rest) 1 .singleQuoted
  | body {name rest} : '$' ∉ name → Agrees (.dollarQuoted name none) rest 0 (.dollarQuoted ('$' :: name ++ ['$']))
  | bodyCandidate {name found rest} : '$' ∉ name →
      (∀ more after, name = found ++ more → rest ≠ more ++ '$' :: after) →
      Agrees (.dollarQuoted name (some found)) rest 0 (.dollarQuoted ('$' :: name ++ ['$']))
  | closing {found more after} : '$' ∉ more →
      Agrees (.dollarQuoted (found ++ more) (some found)) (more ++ '$' :: after) (more.length + 1) .plain

theorem dollarQuoteMatch_eq_some {rest tag : List Char} (h : dollarQuoteMatch rest = some tag) :
    ∃ name after, (∀ c ∈ name, isTagChar c = true) ∧ tag = '$' :: name ++ ['$'] ∧
      rest = '$' :: name ++ '$' :: after := by
  unfold dollarQuoteMatch at h
  split at h
  · rename_i tail
    simp only at h
    split at h
    · rename_i hhead
      have hdrop : tail.drop (tail.takeWhile isTagChar).length = tail.dropWhile isTagChar := by
        conv_lhs => arg 2; rw [← List.takeWhile_append_dropWhile (p := isTagChar) (l := tail)]
        rw [List.drop_left]
      rw [hdrop] at hhead
      obtain ⟨after, hafter⟩ : ∃ after, tail.dropWhile isTagChar = '$' :: after := by
        cases hcase : tail.dropWhile isTagChar with
        | nil => simp [hcase] at hhead
        | cons d after =>
          simp only [hcase, List.head?_cons, Option.some.injEq] at hhead
          exact ⟨after, by rw [hhead]⟩
      cases h
      refine ⟨tail.takeWhile isTagChar, after, ?_, rfl, ?_⟩
      · intro c hc
        exact List.mem_takeWhile_imp hc
      · have hsplit := List.takeWhile_append_dropWhile (p := isTagChar) (l := tail)
        rw [hafter] at hsplit
        simp [hsplit]
    · cases h
  · cases h

theorem not_isTagChar_dollar : isTagChar '$' = false := by decide

theorem takeWhile_isTagChar {name : List Char} (after : List Char) (h : ∀ c ∈ name, isTagChar c = true) :
    (name ++ '$' :: after).takeWhile isTagChar = name := by
  rw [List.takeWhile_append_of_pos h]
  simp [not_isTagChar_dollar]

theorem dollarQuoteMatch_dollar {name : List Char} (after : List Char) (h : ∀ c ∈ name, isTagChar c = true) :
    dollarQuoteMatch ('$' :: (name ++ '$' :: after)) = some ('$' :: name ++ ['$']) := by
  simp [dollarQuoteMatch, takeWhile_isTagChar after h]

theorem dollarQuoteMatch_ne {c : Char} (rest : List Char) (h : c ≠ '$') : dollarQuoteMatch (c :: rest) = none := by
  cases hmatch : dollarQuoteMatch (c :: rest) with
  | none => rfl
  | some tag =>
    obtain ⟨name, after, -, -, hrest⟩ := dollarQuoteMatch_eq_some hmatch
    exact absurd (List.cons.inj hrest).1 h

theorem ne_of_isTagChar {c : Char} (h : isTagChar c = true) : c ≠ '$' ∧ c ≠ ';' ∧ c ≠ apostrophe := by
  refine ⟨?_, ?_, ?_⟩ <;> intro heq <;> rw [heq] at h <;> exact absurd h (by decide)

/-- What the loop does with one character: it cuts where the reader says, and agrees again. -/
def Follows (q q' : Quotes) (c : Char) (rest : List Char) (skipped : Nat) (quoting : Quoting) : Prop :=
  ∃ skipped' quoting', Agrees q' rest skipped' quoting' ∧
    ∀ current, scanStatements (c :: rest) current skipped quoting =
      if c = ';' ∧ q.isClosed = true then current :: scanStatements rest [] skipped' quoting'
      else scanStatements rest (current ++ [c]) skipped' quoting'

/-- A character outside of the quotes that does not go on with a tag. -/
theorem follows_opening (candidate : Option (List Char)) (c : Char) (rest : List Char) :
    Follows (.closed candidate) (.opening c) c rest 0 .plain := by
  by_cases hdollar : c = '$'
  · subst hdollar
    cases hmatch : dollarQuoteMatch ('$' :: rest) with
    | some tag =>
      obtain ⟨name, after, hname, rfl, hrest⟩ := dollarQuoteMatch_eq_some hmatch
      obtain rfl : rest = name ++ '$' :: after := (List.cons.inj hrest).2
      refine ⟨name.length + 1, .dollarQuoted ('$' :: ([] ++ name) ++ ['$']), .opening hname, ?_⟩
      intro current
      simp [scanStatements, hmatch]
    | none =>
      refine ⟨0, .plain, .candidate ?_, ?_⟩
      · rintro ⟨name, after, hname, hrest⟩
        rw [hrest, dollarQuoteMatch_dollar after hname] at hmatch
        cases hmatch
      · intro current
        have hne : '$' ≠ apostrophe := by decide
        simp [scanStatements, hmatch, hne]
  · have hmatch := dollarQuoteMatch_ne rest hdollar
    by_cases hquote : c = apostrophe
    · subst hquote
      have hne : apostrophe ≠ ';' := by decide
      have hstep : Quotes.opening apostrophe = .quoted := by decide
      rw [hstep]
      refine ⟨0, .singleQuoted, .quoted, ?_⟩
      intro current
      simp [scanStatements, hmatch, hne]
    · have hstep : Quotes.opening c = .closed none := by simp [Quotes.opening, hdollar, hquote]
      rw [hstep]
      refine ⟨0, .plain, .plain, ?_⟩
      intro current
      simp [scanStatements, hmatch, hquote, Quotes.isClosed]

/-- A character of a dollar-quoted body, where no closing tag has begun. -/
theorem follows_body {name : List Char} {candidate : Option (List Char)} {c : Char} {rest : List Char}
    (hname : '$' ∉ name) (hcandidate : candidate = some name → c ≠ '$')
    (hrest : ∀ found more after, candidate = some found → name = found ++ more →
      c :: rest ≠ more ++ '$' :: after) :
    Follows (.dollarQuoted name candidate) (.step (.dollarQuoted name candidate) c) c rest 0
      (.dollarQuoted ('$' :: name ++ ['$'])) := by
  by_cases hdollar : c = '$'
  · subst hdollar
    have hstep : Quotes.step (.dollarQuoted name candidate) '$' = .dollarQuoted name (some []) := by
      have hne : candidate ≠ some name := fun h => hcandidate h rfl
      simp [Quotes.step, hne]
    rw [hstep]
    by_cases hprefix : ('$' :: name ++ ['$']).isPrefixOf ('$' :: rest) = true
    · obtain ⟨after, hafter⟩ := List.isPrefixOf_iff_prefix.1 hprefix
      obtain rfl : name ++ '$' :: after = rest := by simpa using hafter
      have hclosing : Agrees (.dollarQuoted ([] ++ name) (some [])) (name ++ '$' :: after) (name.length + 1) .plain :=
        .closing hname
      refine ⟨name.length + 1, .plain, hclosing, ?_⟩
      intro current
      rw [scanStatements, if_pos hprefix]
      simp [Quotes.isClosed]
    · refine ⟨0, _, .bodyCandidate hname ?_, ?_⟩
      · intro more after heq hafter
        obtain rfl : name = more := heq
        apply hprefix
        rw [List.isPrefixOf_iff_prefix, hafter]
        exact ⟨after, by simp⟩
      · intro current
        rw [scanStatements, if_neg hprefix]
        simp [Quotes.isClosed]
  · have hstep : Quotes.step (.dollarQuoted name candidate) c = .dollarQuoted name (candidate.map (· ++ [c])) := by
      simp [Quotes.step, hdollar]
    have hprefix : ¬('$' :: name ++ ['$']).isPrefixOf (c :: rest) = true := by
      intro h
      obtain ⟨after, hafter⟩ := List.isPrefixOf_iff_prefix.1 h
      exact hdollar (List.cons.inj hafter).1.symm
    rw [hstep]
    refine ⟨0, .dollarQuoted ('$' :: name ++ ['$']), ?_, ?_⟩
    · cases candidate with
      | none => exact .body hname
      | some found =>
        refine .bodyCandidate hname ?_
        intro more after heq hafter
        refine hrest found (c :: more) after rfl (by simpa using heq) ?_
        rw [hafter, List.cons_append]
    · intro current
      rw [scanStatements, if_neg hprefix]
      simp [Quotes.isClosed]

theorem Agrees.follows {q : Quotes} {c : Char} {rest : List Char} {skipped : Nat} {quoting : Quoting}
    (h : Agrees q (c :: rest) skipped quoting) : Follows q (q.step c) c rest skipped quoting := by
  generalize htext : c :: rest = text at h
  cases h with
  | plain => exact follows_opening none c rest
  | candidate hnot =>
    rename_i name
    subst htext
    by_cases htag : isTagChar c = true
    · obtain ⟨hdollar, hcut, hquote⟩ := ne_of_isTagChar htag
      have hstep : Quotes.step (.closed (some name)) c = .closed (some (name ++ [c])) := by
        simp [Quotes.step, hdollar, htag]
      rw [hstep]
      refine ⟨0, .plain, .candidate ?_, ?_⟩
      · rintro ⟨more, after, hmore, hrest⟩
        exact hnot ⟨c :: more, after, List.forall_mem_cons.2 ⟨htag, hmore⟩, by rw [hrest, List.cons_append]⟩
      · intro current
        simp [scanStatements, dollarQuoteMatch_ne rest hdollar, hquote, hcut]
    · have hdollar : c ≠ '$' := by
        intro heq
        exact hnot ⟨[], rest, by simp, by rw [heq, List.nil_append]⟩
      have hstep : Quotes.step (.closed (some name)) c = .opening c := by simp [Quotes.step, hdollar, htag]
      rw [hstep]
      exact follows_opening _ c rest
  | opening hall =>
    rename_i name more after
    cases more with
    | nil =>
      obtain ⟨rfl, rfl⟩ := List.cons.inj htext
      have hname : '$' ∉ name := fun hmem =>
        absurd (hall '$' (List.mem_append_left _ hmem)) (by simp [not_isTagChar_dollar])
      refine ⟨0, .dollarQuoted ('$' :: name ++ ['$']), .body hname, ?_⟩
      intro current
      simp [scanStatements]
    | cons d more =>
      obtain ⟨rfl, rfl⟩ := List.cons.inj htext
      have htag : isTagChar c = true := hall c (by simp)
      obtain ⟨hdollar, hcut, -⟩ := ne_of_isTagChar htag
      have hstep : Quotes.step (.closed (some name)) c = .closed (some (name ++ [c])) := by
        simp [Quotes.step, hdollar, htag]
      rw [hstep]
      refine ⟨more.length + 1, .dollarQuoted ('$' :: (name ++ [c] ++ more) ++ ['$']), .opening ?_, ?_⟩
      · simpa using hall
      · intro current
        simp [scanStatements, hcut]
  | quoted =>
    subst htext
    by_cases hquote : c = apostrophe
    · subst hquote
      have hcut : apostrophe ≠ ';' := by decide
      by_cases hnext : rest.head? = some apostrophe
      · cases rest with
        | nil => simp at hnext
        | cons d rest =>
          obtain rfl : d = apostrophe := by simpa using hnext
          refine ⟨1, .singleQuoted, .doubled, ?_⟩
          intro current
          simp [scanStatements, hcut]
      · refine ⟨0, .plain, .plain, ?_⟩
        intro current
        simp [scanStatements, hnext, hcut]
    · have hstep : Quotes.step .quoted c = .quoted := by simp [Quotes.step, hquote]
      rw [hstep]
      refine ⟨0, .singleQuoted, .quoted, ?_⟩
      intro current
      simp [scanStatements, hquote, Quotes.isClosed]
  | doubled =>
    obtain ⟨rfl, rfl⟩ := List.cons.inj htext
    have hcut : apostrophe ≠ ';' := by decide
    refine ⟨0, .singleQuoted, .quoted, ?_⟩
    intro current
    simp [scanStatements, hcut]
  | body hname =>
    subst htext
    exact follows_body hname (fun heq => by cases heq) fun _ _ _ heq => by cases heq
  | bodyCandidate hname hrest =>
    subst htext
    refine follows_body hname ?_ ?_
    · intro heq hdollar
      obtain rfl := Option.some.inj heq
      exact hrest [] rest (by simp) (by rw [hdollar, List.nil_append])
    · intro found' more after heq hname'
      obtain rfl := Option.some.inj heq
      exact hrest more after hname'
  | closing hmore =>
    rename_i found more after
    cases more with
    | nil =>
      obtain ⟨rfl, rfl⟩ := List.cons.inj htext
      have hstep : Quotes.step (.dollarQuoted (found ++ []) (some found)) '$' = .closed none := by
        simp [Quotes.step]
      rw [hstep]
      refine ⟨0, .plain, .plain, ?_⟩
      intro current
      simp [scanStatements]
    | cons d more =>
      obtain ⟨rfl, rfl⟩ := List.cons.inj htext
      obtain ⟨hdollar, hmore⟩ := not_or.1 (mt List.mem_cons.2 hmore)
      have hstep : Quotes.step (.dollarQuoted (found ++ c :: more) (some found)) c =
          .dollarQuoted (found ++ [c] ++ more) (some (found ++ [c])) := by
        simp [Quotes.step, Ne.symm hdollar]
      rw [hstep]
      refine ⟨more.length + 1, .plain, .closing hmore, ?_⟩
      intro current
      simp [scanStatements, Quotes.isClosed]

theorem scanStatements_eq_cutBy {q : Quotes} {text : List Char} {skipped : Nat} {quoting : Quoting}
    (h : Agrees q text skipped quoting) (current : List Char) :
    scanStatements text current skipped quoting = cutBy ';' Quotes.step Quotes.isClosed q current text := by
  induction text generalizing q skipped quoting current with
  | nil => simp [scanStatements, cutBy]
  | cons c rest ih =>
    obtain ⟨skipped', quoting', hagrees, hscan⟩ := h.follows
    rw [hscan, cutBy]
    split
    · rw [ih hagrees]
    · rw [ih hagrees]

/-- The text is cut at the semicolons outside of every literal and comment, and what is executed
is the text up to these semicolons and white space. -/
structure FollowsLexis (sql : String) : Prop where
  cuts : statementTexts sql = lexedStatements sql
  joined : [';'].intercalate (statementTexts sql) = sql.toList
  executed : splitSqlStatements sql =
    ((lexedStatements sql).map fun statement => trim (String.ofList statement)).filter fun statement => statement != ""

/-- At every semicolon the apostrophes and dollar quotes before it are closed exactly if
PostgreSQL has no literal, quoted identifier, dollar-quoted body or comment open. -/
def QuotesTell (sql : String) : Prop :=
  ∀ before after, sql.toList = before ++ ';' :: after → quotesClosed before = (lexis before).isOutside

theorem statementTexts_eq (sql : String) :
    statementTexts sql = cutBy ';' Quotes.step Quotes.isClosed (.closed none) [] sql.toList :=
  scanStatements_eq_cutBy .plain []

/-- The splitter follows the lexical rules exactly where the quotes alone tell what is open. -/
theorem followsLexis_iff (sql : String) : FollowsLexis sql ↔ QuotesTell sql := by
  have hcuts : statementTexts sql = lexedStatements sql ↔ QuotesTell sql := by
    rw [statementTexts_eq, lexedStatements, cutBy_eq_iff]
    rfl
  constructor
  · intro h
    exact hcuts.1 h.cuts
  · intro h
    have heq := hcuts.2 h
    refine ⟨heq, ?_, ?_⟩
    · rw [statementTexts_eq, intercalate_cutBy, List.nil_append]
    · rw [← heq]
      rfl

/-! ## A comment with an apostrophe -/

/-- The apostrophe of a comment opens a string for the loop, which then cuts no more. -/
theorem comment_not_followsLexis : ¬FollowsLexis "SELECT 1; -- don't\nSELECT 2; SELECT 3;" := by
  intro h
  have hcuts := h.cuts
  revert hcuts
  decide +kernel

end PlusOne
