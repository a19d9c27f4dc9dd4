import PlusOne.Patterns.Cuts

/-! # The lexical rules of PostgreSQL

Which part of a token the text before a character ends in, as far as it matters for what the
character means. Backslashes escape only in the strings written with the prefix `E`. -/

namespace PlusOne

/-- The identifier or key word being read. A lone `e` may turn out to be the prefix of a string. -/
inductive Word where
  | none | letterE | name
  deriving DecidableEq

inductive Lexis where
  | outside (word : Word)
  /-- A hyphen, or a slash, that may begin a comment. -/
  | hyphen | slash
  /-- A dollar sign and a name that may become a dollar quote. -/
  | dollarOpen (name : List Char)
  | string
  | escapeString | escapeBackslash
  /-- After the end of an escape string, which goes on where a line break and a further apostrophe follow. -/
  | escapeClosed
  | escapeGap (newline : Bool)
  | escapeHyphen (newline : Bool)
  | escapeComment
  | quotedIdentifier
  /-- With what follows the last dollar sign, which may become the closing tag. -/
  | dollarBody (name : List Char) (candidate : Option (List Char))
  | lineComment
  | blockComment (depth : Nat) (last : Option Char)

namespace Lexis

def apostrophe : Char := Char.ofNat 39

def isIdentStart (c : Char) : Bool := c.isAlpha || c == '_' || decide (128 ≤ c.toNat)

/-- Dollar tags are identifiers without a dollar sign. -/
def isTagCont (c : Char) : Bool := isIdentStart c || c.isDigit

def isIdentCont (c : Char) : Bool := isTagCont c || c == '$'

def isNewline (c : Char) : Bool := c == '\n' || c == '\r'

/-- Space, tab, vertical tab and form feed. -/
def isBlank (c : Char) : Bool := [32, 9, 11, 12].contains c.toNat

def wordOf (c : Char) : Word := if c = 'e' ∨ c = 'E' then .letterE else .name

/-- A character that begins a token. -/
def opening (c : Char) : Lexis :=
  if c = apostrophe then string
  else if c = '"' then quotedIdentifier
  else if c = '-' then hyphen
  else if c = '/' then slash
  else if c = '$' then dollarOpen []
  else if isIdentStart c then outside (wordOf c)
  else outside .none

/-- A character after the word. -/
def afterWord (word : Word) (c : Char) : Lexis :=
  if isIdentCont c then outside .name
  else if c = apostrophe ∧ word = .letterE then escapeString
  else opening c

/-- Whether a dollar sign, the name and a character go on towards a dollar quote. -/
def extendsTag (name : List Char) (c : Char) : Bool := if name = [] then isIdentStart c else isTagCont c

/-- The name of a dollar quote that does not come about is a word. -/
def afterDollar (name : List Char) (c : Char) : Lexis :=
  match name with
  | [] => opening c
  | [d] => afterWord (wordOf d) c
  | _ => afterWord .name c

def afterEscape (newline : Bool) (c : Char) : Lexis :=
  if isNewline c then escapeGap true
  else if isBlank c then escapeGap newline
  else if c = '-' then escapeHyphen newline
  else opening c

def step : Lexis → Char → Lexis
  | outside .none, c => opening c
  | outside word, c => afterWord word c
  | hyphen, c => if c = '-' then lineComment else opening c
  | slash, c => if c = '*' then blockComment 0 none else opening c
  | dollarOpen name, c =>
      if c = '$' then dollarBody name none
      else if extendsTag name c then dollarOpen (name ++ [c])
      else afterDollar name c
  | string, c => if c = apostrophe then outside .none else string
  | escapeString, c =>
      if c = '\\' then escapeBackslash else if c = apostrophe then escapeClosed else escapeString
  | escapeBackslash, _ => escapeString
  | escapeClosed, c => if c = apostrophe then escapeString else afterEscape false c
  | escapeGap newline, c =>
      if c = apostrophe ∧ newline = true then escapeString else afterEscape newline c
  | escapeHyphen _, c => if c = '-' then escapeComment else opening c
  | escapeComment, c => if isNewline c then escapeGap true else escapeComment
  | quotedIdentifier, c => if c = '"' then outside .none else quotedIdentifier
  | dollarBody name candidate, c =>
      if c = '$' then if candidate = some name then outside .none else dollarBody name (some [])
      else dollarBody name (candidate.map (· ++ [c]))
  | lineComment, c => if isNewline c then outside .none else lineComment
  | blockComment depth last, c =>
      if c = '/' ∧ last = some '*' then
        match depth with
        | 0 => outside .none
        | depth + 1 => blockComment depth none
      else if c = '*' ∧ last = some '/' then blockComment (depth + 1) none
      else blockComment depth (some c)

/-- No literal, quoted identifier, dollar-quoted body or comment is open. -/
def isOutside : Lexis → Bool
  | outside _ | hyphen | slash | dollarOpen _ | escapeClosed | escapeGap _ | escapeHyphen _ => true
  | string | escapeString | escapeBackslash | escapeComment | quotedIdentifier | dollarBody _ _
  | lineComment | blockComment _ _ => false

end Lexis

/-- Where the text leaves the lexer. -/
def lexis (text : List Char) : Lexis := text.foldl Lexis.step (.outside .none)

/-- The statements of a text: what is between the semicolons outside of every literal and comment. -/
def lexedStatements (sql : String) : List (List Char) :=
  Patterns.cutBy ';' Lexis.step Lexis.isOutside (.outside .none) [] sql.toList

example : lexedStatements "SELECT \";\"; /* ; /* ; */ ; */ SELECT E'\\';'" =
    ["SELECT \";\"".toList, " /* ; /* ; */ ; */ SELECT E'\\';'".toList] := by
  decide +kernel

end PlusOne
