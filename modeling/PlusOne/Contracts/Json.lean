import Mathlib.Algebra.GroupWithZero.Nat
import Mathlib.Data.List.Basic
import Mathlib.Data.List.Lex
import Mathlib.Data.List.Sort
import Mathlib.Logic.Basic

/-! # JSON values

The values `JsonValueSchema` admits. A finite number is the text it prints as:
two finite numbers are the same JSON number exactly when they print the same. -/

namespace PlusOne

def isNumberChar (c : Char) : Bool :=
  c.isDigit || c == '-' || c == '+' || c == '.' || c == 'e'

structure JsonNumber where
  text : String
  nonempty : text.toList.isEmpty = false
  numeric : text.toList.all isNumberChar = true
  deriving DecidableEq

inductive Json where
  | null
  | bool (b : Bool)
  | num (n : JsonNumber)
  | str (s : String)
  | arr (items : List Json)
  | obj (fields : List (String × Json))

namespace Json

mutual

def decEq : (a b : Json) → Decidable (a = b)
  | .null, .null => .isTrue rfl
  | .bool a, .bool b => decidable_of_iff (a = b) (by simp)
  | .num a, .num b => decidable_of_iff (a = b) (by simp)
  | .str a, .str b => decidable_of_iff (a = b) (by simp)
  | .arr a, .arr b =>
    have := decEqItems a b
    decidable_of_iff (a = b) (by simp)
  | .obj a, .obj b =>
    have := decEqFields a b
    decidable_of_iff (a = b) (by simp)
  | .null, .bool _ | .null, .num _ | .null, .str _ | .null, .arr _ | .null, .obj _
  | .bool _, .null | .bool _, .num _ | .bool _, .str _ | .bool _, .arr _ | .bool _, .obj _
  | .num _, .null | .num _, .bool _ | .num _, .str _ | .num _, .arr _ | .num _, .obj _
  | .str _, .null | .str _, .bool _ | .str _, .num _ | .str _, .arr _ | .str _, .obj _
  | .arr _, .null | .arr _, .bool _ | .arr _, .num _ | .arr _, .str _ | .arr _, .obj _
  | .obj _, .null | .obj _, .bool _ | .obj _, .num _ | .obj _, .str _ | .obj _, .arr _ =>
    .isFalse (by simp)

def decEqItems : (a b : List Json) → Decidable (a = b)
  | [], [] => .isTrue rfl
  | [], _ :: _ => .isFalse (by simp)
  | _ :: _, [] => .isFalse (by simp)
  | a :: as, b :: bs =>
    have := decEq a b
    have := decEqItems as bs
    decidable_of_iff (a = b ∧ as = bs) (by simp)

def decEqFields : (a b : List (String × Json)) → Decidable (a = b)
  | [], [] => .isTrue rfl
  | [], _ :: _ => .isFalse (by simp)
  | _ :: _, [] => .isFalse (by simp)
  | (k, a) :: as, (l, b) :: bs =>
    have := decEq a b
    have := decEqFields as bs
    decidable_of_iff (k = l ∧ a = b ∧ as = bs) (by simp [and_assoc])

end

instance : DecidableEq Json := decEq

/-- The entry of an object under a key, as `value[key]` reads it. -/
def field? : Json → String → Option Json
  | .obj fields, key => (fields.find? fun entry => entry.1 == key).map (·.2)
  | _, _ => none

def isObject : Json → Bool
  | .obj _ => true
  | _ => false

theorem isNumberChar_of_isDigit {c : Char} (h : c.isDigit = true) : isNumberChar c = true := by
  simp [isNumberChar, h]

def ofNat (n : Nat) : Json :=
  .num ⟨String.ofList (Nat.toDigits 10 n), by simp, by
    simp only [String.toList_ofList, List.all_eq_true]
    exact fun c hc => isNumberChar_of_isDigit
      (Nat.isDigit_of_mem_toDigits (by decide) (by decide) hc)⟩

mutual

/-- No object in the value has two entries under one key, as no JavaScript object does. -/
def keyed : Json → Bool
  | .null | .bool _ | .num _ | .str _ => true
  | .arr items => keyedItems items
  | .obj fields => decide (fields.map Prod.fst).Nodup && keyedFields fields

def keyedItems : List Json → Bool
  | [] => true
  | item :: items => item.keyed && keyedItems items

def keyedFields : List (String × Json) → Bool
  | [] => true
  | (_, value) :: fields => value.keyed && keyedFields fields

end

/-! ## Schema combinators -/

/-- The length JavaScript gives a string: its UTF-16 code units. -/
def utf16Length (s : String) : Nat :=
  (s.toList.map fun c => if c.toNat < 0x10000 then 1 else 2).sum

def isStringBetween (lo hi : Nat) : Json → Bool
  | .str s => decide (lo ≤ utf16Length s) && decide (utf16Length s ≤ hi)
  | _ => false

def isNonemptyString : Json → Bool
  | .str s => decide (1 ≤ utf16Length s)
  | _ => false

def isArrayOf (check : Json → Bool) : Json → Bool
  | .arr items => items.all check
  | _ => false

/-- `z.object(shape).strict()`: every listed key is there and passes, and no other key is. -/
def isStrictObject (shape : List (String × (Json → Bool))) : Json → Bool
  | .obj fields =>
    (fields.all fun entry => shape.any fun rule => rule.1 == entry.1) &&
      shape.all fun rule =>
        match (Json.obj fields).field? rule.1 with
        | some value => rule.2 value
        | none => false
  | _ => false

end Json

/-! ## Schema identities -/

def isLower (c : Char) : Bool := 'a' ≤ c && c ≤ 'z'

/-- `^[a-z][a-z0-9-]+$` -/
def isKebabName (s : String) : Bool :=
  match s.toList with
  | first :: second :: rest =>
    isLower first && (second :: rest).all fun c => isLower c || c.isDigit || c == '-'
  | _ => false

structure SchemaIdentity where
  schemaName : String
  schemaVersion : Nat
  deriving DecidableEq

/-- `SchemaIdentitySchemaV1` on a value of its type. -/
def SchemaIdentity.valid (schema : SchemaIdentity) : Bool :=
  isKebabName schema.schemaName && decide (0 < schema.schemaVersion)

/-! ## Texts in order -/

/-- The UTF-16 code units of a text, by which `sort` orders texts. -/
def codeUnits (text : String) : List Nat :=
  text.toList.flatMap fun c =>
    if c.toNat < 65536 then [c.toNat]
    else [55296 + (c.toNat - 65536) / 1024, 56320 + (c.toNat - 65536) % 1024]

def codeUnitLe (text other : String) : Bool := decide (codeUnits text ≤ codeUnits other)

/-- `texts.sort()` -/
def sortTexts (texts : List String) : List String :=
  texts.insertionSort fun text other => codeUnitLe text other

/-- `JSON.stringify(sorted(left)) === JSON.stringify(sorted(right))` -/
def sameSet (left right : List String) : Bool := sortTexts left == sortTexts right

theorem perm_of_sameSet {left right : List String} (h : sameSet left right = true) : left.Perm right := by
  have hsorted : sortTexts left = sortTexts right := by simpa [sameSet] using h
  calc left.Perm (sortTexts left) := (List.perm_insertionSort _ left).symm
    _ = sortTexts right := hsorted
    (sortTexts right).Perm right := List.perm_insertionSort _ right

end PlusOne
