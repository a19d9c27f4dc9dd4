import PlusOne.Coding.Digits
import PlusOne.Contracts.Identifiers
import PlusOne.Contracts.Json

/-! # Identifiers of working-memory entries

A time in ten base-32 digits, and sixteen more digits of random bits. The random bytes go through a bit
buffer of thirty-two signed bits that is never cleared. -/

namespace PlusOne

open Coding

/-- `CROCKFORD` -/
def crockfordDigits : List Char := "0123456789ABCDEFGHJKMNPQRSTVWXYZ".toList

/-- `CROCKFORD[digit]!` -/
def crockfordDigit (digit : ℕ) : Char := crockfordDigits.getD digit '0'

/-- The number a character stands for. -/
def crockfordValue (c : Char) : ℕ := crockfordDigits.idxOf c

namespace Ulid

/-- The first loop: each digit goes before those already there. -/
def timeDigits : ℕ → ℕ → List Char → List Char
  | 0, _, output => output
  | index + 1, time, output => timeDigits index (time / 32) (crockfordDigit (time % 32) :: output)

/-- The inner loop of the second one: the bits left over, and the output. -/
def drain (buffer : BitVec 32) : ℕ → List Char → ℕ × List Char
  | bits + 5, output =>
    if output.length < 26 then drain buffer bits (output ++ [crockfordDigit (buffer.sshiftRight bits &&& 31).toNat])
    else (bits + 5, output)
  | bits, output => (bits, output)

structure Buffered where
  buffer : BitVec 32
  bits : ℕ
  output : List Char

/-- What one random byte does. -/
def feed (s : Buffered) (byte : UInt8) : Buffered :=
  let buffer := s.buffer <<< 8 ||| byte.toBitVec.setWidth 32
  let drained := drain buffer (s.bits + 8) s.output
  ⟨buffer, drained.1, drained.2⟩

end Ulid

open Ulid

/-- `ulid` at a time and with the bytes `randomBytes(16)` gives. -/
def ulid (now : ℕ) (randomness : Vector UInt8 16) : String :=
  let s := randomness.toList.foldl feed ⟨0, 0, timeDigits 10 now []⟩
  String.ofList (s.output ++ List.replicate (26 - s.output.length) (crockfordDigit 0))

/-! ## Digits -/

theorem crockfordValue_digit {digit : ℕ} (h : digit < 32) : crockfordValue (crockfordDigit digit) = digit := by
  have hall : ∀ d < 32, crockfordValue (crockfordDigit d) = d := by decide
  exact hall digit h

theorem crockfordDigit_mem {digit : ℕ} (h : digit < 32) : crockfordDigit digit ∈ crockfordDigits := by
  have hall : ∀ d < 32, crockfordDigit d ∈ crockfordDigits := by decide
  exact hall digit h

theorem crockfordDigit_value {c : Char} (h : c ∈ crockfordDigits) : crockfordDigit (crockfordValue c) = c := by
  have hall : crockfordDigits.all (fun c => crockfordDigit (crockfordValue c) = c) = true := by decide
  exact of_decide_eq_true (List.all_eq_true.1 hall c h)

theorem crockfordValue_lt {c : Char} (h : c ∈ crockfordDigits) : crockfordValue c < 32 := by
  have hlength : crockfordDigits.length = 32 := by decide
  exact hlength ▸ List.idxOf_lt_length_of_mem h

theorem crockford_lt {c c' : Char} (h : c ∈ crockfordDigits) (h' : c' ∈ crockfordDigits)
    (hlt : crockfordValue c < crockfordValue c') : c.toNat < c'.toNat := by
  have hall : (crockfordDigits.all fun c => crockfordDigits.all fun c' =>
      decide (crockfordValue c < crockfordValue c' → c.toNat < c'.toNat)) = true := by decide +kernel
  exact of_decide_eq_true (List.all_eq_true.1 (List.all_eq_true.1 hall c h) c' h') hlt

theorem codeUnits_ofList {text : List Char} (h : ∀ c ∈ text, c ∈ crockfordDigits) :
    codeUnits (String.ofList text) = text.map Char.toNat := by
  have hascii : ∀ c ∈ crockfordDigits, c.toNat < 65536 := by
    have hall : crockfordDigits.all (fun c => c.toNat < 65536) = true := by decide
    exact fun c hc => of_decide_eq_true (List.all_eq_true.1 hall c hc)
  rw [codeUnits, String.toList_ofList]
  induction text with
  | nil => rfl
  | cons c text ih =>
    rw [List.flatMap_cons, ih fun d hd => h d (by simp [hd]), if_pos (hascii c (h c (by simp)))]
    rfl

/-! ## The time -/

namespace Ulid

/-- The value of a row of the alphabet. -/
def stampValue (stamp : List Char) : ℕ := rowValue 32 (stamp.map crockfordValue)

/-- `index` rounds put `index` digits before the output, of the time's lowest digits. -/
theorem timeDigits_eq (index time : ℕ) (output : List Char) :
    ∃ stamp, timeDigits index time output = stamp ++ output ∧ stamp.length = index ∧
      (∀ c ∈ stamp, c ∈ crockfordDigits) ∧ stampValue stamp = time % 32 ^ index := by
  induction index generalizing time output with
  | zero => exact ⟨[], rfl, rfl, by simp, by simp [stampValue, Nat.mod_one]⟩
  | succ index ih =>
    obtain ⟨stamp, hstamp, hlength, hmem, hvalue⟩ := ih (time / 32) (crockfordDigit (time % 32) :: output)
    have hdigit : time % 32 < 32 := Nat.mod_lt _ (by omega)
    refine ⟨stamp ++ [crockfordDigit (time % 32)], ?_, ?_, ?_, ?_⟩
    · rw [timeDigits, hstamp, List.append_assoc, List.singleton_append]
    · rw [List.length_append, hlength, List.length_singleton]
    · intro c hc
      rcases List.mem_append.1 hc with hc | hc
      · exact hmem c hc
      · obtain rfl := List.mem_singleton.1 hc
        exact crockfordDigit_mem hdigit
    · rw [stampValue, List.map_append, List.map_singleton, rowValue_append_singleton, crockfordValue_digit hdigit,
        ← stampValue, hvalue, Nat.pow_succ, Nat.mul_comm (32 ^ index), Nat.mod_mul]

/-! ## The random bits -/

/-- The five bits of a character, the highest first. -/
def digitBits (c : Char) : List Bool := lowBits (crockfordValue c).testBit 5

/-- The eight bits of a byte, the highest first. -/
def byteBits (byte : UInt8) : List Bool := lowBits byte.toBitVec.getLsbD 8

@[simp] theorem length_flatMap_digitBits (text : List Char) : (text.flatMap digitBits).length = 5 * text.length := by
  induction text with
  | nil => rfl
  | cons c text ih => simp [ih, digitBits]; omega

@[simp] theorem length_flatMap_byteBits (bytes : List UInt8) : (bytes.flatMap byteBits).length = 8 * bytes.length := by
  induction bytes with
  | nil => rfl
  | cons byte bytes ih => simp [ih, byteBits]; omega

/-- The digit that is put out is the five bits above the ones still owed. -/
theorem digitBits_shifted {buffer : BitVec 32} {bits : ℕ} (h : bits + 5 ≤ 32) :
    digitBits (crockfordDigit (buffer.sshiftRight bits &&& 31).toNat) =
      lowBits (fun i => buffer.getLsbD (i + bits)) 5 := by
  have hlt : (buffer.sshiftRight bits &&& 31).toNat < 32 := by
    have hle : (buffer.sshiftRight bits).toNat &&& 31 ≤ 31 := Nat.and_le_right
    rw [BitVec.toNat_and]
    exact Nat.lt_succ_of_le hle
  rw [digitBits, crockfordValue_digit hlt]
  apply lowBits_congr
  intro i hi
  have hones : ∀ j < 5, (31 : BitVec 32).getLsbD j = true := by decide
  rw [BitVec.testBit_toNat, BitVec.getLsbD_and, hones i hi, Bool.and_true, BitVec.getLsbD_sshiftRight,
    show bits + i = i + bits by omega]
  simp [show ¬32 ≤ i by omega, show i + bits < 32 by omega]

theorem drain_full {buffer : BitVec 32} {bits : ℕ} {output : List Char} (h : ¬output.length < 26) :
    drain buffer bits output = (bits, output) := by
  rw [drain.eq_def]
  split
  · rw [if_neg h]
  · rfl

/-- The inner loop puts out the highest of the bits that are owed, and stops below five of them or when
the output is full. -/
theorem drain_eq (buffer : BitVec 32) {bits : ℕ} {output : List Char} (hbits : bits ≤ 32)
    (houtput : output.length ≤ 26) :
    ∃ digits, (drain buffer bits output).2 = output ++ digits ∧ (∀ c ∈ digits, c ∈ crockfordDigits) ∧
      digits.flatMap digitBits ++ lowBits buffer.getLsbD (drain buffer bits output).1 =
        lowBits buffer.getLsbD bits ∧
      output.length + digits.length ≤ 26 ∧
      ((drain buffer bits output).1 < 5 ∨ output.length + digits.length = 26) := by
  fun_induction drain buffer bits output with
  | case1 bits output hroom ih =>
    obtain ⟨digits, hdigits, hmem, howed, hlength, hstop⟩ := ih (by omega) (by simpa using hroom)
    have hbounds : output.length + 1 + digits.length ≤ 26 := by simpa using hlength
    refine ⟨crockfordDigit (buffer.sshiftRight bits &&& 31).toNat :: digits, ?_, ?_, ?_, ?_, ?_⟩
    · rw [hdigits, List.append_assoc, List.singleton_append]
    · intro c hc
      rcases List.mem_cons.1 hc with rfl | hc
      · have hle : (buffer.sshiftRight bits).toNat &&& 31 ≤ 31 := Nat.and_le_right
        exact crockfordDigit_mem (by rw [BitVec.toNat_and]; exact Nat.lt_succ_of_le hle)
      · exact hmem c hc
    · rw [List.flatMap_cons, digitBits_shifted (by omega), List.append_assoc, howed, ← lowBits_add,
        Nat.add_comm]
    · rw [List.length_cons]
      omega
    · rw [List.length_cons]
      rcases hstop with hstop | hstop
      · exact .inl hstop
      · right
        rw [List.length_append, List.length_singleton] at hstop
        omega
  | case2 bits output hfull =>
    exact ⟨[], by simp, by simp, by simp, by simpa using houtput, .inr (by simp; omega)⟩
  | case3 bits output hfew =>
    refine ⟨[], by simp, by simp, by simp, by simpa using houtput, .inl ?_⟩
    by_contra hmany
    obtain ⟨rest, rfl⟩ : ∃ rest, bits = rest + 5 := ⟨bits - 5, by omega⟩
    exact hfew rest rfl

/-- What the second loop keeps: the digits after the time hold the first bits that were fed, and while
there is room for more of them the buffer holds the others. -/
structure Holds (stamp : List Char) (fed : List UInt8) (s : Buffered) : Prop where
  digits : ∃ digits, s.output = stamp ++ digits ∧ (∀ c ∈ digits, c ∈ crockfordDigits) ∧
    stamp.length + digits.length ≤ 26 ∧ digits.flatMap digitBits <+: fed.flatMap byteBits ∧
    (stamp.length + digits.length < 26 → s.bits < 5 ∧
      digits.flatMap digitBits ++ lowBits s.buffer.getLsbD s.bits = fed.flatMap byteBits)

variable {stamp : List Char} {fed : List UInt8} {s : Buffered}

/-- A byte goes below the bits that are owed, and only bits that are owed no more leave the buffer. -/
theorem lowBits_fed (buffer : BitVec 32) (byte : UInt8) {bits : ℕ} (h : bits + 8 ≤ 32) :
    lowBits (buffer <<< 8 ||| byte.toBitVec.setWidth 32).getLsbD (bits + 8) =
      lowBits buffer.getLsbD bits ++ byteBits byte := by
  rw [lowBits_add, byteBits]
  congr 1
  · apply lowBits_congr
    intro i hi
    have hhigh : byte.toBitVec.getLsbD (i + 8) = false := BitVec.getLsbD_of_ge _ _ (by omega)
    rw [BitVec.getLsbD_or, BitVec.getLsbD_shiftLeft, BitVec.getLsbD_setWidth, hhigh]
    simp [show i + 8 < 32 by omega]
  · apply lowBits_congr
    intro i hi
    simp [hi, show i < 32 by omega]

theorem Holds.feed (h : Holds stamp fed s) (byte : UInt8) : Holds stamp (fed ++ [byte]) (Ulid.feed s byte) := by
  obtain ⟨digits, houtput, hmem, hlength, hprefix, howed⟩ := h.digits
  by_cases hroom : stamp.length + digits.length < 26
  · obtain ⟨hbits, hheld⟩ := howed hroom
    have hsize : s.output.length ≤ 26 := by
      rw [houtput, List.length_append]
      exact hlength
    have hwidth : s.bits + 8 ≤ 32 := by omega
    obtain ⟨more, hmore, hmem', howed', hlength', hstop⟩ :=
      drain_eq (s.buffer <<< 8 ||| byte.toBitVec.setWidth 32) hwidth hsize
    have hfed : (digits ++ more).flatMap digitBits ++
        lowBits (s.buffer <<< 8 ||| byte.toBitVec.setWidth 32).getLsbD (Ulid.feed s byte).bits =
        (fed ++ [byte]).flatMap byteBits := by
      rw [List.flatMap_append, List.append_assoc]
      simp only [Ulid.feed]
      rw [howed', lowBits_fed _ _ (by omega), ← List.append_assoc, hheld]
      simp
    rw [houtput, List.length_append] at hlength'
    have hstop' : (Ulid.feed s byte).bits < 5 ∨ stamp.length + digits.length + more.length = 26 := by
      rwa [houtput, List.length_append, ← houtput] at hstop
    refine ⟨digits ++ more, ?_, ?_, ?_, ?_, ?_⟩
    · rw [Ulid.feed, hmore, houtput, List.append_assoc]
    · intro c hc
      exact (List.mem_append.1 hc).elim (hmem c) (hmem' c)
    · rw [List.length_append]
      omega
    · exact ⟨_, hfed⟩
    · intro hroom'
      rw [List.length_append] at hroom'
      exact ⟨hstop'.resolve_right (by omega), hfed⟩
  · -- the output is full, and the byte changes the buffer alone
    have hlong : ¬s.output.length < 26 := by
      rw [houtput, List.length_append]
      exact hroom
    refine ⟨digits, ?_, hmem, hlength, ?_, fun hroom' => absurd hroom' hroom⟩
    · have hkept : (Ulid.feed s byte).output = s.output := congrArg Prod.snd (drain_full hlong)
      rw [hkept, houtput]
    · rw [List.flatMap_append]
      exact hprefix.trans (List.prefix_append _ _)

theorem Holds.foldl (bytes : List UInt8) (h : Holds stamp fed s) : Holds stamp (fed ++ bytes) (bytes.foldl Ulid.feed s) := by
  induction bytes generalizing fed s with
  | nil => simpa using h
  | cons byte bytes ih => simpa using ih (h.feed byte)

end Ulid

/-- The time in ten characters, and the first eighty random bits in sixteen. -/
theorem exists_ulid_eq (now : ℕ) (randomness : Vector UInt8 16) :
    ∃ stamp digits, (ulid now randomness).toList = stamp ++ digits ∧ stamp.length = 10 ∧ digits.length = 16 ∧
      (∀ c ∈ stamp ++ digits, c ∈ crockfordDigits) ∧ stampValue stamp = now % 2 ^ 50 ∧
      digits.flatMap digitBits = (randomness.toList.flatMap byteBits).take 80 := by
  obtain ⟨stamp, hstamp, hlength, hmem, hvalue⟩ := timeDigits_eq 10 now []
  rw [List.append_nil] at hstamp
  have hstart : Holds stamp [] ⟨0, 0, timeDigits 10 now []⟩ :=
    ⟨[], by simpa using hstamp, by simp, by simp [hlength], by simp, by simp [lowBits]⟩
  obtain ⟨digits, houtput, hmem', hle, hprefix, howed⟩ := (hstart.foldl randomness.toList).digits
  rw [List.nil_append] at hprefix howed
  have hfull : digits.length = 16 := by
    by_contra hshort
    obtain ⟨hbits, hheld⟩ := howed (by omega)
    have hcount := congrArg List.length hheld
    rw [List.length_append, length_flatMap_digitBits, length_lowBits, length_flatMap_byteBits,
      Vector.length_toList] at hcount
    omega
  refine ⟨stamp, digits, ?_, hlength, hfull, ?_, ?_, ?_⟩
  · rw [ulid, String.toList_ofList, houtput, List.length_append, hlength, hfull]
    simp
  · intro c hc
    exact (List.mem_append.1 hc).elim (hmem c) (hmem' c)
  · rw [hvalue, show 32 ^ 10 = 2 ^ 50 by norm_num]
  · have htake := List.prefix_iff_eq_take.1 hprefix
    rw [length_flatMap_digitBits, hfull] at htake
    exact htake

/-- What an identifier holds of its time and its random bytes. -/
structure UlidExact (now : ℕ) (randomness : Vector UInt8 16) (id : String) : Prop where
  length : id.length = 26
  digits : ∀ c ∈ id.toList, c ∈ crockfordDigits
  time : stampValue (id.toList.take 10) = now
  random : (id.toList.drop 10).flatMap digitBits = (randomness.toList.flatMap byteBits).take 80

theorem ulid_exact {now : ℕ} (randomness : Vector UInt8 16) (h : now < 2 ^ 50) :
    UlidExact now randomness (ulid now randomness) := by
  obtain ⟨stamp, digits, htext, hstamp, hdigits, hmem, hvalue, hbits⟩ := exists_ulid_eq now randomness
  have htake : (ulid now randomness).toList.take 10 = stamp := by rw [htext, ← hstamp, List.take_left]
  have hdrop : (ulid now randomness).toList.drop 10 = digits := by rw [htext, ← hstamp, List.drop_left]
  constructor
  case length => rw [← String.length_toList, htext, List.length_append, hstamp, hdigits]
  case digits => rwa [htext]
  case time => rw [htake, hvalue, Nat.mod_eq_of_lt h]
  case random => rw [hdrop, hbits]

/-- Identifiers of different times are in the order of their times. -/
theorem ulid_lt {now now' : ℕ} (randomness randomness' : Vector UInt8 16) (hlt : now < now') (h' : now' < 2 ^ 50) :
    codeUnits (ulid now randomness) < codeUnits (ulid now' randomness') := by
  obtain ⟨stamp, digits, htext, hlength, _, hmem, hvalue, _⟩ := exists_ulid_eq now randomness
  obtain ⟨stamp', digits', htext', hlength', _, hmem', hvalue', _⟩ := exists_ulid_eq now' randomness'
  rw [Nat.mod_eq_of_lt h'] at hvalue'
  rw [Nat.mod_eq_of_lt (hlt.trans h')] at hvalue
  have hstamp : ∀ c ∈ stamp, c ∈ crockfordDigits := fun c hc => hmem c (List.mem_append_left _ hc)
  have hstamp' : ∀ c ∈ stamp', c ∈ crockfordDigits := fun c hc => hmem' c (List.mem_append_left _ hc)
  have hvalues : stamp.map crockfordValue < stamp'.map crockfordValue := by
    have hless : rowValue 32 (stamp.map crockfordValue) < rowValue 32 (stamp'.map crockfordValue) := by
      rw [← stampValue, ← stampValue, hvalue, hvalue']
      exact hlt
    refine row_lt_of_rowValue_lt (by simp [hlength, hlength']) ?_ hless
    intro digit hdigit
    obtain ⟨c, hc, rfl⟩ := List.mem_map.1 hdigit
    exact crockfordValue_lt (hstamp' c hc)
  have hunits : stamp.map Char.toNat < stamp'.map Char.toNat := by
    have hdigits : ∀ {text : List Char}, (∀ c ∈ text, c ∈ crockfordDigits) →
        (text.map crockfordValue).map (fun digit => (crockfordDigit digit).toNat) = text.map Char.toNat := by
      intro text htext
      rw [List.map_map]
      apply List.map_congr_left
      intro c hc
      simp [crockfordDigit_value (htext c hc)]
    rw [← hdigits hstamp, ← hdigits hstamp']
    apply map_lt_map _ hvalues
    intro digit hdigit digit' hdigit' hless
    obtain ⟨c, hc, rfl⟩ := List.mem_map.1 hdigit
    obtain ⟨c', hc', rfl⟩ := List.mem_map.1 hdigit'
    rw [crockfordDigit_value (hstamp c hc), crockfordDigit_value (hstamp' c' hc')]
    exact crockford_lt (hstamp c hc) (hstamp' c' hc') hless
  have hid := codeUnits_ofList hmem
  have hid' := codeUnits_ofList hmem'
  rw [← htext, String.ofList_toList] at hid
  rw [← htext', String.ofList_toList] at hid'
  rw [hid, hid', htext, htext', List.map_append, List.map_append]
  exact append_lt_append (by simp [hlength, hlength']) hunits _ _

/-! ## The identifiers -/

theorem ulid_admitted (now : ℕ) (randomness : Vector UInt8 16) {kind : IdKind} (hkind : kind.maxSuffixLength = 26) :
    kind.admits (ulid now randomness) = true := by
  obtain ⟨stamp, digits, htext, hstamp, hdigits, hmem, _⟩ := exists_ulid_eq now randomness
  have hall : crockfordDigits.all isCrockford = true := by decide
  have hlength : (ulid now randomness).length = 26 := by
    rw [← String.length_toList, htext, List.length_append, hstamp, hdigits]
  have hcrockford : (ulid now randomness).toList.all isCrockford = true := by
    rw [List.all_eq_true, htext]
    exact fun c hc => List.all_eq_true.1 hall c (hmem c hc)
  rw [IdKind.admits, hlength, hkind, hcrockford]
  rfl

/-- `nextEntryId`: its schema takes every identifier. -/
def nextEntryId (now : ℕ) (randomness : Vector UInt8 16) : WorkingMemoryEntryId :=
  ⟨ulid now randomness, ulid_admitted now randomness rfl⟩

/-- `nextProposalId` -/
def nextProposalId (now : ℕ) (randomness : Vector UInt8 16) : WorkingMemoryProposalId :=
  ⟨ulid now randomness, ulid_admitted now randomness rfl⟩

/-- An identifier holds its time and its first eighty random bits, and is before those of later times. -/
theorem ulid_exact_and_ordered {now : ℕ} (randomness : Vector UInt8 16) (h : now < 2 ^ 50) :
    UlidExact now randomness (ulid now randomness) ∧ ∀ (now' : ℕ) (randomness' : Vector UInt8 16),
      now < now' → now' < 2 ^ 50 → codeUnits (ulid now randomness) < codeUnits (ulid now' randomness') :=
  ⟨ulid_exact randomness h, fun _ randomness' hlt h' => ulid_lt randomness randomness' hlt h'⟩

theorem ulid_exact_at_a_time :
    UlidExact 1469918176385 (Vector.replicate 16 255) (ulid 1469918176385 (Vector.replicate 16 255)) ∧
      ∀ (now' : ℕ) (randomness' : Vector UInt8 16), 1469918176385 < now' → now' < 2 ^ 50 →
        codeUnits (ulid 1469918176385 (Vector.replicate 16 255)) < codeUnits (ulid now' randomness') :=
  ulid_exact_and_ordered (Vector.replicate 16 255) (by norm_num)

/-- The bytes set the sign of the buffer. -/
example : ulid 1469918176385 (Vector.replicate 16 255) = "01ARYZ6S41ZZZZZZZZZZZZZZZZ" := by decide +kernel

end PlusOne
