import TriggerChain.Text.Utf8
import Mathlib.Data.Char

/-!
# Texts that are written and read

A character is written as one to four bytes: the first one says how many there are, and each of the
others carries six bits of the code point. A reader that takes them one by one arrives at the code
point again, so every text reads back from its bytes.

Main statement: `decode_toUTF8`.
-/

namespace TriggerChain.Text

variable (index : Nat) (read : List Char) (rest : List UInt8)

/-! ## One byte -/

theorem toNat_ofNat_of_byte {b : Nat} (h : b < 256) : (UInt8.ofNat b).toNat = b := by
  rw [UInt8.toNat_ofNat']
  exact Nat.mod_eq_of_lt h

theorem begin?_of_two {b : Nat} (hlow : 0xC2 ≤ b) (hhigh : b < 0xE0) :
    begin? b = some { value := b - 0xC0, owed := 1 } := by
  unfold begin?
  rw [if_neg (by omega), if_neg (by omega), if_pos hhigh]

theorem begin?_of_three {b : Nat} (hlow : 0xE0 ≤ b) (hhigh : b < 0xF0) :
    begin? b = some {
      value := b - 0xE0
      owed := 2
      low := if b = 0xE0 then 0xA0 else 0x80
      high := if b = 0xED then 0x9F else 0xBF } := by
  unfold begin?
  rw [if_neg (by omega), if_neg (by omega), if_neg (by omega), if_pos hhigh]

theorem begin?_of_four {b : Nat} (hlow : 0xF0 ≤ b) (hhigh : b < 0xF5) :
    begin? b = some {
      value := b - 0xF0
      owed := 3
      low := if b = 0xF0 then 0x90 else 0x80
      high := if b = 0xF4 then 0x8F else 0xBF } := by
  unfold begin?
  rw [if_neg (by omega), if_neg (by omega), if_neg (by omega), if_neg (by omega), if_pos hhigh]

/-- The first byte of a character that has more than one. -/
theorem decodeFrom_begin {b value owed low high : Nat} (hb : b < 256)
    (h : begin? b = some { value, owed := owed + 1, low, high }) :
    decodeFrom index none read (UInt8.ofNat b :: rest) =
      decodeFrom index (some { value, owed := owed + 1, low, high }) read rest := by
  rw [decodeFrom]
  simp only [toNat_ofNat_of_byte hb, h]
  rfl

/-- A byte that carries six bits more, and is not the last one of its character. -/
theorem decodeFrom_inner {value seen owed low high b : Nat} (hb : b < 64)
    (hlow : low ≤ b + 128) (hhigh : b + 128 ≤ high) :
    decodeFrom index (some { value, seen, owed := owed + 2, low, high }) read
        (UInt8.ofNat (b + 128) :: rest) =
      decodeFrom index (some { value := value * 64 + b, seen := seen + 1, owed := owed + 1 })
        read rest := by
  rw [decodeFrom]
  simp only [toNat_ofNat_of_byte (show b + 128 < 256 by omega), OpenChar.extend?,
    if_pos (And.intro hlow hhigh), Nat.add_sub_cancel]
  rfl

/-- The byte that carries the last six bits. -/
theorem decodeFrom_last {value seen b : Nat} (hb : b < 64) :
    decodeFrom index (some { value, seen, owed := 1 }) read (UInt8.ofNat (b + 128) :: rest) =
      decodeFrom (index + (seen + 1)) none (Char.ofNat (value * 64 + b) :: read) rest := by
  have hrange : 128 ≤ b + 128 ∧ b + 128 ≤ 191 := by omega
  rw [decodeFrom]
  simp only [toNat_ofNat_of_byte (show b + 128 < 256 by omega), OpenChar.extend?, if_pos hrange,
    Nat.add_sub_cancel]
  rfl

/-! ## One character -/

theorem decodeFrom_one {v : Nat} (h : v < 0x80) :
    decodeFrom index none read (UInt8.ofNat v :: rest) =
      decodeFrom (index + 1) none (Char.ofNat v :: read) rest := by
  have hbegin : begin? v = some { value := v, owed := 0 } := if_pos h
  rw [decodeFrom]
  simp only [toNat_ofNat_of_byte (show v < 256 by omega), hbegin]
  rfl

theorem decodeFrom_two {v : Nat} (hlow : 0x80 ≤ v) (hhigh : v < 0x800) :
    decodeFrom index none read
        (UInt8.ofNat (v / 64 % 32 + 192) :: UInt8.ofNat (v % 64 + 128) :: rest) =
      decodeFrom (index + 2) none (Char.ofNat v :: read) rest := by
  have hvalue : (v / 64 % 32 + 192 - 192) * 64 + v % 64 = v := by omega
  rw [decodeFrom_begin index read _ (by omega) (begin?_of_two (by omega) (by omega)),
    decodeFrom_last index read rest (by omega), hvalue]

theorem decodeFrom_three {v : Nat} (hlow : 0x800 ≤ v) (hhigh : v < 0x10000)
    (hvalid : v < 0xD800 ∨ 0xDFFF < v) :
    decodeFrom index none read
        (UInt8.ofNat (v / 4096 % 16 + 224) :: UInt8.ofNat (v / 64 % 64 + 128)
          :: UInt8.ofNat (v % 64 + 128) :: rest) =
      decodeFrom (index + 3) none (Char.ofNat v :: read) rest := by
  have hvalue : ((v / 4096 % 16 + 224 - 224) * 64 + v / 64 % 64) * 64 + v % 64 = v := by omega
  rw [decodeFrom_begin index read _ (by omega) (begin?_of_three (by omega) (by omega)),
    decodeFrom_inner index read _ (by omega) ?above ?below,
    decodeFrom_last index read rest (by omega), hvalue]
  case above =>
    -- The code point is not one of those that fewer bytes hold.
    split <;> omega
  case below =>
    -- It is no surrogate.
    split <;> omega

theorem decodeFrom_four {v : Nat} (hlow : 0x10000 ≤ v) (hhigh : v < 0x110000) :
    decodeFrom index none read
        (UInt8.ofNat (v / 262144 % 8 + 240) :: UInt8.ofNat (v / 4096 % 64 + 128)
          :: UInt8.ofNat (v / 64 % 64 + 128) :: UInt8.ofNat (v % 64 + 128) :: rest) =
      decodeFrom (index + 4) none (Char.ofNat v :: read) rest := by
  have hvalue : (((v / 262144 % 8 + 240 - 240) * 64 + v / 4096 % 64) * 64 + v / 64 % 64) * 64
      + v % 64 = v := by omega
  rw [decodeFrom_begin index read _ (by omega) (begin?_of_four (by omega) (by omega)),
    decodeFrom_inner index read _ (by omega) ?above ?below,
    decodeFrom_inner index read _ (by omega) (by omega) (by omega),
    decodeFrom_last index read rest (by omega), hvalue]
  case above =>
    split <;> omega
  case below =>
    -- The code point is below the limit.
    split <;> omega

/-- A character reads back from its bytes. -/
theorem decodeFrom_utf8EncodeChar (c : Char) :
    decodeFrom index none read (String.utf8EncodeChar c ++ rest) =
      decodeFrom (index + (String.utf8EncodeChar c).length) none (c :: read) rest := by
  have hvalid : c.toNat < 0xD800 ∨ 0xDFFF < c.toNat ∧ c.toNat < 0x110000 := c.valid
  have hc : Char.ofNat c.val.toNat = c := Char.ofNat_toNat c
  change c.val.toNat < _ ∨ _ < c.val.toNat ∧ c.val.toNat < _ at hvalid
  unfold String.utf8EncodeChar
  dsimp only
  generalize hv : c.val.toNat = v at *
  rw [← hc]
  split
  · exact decodeFrom_one index read rest (by omega)
  · split
    · exact decodeFrom_two index read rest (by omega) (by omega)
    · split
      · exact decodeFrom_three index read rest (by omega) (by omega) (by omega)
      · exact decodeFrom_four index read rest (by omega) (by omega)

/-! ## Texts -/

theorem decodeFrom_flatMap_utf8EncodeChar (cs : List Char) :
    decodeFrom index none read (cs.flatMap String.utf8EncodeChar) = .ok (read.reverse ++ cs) := by
  induction cs generalizing index read with
  | nil => rw [List.flatMap_nil, List.append_nil, decodeFrom]
  | cons c cs ih =>
    rw [List.flatMap_cons, decodeFrom_utf8EncodeChar, ih, List.reverse_cons, List.append_assoc,
      List.singleton_append]

theorem toList_loop_eq (bytes : ByteArray) (i : Nat) (before : List UInt8) :
    ByteArray.toList.loop bytes i before = before.reverse ++ bytes.data.toList.drop i := by
  fun_induction ByteArray.toList.loop bytes i before with
  | case1 i before h ih =>
    have hi : i < bytes.data.toList.length := h
    have hget : bytes.get! i = bytes.data.toList[i] := getElem!_pos bytes.data i h
    rw [ih, hget, List.reverse_cons, List.append_assoc, List.singleton_append,
      List.drop_eq_getElem_cons hi]
  | case2 i before h =>
    have hi : bytes.data.toList.length ≤ i := Nat.le_of_not_lt h
    rw [List.drop_eq_nil_of_le hi, List.append_nil]

/-- The bytes of a text are those of its characters, one after the other. -/
theorem toList_toUTF8 (s : String) : s.toUTF8.toList = s.toList.flatMap String.utf8EncodeChar := by
  have hbytes : s.toUTF8.data.toList = s.toList.flatMap String.utf8EncodeChar := by
    rw [String.toUTF8_eq_toByteArray, ← String.utf8Encode_toList]
    exact List.toList_data_toByteArray
  rw [ByteArray.toList, toList_loop_eq, hbytes]
  rfl

/-- Every text reads back from its bytes. -/
theorem decode_toUTF8 (s : String) : decode s.toUTF8.toList = .ok s.toList := by
  rw [decode, toList_toUTF8, decodeFrom_flatMap_utf8EncodeChar]
  rfl

end TriggerChain.Text
