import TriggerChain.Text.Numeral

/-!
# Texts as bytes

A text is read from its bytes one byte at a time. The first byte of a character says how
many bytes follow and in which range the second one lies; the others lie between `0x80`
and `0xBF`. If the bytes are no text, the error says where the first broken character
begins and how many of its bytes can stand at the beginning of a character, or that the
bytes end in the middle of it.
-/

namespace TriggerChain.Text

/-- Where bytes cease to be a text. -/
structure Utf8Error where
  /-- Where the broken character begins. -/
  index : Nat
  /-- How many bytes are broken; none if the bytes end too early. -/
  broken : Option Nat
  deriving DecidableEq, Repr, Inhabited

/-- The text of an error. -/
def Utf8Error.message (e : Utf8Error) : String :=
  match e.broken with
  | some n => "invalid utf-8 sequence of " ++ ofNat n ++ " bytes from index " ++ ofNat e.index
  | none => "incomplete utf-8 byte sequence from index " ++ ofNat e.index

/-- A character that has begun. -/
structure OpenChar where
  /-- The bits read so far. -/
  value : Nat
  /-- The number of bytes read. -/
  seen : Nat := 1
  /-- The number of bytes that follow. -/
  owed : Nat
  /-- The least next byte. -/
  low : Nat := 0x80
  /-- The greatest next byte. -/
  high : Nat := 0xBF

/-- What the first byte of a character begins. -/
def begin? (b : Nat) : Option OpenChar :=
  if b < 0x80 then some { value := b, owed := 0 }
  else if b < 0xC2 then none
  else if b < 0xE0 then some { value := b - 0xC0, owed := 1 }
  else if b < 0xF0 then
    some {
      value := b - 0xE0
      owed := 2
      low := if b = 0xE0 then 0xA0 else 0x80
      high := if b = 0xED then 0x9F else 0xBF }
  else if b < 0xF5 then
    some {
      value := b - 0xF0
      owed := 3
      low := if b = 0xF0 then 0x90 else 0x80
      high := if b = 0xF4 then 0x8F else 0xBF }
  else none

/-- A character after one more byte, if the byte fits. -/
def OpenChar.extend? (o : OpenChar) (b : Nat) : Option OpenChar :=
  if o.low ≤ b ∧ b ≤ o.high then
    some { value := o.value * 64 + (b - 0x80), seen := o.seen + 1, owed := o.owed - 1 }
  else none

/-- Reads bytes to their end. `index` is where the next character begins, or where the one
    that has begun does; `read` holds the characters before, latest first. -/
def decodeFrom (index : Nat) (begun : Option OpenChar) (read : List Char) :
    List UInt8 → Except Utf8Error (List Char)
  | [] =>
    match begun with
    | none => .ok read.reverse
    | some _ => .error ⟨index, none⟩
  | b :: rest =>
    let next := match begun with
      | none => begin? b.toNat
      | some o => o.extend? b.toNat
    match next with
    | none => .error ⟨index, some ((begun.map (·.seen)).getD 1)⟩
    | some o =>
      if o.owed = 0 then decodeFrom (index + o.seen) none (Char.ofNat o.value :: read) rest
      else decodeFrom index (some o) read rest

/-- The characters of the text that some bytes hold. -/
def decode (bytes : List UInt8) : Except Utf8Error (List Char) := decodeFrom 0 none [] bytes

end TriggerChain.Text
