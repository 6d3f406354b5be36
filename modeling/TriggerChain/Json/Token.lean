import TriggerChain.Json.Number

/-!
# JSON tokens

A JSON text is cut into brackets, separators and scalars by a machine that reads one
character at a time. Inside a string, control characters must be escaped, and an escaped
surrogate must be half of a pair.
-/

namespace TriggerChain.Json

/-- A token of a JSON text. -/
inductive Token where
  | openList
  | closeList
  | openObject
  | closeObject
  | comma
  | colon
  | scalar (value : Json)
  deriving Repr, Inhabited

/-- Where the machine stands. Characters read so far are kept latest first. -/
inductive Scan where
  /-- Between tokens. -/
  | between
  /-- In a number or a name. -/
  | word (read : List Char)
  /-- In a string. -/
  | string (read : List Char)
  /-- Behind a backslash. -/
  | escape (read : List Char)
  /-- In the digits of an escaped character: its value and the digits still to come. `high`
      is the first half of a pair, if one was read. -/
  | unicode (read : List Char) (high : Option Nat) (value left : Nat)
  /-- Behind the first half of a pair: a backslash must follow. -/
  | pairEscape (read : List Char) (high : Nat)
  /-- Behind the backslash of the second half of a pair. -/
  | pairLetter (read : List Char) (high : Nat)

/-- The blanks of JSON. -/
def isBlank (c : Char) : Bool := c = ' ' || c = '\n' || c = '\t' || c = '\r'

/-- The token that one character makes by itself. -/
def single? (c : Char) : Option Token :=
  match c with
  | '[' => some .openList
  | ']' => some .closeList
  | '\x7b' => some .openObject
  | '\x7d' => some .closeObject
  | ',' => some .comma
  | ':' => some .colon
  | _ => none

/-- The scalar that a word stands for. -/
def word? (cs : List Char) : Option Json :=
  if cs = "null".toList then some .null
  else if cs = "true".toList then some (.bool true)
  else if cs = "false".toList then some (.bool false)
  else number? cs

/-- The character that a letter behind a backslash stands for. -/
def escaped? (c : Char) : Option Char :=
  match c with
  | '"' => some '"'
  | '\\' => some '\\'
  | '/' => some '/'
  | 'b' => some '\x08'
  | 'f' => some '\x0c'
  | 'n' => some '\n'
  | 'r' => some '\r'
  | 't' => some '\t'
  | _ => none

/-- The value of a hexadecimal digit of either case. -/
def hexDigit? (c : Char) : Option Nat :=
  if '0' ≤ c ∧ c ≤ '9' then some (c.toNat - '0'.toNat)
  else if 'a' ≤ c ∧ c ≤ 'f' then some (c.toNat - 'a'.toNat + 10)
  else if 'A' ≤ c ∧ c ≤ 'F' then some (c.toNat - 'A'.toNat + 10)
  else none

/-- Where the machine goes once an escaped code unit is complete. -/
def unit? (read : List Char) (high : Option Nat) (value : Nat) : Option Scan :=
  match high with
  | none =>
    if 0xD800 ≤ value ∧ value < 0xDC00 then some (.pairEscape read value)
    else if 0xDC00 ≤ value ∧ value < 0xE000 then none
    else some (.string (Char.ofNat value :: read))
  | some first =>
    if 0xDC00 ≤ value ∧ value < 0xE000 then
      some (.string
        (Char.ofNat (0x10000 + (first - 0xD800) * 0x400 + (value - 0xDC00)) :: read))
    else none

/-- What the machine does with a character between tokens. -/
def Scan.begin? (tokens : List Token) (c : Char) : Option (Scan × List Token) :=
  if isBlank c then some (.between, tokens)
  else if c = '"' then some (.string [], tokens)
  else match single? c with
    | some t => some (.between, t :: tokens)
    | none => some (.word [c], tokens)

/-- Whether a character ends a word. -/
def endsWord (c : Char) : Bool := isBlank c || c = '"' || (single? c).isSome

/-- One step of the machine. The tokens found so far are kept latest first. -/
def Scan.next? : Scan × List Token → Char → Option (Scan × List Token)
  | (.between, tokens), c => begin? tokens c
  | (.word read, tokens), c =>
    if endsWord c then
      (word? read.reverse).bind fun v => begin? (.scalar v :: tokens) c
    else some (.word (c :: read), tokens)
  | (.string read, tokens), c =>
    if c = '"' then some (.between, .scalar (.text (String.ofList read.reverse)) :: tokens)
    else if c = '\\' then some (.escape read, tokens)
    else if c.toNat < 0x20 then none
    else some (.string (c :: read), tokens)
  | (.escape read, tokens), c =>
    if c = 'u' then some (.unicode read none 0 4, tokens)
    else (escaped? c).map fun e => (.string (e :: read), tokens)
  | (.unicode read high value left, tokens), c =>
    (hexDigit? c).bind fun d =>
      if left ≤ 1 then (unit? read high (16 * value + d)).map (·, tokens)
      else some (.unicode read high (16 * value + d) (left - 1), tokens)
  | (.pairEscape read high, tokens), c =>
    if c = '\\' then some (.pairLetter read high, tokens) else none
  | (.pairLetter read high, tokens), c =>
    if c = 'u' then some (.unicode read (some high) 0 4, tokens) else none

/-- The tokens of a text, or nothing if it cannot be cut into tokens. -/
def tokens? (cs : List Char) : Option (List Token) :=
  (cs.foldlM Scan.next? (.between, [])).bind fun (scan, tokens) =>
    match scan with
    | .between => some tokens.reverse
    | .word read => (word? read.reverse).map fun v => (.scalar v :: tokens).reverse
    | _ => none

end TriggerChain.Json
