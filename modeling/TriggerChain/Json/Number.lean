import TriggerChain.Json.Value

/-!
# JSON numbers

A number literal is an optional minus, digits without a superfluous leading zero, and
optionally a fraction and an exponent. A literal whose value is beyond the range of binary
floating point with 64 bits is refused.
-/

namespace TriggerChain.Json

/-- The value of a decimal digit. -/
def digit? (c : Char) : Option Nat :=
  if '0' ≤ c ∧ c ≤ '9' then some (c.toNat - '0'.toNat) else none

/-- Splits off the leading decimal digits, as their values. -/
def spanDigits : List Char → List Nat × List Char
  | [] => ([], [])
  | c :: rest =>
    match digit? c with
    | some d => let (ds, rest') := spanDigits rest; (d :: ds, rest')
    | none => ([], c :: rest)

/-- The value of a row of decimal digits. -/
def valueOf (digits : List Nat) : Nat :=
  digits.foldl (fun n d => 10 * n + d) 0

/-- Reads leading digits as long as their value fits an unsigned word of 64 bits. -/
def takeWord (n : Nat) : List Nat → Nat × List Nat
  | [] => (n, [])
  | d :: rest => if 10 * n + d < UInt64.size then takeWord (10 * n + d) rest else (n, d :: rest)

/-- Whether a real is finite once its leading digits, as many as fit a word, are scaled by
    the power of ten that remains. `after` counts the digits of the fraction. -/
def isFinite (digits : List Nat) (after : Nat) (exponent : Int) : Bool :=
  let (significand, dropped) := takeWord 0 digits
  -- Every digit that is dropped is one place more, every digit of the fraction one less.
  let scale := exponent + dropped.length - after
  if significand = 0 ∨ scale < 0 then true
  else if 308 < scale then false
  else !(Float.ofNat significand * Float.ofScientific 1 false scale.toNat).isInf

/-- The parts of a number literal behind its minus. -/
structure NumberParts where
  /-- The digits before the point. -/
  whole : List Nat
  /-- The digits behind the point, if there is one. -/
  fraction : Option (List Nat)
  /-- The exponent, if there is one. -/
  exponent : Option Int

/-- Reads an exponent, behind its letter. -/
def exponent? (cs : List Char) : Option Int :=
  let (negative, cs) := match cs with
    | '+' :: rest => (false, rest)
    | '-' :: rest => (true, rest)
    | _ => (false, cs)
  match spanDigits cs with
  | (d :: ds, []) =>
    let n : Int := valueOf (d :: ds)
    some (if negative then -n else n)
  | _ => none

/-- Reads what follows the digits of a number: nothing, or an exponent. -/
def tail? (whole : List Nat) (fraction : Option (List Nat)) :
    List Char → Option NumberParts
  | [] => some ⟨whole, fraction, none⟩
  | c :: rest =>
    if c = 'e' ∨ c = 'E' then (exponent? rest).map fun e => ⟨whole, fraction, some e⟩
    else none

/-- Takes a literal apart, behind its minus. -/
def numberParts? (cs : List Char) : Option NumberParts :=
  match spanDigits cs with
  | ([], _) => none
  | (0 :: _ :: _, _) => none
  | (whole, '.' :: rest) =>
    match spanDigits rest with
    | ([], _) => none
    | (fraction, rest) => tail? whole (some fraction) rest
  | (whole, rest) => tail? whole none rest

/-- Reads a number literal. A minus before a zero makes a real, as no integer has a
    negative zero. -/
def number? (literal : List Char) : Option Json :=
  let (negative, cs) := match literal with
    | '-' :: rest => (true, rest)
    | _ => (false, literal)
  (numberParts? cs).bind fun parts =>
    let n := valueOf parts.whole
    let isInteger := parts.fraction.isNone && parts.exponent.isNone
    if isInteger && !negative && decide (n < UInt64.size) then some (.integer n)
    else if isInteger && negative && decide (0 < n ∧ n ≤ 0x8000000000000000) then
      some (.integer (-n))
    else
      let fraction := parts.fraction.getD []
      if isFinite (parts.whole ++ fraction) fraction.length (parts.exponent.getD 0)
      then some (.real (String.ofList literal))
      else none

end TriggerChain.Json
