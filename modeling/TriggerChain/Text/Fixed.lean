import TriggerChain.Text.Numeral

/-!
# Numbers with a fixed number of places

A number of binary floating point is written with a set number of decimal places: its
exact value is rounded once, and a value halfway between two neighbours goes to the even
one. The sign of a negative zero is kept.
-/

namespace TriggerChain.Text

/-! ## Rounding -/

/-- A quotient rounded to the nearest integer, halves to the even neighbour. -/
def roundDiv (num den : Nat) : Nat :=
  let q := num / den
  match compare (2 * (num % den)) den with
  | .lt => q
  | .gt => q + 1
  | .eq => if q % 2 = 0 then q else q + 1

/-- A rounded quotient is within half a unit of the exact one. -/
theorem roundDiv_near (num : Nat) {den : Nat} (h : 0 < den) :
    2 * (roundDiv num den * den) ≤ 2 * num + den ∧
      2 * num ≤ 2 * (roundDiv num den * den) + den := by
  have hsplit : den * (num / den) + num % den = num := Nat.div_add_mod num den
  have hlt : num % den < den := Nat.mod_lt _ h
  have hsucc : (num / den + 1) * den = den * (num / den) + den := by
    rw [Nat.add_mul, Nat.mul_comm, Nat.one_mul]
  have hcomm : num / den * den = den * (num / den) := Nat.mul_comm ..
  unfold roundDiv
  dsimp only
  split <;> rename_i hc
  · rw [Nat.compare_eq_lt] at hc
    omega
  · rw [Nat.compare_eq_gt] at hc
    omega
  · rw [Nat.compare_eq_eq] at hc
    split <;> omega

/-- A quotient halfway between two integers goes to the even one. -/
theorem roundDiv_half_even {num den : Nat} (h : 2 * (num % den) = den) :
    roundDiv num den % 2 = 0 := by
  unfold roundDiv
  dsimp only
  rw [Nat.compare_eq_eq.2 h]
  dsimp only
  split <;> omega

/-! ## The text -/

/-- The digits of `n` units of the last place, with a point before the last `places`. -/
def pointed (places n : Nat) : String :=
  let digits := natural n
  let padded := List.replicate (places + 1 - digits.length) '0' ++ digits
  let whole := padded.length - places
  String.ofList (padded.take whole ++ '.' :: padded.drop whole)

/-- A number with the given number of places, at least one. -/
def fixed (places : Nat) (x : Float) : String :=
  let bits := x.toBits.toNat
  let negative := bits >>> 63 = 1
  let exponent := (bits >>> 52) % 2048
  let fraction := bits % (1 <<< 52)
  let sign := if negative then "-" else ""
  if exponent = 2047 then
    if fraction = 0 then sign ++ "inf" else "NaN"
  else
    -- The value is `significand` units of two to the power `scale - 1075`; a number without
    -- an exponent lacks the leading bit and has the units of the least exponent.
    let significand := if exponent = 0 then fraction else (1 <<< 52) + fraction
    let scale := max exponent 1
    sign ++ pointed places
      (roundDiv (significand * Nat.pow 10 places <<< (scale - 1075)) (1 <<< (1075 - scale)))

end TriggerChain.Text
